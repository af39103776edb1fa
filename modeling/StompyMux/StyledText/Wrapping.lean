import Mathlib.Data.List.DropRight
import Mathlib.Data.List.SplitBy
import StompyMux.StyledText.Messages

-- Wrapping as the filling of a page: what it writes, where it breaks lines, and which lines
-- come out too wide.

namespace StompyMux.StyledText.Markdown

open Library.Text

section Places

variable (breaks omitted : List Nat)

def wrapText (offset : Nat) (text : List Char) : List Char :=
  (charIndices offset text).flatMap (wrapChar breaks omitted)

theorem charIndices_append (offset : Nat) (text rest : List Char) :
    charIndices offset (text ++ rest) =
      charIndices offset text ++ charIndices (offset + utf8Len text) rest := by
  induction text generalizing offset with
  | nil => simp [charIndices]
  | cons c text ih => simp [charIndices, ih, Nat.add_assoc]

theorem charIndices_bounds (offset : Nat) (text : List Char) (entry : Nat × Char)
    (he : entry ∈ charIndices offset text) :
    offset ≤ entry.1 ∧ entry.1 < offset + utf8Len text := by
  induction text generalizing offset with
  | nil => simp [charIndices] at he
  | cons c text ih =>
      have hsize := c.utf8Size_pos
      rw [utf8Len_cons]
      rcases List.mem_cons.mp he with rfl | he
      · exact ⟨Nat.le_refl _, by omega⟩
      · have hb := ih _ he
        omega

theorem wrapText_append (offset : Nat) (text rest : List Char) :
    wrapText breaks omitted offset (text ++ rest) =
      wrapText breaks omitted offset text ++
        wrapText breaks omitted (offset + utf8Len text) rest := by
  simp [wrapText, charIndices_append]

theorem visibleText_wrapSpans (offset : Nat) (spans : List Span) :
    visibleText (wrapSpans breaks omitted offset spans) =
      wrapText breaks omitted offset (visibleText spans) := by
  induction spans generalizing offset with
  | nil => rfl
  | cons span spans ih =>
      have hrest := ih (offset + utf8Len span.text)
      simp only [visibleText, wrapSpans, List.flatMap_cons, wrapText_append] at hrest ⊢
      rw [hrest]
      rfl

variable {breaks omitted}

theorem wrapText_congr {breaks' omitted' : List Nat} (offset : Nat) (text : List Char)
    (hb : ∀ i < offset + utf8Len text, i ∈ breaks' ↔ i ∈ breaks)
    (ho : ∀ i < offset + utf8Len text, i ∈ omitted' ↔ i ∈ omitted) :
    wrapText breaks' omitted' offset text = wrapText breaks omitted offset text := by
  refine List.flatMap_congr fun entry he => ?_
  have hlt := (charIndices_bounds offset text entry he).2
  simp [wrapChar, hb _ hlt, ho _ hlt]

theorem wrapText_past (offset : Nat) (text : List Char) (hb : ∀ i ∈ breaks, i < offset)
    (ho : ∀ i ∈ omitted, i < offset) : wrapText breaks omitted offset text = text := by
  induction text generalizing offset with
  | nil => rfl
  | cons c text ih =>
      have hbreak : offset ∉ breaks := fun hmem => Nat.lt_irrefl _ (hb _ hmem)
      have homit : offset ∉ omitted := fun hmem => Nat.lt_irrefl _ (ho _ hmem)
      have htail := ih (offset + c.utf8Size) (fun i hi => Nat.lt_add_right _ (hb i hi))
        (fun i hi => Nat.lt_add_right _ (ho i hi))
      simp only [wrapText] at htail
      simp [wrapText, charIndices, wrapChar, hbreak, homit, htail]

theorem wrapText_omitted (offset : Nat) (text : List Char) (hb : ∀ i ∈ breaks, i < offset)
    (ho : ∀ entry ∈ charIndices offset text, entry.1 ∈ omitted) :
    wrapText breaks omitted offset text = [] := by
  refine List.flatMap_eq_nil_iff.mpr fun entry he => ?_
  have hlow := (charIndices_bounds offset text entry he).1
  have hbreak : entry.1 ∉ breaks := fun hmem => by
    have hlt := hb _ hmem
    omega
  simp [wrapChar, hbreak, ho _ he]

end Places

-- `text` is what the positions write of `placed`; the white space after it is still pending.
structure Placed (breaks omitted pending : List Nat) (text gap placed : List Char) : Prop where
  held : pending = (charIndices (utf8Len placed) gap).map Prod.fst
  breaks_lt : ∀ i ∈ breaks, i < utf8Len placed
  omitted_lt : ∀ i ∈ omitted, i < utf8Len placed
  written : wrapText breaks omitted 0 placed = text
  omitted_blank : ∀ entry ∈ charIndices 0 placed, entry.1 ∈ omitted → isWhitespace entry.2 = true
  gap_blank : ∀ c ∈ gap, isWhitespace c = true

namespace Placed

variable {breaks omitted pending : List Nat} {text gap placed : List Char}

theorem more (h : Placed breaks omitted pending text gap placed) (word : List Char)
    (hw : ∀ c ∈ word, isWhitespace c = true) :
    Placed breaks omitted
      (pending ++ (charIndices (utf8Len (placed ++ gap)) word).map Prod.fst)
      text (gap ++ word) placed := by
  refine { h with held := ?_, gap_blank := ?_ }
  · rw [h.held, charIndices_append, List.map_append, utf8Len_append]
  · intro c hc
    exact (List.mem_append.mp hc).elim (h.gap_blank c) (hw c)

theorem drop (h : Placed breaks omitted pending text gap placed) :
    Placed breaks (omitted ++ pending) [] text [] (placed ++ gap) := by
  have hpending : ∀ i, i ∈ pending ↔ ∃ c, (i, c) ∈ charIndices (utf8Len placed) gap := by
    simp [h.held]
  have hlow : ∀ i ∈ pending, utf8Len placed ≤ i := fun i hi => by
    obtain ⟨c, hc⟩ := (hpending i).mp hi
    exact (charIndices_bounds _ _ _ hc).1
  refine ⟨rfl, ?_, ?_, ?_, ?_, by simp⟩
  · intro i hi
    rw [utf8Len_append]
    exact Nat.lt_add_right _ (h.breaks_lt i hi)
  · intro i hi
    rw [utf8Len_append]
    rcases List.mem_append.mp hi with hi | hi
    · exact Nat.lt_add_right _ (h.omitted_lt i hi)
    · obtain ⟨c, hc⟩ := (hpending i).mp hi
      exact (charIndices_bounds _ _ _ hc).2
  · have hsame : wrapText breaks (omitted ++ pending) 0 placed = text := by
      rw [← h.written]
      refine wrapText_congr 0 placed (fun i _ => Iff.rfl) fun i hi => ?_
      rw [List.mem_append]
      refine or_iff_left fun hmem => ?_
      have hi' := hlow i hmem
      omega
    rw [wrapText_append, hsame, Nat.zero_add, wrapText_omitted _ _ h.breaks_lt ?_, List.append_nil]
    intro entry he
    exact List.mem_append_right _ ((hpending _).mpr ⟨entry.2, he⟩)
  · intro entry he homit
    rw [charIndices_append, Nat.zero_add] at he
    rcases List.mem_append.mp he with he | he
    · refine h.omitted_blank entry he ((List.mem_append.mp homit).resolve_right fun hmem => ?_)
      have hlt := (charIndices_bounds _ _ _ he).2
      have hge := hlow _ hmem
      omega
    · exact h.gap_blank entry.2 (mem_charIndices _ entry.1 _ _ he)

theorem put (h : Placed breaks omitted pending text gap placed) (piece : List Char) :
    Placed breaks omitted [] (text ++ piece) [] (placed ++ piece) := by
  have hlt : ∀ i, i < utf8Len placed → i < utf8Len (placed ++ piece) := fun i hi => by
    rw [utf8Len_append]
    exact Nat.lt_add_right _ hi
  refine ⟨rfl, fun i hi => hlt i (h.breaks_lt i hi), fun i hi => hlt i (h.omitted_lt i hi), ?_, ?_,
    by simp⟩
  · rw [wrapText_append, h.written, Nat.zero_add, wrapText_past _ _ h.breaks_lt h.omitted_lt]
  · intro entry he homit
    rw [charIndices_append, Nat.zero_add] at he
    rcases List.mem_append.mp he with he | he
    · exact h.omitted_blank entry he homit
    · have hge := (charIndices_bounds _ _ _ he).1
      have hlow := h.omitted_lt _ homit
      omega

theorem split (h : Placed breaks omitted pending text gap placed) (piece : List Char)
    (hp : piece ≠ []) :
    Placed (utf8Len placed :: breaks) omitted [] (text ++ ['\n'] ++ piece) []
      (placed ++ piece) := by
  obtain ⟨c, rest, rfl⟩ := List.exists_cons_of_ne_nil hp
  have hsize := c.utf8Size_pos
  have hput := h.put (c :: rest)
  refine ⟨rfl, ?_, hput.omitted_lt, ?_, hput.omitted_blank, by simp⟩
  · intro i hi
    rw [utf8Len_append, utf8Len_cons]
    rcases List.mem_cons.mp hi with rfl | hi
    · omega
    · have hlow := h.breaks_lt i hi
      omega
  · have hsame : wrapText (utf8Len placed :: breaks) omitted 0 placed = text := by
      rw [← h.written]
      refine wrapText_congr 0 placed (fun i hi => ?_) (fun i _ => Iff.rfl)
      rw [List.mem_cons]
      exact or_iff_right (by omega)
    have homit : utf8Len placed ∉ omitted := fun hmem => Nat.lt_irrefl _ (h.omitted_lt _ hmem)
    have hrest : wrapText (utf8Len placed :: breaks) omitted (utf8Len placed + c.utf8Size) rest =
        rest := by
      refine wrapText_past _ rest (fun i hi => ?_)
        (fun i hi => Nat.lt_add_right _ (h.omitted_lt i hi))
      rcases List.mem_cons.mp hi with rfl | hi
      · omega
      · exact Nat.lt_add_right _ (h.breaks_lt i hi)
    simp only [wrapText] at hrest
    rw [wrapText_append, hsame, Nat.zero_add]
    simp [wrapText, charIndices, wrapChar, homit, hrest]

end Placed

-- A word of white space waits for the word that follows it; a word with a line feed ends a line.
def isBlank (word : List Char) : Bool := word.all isWhitespace && !word.contains '\n'

def Written (word : List Char) : Prop := isBlank word = false ∧ '\n' ∉ word

instance (word : List Char) : Decidable (Written word) := by
  unfold Written
  infer_instance

-- The lines above the one being filled, that line, and the white space after it.
structure Page where
  above : List Char
  line : List (List Char)
  gap : List (List Char)

section Filling

variable (u : Unicode) (width : Nat)

def columns (pieces : List (List Char)) : Nat := (pieces.map u.width).sum

namespace Page

def empty : Page := ⟨[], [], []⟩

def text (page : Page) : List Char := page.above ++ page.line.flatten

def grapheme (page : Page) (g : List Char) : Page :=
  if columns u page.line + u.width g > width ∧ columns u page.line > 0 then
    ⟨page.above ++ page.line.flatten ++ ['\n'], [g], page.gap⟩
  else ⟨page.above, page.line ++ [g], page.gap⟩

def settle (page : Page) (word : List Char) : Page :=
  if columns u page.line > 0 ∧ columns u page.line + columns u page.gap + u.width word > width then
    ⟨page.above ++ page.line.flatten ++ ['\n'], [], []⟩
  else ⟨page.above, page.line ++ page.gap, []⟩

def word (page : Page) (word : List Char) : Page :=
  if isBlank word then ⟨page.above, page.line, page.gap ++ [word]⟩
  else if '\n' ∈ word then ⟨page.above ++ page.line.flatten ++ word, [], []⟩
  else (u.graphemes word).foldl (grapheme u width) (page.settle u width word)

def read (words : List (List Char)) : Page := words.foldl (word u width) empty

end Page

def WrapState.initial : WrapState := ⟨[], [], [], 0, 0⟩

def WrapState.read (words : List (List Char)) : WrapState :=
  (pieceIndices 0 words).foldl (word u width) initial

-- The positions of the loop write the page.
structure Shows (st : WrapState) (page : Page) (text : List Char) : Prop where
  placed : ∃ placed, text = placed ++ page.gap.flatten ∧
    Placed st.breaks st.omitted st.pending page.text page.gap.flatten placed
  col : st.col = columns u page.line
  pendingWidth : st.pendingWidth = columns u page.gap

@[simp] theorem columns_nil : columns u [] = 0 := rfl

@[simp] theorem columns_append (pieces more : List (List Char)) :
    columns u (pieces ++ more) = columns u pieces + columns u more := by
  simp [columns]

@[simp] theorem columns_singleton (piece : List Char) : columns u [piece] = u.width piece := by
  simp [columns]

theorem pieceIndices_append (offset : Nat) (pieces more : List (List Char)) :
    pieceIndices offset (pieces ++ more) =
      pieceIndices offset pieces ++ pieceIndices (offset + utf8Len pieces.flatten) more := by
  induction pieces generalizing offset with
  | nil => simp [pieceIndices]
  | cons piece pieces ih => simp [pieceIndices, ih, Nat.add_assoc]

variable {u} {st : WrapState} {page : Page} {text : List Char}

theorem Shows.grapheme (h : Shows u st page text) (hgap : page.gap = []) (g : List Char)
    (hg : g ≠ []) :
    Shows u (st.grapheme u width (utf8Len text, g)) (page.grapheme u width g) (text ++ g) ∧
      (page.grapheme u width g).gap = [] := by
  obtain ⟨placed, htext, hplaced⟩ := h.placed
  have hwaiting : st.pendingWidth = 0 := by rw [h.pendingWidth, hgap, columns_nil]
  rw [hgap, List.flatten_nil, List.append_nil] at htext
  subst htext
  have hnone : st.pending = [] := by
    rw [hplaced.held, hgap]
    rfl
  by_cases hfull : columns u page.line + u.width g > width ∧ columns u page.line > 0
  · have hst : st.grapheme u width (utf8Len text, g) =
        { st with breaks := utf8Len text :: st.breaks, col := u.width g } := by
      simp only [WrapState.grapheme, h.col]
      exact if_pos hfull
    have hpage : page.grapheme u width g =
        ⟨page.above ++ page.line.flatten ++ ['\n'], [g], page.gap⟩ := if_pos hfull
    rw [hst, hpage]
    refine ⟨⟨⟨text ++ g, by simp [hgap], ?_⟩, by simp, by simpa [hgap] using hwaiting⟩, hgap⟩
    have hsplit := hplaced.split g hg
    simpa [hgap, hnone, Page.text] using hsplit
  · have hst : st.grapheme u width (utf8Len text, g) =
        { st with col := columns u page.line + u.width g } := by
      simp only [WrapState.grapheme, h.col]
      exact if_neg hfull
    have hpage : page.grapheme u width g = ⟨page.above, page.line ++ [g], page.gap⟩ :=
      if_neg hfull
    rw [hst, hpage]
    refine ⟨⟨⟨text ++ g, by simp [hgap], ?_⟩, by simp, by simpa [hgap] using hwaiting⟩, hgap⟩
    have hput := hplaced.put g
    simpa [hgap, hnone, Page.text] using hput

theorem Shows.graphemes (gs : List (List Char)) (hgs : ∀ g ∈ gs, g ≠ []) :
    ∀ {st page text}, Shows u st page text → page.gap = [] →
      Shows u ((pieceIndices (utf8Len text) gs).foldl (WrapState.grapheme u width) st)
        (gs.foldl (Page.grapheme u width) page) (text ++ gs.flatten) ∧
        (gs.foldl (Page.grapheme u width) page).gap = [] := by
  induction gs with
  | nil =>
      intro st page text h hgap
      simpa [pieceIndices] using And.intro h hgap
  | cons g gs ih =>
      intro st page text h hgap
      obtain ⟨hg, hrest⟩ := List.forall_mem_cons.mp hgs
      obtain ⟨hfirst, hgap'⟩ := h.grapheme width hgap g hg
      have hlater := ih hrest hfirst hgap'
      rw [utf8Len_append, List.append_assoc] at hlater
      exact hlater

theorem isBlank_iff (word : List Char) :
    isBlank word = true ↔ word.all isWhitespace = true ∧ ¬ word.contains '\n' = true := by
  simp [isBlank]

theorem Shows.blank (h : Shows u st page text) (word : List Char) (hb : isBlank word = true) :
    Shows u (st.word u width (utf8Len text, word)) (page.word u width word) (text ++ word) := by
  have hspaces : ∀ c ∈ word, isWhitespace c = true :=
    List.all_eq_true.mp ((isBlank_iff word).mp hb).1
  have hst : st.word u width (utf8Len text, word) = { st with
      pending := st.pending ++ (charIndices (utf8Len text) word).map Prod.fst
      pendingWidth := st.pendingWidth + u.width word } := by
    simp only [WrapState.word]
    exact if_pos ((isBlank_iff word).mp hb)
  have hpage : page.word u width word = ⟨page.above, page.line, page.gap ++ [word]⟩ := if_pos hb
  obtain ⟨placed, htext, hplaced⟩ := h.placed
  rw [hst, hpage]
  refine ⟨⟨placed, by simp [htext], ?_⟩, h.col, by simp [h.pendingWidth]⟩
  have hmore := hplaced.more word hspaces
  rw [← htext] at hmore
  simpa [Page.text] using hmore

theorem Shows.newline (h : Shows u st page text) (word : List Char) (hb : isBlank word = false)
    (hn : '\n' ∈ word) :
    Shows u (st.word u width (utf8Len text, word)) (page.word u width word) (text ++ word) := by
  have hst : st.word u width (utf8Len text, word) = { st with
      omitted := st.omitted ++ st.pending, pending := [], pendingWidth := 0, col := 0 } := by
    have hblank : ¬(word.all isWhitespace = true ∧ ¬ word.contains '\n' = true) := by
      rw [← isBlank_iff, hb]
      exact Bool.false_ne_true
    simp only [WrapState.word]
    rw [if_neg hblank, if_pos (List.contains_iff_mem.mpr hn)]
  have hpage : page.word u width word = ⟨page.above ++ page.line.flatten ++ word, [], []⟩ := by
    unfold Page.word
    rw [hb, if_neg Bool.false_ne_true, if_pos hn]
  obtain ⟨placed, htext, hplaced⟩ := h.placed
  rw [hst, hpage]
  refine ⟨⟨text ++ word, by simp, ?_⟩, rfl, rfl⟩
  have hput := hplaced.drop.put word
  rw [← htext] at hput
  simpa [Page.text] using hput

-- A word that is written settles the white space before it, then goes grapheme by grapheme.
theorem Shows.written (h : Shows u st page text) (word : List Char) (hw : Written word) :
    Shows u (st.word u width (utf8Len text, word)) (page.word u width word) (text ++ word) := by
  obtain ⟨hb, hn⟩ := hw
  have hgs := u.graphemes_ne_nil word
  have hflat := u.graphemes_flatten word
  have hblank : ¬(word.all isWhitespace = true ∧ ¬ word.contains '\n' = true) := by
    rw [← isBlank_iff, hb]
    exact Bool.false_ne_true
  have hfeed : ¬ word.contains '\n' = true := fun hmem => hn (List.contains_iff_mem.mp hmem)
  obtain ⟨placed, htext, hplaced⟩ := h.placed
  have hpage : page.word u width word =
      (u.graphemes word).foldl (Page.grapheme u width) (page.settle u width word) := by
    unfold Page.word
    rw [hb, if_neg Bool.false_ne_true, if_neg hn]
  by_cases hfull : columns u page.line > 0 ∧
      columns u page.line + columns u page.gap + u.width word > width
  · -- the break is written with the first grapheme
    obtain ⟨g, gs, hcons⟩ : ∃ g gs, u.graphemes word = g :: gs := by
      refine List.exists_cons_of_ne_nil fun hnil => ?_
      rw [hnil, List.flatten_nil] at hflat
      rw [← hflat] at hb
      contradiction
    obtain ⟨hg, hgs⟩ := List.forall_mem_cons.mp (hcons ▸ hgs)
    have hst : st.word u width (utf8Len text, word) =
        (pieceIndices (utf8Len text + utf8Len g) gs).foldl (WrapState.grapheme u width)
          ⟨utf8Len text :: st.breaks, st.omitted ++ st.pending, [], 0, u.width g⟩ := by
      simp only [WrapState.word, h.col, h.pendingWidth]
      rw [if_neg hblank, if_neg hfeed, if_pos hfull, hcons]
      simp [pieceIndices, WrapState.grapheme]
    have hfirst : Shows u
        ⟨utf8Len text :: st.breaks, st.omitted ++ st.pending, [], 0, u.width g⟩
        ⟨page.above ++ page.line.flatten ++ ['\n'], [g], []⟩ (text ++ g) := by
      refine ⟨⟨text ++ g, by simp, ?_⟩, by simp, rfl⟩
      have hsplit := hplaced.drop.split g hg
      rw [← htext] at hsplit
      simpa [Page.text] using hsplit
    have hrest := (Shows.graphemes width gs hgs hfirst rfl).1
    have htotal : text ++ g ++ gs.flatten = text ++ word := by
      rw [List.append_assoc, ← List.flatten_cons, ← hcons, hflat]
    rw [utf8Len_append, htotal] at hrest
    have hsettle : page.settle u width word =
        ⟨page.above ++ page.line.flatten ++ ['\n'], [], []⟩ := if_pos hfull
    rw [hst, hpage, hsettle, hcons, List.foldl_cons]
    simpa [Page.grapheme] using hrest
  · have hst : st.word u width (utf8Len text, word) =
        (pieceIndices (utf8Len text) (u.graphemes word)).foldl (WrapState.grapheme u width)
          ⟨st.breaks, st.omitted, [], 0, columns u page.line + columns u page.gap⟩ := by
      simp only [WrapState.word, h.col, h.pendingWidth]
      rw [if_neg hblank, if_neg hfeed, if_neg hfull]
    have hkept : Shows u
        ⟨st.breaks, st.omitted, [], 0, columns u page.line + columns u page.gap⟩
        ⟨page.above, page.line ++ page.gap, []⟩ text := by
      refine ⟨⟨text, by simp, ?_⟩, by simp, rfl⟩
      have hput := hplaced.put page.gap.flatten
      rw [← htext] at hput
      simpa [Page.text] using hput
    have hsettle : page.settle u width word = ⟨page.above, page.line ++ page.gap, []⟩ :=
      if_neg hfull
    have hrest := (Shows.graphemes width _ hgs hkept rfl).1
    rw [hflat] at hrest
    rw [hst, hpage, hsettle]
    exact hrest

theorem Shows.word (h : Shows u st page text) (word : List Char) :
    Shows u (st.word u width (utf8Len text, word)) (page.word u width word) (text ++ word) := by
  by_cases hb : isBlank word = true
  · exact h.blank width word hb
  · rw [Bool.not_eq_true] at hb
    by_cases hn : '\n' ∈ word
    · exact h.newline width word hb hn
    · exact h.written width word ⟨hb, hn⟩

theorem read_shows (u : Unicode) (width : Nat) (words : List (List Char)) :
    Shows u (WrapState.read u width words) (Page.read u width words) words.flatten := by
  induction words using List.reverseRecOn with
  | nil =>
      refine ⟨⟨[], rfl, ⟨rfl, by simp [WrapState.read, pieceIndices, WrapState.initial], ?_, rfl,
        by simp [charIndices], by simp [Page.read, Page.empty]⟩⟩, rfl, rfl⟩
      simp [WrapState.read, pieceIndices, WrapState.initial]
  | append_singleton words word ih =>
      have hword := ih.word width word
      have hst : WrapState.read u width (words ++ [word]) =
          (WrapState.read u width words).word u width (utf8Len words.flatten, word) := by
        simp [WrapState.read, pieceIndices_append, pieceIndices]
      rw [hst, Page.read, List.foldl_concat, List.flatten_append, List.flatten_singleton]
      exact hword

end Filling

-- The lines of a text, without the "\n" or "\r\n" that ends them.
def stripReturn (line : List Char) : List Char :=
  if line.getLast? = some '\r' then line.dropLast else line

def stripLineEnd (piece : List Char) : List Char :=
  if piece.getLast? = some '\n' then stripReturn piece.dropLast else piece

def lines (text : List Char) : List (List Char) := (splitInclusive text).map stripLineEnd

def Ended (text : List Char) : Prop := text = [] ∨ ∃ start, text = start ++ ['\n']

theorem splitInclusive_ne_nil (text : List Char) (h : text ≠ []) : splitInclusive text ≠ [] := by
  cases text with
  | nil => exact absurd rfl h
  | cons c text =>
      simp only [splitInclusive]
      split
      · simp
      · split <;> simp

theorem splitInclusive_feed (start rest : List Char) :
    splitInclusive (start ++ '\n' :: rest) =
      splitInclusive (start ++ ['\n']) ++ splitInclusive rest := by
  induction start with
  | nil => simp [splitInclusive]
  | cons c start ih =>
      by_cases hc : c = '\n'
      · simp [splitInclusive, hc, ih]
      · simp only [List.cons_append, splitInclusive, if_neg hc, ih]
        cases hsplit : splitInclusive (start ++ ['\n']) with
        | nil => exact absurd hsplit (splitInclusive_ne_nil _ (by simp))
        | cons piece pieces => rfl

theorem splitInclusive_line {line : List Char} (hn : '\n' ∉ line) :
    splitInclusive line = if line = [] then [] else [line] := by
  induction line with
  | nil => rfl
  | cons c line ih =>
      have hc : c ≠ '\n' := fun heq => hn (heq ▸ List.mem_cons_self)
      have hline : '\n' ∉ line := fun hmem => hn (List.mem_cons_of_mem c hmem)
      simp only [splitInclusive, if_neg hc, ih hline]
      cases line <;> simp

theorem lines_append (text rest : List Char) (he : Ended text) :
    lines (text ++ rest) = lines text ++ lines rest := by
  rcases he with rfl | ⟨start, rfl⟩
  · rfl
  · rw [List.append_assoc, List.singleton_append, lines, splitInclusive_feed, List.map_append]
    rfl

theorem splitInclusive_closed {line : List Char} (hn : '\n' ∉ line) :
    splitInclusive (line ++ ['\n']) = [line ++ ['\n']] := by
  induction line with
  | nil => rfl
  | cons c line ih =>
      have hc : c ≠ '\n' := fun heq => hn (heq ▸ List.mem_cons_self)
      have hline : '\n' ∉ line := fun hmem => hn (List.mem_cons_of_mem c hmem)
      simp only [List.cons_append, splitInclusive, if_neg hc, ih hline]

theorem lines_closed {line : List Char} (hn : '\n' ∉ line) :
    lines (line ++ ['\n']) = [stripReturn line] := by
  simp [lines, splitInclusive_closed hn, stripLineEnd]

theorem eq_of_mem_lines {line other : List Char} (hn : '\n' ∉ line) (ho : other ∈ lines line) :
    other = line := by
  have hend : line.getLast? ≠ some '\n' := fun hlast => hn (List.mem_of_getLast? hlast)
  rw [lines, splitInclusive_line hn] at ho
  split at ho
  · simp at ho
  · simpa [stripLineEnd, hend] using ho

theorem stripReturn_append (start rest : List Char) (hr : rest ≠ []) :
    stripReturn (start ++ rest) = start ++ stripReturn rest := by
  have hlast : (start ++ rest).getLast? = rest.getLast? := by
    rw [List.getLast?_append]
    cases h : rest.getLast? with
    | none => exact absurd (List.getLast?_eq_none_iff.mp h) hr
    | some c => rfl
  unfold stripReturn
  rw [hlast, List.dropLast_append_of_ne_nil hr]
  split <;> rfl

-- The pieces a line is filled with.
def pieces (u : Unicode) (word : List Char) : List (List Char) :=
  if isBlank word then [word] else u.graphemes word

end StompyMux.StyledText.Markdown

namespace StompyMux.StyledText

open Library.Text

-- The words partition the text and stand apart from line feeds; consecutive pieces are no wider
-- than the pieces one by one, and white space adds its own width.
structure Unicode.Segments (u : Unicode) (text : List Char) : Prop where
  words : (u.wordBounds text).flatten = text
  feeds : ∀ word ∈ u.wordBounds text, '\n' ∈ word → word = ['\n'] ∨ word = ['\r', '\n']
  joined : ∀ pieces, pieces <:+: (u.wordBounds text).flatMap (Markdown.pieces u) →
    u.width pieces.flatten ≤ Markdown.columns u pieces
  spaces : ∀ line c, isWhitespace c = true → c ≠ '\n' →
    u.width (line ++ [c]) = u.width line + u.width [c]

namespace Unicode.Segments

variable {u : Unicode} {text : List Char} (hu : u.Segments text)

include hu

theorem width_nil : u.width [] = 0 := Nat.le_zero.mp (hu.joined [] (List.nil_infix))

theorem width_stripReturn_le (line : List Char) :
    u.width (Markdown.stripReturn line) ≤ u.width line := by
  unfold Markdown.stripReturn
  split
  · rename_i hlast
    obtain ⟨start, rfl⟩ := List.getLast?_eq_some_iff.mp hlast
    have hspace := hu.spaces start '\r' (by decide) (by decide)
    rw [List.dropLast_concat]
    omega
  · exact Nat.le_refl _

theorem width_append (line spaces : List Char)
    (hs : ∀ c ∈ spaces, isWhitespace c = true ∧ c ≠ '\n') :
    u.width (line ++ spaces) = u.width line + u.width spaces := by
  induction spaces using List.reverseRecOn with
  | nil => simp [hu.width_nil]
  | append_singleton spaces c ih =>
      obtain ⟨hspaces, hc⟩ := List.forall_mem_append.mp hs
      obtain ⟨hspace, hfeed⟩ := hc c List.mem_cons_self
      have hline := hu.spaces (line ++ spaces) c hspace hfeed
      have halone := hu.spaces spaces c hspace hfeed
      rw [← List.append_assoc, hline, halone, ih hspaces]
      omega

end Unicode.Segments

namespace Markdown

variable {u : Unicode} {text : List Char} {width : Nat} {page : Page} {done : List (List Char)}

def Fits (u : Unicode) (width : Nat) (text : List Char) : Prop :=
  ∀ line ∈ lines text, u.width line ≤ width

theorem fits_append (start rest : List Char) (he : Ended start) :
    Fits u width (start ++ rest) ↔ Fits u width start ∧ Fits u width rest := by
  unfold Fits
  rw [lines_append start rest he]
  exact List.forall_mem_append

theorem fits_closed {line : List Char} (hn : '\n' ∉ line) :
    Fits u width (line ++ ['\n']) ↔ u.width (stripReturn line) ≤ width := by
  simp [Fits, lines_closed hn]

-- A page after some pieces: the line being filled is a run of them, and fits.
structure Page.Filled (u : Unicode) (width : Nat) (page : Page) (done : List (List Char)) :
    Prop where
  ended : Ended page.above
  fits : columns u page.line ≤ width
  run : page.line ++ page.gap <:+ done
  unfed : ∀ piece ∈ page.line ++ page.gap, '\n' ∉ piece
  spaces : ∀ piece ∈ page.gap, isBlank piece = true

theorem not_mem_flatten (ps : List (List Char)) (h : ∀ piece ∈ ps, '\n' ∉ piece) :
    '\n' ∉ ps.flatten := by
  intro hmem
  obtain ⟨piece, hpiece, hfeed⟩ := List.mem_flatten.mp hmem
  exact h piece hpiece hfeed

theorem Page.Filled.blank (h : page.Filled u width done) (word : List Char)
    (hb : isBlank word = true) :
    (page.word u width word).Filled u width (done ++ pieces u word) ∧
      (Fits u width (page.word u width word).above ↔ Fits u width page.above) := by
  have hpage : page.word u width word = ⟨page.above, page.line, page.gap ++ [word]⟩ := if_pos hb
  have hpieces : pieces u word = [word] := if_pos hb
  have hfeed : '\n' ∉ word := fun hn => ((isBlank_iff word).mp hb).2 (List.contains_iff_mem.mpr hn)
  rw [hpage, hpieces]
  refine ⟨⟨h.ended, h.fits, ?_, ?_, ?_⟩, Iff.rfl⟩
  · rw [← List.append_assoc]
    exact List.suffix_append_self_iff.mpr h.run
  · intro piece hp
    rw [← List.append_assoc] at hp
    rcases List.mem_append.mp hp with hp | hp
    · exact h.unfed piece hp
    · rw [List.mem_singleton.mp hp]
      exact hfeed
  · intro piece hp
    rcases List.mem_append.mp hp with hp | hp
    · exact h.spaces piece hp
    · rw [List.mem_singleton.mp hp]
      exact hb

section Steps

variable (hu : u.Segments text) {all : List (List Char)}
  (hall : all = (u.wordBounds text).flatMap (pieces u))

include hu hall

-- A run of pieces of the text is no wider than they are one by one, and so is what is shown of it.
theorem width_run_le {ps : List (List Char)} (hrun : ps <:+: done) (hdone : done <+: all) :
    u.width (stripReturn ps.flatten) ≤ columns u ps := by
  refine (hu.width_stripReturn_le _).trans (hu.joined ps ?_)
  rw [← hall]
  exact hrun.trans hdone.isInfix

theorem Page.Filled.grapheme (h : page.Filled u width done) (hgap : page.gap = []) (g : List Char)
    (hg : '\n' ∉ g) (hw : u.width g ≤ width) (hdone : done <+: all) :
    (page.grapheme u width g).Filled u width (done ++ [g]) ∧ (page.grapheme u width g).gap = [] ∧
      (Fits u width (page.grapheme u width g).above ↔ Fits u width page.above) := by
  have hrun := h.run
  have hunfed := h.unfed
  rw [hgap, List.append_nil] at hrun hunfed
  by_cases hfull : columns u page.line + u.width g > width ∧ columns u page.line > 0
  · have hpage : page.grapheme u width g =
        ⟨page.above ++ page.line.flatten ++ ['\n'], [g], page.gap⟩ := if_pos hfull
    rw [hpage, hgap]
    have hline := width_run_le hu hall hrun.isInfix hdone
    refine ⟨⟨.inr ⟨_, rfl⟩, by simpa using hw, ?_, by simpa using hg, by simp⟩, rfl, ?_⟩
    · exact List.suffix_append done [g]
    · rw [List.append_assoc, fits_append _ _ h.ended, fits_closed (not_mem_flatten _ hunfed)]
      exact and_iff_left (hline.trans h.fits)
  · have hpage : page.grapheme u width g = ⟨page.above, page.line ++ [g], page.gap⟩ :=
      if_neg hfull
    rw [hpage, hgap]
    refine ⟨⟨h.ended, ?_, ?_, ?_, by simp⟩, rfl, Iff.rfl⟩
    · have hfits := h.fits
      rw [columns_append, columns_singleton]
      omega
    · rw [List.append_nil]
      exact (List.suffix_append_self_iff).mpr hrun
    · intro piece hpiece
      rw [List.append_nil] at hpiece
      rcases List.mem_append.mp hpiece with hpiece | hpiece
      · exact hunfed piece hpiece
      · rw [List.mem_singleton.mp hpiece]
        exact hg

theorem Page.Filled.graphemes (gs : List (List Char)) (hgs : ∀ g ∈ gs, '\n' ∉ g)
    (hw : ∀ g ∈ gs, u.width g ≤ width) : ∀ {page done}, page.Filled u width done → page.gap = [] →
      done ++ gs <+: all →
      (gs.foldl (Page.grapheme u width) page).Filled u width (done ++ gs) ∧
        (Fits u width (gs.foldl (Page.grapheme u width) page).above ↔ Fits u width page.above) := by
  induction gs with
  | nil =>
      intro page done h _ _
      rw [List.append_nil]
      exact ⟨h, Iff.rfl⟩
  | cons g gs ih =>
      intro page done h hgap hdone
      obtain ⟨hg, hgs⟩ := List.forall_mem_cons.mp hgs
      obtain ⟨hwide, hw⟩ := List.forall_mem_cons.mp hw
      have hbefore : done <+: all := (List.prefix_append done _).trans hdone
      obtain ⟨hfirst, hgap, hfits⟩ := h.grapheme hu hall hgap g hg hwide hbefore
      rw [List.append_cons] at hdone ⊢
      obtain ⟨hrest, hiff⟩ := ih hgs hw hfirst hgap hdone
      exact ⟨hrest, hiff.trans hfits⟩

-- White space in front of a line that shows nothing yet.
theorem width_opening (line gap : List (List Char)) (hline : line <:+: done)
    (hdone : done <+: all) (hzero : columns u line = 0)
    (hgap : ∀ piece ∈ gap, isBlank piece = true) :
    u.width (stripReturn (line ++ gap).flatten) = u.width (stripReturn gap.flatten) := by
  have hspaces : ∀ c ∈ gap.flatten, isWhitespace c = true ∧ c ≠ '\n' := by
    intro c hc
    obtain ⟨piece, hpiece, hc⟩ := List.mem_flatten.mp hc
    obtain ⟨hspace, hfeed⟩ := (isBlank_iff piece).mp (hgap piece hpiece)
    refine ⟨List.all_eq_true.mp hspace c hc, fun heq => hfeed ?_⟩
    exact List.contains_iff_mem.mpr (heq ▸ hc)
  have hjoined : u.width line.flatten ≤ columns u line := by
    refine hu.joined line ?_
    rw [← hall]
    exact hline.trans hdone.isInfix
  rw [List.flatten_append]
  by_cases hnil : gap.flatten = []
  · have hstrip := hu.width_stripReturn_le line.flatten
    have hempty : u.width (stripReturn []) = 0 := hu.width_nil
    rw [hnil, List.append_nil]
    omega
  · have hstripped : ∀ c ∈ stripReturn gap.flatten, isWhitespace c = true ∧ c ≠ '\n' := by
      intro c hc
      unfold stripReturn at hc
      split at hc
      · exact hspaces c ((List.dropLast_sublist _).subset hc)
      · exact hspaces c hc
    rw [stripReturn_append _ _ hnil, hu.width_append _ _ hstripped]
    omega

-- Only white space at the start of a line can make the line too wide.
theorem Page.Filled.written (h : page.Filled u width done) (word : List Char) (hw : Written word)
    (hgs : ∀ g ∈ u.graphemes word, u.width g ≤ width) (hdone : done ++ u.graphemes word <+: all) :
    (page.word u width word).Filled u width (done ++ u.graphemes word) ∧
      (Fits u width (page.word u width word).above ↔ Fits u width page.above ∧
        (columns u page.line = 0 → u.width (stripReturn page.gap.flatten) ≤ width)) := by
  have hpage : page.word u width word =
      (u.graphemes word).foldl (Page.grapheme u width) (page.settle u width word) := by
    unfold Page.word
    rw [hw.1, if_neg Bool.false_ne_true, if_neg hw.2]
  have hunfed : ∀ g ∈ u.graphemes word, '\n' ∉ g := fun g hg hmem =>
    hw.2 (u.graphemes_flatten word ▸ List.mem_flatten_of_mem hg hmem)
  have hbefore : done <+: all := (List.prefix_append done _).trans hdone
  have hline : page.line <:+: done := (List.infix_append' [] _ _).trans h.run.isInfix
  have hgap : page.gap <:+: done := (List.suffix_append _ _).isInfix.trans h.run.isInfix
  have hfeeds := not_mem_flatten _ h.unfed
  rw [hpage]
  by_cases hfull : columns u page.line > 0 ∧
      columns u page.line + columns u page.gap + u.width word > width
  · have hsettle : page.settle u width word =
        ⟨page.above ++ page.line.flatten ++ ['\n'], [], []⟩ := if_pos hfull
    have hfilled : (page.settle u width word).Filled u width done := by
      rw [hsettle]
      exact ⟨.inr ⟨_, rfl⟩, Nat.zero_le _, List.nil_suffix, by simp, by simp⟩
    have hshort := width_run_le hu hall hline hbefore
    have hfeed : '\n' ∉ page.line.flatten :=
      not_mem_flatten _ fun piece hp => h.unfed piece (List.mem_append_left _ hp)
    obtain ⟨hafter, hiff⟩ := hfilled.graphemes hu hall _ hunfed hgs (by rw [hsettle]) hdone
    refine ⟨hafter, hiff.trans ?_⟩
    rw [hsettle, List.append_assoc, fits_append _ _ h.ended, fits_closed hfeed]
    have hfits := h.fits
    constructor
    · rintro ⟨habove, -⟩
      exact ⟨habove, fun hzero => by omega⟩
    · rintro ⟨habove, -⟩
      exact ⟨habove, by omega⟩
  · have hsettle : page.settle u width word = ⟨page.above, page.line ++ page.gap, []⟩ :=
      if_neg hfull
    have hshort := width_run_le hu hall hgap hbefore
    by_cases hfit : columns u page.line + columns u page.gap ≤ width
    · have hfilled : (page.settle u width word).Filled u width done := by
        rw [hsettle]
        refine ⟨h.ended, by simpa using hfit, ?_, ?_, by simp⟩
        · rw [List.append_nil]
          exact h.run
        · rw [List.append_nil]
          exact h.unfed
      obtain ⟨hafter, hiff⟩ := hfilled.graphemes hu hall _ hunfed hgs (by rw [hsettle]) hdone
      refine ⟨hafter, hiff.trans ?_⟩
      rw [hsettle]
      exact (and_iff_left fun _ => by omega).symm
    · -- the line opens with more white space than fits, and ends before the first grapheme
      have hzero : columns u page.line = 0 := by omega
      obtain ⟨g, gs, hcons⟩ : ∃ g gs, u.graphemes word = g :: gs := by
        refine List.exists_cons_of_ne_nil fun hnil => ?_
        have hflat := u.graphemes_flatten word
        rw [hnil, List.flatten_nil] at hflat
        have hb := hw.1
        rw [← hflat] at hb
        contradiction
      rw [hcons] at hunfed hgs hdone ⊢
      obtain ⟨hg, hunfed⟩ := List.forall_mem_cons.mp hunfed
      obtain ⟨hwide, hgs⟩ := List.forall_mem_cons.mp hgs
      have hfirst : (page.settle u width word).grapheme u width g =
          ⟨page.above ++ (page.line ++ page.gap).flatten ++ ['\n'], [g], []⟩ := by
        rw [hsettle]
        refine if_pos ?_
        simp only [columns_append]
        omega
      have hfilled : (⟨page.above ++ (page.line ++ page.gap).flatten ++ ['\n'], [g], []⟩ :
          Page).Filled u width (done ++ [g]) := by
        refine ⟨.inr ⟨_, rfl⟩, by simpa using hwide, ?_, by simpa using hg, by simp⟩
        exact List.suffix_append done [g]
      rw [List.append_cons] at hdone ⊢
      obtain ⟨hafter, hiff⟩ := hfilled.graphemes hu hall gs hunfed hgs rfl hdone
      rw [List.foldl_cons, hfirst]
      refine ⟨hafter, hiff.trans ?_⟩
      rw [List.append_assoc, fits_append _ _ h.ended, fits_closed hfeeds,
        width_opening hu hall _ _ hline hbefore hzero h.spaces]
      simp [hzero]

theorem Page.Filled.newline (h : page.Filled u width done) (word : List Char)
    (hw : word ∈ u.wordBounds text) (hn : '\n' ∈ word) (hdone : done <+: all) :
    (page.word u width word).Filled u width (done ++ pieces u word) ∧
      (Fits u width (page.word u width word).above ↔ Fits u width page.above) := by
  have hb : isBlank word = false := by simp [isBlank, hn]
  have hpage : page.word u width word = ⟨page.above ++ page.line.flatten ++ word, [], []⟩ := by
    unfold Page.word
    rw [hb, if_neg Bool.false_ne_true, if_pos hn]
  have hline : page.line <:+: done := (List.infix_append' [] _ _).trans h.run.isInfix
  have hfeed : '\n' ∉ page.line.flatten :=
    not_mem_flatten _ fun piece hp => h.unfed piece (List.mem_append_left _ hp)
  have hjoined : u.width page.line.flatten ≤ columns u page.line := by
    refine hu.joined page.line ?_
    rw [← hall]
    exact hline.trans hdone.isInfix
  have hfits := h.fits
  have hstrip := hu.width_stripReturn_le page.line.flatten
  rw [hpage]
  rcases hu.feeds word hw hn with rfl | rfl
  · refine ⟨⟨.inr ⟨_, rfl⟩, Nat.zero_le _, List.nil_suffix, by simp, by simp⟩, ?_⟩
    rw [List.append_assoc, fits_append _ _ h.ended, fits_closed hfeed]
    exact and_iff_left (by omega)
  · have hend : page.above ++ page.line.flatten ++ ['\r', '\n'] =
        page.above ++ ((page.line.flatten ++ ['\r']) ++ ['\n']) := by simp
    have hreturn : '\n' ∉ page.line.flatten ++ ['\r'] := by simpa using hfeed
    have hshown : stripReturn (page.line.flatten ++ ['\r']) = page.line.flatten := by
      simp [stripReturn]
    refine ⟨⟨.inr ⟨page.above ++ page.line.flatten ++ ['\r'], by simp⟩, Nat.zero_le _,
      List.nil_suffix, by simp, by simp⟩, ?_⟩
    rw [hend, fits_append _ _ h.ended, fits_closed hreturn, hshown]
    exact and_iff_left (by omega)

-- What a word must not be: written on an empty line, behind more white space than fits.
def Roomy (u : Unicode) (width : Nat) (page : Page) (word : List Char) : Prop :=
  Written word → columns u page.line = 0 → u.width (stripReturn page.gap.flatten) ≤ width

theorem Page.Filled.word (h : page.Filled u width done) (word : List Char)
    (hw : word ∈ u.wordBounds text) (hgs : ∀ g ∈ u.graphemes word, u.width g ≤ width)
    (hdone : done ++ pieces u word <+: all) :
    (page.word u width word).Filled u width (done ++ pieces u word) ∧
      (Fits u width (page.word u width word).above ↔
        Fits u width page.above ∧ Roomy u width page word) := by
  have hbefore : done <+: all := (List.prefix_append done _).trans hdone
  by_cases hb : isBlank word = true
  · obtain ⟨hfilled, hiff⟩ := h.blank word hb
    refine ⟨hfilled, hiff.trans (and_iff_left fun hwritten => ?_).symm⟩
    rw [hwritten.1] at hb
    contradiction
  · rw [Bool.not_eq_true] at hb
    by_cases hn : '\n' ∈ word
    · obtain ⟨hfilled, hiff⟩ := h.newline hu hall word hw hn hbefore
      exact ⟨hfilled, hiff.trans (and_iff_left fun hwritten => absurd hn hwritten.2).symm⟩
    · have hpieces : pieces u word = u.graphemes word := by
        unfold pieces
        rw [hb, if_neg Bool.false_ne_true]
      rw [hpieces] at hdone ⊢
      obtain ⟨hfilled, hiff⟩ := h.written hu hall word ⟨hb, hn⟩ hgs hdone
      refine ⟨hfilled, hiff.trans (and_congr_right fun _ => ?_)⟩
      exact ⟨fun hroom _ => hroom, fun hroom => hroom ⟨hb, hn⟩⟩

omit hu hall in
theorem forall_split_concat (P : List (List Char) → List Char → Prop)
    (words : List (List Char)) (last : List Char) :
    (∀ before word after, words ++ [last] = before ++ word :: after → P before word) ↔
      (∀ before word after, words = before ++ word :: after → P before word) ∧ P words last := by
  constructor
  · intro h
    exact ⟨fun before word after heq => h before word (after ++ [last]) (by simp [heq]),
      h words last [] rfl⟩
  · rintro ⟨hwords, hlast⟩ before word after heq
    rcases List.eq_nil_or_concat after with rfl | ⟨init, x, rfl⟩
    · obtain ⟨hbefore, hword⟩ := List.append_inj' heq rfl
      rw [← hbefore, ← (List.cons.inj hword).1]
      exact hlast
    · rw [List.concat_eq_append, ← List.cons_append, ← List.append_assoc] at heq
      exact hwords before word init (List.append_inj' heq rfl).1

theorem read_filled (hgs : ∀ word ∈ u.wordBounds text, ∀ g ∈ u.graphemes word, u.width g ≤ width)
    (words : List (List Char)) (hwords : words <+: u.wordBounds text) :
    (Page.read u width words).Filled u width (words.flatMap (pieces u)) ∧
      (Fits u width (Page.read u width words).above ↔
        ∀ before word after, words = before ++ word :: after →
          Roomy u width (Page.read u width before) word) := by
  induction words using List.reverseRecOn with
  | nil =>
      refine ⟨⟨.inl rfl, Nat.zero_le _, List.nil_suffix, ?_, ?_⟩, ?_⟩
      · simp [Page.read, Page.empty]
      · simp [Page.read, Page.empty]
      · simp [Fits, lines, splitInclusive, Page.read, Page.empty]
  | append_singleton words word ih =>
      have hbefore := (List.prefix_append words [word]).trans hwords
      have hmem : word ∈ u.wordBounds text := hwords.subset (by simp)
      obtain ⟨hfilled, hiff⟩ := ih hbefore
      have hdone : words.flatMap (pieces u) ++ pieces u word <+: all := by
        obtain ⟨rest, hrest⟩ := hwords
        refine ⟨rest.flatMap (pieces u), ?_⟩
        rw [hall, ← hrest]
        simp
      obtain ⟨hafter, hstep⟩ := hfilled.word hu hall word hmem (hgs word hmem) hdone
      have hread : Page.read u width (words ++ [word]) =
          (Page.read u width words).word u width word := List.foldl_concat ..
      rw [hread, forall_split_concat, List.flatMap_append, List.flatMap_singleton]
      exact ⟨hafter, hstep.trans (and_congr_left fun _ => hiff)⟩

end Steps

theorem graphemes_gap (gs : List (List Char)) (page : Page) :
    (gs.foldl (Page.grapheme u width) page).gap = page.gap := by
  induction gs generalizing page with
  | nil => rfl
  | cons g gs ih =>
      rw [List.foldl_cons, ih]
      unfold Page.grapheme
      split <;> rfl

-- What is pending is the white space at the end of what was read.
theorem read_gap (words : List (List Char)) :
    (Page.read u width words).gap = words.rtakeWhile isBlank := by
  induction words using List.reverseRecOn with
  | nil => rfl
  | append_singleton words word ih =>
      have hread : Page.read u width (words ++ [word]) =
          (Page.read u width words).word u width word := List.foldl_concat ..
      rw [hread, Page.word]
      by_cases hb : isBlank word = true
      · rw [if_pos hb, List.rtakeWhile_concat_pos _ _ _ hb, ih]
      · rw [if_neg hb, List.rtakeWhile_concat_neg _ _ _ hb]
        split
        · rfl
        · rw [graphemes_gap, Page.settle]
          split <;> rfl

theorem graphemes_seen (gs : List (List Char)) (hw : ∀ g ∈ gs, u.width g ≤ width) (page : Page)
    (h : 0 < columns u page.line ∧ columns u page.line ≤ width ∨ ∃ g ∈ gs, 0 < u.width g) :
    0 < columns u (gs.foldl (Page.grapheme u width) page).line := by
  induction gs generalizing page with
  | nil =>
      rcases h with h | ⟨g, hg, -⟩
      · exact h.1
      · simp at hg
  | cons g gs ih =>
      obtain ⟨hwide, hw⟩ := List.forall_mem_cons.mp hw
      rw [List.foldl_cons]
      refine ih hw _ ?_
      by_cases hlater : ∃ g ∈ gs, 0 < u.width g
      · exact .inr hlater
      · left
        have hseen : 0 < columns u page.line ∧ columns u page.line ≤ width ∨ 0 < u.width g := by
          rcases h with h | ⟨other, hother, hpos⟩
          · exact .inl h
          · rcases List.mem_cons.mp hother with rfl | hother
            · exact .inr hpos
            · exact absurd ⟨other, hother, hpos⟩ hlater
        unfold Page.grapheme
        split
        · simp only [columns_singleton]
          omega
        · simp only [columns_append, columns_singleton]
          omega

def isUnfed (word : List Char) : Bool := !word.contains '\n'

theorem read_col (words : List (List Char))
    (hgs : ∀ word ∈ words, ∀ g ∈ u.graphemes word, u.width g ≤ width)
    (hseen : ∀ word ∈ words, Written word → ∃ g ∈ u.graphemes word, 0 < u.width g) :
    columns u (Page.read u width words).line = 0 ↔
      ∀ word ∈ words.rtakeWhile isUnfed, isBlank word = true := by
  induction words using List.reverseRecOn with
  | nil => simp [Page.read, Page.empty]
  | append_singleton words word ih =>
      obtain ⟨hgs, hwide⟩ := List.forall_mem_append.mp hgs
      obtain ⟨hseen, hlast⟩ := List.forall_mem_append.mp hseen
      have hread : Page.read u width (words ++ [word]) =
          (Page.read u width words).word u width word := List.foldl_concat ..
      rw [hread, Page.word]
      by_cases hb : isBlank word = true
      · have hn : isUnfed word = true := by
          simpa [isUnfed] using ((isBlank_iff word).mp hb).2
        rw [if_pos hb, List.rtakeWhile_concat_pos _ _ _ hn, ih hgs hseen]
        simp [or_imp, forall_and, hb]
      · rw [if_neg hb]
        by_cases hn : '\n' ∈ word
        · have hc : ¬ isUnfed word = true := by simpa [isUnfed] using hn
          rw [if_pos hn, List.rtakeWhile_concat_neg _ _ _ hc]
          simp
        · have hc : isUnfed word = true := by simpa [isUnfed] using hn
          have hshown := hlast word List.mem_cons_self ⟨Bool.not_eq_true _ ▸ hb, hn⟩
          have hpos := graphemes_seen _ (hwide word List.mem_cons_self)
            ((Page.read u width words).settle u width word) (.inr hshown)
          rw [if_neg hn, List.rtakeWhile_concat_pos _ _ _ hc]
          constructor
          · intro hzero
            omega
          · intro hall
            exact absurd (hall word (by simp)) hb

def unspaced (span : Span) : Span :=
  { span with text := span.text.filter fun c => !isWhitespace c }

theorem charIndices_chars (offset : Nat) (text : List Char) :
    (charIndices offset text).flatMap (fun entry => [entry.2]) = text := by
  induction text generalizing offset with
  | nil => rfl
  | cons c text ih => simp [charIndices, ih]

theorem wrapSpans_unspaced (breaks omitted : List Nat) (offset : Nat) (spans : List Span)
    (ho : ∀ entry ∈ charIndices offset (visibleText spans), entry.1 ∈ omitted →
      isWhitespace entry.2 = true) :
    (wrapSpans breaks omitted offset spans).map unspaced = spans.map unspaced := by
  induction spans generalizing offset with
  | nil => rfl
  | cons span spans ih =>
      have hvisible : visibleText (span :: spans) = span.text ++ visibleText spans := rfl
      rw [hvisible, charIndices_append] at ho
      obtain ⟨hspan, hspans⟩ := List.forall_mem_append.mp ho
      have hkept : ∀ entry ∈ charIndices offset span.text,
          (wrapChar breaks omitted entry).filter (fun c => !isWhitespace c) =
            [entry.2].filter fun c => !isWhitespace c := by
        intro entry hentry
        have hbreak : isWhitespace '\n' = true := by decide
        have homit := hspan entry hentry
        unfold wrapChar
        by_cases hb : entry.1 ∈ breaks <;> by_cases ho : entry.1 ∈ omitted <;>
          simp [hb, ho, hbreak, homit]
      rw [wrapSpans, List.map_cons, List.map_cons, ih _ hspans]
      refine congrArg (· :: _) ?_
      simp only [unspaced, List.filter_flatMap]
      rw [List.flatMap_congr hkept, ← List.filter_flatMap, charIndices_chars]

section Wrapped

variable (u : Unicode) (spans : List Span) (width : Nat)

-- Every line of the wrapped text fits, and only white space changes in any span.
def Wraps : Prop :=
  Fits u width (visibleText (wrap u spans width)) ∧
    (wrap u spans width).map unspaced = spans.map unspaced

-- No word is written while the line is empty and more white space waits than fits.
def Opens : Prop :=
  ∀ before word after, u.wordBounds (visibleText spans) = before ++ word :: after → Written word →
    (WrapState.read u width before).col = 0 →
      u.width (stripReturn (before.rtakeWhile isBlank).flatten) ≤ width

-- No line of the text begins with more white space than fits, unless it shows nothing else.
def Indented : Prop :=
  ∀ before word after, u.wordBounds (visibleText spans) = before ++ word :: after → Written word →
    (∀ earlier ∈ before.rtakeWhile isUnfed, isBlank earlier = true) →
      u.width (stripReturn (before.rtakeWhile isBlank).flatten) ≤ width

theorem wrap_eq : wrap u spans width =
    wrapSpans (WrapState.read u width (u.wordBounds (visibleText spans))).breaks
      ((WrapState.read u width (u.wordBounds (visibleText spans))).omitted ++
        (WrapState.read u width (u.wordBounds (visibleText spans))).pending) 0 spans := rfl

variable {u spans width}

theorem wrap_placed (hu : u.Segments (visibleText spans)) :
    Placed (WrapState.read u width (u.wordBounds (visibleText spans))).breaks
      ((WrapState.read u width (u.wordBounds (visibleText spans))).omitted ++
        (WrapState.read u width (u.wordBounds (visibleText spans))).pending) []
      (Page.read u width (u.wordBounds (visibleText spans))).text [] (visibleText spans) := by
  obtain ⟨placed, htext, hplaced⟩ := (read_shows u width (u.wordBounds (visibleText spans))).placed
  rw [hu.words] at htext
  have hdrop := hplaced.drop
  rw [← htext] at hdrop
  exact hdrop

theorem visibleText_wrap (hu : u.Segments (visibleText spans)) :
    visibleText (wrap u spans width) =
      (Page.read u width (u.wordBounds (visibleText spans))).text := by
  rw [wrap_eq, visibleText_wrapSpans]
  exact (wrap_placed hu).written

theorem wrap_unspaced (hu : u.Segments (visibleText spans)) :
    (wrap u spans width).map unspaced = spans.map unspaced := by
  rw [wrap_eq]
  exact wrapSpans_unspaced _ _ 0 spans (wrap_placed hu).omitted_blank

theorem fits_text {page : Page} (hu : u.Segments text) (h : page.Filled u width done)
    (hdone : done <:+: (u.wordBounds text).flatMap (pieces u)) :
    Fits u width page.text ↔ Fits u width page.above := by
  rw [Page.text, fits_append _ _ h.ended]
  refine and_iff_left fun line hline => ?_
  have hfeed : '\n' ∉ page.line.flatten :=
    not_mem_flatten _ fun piece hp => h.unfed piece (List.mem_append_left _ hp)
  have hrun : page.line <:+: done := (List.infix_append' [] _ _).trans h.run.isInfix
  rw [eq_of_mem_lines hfeed hline]
  exact (hu.joined page.line (hrun.trans hdone)).trans h.fits

theorem wrap_exact (hu : u.Segments (visibleText spans))
    (hgs : ∀ word ∈ u.wordBounds (visibleText spans), ∀ g ∈ u.graphemes word, u.width g ≤ width) :
    (Wraps u spans width ↔ Opens u spans width) ∧
      ((∀ word ∈ u.wordBounds (visibleText spans), Written word →
        ∃ g ∈ u.graphemes word, 0 < u.width g) →
          (Wraps u spans width ↔ Indented u spans width)) := by
  obtain ⟨hfilled, hiff⟩ := read_filled hu rfl hgs _ (List.prefix_refl _)
  have hwraps : Wraps u spans width ↔ ∀ before word after,
      u.wordBounds (visibleText spans) = before ++ word :: after →
        Roomy u width (Page.read u width before) word := by
    rw [← hiff, ← fits_text hu hfilled (List.infix_refl _), ← visibleText_wrap hu]
    exact and_iff_left (wrap_unspaced hu)
  have hroomy : ∀ before word, Roomy u width (Page.read u width before) word ↔ (Written word →
      columns u (Page.read u width before).line = 0 →
        u.width (stripReturn (before.rtakeWhile isBlank).flatten) ≤ width) := by
    intro before word
    rw [Roomy, read_gap]
  simp only [hroomy] at hwraps
  constructor
  · rw [hwraps]
    unfold Opens
    simp only [(read_shows u width _).col]
  · intro hseen
    rw [hwraps]
    unfold Indented
    refine forall_congr' fun before => forall_congr' fun word => forall_congr' fun after => ?_
    refine imp_congr_right fun heq => ?_
    have hbefore : ∀ earlier ∈ before, earlier ∈ u.wordBounds (visibleText spans) := by
      intro earlier hmem
      rw [heq]
      exact List.mem_append_left _ hmem
    rw [read_col before (fun earlier he => hgs earlier (hbefore earlier he))
      fun earlier he => hseen earlier (hbefore earlier he)]

end Wrapped

-- Words of letters and runs of spaces.
def Unicode.words : Unicode :=
  { Unicode.ascii with
    wordBounds := fun text => text.splitBy fun c d =>
      isWhitespace c == isWhitespace d && c != '\n' && d != '\n' }

theorem words_segments (text : List Char)
    (hf : ∀ word ∈ Unicode.words.wordBounds text, '\n' ∈ word → word = ['\n'] ∨ word = ['\r', '\n']) :
    Unicode.words.Segments text where
  words := List.flatten_splitBy _ _
  feeds := hf
  joined _ _ := le_of_eq List.length_flatten
  spaces _ _ _ _ := List.length_append

def ragged : List Span := [Span.plain "ab  cd".toList, Span.bold "ef g\n h".toList]

theorem wrap_exact_ragged :
    visibleText (wrap Unicode.words ragged 3) = "ab\ncde\nf g\n h".toList ∧
      Indented Unicode.words ragged 3 := by
  have hu : Unicode.words.Segments (visibleText ragged) := words_segments _ (by decide)
  have hwraps : Wraps Unicode.words ragged 3 := by
    refine ⟨?_, rfl⟩
    unfold Fits
    decide
  exact ⟨rfl, ((wrap_exact hu (by decide)).2 (by decide)).mp hwraps⟩

-- Five spaces at the start are written whole, though only three columns are left.
def indented : List Span := [Span.plain "     ab".toList]

theorem not_wraps_indented :
    Unicode.words.Segments (visibleText indented) ∧
      (∀ word ∈ Unicode.words.wordBounds (visibleText indented),
        ∀ g ∈ Unicode.words.graphemes word, Unicode.words.width g ≤ 3) ∧
      visibleText (wrap Unicode.words indented 3) = "     \nab".toList ∧
      ¬ Wraps Unicode.words indented 3 := by
  refine ⟨words_segments _ (by decide), by decide, rfl, fun hwraps => ?_⟩
  have hfive : 5 ≤ 3 := hwraps.1 "     ".toList (by decide)
  omega

end Markdown

end StompyMux.StyledText
