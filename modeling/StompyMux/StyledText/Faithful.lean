import Mathlib.Data.List.Chain
import StompyMux.StyledText.Document

-- What a terminal shows of the output.
namespace StompyMux.StyledText

open Library Library.Text Library.Terminal
open StompyMux.Telnet

def Item.tokens : Item → List Token
  | .Visible c => (utf8 [c]).map .Byte
  | .Rendition parameters => [.Control (utf8 parameters) 109]
  | .LinkOpen uri => [.Command (utf8 ("8;;".toList ++ uri))]
  | .LinkClose => [.Command (utf8 "8;;".toList)]
  | .Picture tag => .Control [52] 122 :: (utf8 (tag.drop 4)).map .Byte

theorem utf8_cons_ascii (c : Char) (b : UInt8) (text : List Char)
    (hc : String.utf8EncodeChar c = [b]) : utf8 (c :: text) = b :: utf8 text := by
  rw [utf8, List.flatMap_cons, hc]
  rfl

theorem isShown_bytes (text : List Char) (ht : IsShown text) : ∀ b ∈ utf8 text, b ≠ 27 := by
  intro b hb heq
  obtain ⟨c, hc, hbytes⟩ := mem_utf8 text hb
  rw [heq, show (27 : UInt8).toNat = 27 from rfl] at hbytes
  have hescape : c = ESC := by
    apply Char.ext
    apply UInt32.toNat_inj.mp
    show c.toNat = 27
    omega
  have hshown := ht c hc
  rw [hescape] at hshown
  exact absurd hshown (by decide)

theorem parameter_bytes (parameters : List Char) (hp : ∀ c ∈ parameters, Item.isParameter c) :
    ∀ b ∈ utf8 parameters, ¬(64 ≤ b ∧ b ≤ 126) := by
  intro b hb hrange
  obtain ⟨c, hc, hbytes⟩ := mem_utf8 parameters hb
  have hlow : c.toNat < 64 := by
    have hparameter := hp c hc
    simp only [Item.isParameter, Bool.or_eq_true, beq_iff_eq] at hparameter
    rcases hparameter with hdigit | rfl
    · have hle : c.toNat ≤ 57 := (Char.isDigit_iff_toNat.mp hdigit).2
      omega
    · decide
  rw [UInt8.le_iff_toNat_le, UInt8.le_iff_toNat_le, show (64 : UInt8).toNat = 64 from rfl,
    show (126 : UInt8).toNat = 126 from rfl] at hrange
  omega

theorem target_bytes (uri : List Char) (hu : (Item.LinkOpen uri).Safe) :
    ∀ b ∈ utf8 uri, b ≠ 7 ∧ b ≠ 27 := by
  intro b hb
  have hlow := (hu.2 b hb).1
  constructor <;> (rintro rfl; revert hlow; decide)

theorem isShown_tag (inner : List Char) (hi : ∀ c ∈ inner, Mxp.isTagText c) :
    IsShown (['<'] ++ inner ++ ['>']) := by
  intro c hc
  simp only [List.mem_append, List.mem_singleton] at hc
  rcases hc with (rfl | hc) | rfl
  · decide
  · have htag := hi c hc
    simp only [Mxp.isTagText, Bool.and_eq_true] at htag
    simp [isShown, htag.1.1]
  · decide

theorem tokens_item {item : Item} (rest : List UInt8) (hs : item.Safe) :
    tokens (item.bytes ++ rest) = item.tokens ++ tokens rest := by
  have hescape : ∀ text : List Char, utf8 (ESC :: text) = 27 :: utf8 text :=
    fun text => utf8_cons_ascii ESC 27 text (by decide)
  have hbracket : ∀ text : List Char, utf8 ('[' :: text) = 91 :: utf8 text :=
    fun text => utf8_cons_ascii '[' 91 text (by decide)
  have hend : utf8 "\x1b\\".toList = [27, 92] := by decide
  cases item with
  | Visible c =>
      have hshown : IsShown [c] := (isShown_cons c []).mpr ⟨hs, isShown_nil⟩
      exact scan_bytes (utf8 [c]) rest (isShown_bytes [c] hshown)
  | Rendition parameters =>
      have hfinal : utf8 ['m'] = [109] := by decide
      have hbytes : (Item.Rendition parameters).bytes ++ rest =
          27 :: 91 :: (utf8 parameters ++ 109 :: rest) := by
        simp only [Item.bytes, Item.text, rendition, List.cons_append, List.nil_append,
          List.append_assoc, hescape, hbracket, utf8_append, hfinal]
      rw [hbytes, scan_control _ rest (parameter_bytes parameters hs) (by decide)]
      rfl
  | LinkOpen uri =>
      have hlead : utf8 "\x1b]8;;".toList = 27 :: 93 :: utf8 "8;;".toList := by decide
      have hbody : ∀ b ∈ utf8 ("8;;".toList ++ uri), b ≠ 7 ∧ b ≠ 27 := by
        have hnumber : ∀ b ∈ utf8 "8;;".toList, b ≠ 7 ∧ b ≠ 27 := by decide
        rw [utf8_append]
        exact List.forall_mem_append.mpr ⟨hnumber, target_bytes uri hs⟩
      have hbytes : (Item.LinkOpen uri).bytes ++ rest =
          27 :: 93 :: (utf8 ("8;;".toList ++ uri) ++ 27 :: 92 :: rest) := by
        simp only [Item.bytes, Item.text, openLink, utf8_append, hlead, hend, List.cons_append,
          List.nil_append, List.append_assoc]
      rw [hbytes, scan_command _ rest hbody]
      rfl
  | LinkClose =>
      have hbody : ∀ b ∈ utf8 "8;;".toList, b ≠ 7 ∧ b ≠ 27 := by decide
      have hbytes : Item.LinkClose.bytes ++ rest =
          27 :: 93 :: (utf8 "8;;".toList ++ 27 :: 92 :: rest) := by rfl
      rw [hbytes, scan_command _ rest hbody]
      rfl
  | Picture tag =>
      obtain ⟨inner, hinner, htag⟩ := hs
      have hswitch : utf8 "\x1b[4z".toList = [27, 91, 52, 122] := by decide
      have hdrop : tag.drop 4 = ['<'] ++ inner ++ ['>'] := by
        rw [htag]
        rfl
      have hbytes : (Item.Picture tag).bytes ++ rest =
          27 :: 91 :: ([52] ++ 122 :: (utf8 (['<'] ++ inner ++ ['>']) ++ rest)) := by
        rw [Item.bytes, Item.text, htag]
        simp only [utf8_append, hswitch, List.cons_append, List.nil_append, List.append_assoc]
      rw [hbytes, scan_control [52] _ (by decide) (by decide), Item.tokens, hdrop, tokens,
        scan_bytes _ rest (isShown_bytes _ (isShown_tag inner hinner))]
      rfl

variable (o : RenderOptions) (items : List Item) (pen : Pen) (groups : List (List Cell))
  (gs : List (List Char)) (cells : List Cell)

theorem tokens_items (hs : AllSafe items) :
    tokens (items.flatMap Item.bytes) = items.flatMap Item.tokens := by
  induction items with
  | nil => rfl
  | cons item items ih =>
      obtain ⟨hitem, hrest⟩ := (allSafe_cons _ _).mp hs
      rw [List.flatMap_cons, tokens_item _ hitem, ih hrest, List.flatMap_cons]

-- Deleting the escape sequences leaves the visible characters.
theorem deleteEscapes_items (hs : AllSafe items) :
    deleteEscapes (items.flatMap Item.bytes) = utf8 (visible items) := by
  rw [deleteEscapes, tokens_items items hs]
  induction items with
  | nil => rfl
  | cons item items ih =>
      have hrest := ih ((allSafe_cons _ _).mp hs).2
      rw [List.flatMap_cons, shown_append, hrest]
      cases item with
      | Visible c =>
          rw [Item.tokens, shown_bytes, visible, ← utf8_append, List.singleton_append]
      | Rendition parameters => rfl
      | LinkOpen uri => rfl
      | LinkClose => rfl
      | Picture tag =>
          have hswitch : shown (Item.Picture tag).tokens =
              shown ((utf8 (tag.drop 4)).map .Byte) := rfl
          rw [hswitch, shown_bytes, visible, utf8_append]

theorem linkAfter_bytes (isOpen : Bool) (text : List UInt8) :
    linkAfter isOpen (text.map .Byte) = isOpen := by
  induction text with
  | nil => rfl
  | cons b text ih => exact ih

theorem linkAfter_items (isOpen : Bool) {items : List Item} (hs : AllSafe items) :
    linkAfter isOpen (items.flatMap Item.tokens) = openAfter isOpen items := by
  induction items generalizing isOpen with
  | nil => rfl
  | cons item items ih =>
      obtain ⟨hitem, hrest⟩ := (allSafe_cons _ _).mp hs
      rw [List.flatMap_cons, linkAfter_append, ih _ hrest]
      cases item with
      | Visible c =>
          rw [Item.tokens, linkAfter_bytes]
          rfl
      | Rendition parameters => rfl
      | LinkOpen uri =>
          have hne : (utf8 uri != []) = true := by simpa using utf8_ne_nil hitem.1
          have hlink : linkAfter isOpen (Item.LinkOpen uri).tokens = (utf8 uri != []) := rfl
          rw [hlink, hne, openAfter]
      | LinkClose => rfl
      | Picture tag =>
          have hswitch : linkAfter isOpen (Item.Picture tag).tokens =
              linkAfter isOpen ((utf8 (tag.drop 4)).map .Byte) := rfl
          rw [hswitch, linkAfter_bytes]
          rfl

theorem rendition_items
    (h : (items.flatMap Item.tokens).any Token.isRendition) : HasRendition items := by
  obtain ⟨token, htoken, hrendition⟩ := List.any_eq_true.mp h
  obtain ⟨item, hitem, htoken⟩ := List.mem_flatMap.mp htoken
  have hbytes : ∀ text : List UInt8, token ∈ text.map Token.Byte → False := by
    intro text ht
    obtain ⟨b, -, rfl⟩ := List.mem_map.mp ht
    simp [Token.isRendition] at hrendition
  cases item with
  | Visible c => exact absurd (hbytes _ htoken) id
  | Rendition parameters => exact ⟨parameters, hitem⟩
  | LinkOpen uri =>
      rw [List.mem_singleton.mp htoken] at hrendition
      simp [Token.isRendition] at hrendition
  | LinkClose =>
      rw [List.mem_singleton.mp htoken] at hrendition
      simp [Token.isRendition] at hrendition
  | Picture tag =>
      rcases List.mem_cons.mp htoken with rfl | htoken
      · simp [Token.isRendition] at hrendition
      · exact absurd (hbytes _ htoken) id

-- A message that leaves nothing open: every link is closed in it, and if it sets any
-- rendition it ends by resetting it.
structure SelfContained (chunk : List UInt8) : Prop where
  link : linkAfter false (tokens chunk) = false
  reset : (tokens chunk).any Token.isRendition → utf8 RESET <:+ chunk

theorem Part.selfContained (limit : Nat) (part : List Item) (hp : Part limit part) :
    SelfContained (part.flatMap Item.bytes) := by
  constructor
  · rw [tokens_items part hp.safe, linkAfter_items false hp.safe]
    exact hp.closed.link
  · intro h
    rw [tokens_items part hp.safe] at h
    have hlast := hp.closed.reset (rendition_items part h)
    obtain ⟨front, hfront⟩ := List.getLast?_eq_some_iff.mp hlast
    rw [hfront, List.flatMap_append]
    exact ⟨front.flatMap Item.bytes, rfl⟩

-- When the output, its escape sequences deleted, is the encoded visible text.

-- Nothing is sent between two cells in the same presentation.
def SamePresentation (o : RenderOptions) (a b : Cell) : Prop :=
  a.link = b.link ∧ (a.style = b.style ∨ o.color = .None)

instance (o : RenderOptions) (a b : Cell) : Decidable (SamePresentation o a b) :=
  inferInstanceAs (Decidable (_ ∧ _))

-- A carriage return and its line feed are presented alike.
def NewlineWhole (o : RenderOptions) (a b : Cell) : Prop :=
  a.char = '\r' → b.char = '\n' → SamePresentation o a b

instance (o : RenderOptions) (a b : Cell) : Decidable (NewlineWhole o a b) :=
  inferInstanceAs (Decidable (_ → _ → _))

def NewlinesWhole (o : RenderOptions) (cells : List Cell) : Prop := cells.IsChain (NewlineWhole o)

def PlainCell (cell : Cell) : Prop := cell.shown = [.Visible cell.char]

theorem changeItems_eq_nil_iff (a b : Cell) :
    (pen.after o a).changeItems o b.style b.link = [] ↔ SamePresentation o a b := by
  have hlink : linkChangeItems a.link b.link = [] ↔ a.link = b.link := by
    unfold linkChangeItems
    cases a.link <;> cases b.link <;> simp
  have hansi : ansiItems b.style o.color = [] ↔ o.color = .None := by
    unfold ansiItems renditions
    split <;> simp_all
  have hstyle : (if a.style = b.style then [] else ansiItems b.style o.color) = [] ↔
      (a.style = b.style ∨ o.color = .None) := by
    split
    · simp_all
    · rename_i hne
      rw [hansi]
      simp [hne]
  show linkChangeItems a.link b.link ++
    (if a.style = b.style then [] else ansiItems b.style o.color) = [] ↔ _
  rw [List.append_eq_nil_iff, hlink, hstyle, SamePresentation]

-- The characters that remain of the cells, before line feeds are expanded.
def dropReturnCells (o : RenderOptions) : List Cell → List Char
  | [] => []
  | a :: cells =>
      if a.char = '\r' ∧ ∃ b ∈ cells.head?, b.char = '\n' ∧ SamePresentation o a b then
        dropReturnCells o cells
      else a.char :: dropReturnCells o cells

theorem head_strokes (a : Cell) (cells : List Cell) (hc : ∀ cell ∈ cells, PlainCell cell) :
    (strokes o (pen.after o a) cells).head? = some (.Visible '\n') ↔
      ∃ b ∈ cells.head?, b.char = '\n' ∧ SamePresentation o a b := by
  cases cells with
  | nil => simp [strokes]
  | cons b cells =>
      have hplain : b.shown = [.Visible b.char] := hc b List.mem_cons_self
      have hcontrols := isControlItem_change o (pen.after o a) b.style b.link
      have hnil := changeItems_eq_nil_iff o pen a b
      rw [strokes, hplain]
      cases hchange : (pen.after o a).changeItems o b.style b.link with
      | nil =>
          rw [hchange] at hnil
          simp [hnil.mp rfl]
      | cons item items =>
          have hsame : ¬ SamePresentation o a b := by
            rw [← hnil, hchange]
            simp
          have hitem := hcontrols item (by simp [hchange])
          have hne : item ≠ .Visible '\n' := by
            rintro rfl
            simp [isControlItem] at hitem
          simp [hsame, hne]

theorem visible_dropReturnItems (hc : ∀ cell ∈ cells, PlainCell cell) :
    visible (dropReturnItems (strokes o pen cells)) = dropReturnCells o cells := by
  induction cells generalizing pen with
  | nil => rfl
  | cons a cells ih =>
      have hrest : ∀ cell ∈ cells, PlainCell cell :=
        fun cell hcell => hc cell (List.mem_cons_of_mem a hcell)
      have hplain : a.shown = [.Visible a.char] := hc a List.mem_cons_self
      have hcontrols := isControlItem_change o pen a.style a.link
      rw [strokes, hplain, List.append_assoc, dropReturnItems_controls _ _ hcontrols,
        visible_append, visible_controls _ hcontrols, List.nil_append, List.singleton_append,
        dropReturnItems, dropReturnCells]
      simp only [Item.Visible.injEq, head_strokes o pen a cells hrest]
      split
      · exact ih _ hrest
      · rw [visible, ih _ hrest]

theorem addReturns_cons (c : Char) (text : List Char) :
    addReturns (c :: text) = addReturns [c] ++ addReturns text := by
  simp [addReturns]

theorem addReturns_append (text rest : List Char) :
    addReturns (text ++ rest) = addReturns text ++ addReturns rest := List.flatMap_append

theorem visible_addReturnItems (hs : AllSafe items) :
    visible (items.flatMap addReturnItem) = addReturns (visible items) := by
  induction items with
  | nil => rfl
  | cons item items ih =>
      obtain ⟨hitem, hrest⟩ := (allSafe_cons _ _).mp hs
      rw [List.flatMap_cons, visible_append, ih hrest]
      cases item with
      | Visible c =>
          rw [visible, addReturns_cons]
          congr 1
          by_cases hc : c = '\n'
          · rw [hc]
            rfl
          · simp [addReturnItem, addReturns, hc, visible]
      | Rendition parameters => rfl
      | LinkOpen uri => rfl
      | LinkClose => rfl
      | Picture tag =>
          have hseq := (Item.Picture tag).sequence_text hitem (by simp)
          have htag : addReturns (tag.drop 4) = tag.drop 4 :=
            addReturns_eq_self _ (fun c hc => (hseq.1 c (List.mem_of_mem_drop hc)).2)
          rw [visible, addReturns_append, htag]
          simp [addReturnItem, visible]

theorem groupText_eq (hp : ∀ cell ∈ cells, PlainCell cell)
    (hg : ∀ cell ∈ cells, cell.Good) : groupText o cells = addReturns (dropReturnCells o cells) := by
  have hsafe := strokes_safe o Pen.default cells (fun cell hc => (hg cell hc).safe)
  rw [groupText, normalizedItems, visible_addReturnItems _ (dropReturnItems_safe _ hsafe),
    visible_dropReturnItems o Pen.default cells hp]

def chars (cells : List Cell) : List Char := cells.map Cell.char

-- How many line ends are taken apart by a change of presentation.
def broken (o : RenderOptions) : List Cell → Nat
  | [] => 0
  | a :: cells => (if ∀ b ∈ cells.head?, NewlineWhole o a b then 0 else 1) + broken o cells

theorem broken_eq_zero_iff : broken o cells = 0 ↔ NewlinesWhole o cells := by
  induction cells with
  | nil => simp [broken, NewlinesWhole]
  | cons a cells ih =>
      rw [broken, NewlinesWhole, List.isChain_cons, ← NewlinesWhole, ← ih]
      by_cases h : ∀ b ∈ cells.head?, NewlineWhole o a b
      · rw [if_pos h, Nat.zero_add]
        exact ⟨fun hrest => ⟨h, hrest⟩, fun hboth => hboth.2⟩
      · rw [if_neg h]
        constructor
        · intro hsum
          omega
        · intro hboth
          exact absurd hboth.1 h

-- The renderer drops a carriage return only where the text does, and where it does not
-- although the text does, a line end is taken apart.
theorem head_cases (a : Cell) (cells : List Cell) :
    ((a.char = '\r' ∧ ∃ b ∈ cells.head?, b.char = '\n' ∧ SamePresentation o a b) →
        a.char = '\r' ∧ (chars cells).head? = some '\n') ∧
      ((∀ b ∈ cells.head?, NewlineWhole o a b) ↔
        ((a.char = '\r' ∧ (chars cells).head? = some '\n') →
          a.char = '\r' ∧ ∃ b ∈ cells.head?, b.char = '\n' ∧ SamePresentation o a b)) := by
  have hhead : (chars cells).head? = cells.head?.map Cell.char := by
    rw [chars, List.head?_map]
  rw [hhead]
  cases cells.head? with
  | none => simp
  | some b =>
      simp only [Option.mem_def, Option.some.injEq, exists_eq_left', forall_eq', Option.map_some,
        NewlineWhole]
      tauto

-- Every line end that is taken apart keeps one more carriage return.
theorem utf8Len_dropReturnCells : utf8Len (addReturns (dropReturnCells o cells)) =
      utf8Len (addReturns (dropReturns (chars cells))) + broken o cells := by
  induction cells with
  | nil => rfl
  | cons a cells ih =>
      have hreturn : utf8Len (addReturns ['\r']) = 1 := by decide
      have hchars : chars (a :: cells) = a.char :: chars cells := rfl
      obtain ⟨hdrop, hwhole⟩ := head_cases o a cells
      rw [hchars, dropReturnCells, dropReturns, broken]
      by_cases htext : a.char = '\r' ∧ (chars cells).head? = some '\n'
      · by_cases hcells : a.char = '\r' ∧ ∃ b ∈ cells.head?, b.char = '\n' ∧ SamePresentation o a b
        · rw [if_pos htext, if_pos hcells, if_pos (hwhole.mpr (fun _ => hcells)), ih]
          omega
        · rw [if_pos htext, if_neg hcells, if_neg (fun h => hcells (hwhole.mp h htext)),
            addReturns_cons, utf8Len_append, htext.1, hreturn, ih]
          omega
      · rw [if_neg htext, if_neg (fun h => htext (hdrop h)),
          if_pos (hwhole.mpr (fun h => absurd h htext)), addReturns_cons,
          addReturns_cons a.char (dropReturns _), utf8Len_append, utf8Len_append, ih]
        omega

theorem dropReturnCells_whole
    (hw : NewlinesWhole o cells) : dropReturnCells o cells = dropReturns (chars cells) := by
  induction cells with
  | nil => rfl
  | cons a cells ih =>
      have hchars : chars (a :: cells) = a.char :: chars cells := rfl
      obtain ⟨hdrop, hwhole⟩ := head_cases o a cells
      rw [NewlinesWhole, List.isChain_cons] at hw
      have hrest := ih hw.2
      rw [hchars, dropReturnCells, dropReturns]
      by_cases htext : a.char = '\r' ∧ (chars cells).head? = some '\n'
      · rw [if_pos htext, if_pos (hwhole.mp hw.1 htext), hrest]
      · rw [if_neg htext, if_neg (fun h => htext (hdrop h)), hrest]

-- The text a list of graphemes shows is the encoded text, but for the line ends taken apart.
theorem utf8Len_groups (hp : ∀ group ∈ groups, ∀ cell ∈ group, PlainCell cell)
    (hg : ∀ group ∈ groups, ∀ cell ∈ group, cell.Good) : utf8Len (groups.flatMap (groupText o)) =
      utf8Len (groups.flatMap (fun group => normalized (chars group))) +
        (groups.map (broken o)).sum := by
  induction groups with
  | nil => rfl
  | cons group groups ih =>
      have hrest := ih (fun other ho => hp other (List.mem_cons_of_mem group ho))
        (fun other ho => hg other (List.mem_cons_of_mem group ho))
      have hgroup := groupText_eq o group (hp group List.mem_cons_self) (hg group List.mem_cons_self)
      have hlen := utf8Len_dropReturnCells o group
      simp only [List.flatMap_cons, utf8Len_append, List.map_cons, List.sum_cons, hrest, hgroup, hlen,
        normalized]
      omega

theorem groups_whole (hp : ∀ group ∈ groups, ∀ cell ∈ group, PlainCell cell)
    (hg : ∀ group ∈ groups, ∀ cell ∈ group, cell.Good)
    (hw : ∀ group ∈ groups, NewlinesWhole o group) :
    groups.flatMap (groupText o) = groups.flatMap (fun group => normalized (chars group)) := by
  induction groups with
  | nil => rfl
  | cons group groups ih =>
      have hrest := ih (fun other ho => hp other (List.mem_cons_of_mem group ho))
        (fun other ho => hg other (List.mem_cons_of_mem group ho))
        (fun other ho => hw other (List.mem_cons_of_mem group ho))
      rw [List.flatMap_cons, List.flatMap_cons, hrest,
        groupText_eq o group (hp group List.mem_cons_self) (hg group List.mem_cons_self),
        dropReturnCells_whole o group (hw group List.mem_cons_self)]
      rfl

theorem dropReturns_split {first rest : List Char}
    (h : ¬(first.getLast? = some '\r' ∧ rest.head? = some '\n')) :
    dropReturns (first ++ rest) = dropReturns first ++ dropReturns rest := by
  induction first with
  | nil => rfl
  | cons c first ih =>
      cases first with
      | nil =>
          have hc : ¬(c = '\r' ∧ rest.head? = some '\n') := by simpa using h
          rw [List.singleton_append, dropReturns, if_neg hc]
          simp [dropReturns]
      | cons d first =>
          have hrest := ih (by simpa using h)
          have hstep : ∀ text : List Char, dropReturns (c :: d :: text) =
              if c = '\r' ∧ some d = some '\n' then dropReturns (d :: text)
              else c :: dropReturns (d :: text) := fun _ => rfl
          rw [List.cons_append] at hrest
          rw [List.cons_append, List.cons_append, hstep, hstep, hrest]
          split <;> rfl

theorem normalized_flatten (hne : ∀ g ∈ gs, g ≠ [])
    (hc : gs.IsChain (fun g next => ¬(g.getLast? = some '\r' ∧ next.head? = some '\n'))) :
    normalized gs.flatten = gs.flatMap normalized := by
  induction gs with
  | nil => rfl
  | cons g gs ih =>
      rw [List.isChain_cons] at hc
      have hrest := ih (fun other ho => hne other (List.mem_cons_of_mem g ho)) hc.2
      have hseam : ¬(g.getLast? = some '\r' ∧ gs.flatten.head? = some '\n') := by
        cases gs with
        | nil => simp
        | cons next gs =>
            have hnext := hc.1 next rfl
            have hhead : (next :: gs).flatten.head? = next.head? := by
              rw [List.flatten_cons, List.head?_append_of_ne_nil]
              exact hne next (by simp)
            rwa [hhead]
      rw [List.flatten_cons, List.flatMap_cons, ← hrest, normalized, dropReturns_split hseam,
        addReturns_append, normalized, normalized]

theorem chars_groupCells (h : chars cells = gs.flatten) : (groupCells gs cells).map chars = gs := by
  induction gs generalizing cells with
  | nil => rfl
  | cons g gs ih =>
      have htake : chars (cells.take g.length) = g := by
        rw [chars, List.map_take, ← chars, h, List.flatten_cons, List.take_left]
      have hdrop : chars (cells.drop g.length) = gs.flatten := by
        rw [chars, List.map_drop, ← chars, h, List.flatten_cons, List.drop_left]
      rw [groupCells, List.map_cons, htake, ih _ hdrop]

theorem flatten_groupCells
    (h : cells.length = gs.flatten.length) : (groupCells gs cells).flatten = cells := by
  induction gs generalizing cells with
  | nil => exact (List.length_eq_zero_iff.mp h).symm
  | cons g gs ih =>
      have hdrop : (cells.drop g.length).length = gs.flatten.length := by
        rw [List.length_drop, h, List.flatten_cons, List.length_append]
        omega
      rw [groupCells, List.flatten_cons, ih _ hdrop, List.take_append_drop]

-- A grapheme boundary never lies inside a line end, so whole line ends can be checked one
-- grapheme at a time.
theorem groups_newlinesWhole (hne : ∀ group ∈ groups, group ≠ []) (hc : (groups.map chars).IsChain
      (fun g next => ¬(g.getLast? = some '\r' ∧ next.head? = some '\n'))) :
    NewlinesWhole o groups.flatten ↔ ∀ group ∈ groups, NewlinesWhole o group := by
  have hnil : [] ∉ groups := fun h => hne [] h rfl
  rw [NewlinesWhole, List.isChain_flatten hnil]
  constructor
  · exact fun h => h.1
  · intro h
    refine ⟨h, ?_⟩
    rw [List.isChain_map] at hc
    refine hc.imp ?_
    intro group next hseam x hx y hy hreturn hfeed
    refine absurd ⟨?_, ?_⟩ hseam
    · rw [chars, List.getLast?_map, hx, Option.map_some, hreturn]
    · rw [chars, List.head?_map, hy, Option.map_some, hfeed]

end StompyMux.StyledText
