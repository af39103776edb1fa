import StompyMux.StyledText.Output

-- The renderer seen character by character: a cell is one character of the visible text
-- with the presentation it belongs to and what is sent for it.
namespace StompyMux.StyledText

open Library.Text
open StompyMux.Telnet

structure Cell where
  char : Char
  style : Style
  link : Option (List Char)
  shown : List Item

def cellShown (picture : Picture) (offset : Nat) (c : Char) : List Item :=
  match picture with
  | .Text => [.Visible c]
  | .Tag tag => if offset = 0 then [.Picture tag] else []
  | .Continued => []

def cellsFrom (span : Prepared) (offset : Nat) : List Char → List Cell
  | [] => []
  | c :: text =>
      ⟨c, span.style, span.link, cellShown span.picture offset c⟩ :: cellsFrom span (offset + 1) text

def spanCells (spans : List Prepared) : List Cell :=
  spans.flatMap (fun span => cellsFrom span 0 span.text)

def Cursor.cells (cursor : Cursor) : List Cell :=
  match cursor.spans with
  | [] => []
  | span :: spans => cellsFrom span cursor.offset (span.text.drop cursor.offset) ++ spanCells spans

def Cursor.Valid (cursor : Cursor) : Prop :=
  ∀ span ∈ cursor.spans.head?, cursor.offset ≤ span.text.length

def linkChangeItems (current next : Option (List Char)) : List Item :=
  if current = next then []
  else
    (if current.isSome then [.LinkClose] else []) ++
      match next with
      | some uri => [.LinkOpen uri]
      | none => []

def ansiItems (s : Style) (depth : ColorDepth) : List Item :=
  if depth = .None then [] else (renditions s depth).map .Rendition

def Pen.changeItems (o : RenderOptions) (pen : Pen) (style : Style) (link : Option (List Char)) :
    List Item :=
  linkChangeItems pen.link link ++ if pen.style = style then [] else ansiItems style o.color

def Pen.after (o : RenderOptions) (pen : Pen) (cell : Cell) : Pen :=
  pen.changed o cell.style cell.link

-- What is sent for the cells.
def strokes (o : RenderOptions) (pen : Pen) : List Cell → List Item
  | [] => []
  | cell :: cells =>
      pen.changeItems o cell.style cell.link ++ cell.shown ++ strokes o (pen.after o cell) cells

def penAfter (o : RenderOptions) (pen : Pen) (cells : List Cell) : Pen :=
  cells.foldl (Pen.after o) pen

theorem itemsText_linkChange (current next : Option (List Char)) :
    itemsText (linkChangeItems current next) = linkChange current next := by
  unfold linkChangeItems linkChange
  split
  · rfl
  · cases next <;> (split <;> simp [Item.text])

variable (span : Prepared) (offset : Nat) (p : Palette) (o : RenderOptions) (pen : Pen)
  (style : Style) (link : Option (List Char)) (s : Style) (depth : ColorDepth) (text : List Char)
  (previous : Option Image) (spans : List Span)

theorem itemsText_ansi : itemsText (ansiItems s depth) = ansi s depth := by
  unfold ansiItems ansi
  split
  · rfl
  · rw [itemsText, List.flatMap_map]
    rfl

theorem itemsText_change : itemsText (pen.changeItems o style link) = pen.change o style link := by
  rw [Pen.changeItems, Pen.change, itemsText_append, itemsText_linkChange]
  congr 1
  split
  · rfl
  · exact itemsText_ansi style o.color

-- A second change to the same presentation sends nothing.
theorem changeItems_changed : (pen.changed o style link).changeItems o style link = [] := by
  simp [Pen.changeItems, Pen.changed, linkChangeItems]

theorem changed_changed :
    (pen.changed o style link).changed o style link = pen.changed o style link := by
  simp [Pen.changed]

def shownItems (cells : List Cell) : List Item := cells.flatMap Cell.shown

theorem strokes_same
    (cells : List Cell) (hc : ∀ cell ∈ cells, cell.style = style ∧ cell.link = link) :
    strokes o (pen.changed o style link) cells = shownItems cells ∧
      penAfter o (pen.changed o style link) cells = pen.changed o style link := by
  induction cells with
  | nil => exact ⟨rfl, rfl⟩
  | cons cell cells ih =>
      obtain ⟨hstyle, hlink⟩ := hc cell List.mem_cons_self
      have hrest := ih (fun other ho => hc other (List.mem_cons_of_mem cell ho))
      have hafter : (pen.changed o style link).after o cell = pen.changed o style link := by
        rw [Pen.after, hstyle, hlink, changed_changed]
      constructor
      · rw [strokes, hafter, hstyle, hlink, changeItems_changed, hrest.1]
        rfl
      · rw [penAfter, List.foldl_cons, hafter]
        exact hrest.2

theorem strokes_span (cells : List Cell) (hne : cells ≠ [])
    (hc : ∀ cell ∈ cells, cell.style = style ∧ cell.link = link) :
    strokes o pen cells = pen.changeItems o style link ++ shownItems cells ∧
      penAfter o pen cells = pen.changed o style link := by
  cases cells with
  | nil => exact absurd rfl hne
  | cons cell cells =>
      obtain ⟨hstyle, hlink⟩ := hc cell List.mem_cons_self
      have hrest := strokes_same o pen style link cells
        (fun other ho => hc other (List.mem_cons_of_mem cell ho))
      have hafter : pen.after o cell = pen.changed o style link := by
        rw [Pen.after, hstyle, hlink]
      constructor
      · rw [strokes, hafter, hstyle, hlink, hrest.1, List.append_assoc]
        rfl
      · rw [penAfter, List.foldl_cons, hafter]
        exact hrest.2

theorem strokes_append (cells rest : List Cell) : strokes o pen (cells ++ rest) =
      strokes o pen cells ++ strokes o (penAfter o pen cells) rest := by
  induction cells generalizing pen with
  | nil => rfl
  | cons cell cells ih =>
      rw [List.cons_append, strokes, strokes, ih]
      simp only [List.append_assoc]
      rfl

theorem penAfter_append (cells rest : List Cell) :
    penAfter o pen (cells ++ rest) = penAfter o (penAfter o pen cells) rest :=
  List.foldl_append

theorem length_cellsFrom : (cellsFrom span offset text).length = text.length := by
  induction text generalizing offset with
  | nil => rfl
  | cons c text ih => rw [cellsFrom, List.length_cons, List.length_cons, ih]

theorem mem_cellsFrom {cell : Cell} (hc : cell ∈ cellsFrom span offset text) :
    cell.style = span.style ∧ cell.link = span.link ∧
      ∃ position c, c ∈ text ∧ cell.char = c ∧ cell.shown = cellShown span.picture position c := by
  induction text generalizing offset with
  | nil => simp [cellsFrom] at hc
  | cons c text ih =>
      rcases List.mem_cons.mp hc with rfl | hc
      · exact ⟨rfl, rfl, offset, c, List.mem_cons_self, rfl, rfl⟩
      · obtain ⟨hstyle, hlink, position, d, hd, hshown⟩ := ih (offset + 1) hc
        exact ⟨hstyle, hlink, position, d, List.mem_cons_of_mem c hd, hshown⟩

theorem cellsFrom_append (text rest : List Char) : cellsFrom span offset (text ++ rest) =
      cellsFrom span offset text ++ cellsFrom span (offset + text.length) rest := by
  induction text generalizing offset with
  | nil => rfl
  | cons c text ih =>
      rw [List.cons_append, cellsFrom, cellsFrom, ih, List.length_cons, List.cons_append]
      congr 3
      omega

-- Past its first character a tag shows nothing more.
theorem shownItems_later (ho : offset ≠ 0) : itemsText (shownItems (cellsFrom span offset text)) =
      match span.picture with
      | .Text => text
      | .Tag _ => []
      | .Continued => [] := by
  induction text generalizing offset with
  | nil => cases span.picture <;> rfl
  | cons c text ih =>
      have hrest := ih (offset + 1) (by omega)
      rw [cellsFrom, shownItems, List.flatMap_cons, itemsText_append, ← shownItems, hrest]
      cases span.picture with
      | Text => rfl
      | Tag tag => simp [cellShown, ho]
      | Continued => rfl

theorem itemsText_shownItems (ht : text ≠ []) :
    itemsText (shownItems (cellsFrom span offset text)) = match span.picture with
      | .Text => text
      | .Tag tag => if offset = 0 then tag else []
      | .Continued => [] := by
  cases text with
  | nil => exact absurd rfl ht
  | cons c text =>
      rw [cellsFrom, shownItems, List.flatMap_cons, itemsText_append, ← shownItems,
        shownItems_later span (offset + 1) text (by omega)]
      cases span.picture with
      | Text => rfl
      | Tag tag =>
          by_cases ho : offset = 0
          · simp [cellShown, ho, Item.text]
          · simp [cellShown, ho]
      | Continued => rfl

theorem skipFinished_spec (spans : List Prepared) (offset : Nat)
    (hv : (⟨spans, offset⟩ : Cursor).Valid) :
    (skipFinished spans offset).cells = (⟨spans, offset⟩ : Cursor).cells ∧
      ∀ span ∈ (skipFinished spans offset).spans.head?,
        (skipFinished spans offset).offset < span.text.length := by
  induction spans generalizing offset with
  | nil => exact ⟨rfl, by simp [skipFinished]⟩
  | cons span spans ih =>
      unfold skipFinished
      split
      · rename_i ho
        have hnext : (⟨spans, 0⟩ : Cursor).Valid := fun _ _ => Nat.zero_le _
        obtain ⟨hcells, hroom⟩ := ih 0 hnext
        refine ⟨?_, hroom⟩
        rw [hcells]
        simp only [Cursor.cells, ho, List.drop_length, cellsFrom, List.nil_append]
        cases spans with
        | nil => rfl
        | cons next spans => rfl
      · rename_i ho
        have hle := hv span rfl
        have hlt : offset < span.text.length := by
          change offset ≤ span.text.length at hle
          omega
        refine ⟨rfl, ?_⟩
        intro other hother
        rw [← Option.some.inj hother]
        exact hlt

theorem pieceText_eq {offset n : Nat} (hn : 0 < n) (hlen : offset < span.text.length) :
    pieceText span offset n =
      itemsText (shownItems (cellsFrom span offset ((span.text.drop offset).take n))) := by
  have hne : (span.text.drop offset).take n ≠ [] := by
    intro h
    have hzero := congrArg List.length h
    simp only [List.length_take, List.length_drop, List.length_nil] at hzero
    omega
  rw [itemsText_shownItems span offset _ hne]
  rfl

theorem cells_piece (spans : List Prepared) {offset n : Nat} (hn : n ≤ span.text.length - offset) :
    (⟨span :: spans, offset⟩ : Cursor).cells =
      cellsFrom span offset ((span.text.drop offset).take n) ++
        (⟨span :: spans, offset + n⟩ : Cursor).cells := by
  have hdrop : span.text.drop offset =
      (span.text.drop offset).take n ++ span.text.drop (offset + n) := by
    rw [← List.drop_drop, List.take_append_drop]
  have hlen : ((span.text.drop offset).take n).length = n := by
    rw [List.length_take, List.length_drop]
    omega
  have hcells : cellsFrom span offset (span.text.drop offset) =
      cellsFrom span offset ((span.text.drop offset).take n) ++
        cellsFrom span (offset + n) (span.text.drop (offset + n)) := by
    conv_lhs => rw [hdrop]
    rw [cellsFrom_append, hlen]
  simp only [Cursor.cells]
  rw [hcells, List.append_assoc]

structure Composed (o : RenderOptions) (cells : List Cell) (draft result : Draft) : Prop where
  candidate : result.candidate = draft.candidate ++ itemsText (strokes o draft.pen cells)
  pen : result.pen = penAfter o draft.pen cells
  valid : result.cursor.Valid

theorem compose_spec (fuel remaining : Nat) (draft : Draft)
    (cells rest : List Cell) (hf : remaining ≤ fuel) (hv : draft.cursor.Valid)
    (hc : draft.cursor.cells = cells ++ rest) (hr : cells.length = remaining) :
    Composed o cells draft (compose o fuel remaining draft) ∧
      (compose o fuel remaining draft).cursor.cells = rest := by
  induction fuel generalizing remaining draft cells with
  | zero =>
      have hnil : cells = [] := List.length_eq_zero_iff.mp (by omega)
      subst hnil
      exact ⟨⟨by simp [compose, strokes], rfl, hv⟩, hc⟩
  | succ fuel ih =>
      by_cases hzero : remaining = 0
      · have hnil : cells = [] := List.length_eq_zero_iff.mp (by omega)
        subst hnil
        rw [compose, if_pos hzero]
        exact ⟨⟨by simp [strokes], rfl, hv⟩, hc⟩
      obtain ⟨hskip, hroom⟩ := skipFinished_spec _ _ hv
      rw [compose, if_neg hzero]
      cases hcursor : skipFinished draft.cursor.spans draft.cursor.offset with
      | mk spans offset =>
          rw [hcursor] at hskip hroom
          have hall : (⟨spans, offset⟩ : Cursor).cells = cells ++ rest := hskip.trans hc
          cases spans with
          | nil =>
              -- no cell is left although some are still to come
              have hlen := congrArg List.length hall
              simp only [Cursor.cells, List.length_nil, List.length_append] at hlen
              omega
          | cons span spans =>
              have hlt : offset < span.text.length := hroom span rfl
              have hn : 0 < min remaining (span.text.length - offset) := by omega
              generalize hpiece : min remaining (span.text.length - offset) = n at hn
              have hns : n ≤ span.text.length - offset := by omega
              -- the cells of this piece come first
              have hhead := cells_piece span spans hns
              rw [hall] at hhead
              have hlen : (cellsFrom span offset ((span.text.drop offset).take n)).length = n := by
                rw [length_cellsFrom, List.length_take, List.length_drop]
                omega
              have hprefix : cellsFrom span offset ((span.text.drop offset).take n) <+: cells :=
                List.prefix_of_prefix_length_le ⟨_, hhead.symm⟩ (List.prefix_append cells rest)
                  (by omega)
              obtain ⟨later, hlater⟩ := hprefix
              rw [← hlater, List.append_assoc] at hhead
              have htail := List.append_cancel_left hhead
              obtain ⟨hstrokes, hpen⟩ := strokes_span o draft.pen span.style span.link
                (cellsFrom span offset ((span.text.drop offset).take n))
                (fun h => by simp [h] at hlen; omega)
                (fun cell hcell => ⟨(mem_cellsFrom _ _ _ hcell).1, (mem_cellsFrom _ _ _ hcell).2.1⟩)
              have hvalid : (⟨span :: spans, offset + n⟩ : Cursor).Valid := by
                intro other hother
                rw [← Option.some.inj hother]
                show offset + n ≤ span.text.length
                omega
              dsimp only
              rw [hpiece]
              obtain ⟨hcomposed, hrest⟩ := ih (remaining - n)
                ⟨draft.candidate ++ draft.pen.change o span.style span.link ++ pieceText span offset n,
                  draft.pen.changed o span.style span.link, ⟨span :: spans, offset + n⟩⟩
                later (by omega) hvalid htail.symm
                (by rw [← hr, ← hlater, List.length_append]; omega)
              refine ⟨⟨?_, ?_, hcomposed.valid⟩, hrest⟩
              · rw [hcomposed.candidate, ← hlater, strokes_append, hpen, hstrokes,
                  itemsText_append, itemsText_append, itemsText_change,
                  ← pieceText_eq span hn hlt]
                simp only [List.append_assoc]
              · rw [hcomposed.pen, ← hlater, penAfter_append, hpen]

theorem joined_isParameter (parameters : List Nat) (c : Char) (hc : c ∈ joined parameters) :
    Item.isParameter c := by
  rcases mem_intercalate ';' _ c hc with rfl | ⟨part, hpart, hc⟩
  · decide
  · obtain ⟨n, -, rfl⟩ := List.mem_map.mp hpart
    simp [Item.isParameter, isDigit_of_mem_decimal n c hc]

theorem groundColor_joined {rgb : Option Rgb} {index : Option UInt8} {bg : Bool}
    {depth : ColorDepth} {text : List Char} (ht : text ∈ groundColor rgb index bg depth) :
    ∃ parameters, text = joined parameters := by
  unfold groundColor at ht
  split at ht
  · exact ⟨_, List.mem_singleton.mp ht⟩
  · rw [List.mem_singleton.mp ht]
    unfold color
    cases depth <;> exact ⟨_, rfl⟩
  · simp at ht

theorem renditions_joined
    (ht : text ∈ renditions s depth) : ∃ parameters, text = joined parameters := by
  simp only [renditions, List.mem_append, List.mem_singleton] at ht
  rcases ht with ((ht | ht) | ht) | ht
  · exact ⟨_, ht⟩
  · obtain ⟨flag, -, rfl⟩ := List.mem_map.mp ht
    exact ⟨_, rfl⟩
  · exact groundColor_joined ht
  · exact groundColor_joined ht

theorem ansiItems_safe : AllSafe (ansiItems s depth) := by
  unfold ansiItems
  split
  · exact allSafe_nil
  · intro item hitem
    obtain ⟨text, ht, rfl⟩ := List.mem_map.mp hitem
    obtain ⟨parameters, rfl⟩ := renditions_joined s depth text ht
    exact joined_isParameter parameters

-- A target that can be sent.
def IsTarget (link : Option (List Char)) : Prop := ∀ uri ∈ link, uri ≠ [] ∧ IsUri uri

theorem isTarget_open {uri : List Char} (hu : uri ≠ [] ∧ IsUri uri) : (Item.LinkOpen uri).Safe := by
  refine ⟨hu.1, ?_⟩
  intro b hb
  obtain ⟨c, hc, hbytes⟩ := mem_utf8 uri hb
  have hprintable := isUriChar_printable c (hu.2 c hc)
  have hlow := hprintable.low
  have hhigh := hprintable.high
  rw [UInt8.le_iff_toNat_le, UInt8.lt_iff_toNat_lt, show (0x20 : UInt8).toNat = 32 from rfl,
    show (0x7F : UInt8).toNat = 127 from rfl]
  omega

theorem linkChangeItems_safe (current next : Option (List Char)) (hn : IsTarget next) :
    AllSafe (linkChangeItems current next) := by
  have hclose : AllSafe (if current.isSome then [Item.LinkClose] else []) := by
    split
    · exact (allSafe_cons _ _).mpr ⟨trivial, allSafe_nil⟩
    · exact allSafe_nil
  unfold linkChangeItems
  split
  · exact allSafe_nil
  · refine (allSafe_append _ _).mpr ⟨hclose, ?_⟩
    cases next with
    | none => exact allSafe_nil
    | some uri => exact (allSafe_cons _ _).mpr ⟨isTarget_open (hn uri rfl), allSafe_nil⟩

theorem changeItems_safe (hl : IsTarget link) : AllSafe (pen.changeItems o style link) := by
  refine (allSafe_append _ _).mpr ⟨linkChangeItems_safe pen.link link hl, ?_⟩
  split
  · exact allSafe_nil
  · exact ansiItems_safe style o.color

def Cell.Safe (cell : Cell) : Prop := AllSafe cell.shown ∧ IsTarget cell.link

theorem strokes_safe (cells : List Cell)
    (hc : ∀ cell ∈ cells, cell.Safe) : AllSafe (strokes o pen cells) := by
  induction cells generalizing pen with
  | nil => exact allSafe_nil
  | cons cell cells ih =>
      have hcell := hc cell List.mem_cons_self
      simp only [strokes, allSafe_append]
      exact ⟨⟨changeItems_safe o pen cell.style cell.link hcell.2, hcell.1⟩,
        ih _ (fun other ho => hc other (List.mem_cons_of_mem cell ho))⟩

structure Prepared.Safe (span : Prepared) : Prop where
  text : IsShown span.text
  link : IsTarget span.link
  picture : ∀ tag, span.picture = .Tag tag → (Item.Picture tag).Safe

theorem presentation_isTarget (span : Span) : IsTarget (presentation p o span).2 := by
  unfold presentation
  split
  · rename_i link hlink
    intro uri huri
    exact ⟨link.uri_ne_nil p o huri, link.uri_isUri p o huri⟩
  · split
    · rename_i image himage
      split
      · rename_i h
        intro uri huri
        rw [← Option.some.inj huri]
        exact ⟨external_ne_nil _ (image.isValid_external h.1), image.isValid_isUri h.1⟩
      · simp [IsTarget]
    · simp [IsTarget]

theorem picture_safe {span : Span} {tag : List Char}
    (h : picture o previous span = .Tag tag) : (Item.Picture tag).Safe := by
  unfold picture at h
  split at h
  · simp at h
  · rename_i image himage
    split_ifs at h with hvalid hprevious
    injection h with h
    refine ⟨image.tagText, image.isTagText_tagText hvalid.1, ?_⟩
    rw [← h]
    simp [Image.mxpTag, Mxp.secureTag, Mxp.TEMP_SECURE]

theorem prepare_safe (hs : AllShown spans) : ∀ span ∈ prepare p o previous spans, span.Safe := by
  induction spans generalizing previous with
  | nil => simp [prepare]
  | cons span spans ih =>
      obtain ⟨hspan, hrest⟩ := (allShown_cons _ _).mp hs
      refine List.forall_mem_cons.mpr ⟨?_, ih span.image hrest⟩
      exact ⟨hspan, presentation_isTarget p o span, fun tag htag => picture_safe o previous htag⟩

theorem spanCells_safe (spans : List Prepared) (hs : ∀ span ∈ spans, span.Safe) :
    ∀ cell ∈ spanCells spans, cell.Safe := by
  intro cell hcell
  obtain ⟨span, hspan, hcell⟩ := List.mem_flatMap.mp hcell
  obtain ⟨-, hlink, position, c, hc, -, hshown⟩ := mem_cellsFrom span 0 span.text hcell
  have hsafe := hs span hspan
  refine ⟨?_, by rw [hlink]; exact hsafe.link⟩
  rw [hshown]
  unfold cellShown
  split
  · exact (allSafe_cons _ _).mpr ⟨hsafe.text c hc, allSafe_nil⟩
  · rename_i tag htag
    split
    · exact (allSafe_cons _ _).mpr ⟨hsafe.picture tag htag, allSafe_nil⟩
    · exact allSafe_nil
  · exact allSafe_nil

-- The cells of a document.
def cellsOf (p : Palette) (o : RenderOptions) (spans : List Span) : List Cell :=
  spanCells (prepare p o none spans)

theorem cellsOf_cursor : (⟨prepare p o none spans, 0⟩ : Cursor).cells = cellsOf p o spans := by
  rw [cellsOf]
  cases prepare p o none spans with
  | nil => rfl
  | cons span spans => rfl

theorem chars_cellsFrom : (cellsFrom span offset text).map Cell.char = text := by
  induction text generalizing offset with
  | nil => rfl
  | cons c text ih => rw [cellsFrom, List.map_cons, ih]

theorem chars_prepare :
    (spanCells (prepare p o previous spans)).map Cell.char = spans.flatMap Span.text := by
  induction spans generalizing previous with
  | nil => rfl
  | cons span spans ih =>
      rw [prepare, spanCells, List.flatMap_cons, List.map_append, chars_cellsFrom, ← spanCells,
        ih span.image, List.flatMap_cons]

theorem chars_cellsOf : (cellsOf p o spans).map Cell.char = spans.flatMap Span.text :=
  chars_prepare p o none spans

end StompyMux.StyledText
