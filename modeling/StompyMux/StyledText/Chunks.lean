import StompyMux.StyledText.Cells

namespace StompyMux.StyledText

open Library.Text
open StompyMux.Telnet

-- What is left when the escape sequences are deleted. The mode switch before a picture's tag
-- is four characters long.
def visible : List Item → List Char
  | [] => []
  | .Visible c :: items => c :: visible items
  | .Picture tag :: items => tag.drop 4 ++ visible items
  | _ :: items => visible items

@[simp] theorem visible_append (items rest : List Item) :
    visible (items ++ rest) = visible items ++ visible rest := by
  induction items with
  | nil => rfl
  | cons item items ih => cases item <;> simp [visible, ih]

def openAfter : Bool → List Item → Bool
  | isOpen, [] => isOpen
  | _, .LinkOpen _ :: items => openAfter true items
  | _, .LinkClose :: items => openAfter false items
  | isOpen, _ :: items => openAfter isOpen items

variable (o : RenderOptions) (pen : Pen) (isOpen : Bool) (style : Style) (link : Option (List Char))
  (limit : Nat) (st : Rendering) (items : List Item) (cells : List Cell)

theorem openAfter_append (items rest : List Item) :
    openAfter isOpen (items ++ rest) = openAfter (openAfter isOpen items) rest := by
  induction items generalizing isOpen with
  | nil => rfl
  | cons item items ih => cases item <;> simp [openAfter, ih]

-- Items that set a style or touch a link are the controls; the others leave both alone.
def isControlItem : Item → Bool
  | .Visible _ | .Picture _ => false
  | _ => true

theorem openAfter_controls (items rest : List Item)
    (h : items.filter isControlItem = rest.filter isControlItem) :
    openAfter isOpen items = openAfter isOpen rest := by
  have hfilter : ∀ (b : Bool) (list : List Item),
      openAfter b list = openAfter b (list.filter isControlItem) := by
    intro b list
    induction list generalizing b with
    | nil => rfl
    | cons item list ih => cases item <;> exact ih _
  rw [hfilter isOpen items, hfilter isOpen rest, h]

theorem controls_normalized :
    (normalizedItems items).filter isControlItem = items.filter isControlItem := by
  have hdrop : ∀ list : List Item,
      (dropReturnItems list).filter isControlItem = list.filter isControlItem := by
    intro list
    induction list with
    | nil => rfl
    | cons item list ih =>
        unfold dropReturnItems
        split
        · rename_i h
          rw [ih, h.1]
          rfl
        · rw [List.filter_cons, List.filter_cons, ih]
  have hadd : ∀ list : List Item,
      (list.flatMap addReturnItem).filter isControlItem = list.filter isControlItem := by
    intro list
    induction list with
    | nil => rfl
    | cons item list ih =>
        rw [List.flatMap_cons, List.filter_append, ih, addReturnItem]
        split
        · rename_i h
          rw [h]
          rfl
        · rw [List.filter_cons, List.filter_cons]
          split <;> rfl
  rw [normalizedItems, hadd, hdrop]

def HasRendition (items : List Item) : Prop := ∃ parameters, .Rendition parameters ∈ items

theorem hasRendition_append (items rest : List Item) :
    HasRendition (items ++ rest) ↔ HasRendition items ∨ HasRendition rest := by
  simp only [HasRendition, List.mem_append, exists_or]

theorem hasRendition_normalized : HasRendition (normalizedItems items) ↔ HasRendition items := by
  have hmem : ∀ (list : List Item) (parameters : List Char),
      .Rendition parameters ∈ list ↔ .Rendition parameters ∈ list.filter isControlItem := by
    intro list parameters
    simp [List.mem_filter, isControlItem]
  unfold HasRendition
  simp only [hmem (normalizedItems items), hmem items, controls_normalized]

theorem openAfter_linkChange (current next : Option (List Char)) :
    openAfter current.isSome (linkChangeItems current next) = next.isSome := by
  unfold linkChangeItems
  split
  · rename_i h
    rw [h]
    rfl
  · cases current <;> cases next <;> rfl

theorem openAfter_ansi (s : Style) (depth : ColorDepth) :
    openAfter isOpen (ansiItems s depth) = isOpen := by
  have hmap : ∀ list : List (List Char), openAfter isOpen (list.map .Rendition) = isOpen := by
    intro list
    induction list with
    | nil => rfl
    | cons text list ih => exact ih
  unfold ansiItems
  split
  · rfl
  · exact hmap _

theorem openAfter_change :
    openAfter pen.link.isSome (pen.changeItems o style link) = link.isSome := by
  rw [Pen.changeItems, openAfter_append, openAfter_linkChange]
  split
  · rfl
  · exact openAfter_ansi _ style o.color

theorem hasRendition_change (h : HasRendition (pen.changeItems o style link)) :
    (pen.changed o style link).styled := by
  have hlink : ¬ HasRendition (linkChangeItems pen.link link) := by
    unfold HasRendition linkChangeItems
    split
    · simp
    · cases link <;> (split <;> simp)
  rw [Pen.changeItems, hasRendition_append] at h
  rcases h with h | h
  · exact absurd h hlink
  · unfold Pen.changed
    split at h
    · simp [HasRendition] at h
    · rename_i hstyle
      rw [if_neg hstyle]
      unfold ansiItems at h
      split at h
      · simp [HasRendition] at h
      · rename_i hdepth
        simpa using hdepth

theorem styled_changed (hp : pen.styled → o.color ≠ .None) (h : pen.styled) :
    (pen.changed o style link).styled := by
  unfold Pen.changed
  split
  · exact h
  · simpa using hp h

-- The pen is styled once a rendition was sent.
structure Pen.Follows (o : RenderOptions) (pen : Pen) (items : List Item) : Prop where
  link : openAfter false items = pen.link.isSome
  styled : HasRendition items → pen.styled
  colored : pen.styled → o.color ≠ .None

theorem follows_default : Pen.default.Follows o [] where
  link := rfl
  styled := by simp [HasRendition]
  colored := by simp [Pen.default]

theorem cellShown_inert (picture : Picture) (offset : Nat) (c : Char) (isOpen : Bool) :
    openAfter isOpen (cellShown picture offset c) = isOpen ∧
      ¬ HasRendition (cellShown picture offset c) := by
  unfold HasRendition cellShown
  cases picture with
  | Text => exact ⟨rfl, by simp⟩
  | Tag tag =>
      by_cases ho : offset = 0
      · simp only [ho, if_true]
        exact ⟨rfl, by simp⟩
      · simp only [ho, if_false]
        exact ⟨rfl, by simp⟩
  | Continued => exact ⟨rfl, by simp⟩

def Cell.Inert (cell : Cell) : Prop :=
  ∃ picture offset, cell.shown = cellShown picture offset cell.char

theorem strokes_follows (hc : ∀ cell ∈ cells, cell.Inert) (hf : pen.Follows o items) :
    (penAfter o pen cells).Follows o (items ++ strokes o pen cells) := by
  induction cells generalizing pen items with
  | nil =>
      rw [strokes, List.append_nil]
      exact hf
  | cons cell cells ih =>
      obtain ⟨picture, offset, hshown⟩ := hc cell List.mem_cons_self
      have hinert := cellShown_inert picture offset cell.char
      have hnext : (pen.after o cell).Follows o
          (items ++ (pen.changeItems o cell.style cell.link ++ cell.shown)) := by
        constructor
        · rw [openAfter_append, hf.link, openAfter_append, openAfter_change, hshown,
            (hinert _).1]
          rfl
        · intro h
          rw [hasRendition_append, hasRendition_append, hshown] at h
          rcases h with h | h | h
          · exact styled_changed o pen _ _ hf.colored (hf.styled h)
          · exact hasRendition_change o pen _ _ h
          · exact absurd h (hinert true).2
        · intro h
          unfold Pen.after Pen.changed at h
          split at h
          · exact hf.colored h
          · simpa using h
      have hrest := ih (pen.after o cell) _
        (fun other ho => hc other (List.mem_cons_of_mem cell ho)) hnext
      rw [strokes, ← List.append_assoc]
      exact hrest

theorem Pen.Follows.normalized (items more : List Item)
    (hf : pen.Follows o (items ++ more)) : pen.Follows o (items ++ normalizedItems more) where
  link := by
    rw [← hf.link]
    apply openAfter_controls
    rw [List.filter_append, List.filter_append, controls_normalized]
  styled := by
    intro h
    apply hf.styled
    rw [hasRendition_append] at h ⊢
    rwa [hasRendition_normalized] at h
  colored := hf.colored

def closeItems (pen : Pen) : List Item :=
  (if pen.link.isSome then [.LinkClose] else []) ++
    if pen.styled then [.Rendition ['0']] else []

theorem bytes_closeItems :
    (closeItems pen).flatMap Item.bytes = close pen.link.isSome pen.styled := by
  unfold closeItems close
  cases pen.link.isSome <;> cases pen.styled <;> rfl

theorem length_close : (close pen.link.isSome pen.styled).length = pen.reserve := by
  unfold close Pen.reserve
  cases pen.link.isSome <;> cases pen.styled <;> rfl

theorem closeItems_safe : AllSafe (closeItems pen) := by
  unfold closeItems
  refine (allSafe_append _ _).mpr ⟨?_, ?_⟩
  · split
    · exact (allSafe_cons _ _).mpr ⟨trivial, allSafe_nil⟩
    · exact allSafe_nil
  · split
    · exact (allSafe_cons _ _).mpr ⟨by unfold Item.Safe; decide, allSafe_nil⟩
    · exact allSafe_nil

theorem visible_closeItems : visible (closeItems pen) = [] := by
  unfold closeItems
  cases pen.link.isSome <;> cases pen.styled <;> rfl

-- No link is left open, and after a rendition the last item resets it.
structure Closed (part : List Item) : Prop where
  link : openAfter false part = false
  reset : HasRendition part → part.getLast? = some (.Rendition ['0'])

theorem Pen.Follows.closed (hf : pen.Follows o items) : Closed (items ++ closeItems pen) := by
  constructor
  · rw [openAfter_append, hf.link, closeItems]
    cases pen.link.isSome <;> cases pen.styled <;> rfl
  · intro h
    have hstyled : pen.styled := by
      rw [hasRendition_append] at h
      rcases h with h | h
      · exact hf.styled h
      · by_contra hplain
        rw [closeItems, if_neg hplain] at h
        revert h
        unfold HasRendition
        cases pen.link.isSome <;> simp
    rw [closeItems, if_pos hstyled, ← List.append_assoc, List.getLast?_append]
    rfl

theorem strokes_congr (pen other : Pen) (cells : List Cell)
    (hs : pen.style = other.style) (hl : pen.link = other.link) :
    strokes o pen cells = strokes o other cells := by
  induction cells generalizing pen other with
  | nil => rfl
  | cons cell cells ih =>
      have hchange : pen.changeItems o cell.style cell.link =
          other.changeItems o cell.style cell.link := by
        rw [Pen.changeItems, Pen.changeItems, hs, hl]
      rw [strokes, strokes, hchange, ih (pen.after o cell) (other.after o cell) rfl rfl]

theorem isControlItem_linkChange (current next : Option (List Char)) :
    ∀ item ∈ linkChangeItems current next, isControlItem item := by
  unfold linkChangeItems
  split
  · simp
  · cases current <;> cases next <;> simp [isControlItem]

theorem isControlItem_change : ∀ item ∈ pen.changeItems o style link, isControlItem item := by
  intro item hitem
  unfold Pen.changeItems ansiItems at hitem
  rcases List.mem_append.mp hitem with hitem | hitem
  · exact isControlItem_linkChange pen.link link item hitem
  · split at hitem
    · simp at hitem
    · split at hitem
      · simp at hitem
      · obtain ⟨text, -, rfl⟩ := List.mem_map.mp hitem
        rfl

theorem ne_visible_of_control {item : Item} (h : isControlItem item) (c : Char) :
    item ≠ .Visible c := by
  rintro rfl
  simp [isControlItem] at h

theorem dropReturnItems_controls (controls items : List Item)
    (hc : ∀ item ∈ controls, isControlItem item) :
    dropReturnItems (controls ++ items) = controls ++ dropReturnItems items := by
  induction controls with
  | nil => rfl
  | cons item controls ih =>
      have hne := ne_visible_of_control (hc item List.mem_cons_self) '\r'
      rw [List.cons_append, dropReturnItems, if_neg (fun h => hne h.1),
        ih (fun other ho => hc other (List.mem_cons_of_mem item ho))]
      rfl

theorem addReturnItem_controls (controls : List Item)
    (hc : ∀ item ∈ controls, isControlItem item) : controls.flatMap addReturnItem = controls := by
  induction controls with
  | nil => rfl
  | cons item controls ih =>
      have hne := ne_visible_of_control (hc item List.mem_cons_self) '\n'
      rw [List.flatMap_cons, ih (fun other ho => hc other (List.mem_cons_of_mem item ho)),
        addReturnItem, if_neg hne]
      rfl

theorem normalized_controls (controls items : List Item)
    (hc : ∀ item ∈ controls, isControlItem item) :
    normalizedItems (controls ++ items) = controls ++ normalizedItems items := by
  rw [normalizedItems, dropReturnItems_controls controls items hc, List.flatMap_append,
    addReturnItem_controls controls hc, normalizedItems]

theorem visible_controls (controls : List Item) (hc : ∀ item ∈ controls, isControlItem item) :
    visible controls = [] := by
  induction controls with
  | nil => rfl
  | cons item controls ih =>
      have hitem := hc item List.mem_cons_self
      have hrest := ih (fun other ho => hc other (List.mem_cons_of_mem item ho))
      cases item with
      | Visible c => simp [isControlItem] at hitem
      | Rendition _ => exact hrest
      | LinkOpen _ => exact hrest
      | LinkClose => exact hrest
      | Picture _ => simp [isControlItem] at hitem

def groupText (o : RenderOptions) (cells : List Cell) : List Char :=
  visible (normalizedItems (strokes o Pen.default cells))

-- It does not depend on the presentation that was set before.
theorem visible_strokes : visible (normalizedItems (strokes o pen cells)) = groupText o cells := by
  cases cells with
  | nil => rfl
  | cons cell cells =>
      have hafter : strokes o (pen.after o cell) cells = strokes o (Pen.default.after o cell) cells :=
        strokes_congr o _ _ cells rfl rfl
      have hleft := isControlItem_change o pen cell.style cell.link
      have hright := isControlItem_change o Pen.default cell.style cell.link
      rw [groupText, strokes, strokes, List.append_assoc, List.append_assoc,
        normalized_controls _ _ hleft, normalized_controls _ _ hright, visible_append,
        visible_append, visible_controls _ hleft, visible_controls _ hright, hafter]

-- The cells of each grapheme.
def groupCells : List (List Char) → List Cell → List (List Cell)
  | [], _ => []
  | g :: gs, cells => cells.take g.length :: groupCells gs (cells.drop g.length)

-- What a cell may send.
structure Cell.Good (cell : Cell) : Prop where
  safe : cell.Safe
  inert : cell.Inert

structure Sound (o : RenderOptions) (limit : Nat) (st : Rendering) (items : List Item) : Prop where
  out : st.out = items.flatMap Item.bytes
  safe : AllSafe items
  follows : st.pen.Follows o items
  room : st.out.length + st.pen.reserve ≤ limit
  valid : st.cursor.Valid

theorem Sound.closed_eq
    (hs : Sound o limit st items) : st.closed = (items ++ closeItems st.pen).flatMap Item.bytes := by
  rw [Rendering.closed, hs.out, List.flatMap_append, bytes_closeItems]

theorem Sound.length_closed_le (hs : Sound o limit st items) : st.closed.length ≤ limit := by
  rw [Rendering.closed, List.length_append, length_close]
  exact hs.room

theorem attempt_spec {st next : Rendering} {items : List Item}
    {g : List Char} {cells rest : List Cell} (hs : Sound o limit st items)
    (hcells : st.cursor.cells = cells ++ rest) (hlen : cells.length = g.length)
    (hgood : ∀ cell ∈ cells, cell.Good) (h : st.attempt o limit g = some next) :
    Sound o limit next (items ++ normalizedItems (strokes o st.pen cells)) ∧
      next.cursor.cells = rest ∧ next.chunks = st.chunks ∧ next.total = st.total := by
  obtain ⟨hcomposed, hrest⟩ := compose_spec o g.length g.length ⟨[], st.pen, st.cursor⟩ cells rest
    (Nat.le_refl _) hs.valid hcells hlen
  have hsafe := strokes_safe o st.pen cells (fun cell hc => (hgood cell hc).safe)
  have hfollows := strokes_follows o st.pen items cells (fun cell hc => (hgood cell hc).inert)
    hs.follows
  have hcandidate := hcomposed.candidate
  have hpen := hcomposed.pen
  rw [List.nil_append] at hcandidate
  unfold Rendering.attempt at h
  dsimp only at h
  rw [hcandidate, hpen, encode_itemsText _ hsafe] at h
  split at h
  · simp at h
  · rename_i hroom
    rw [← Option.some.inj h]
    refine ⟨⟨?_, ?_, ?_, ?_, hcomposed.valid⟩, hrest, rfl, rfl⟩
    · rw [List.flatMap_append, ← hs.out]
    · exact (allSafe_append _ _).mpr ⟨hs.safe, normalizedItems_safe _ hsafe⟩
    · exact hfollows.normalized
    · rw [List.length_append]
      exact Nat.le_of_not_lt hroom

-- One message.
structure Part (limit : Nat) (part : List Item) : Prop where
  nonempty : part.flatMap Item.bytes ≠ []
  safe : AllSafe part
  closed : Closed part
  room : (part.flatMap Item.bytes).length ≤ limit

theorem Sound.part (hs : Sound o limit st items) (hne : st.closed ≠ []) :
    Part limit (items ++ closeItems st.pen) where
  nonempty := by rwa [← hs.closed_eq]
  safe := (allSafe_append _ _).mpr ⟨hs.safe, closeItems_safe st.pen⟩
  closed := hs.follows.closed
  room := by
    rw [← hs.closed_eq]
    exact hs.length_closed_le

def partBytes (parts : List (List Item)) : List (List UInt8) :=
  parts.map (fun part => part.flatMap Item.bytes)

def totalLength (chunks : List (List UInt8)) : Nat := (chunks.map List.length).sum

-- The messages a rendering goes on to send: the first of them continues the items that are
-- already out, and the first `count` graphemes are shown.
structure Delivery (o : RenderOptions) (limit totalLimit : Nat) (st : Rendering)
    (items : List Item) (groups : List (List Cell)) (chunks : List (List UInt8))
    (later : List (List Item)) (count : Nat) : Prop where
  chunks : chunks = st.chunks ++ partBytes later
  parts : ∀ part ∈ later, Part limit part
  shown : visible later.flatten = visible items ++ (groups.take count).flatMap (groupText o)
  total : st.total + totalLength (partBytes later) ≤ totalLimit

theorem utf8_ne_nil {text : List Char} (ht : text ≠ []) : utf8 text ≠ [] := by
  cases text with
  | nil => exact absurd rfl ht
  | cons c text =>
      intro h
      exact String.utf8EncodeChar_ne_nil (List.append_eq_nil_iff.mp h).1

theorem Item.text_ne_nil (item : Item) (hs : item.Safe) : item.text ≠ [] := by
  cases item with
  | Visible c => simp [Item.text]
  | Rendition parameters => simp [Item.text, rendition]
  | LinkOpen uri => simp [Item.text, openLink]
  | LinkClose => decide
  | Picture tag =>
      obtain ⟨inner, -, htag⟩ := hs
      rw [Item.text, htag]
      simp

theorem items_eq_nil (hs : AllSafe items) (h : items.flatMap Item.bytes = []) : items = [] := by
  cases items with
  | nil => rfl
  | cons item items =>
      have hitem := ((allSafe_cons _ _).mp hs).1
      exact absurd (List.append_eq_nil_iff.mp h).1 (utf8_ne_nil (item.text_ne_nil hitem))

theorem finish_spec {limit totalLimit : Nat} {st : Rendering}
    {items : List Item} (groups : List (List Cell)) {chunks : List (List UInt8)}
    (hs : Sound o limit st items) (h : st.finish totalLimit = .ok chunks) :
    ∃ later, Delivery o limit totalLimit st items groups chunks later 0 := by
  obtain ⟨_, hensure, h⟩ := bind_eq_ok _ _ _ h
  have htotal := of_decide_eq_true (ensure_eq_ok hensure)
  injection h with h
  by_cases hempty : st.closed = []
  · -- nothing was sent, so no message follows
    have hitems : items = [] := by
      have hall := hs.closed_eq
      rw [hempty, List.flatMap_append] at hall
      exact items_eq_nil items hs.safe (List.append_eq_nil_iff.mp hall.symm).1
    refine ⟨[], ⟨?_, by simp, ?_, ?_⟩⟩
    · rw [← h, hempty]
      simp [partBytes]
    · rw [hitems]
      simp [visible]
    · rw [hempty] at htotal
      simpa [partBytes, totalLength] using htotal
  · refine ⟨[items ++ closeItems st.pen], ⟨?_, ?_, ?_, ?_⟩⟩
    · have hisEmpty : st.closed.isEmpty = false := by simpa using hempty
      rw [← h, hisEmpty, hs.closed_eq]
      rfl
    · intro part hpart
      rw [List.mem_singleton.mp hpart]
      exact hs.part _ _ _ _ hempty
    · simp [visible_closeItems]
    · rw [hs.closed_eq] at htotal
      simpa [partBytes, totalLength] using htotal

theorem cut_spec {limit totalLimit : Nat} {st fresh : Rendering}
    {items : List Item} (hs : Sound o limit st items) (h : st.cut totalLimit = .ok fresh) :
    Sound o limit fresh [] ∧ Part limit (items ++ closeItems st.pen) ∧ fresh.cursor = st.cursor ∧
      fresh.chunks = st.chunks ++ [(items ++ closeItems st.pen).flatMap Item.bytes] ∧
      fresh.total = st.total + ((items ++ closeItems st.pen).flatMap Item.bytes).length ∧
      fresh.out = [] := by
  obtain ⟨_, hout, h⟩ := bind_eq_ok _ _ _ h
  obtain ⟨_, -, h⟩ := bind_eq_ok _ _ _ h
  have hne := ensure_eq_ok hout
  injection h with h
  have hclosed : st.closed ≠ [] := by
    intro hnil
    rw [(List.append_eq_nil_iff.mp hnil).1] at hne
    simp at hne
  rw [← h, ← hs.closed_eq]
  refine ⟨⟨rfl, allSafe_nil, follows_default o, Nat.zero_le _, hs.valid⟩, ?_, rfl, rfl, rfl, rfl⟩
  exact hs.part _ _ _ _ hclosed

theorem run_spec (limit totalLimit : Nat) (complete : Bool) (st : Rendering)
    (items : List Item) (gs : List (List Char)) (cells : List Cell) (chunks : List (List UInt8))
    (hs : Sound o limit st items) (hcells : st.cursor.cells = cells)
    (hlen : cells.length = gs.flatten.length) (hgood : ∀ cell ∈ cells, cell.Good)
    (h : st.run o limit totalLimit complete gs = .ok chunks) : ∃ later count,
      Delivery o limit totalLimit st items (groupCells gs cells) chunks later count ∧
        (complete → count = gs.length) := by
  induction gs generalizing st items cells with
  | nil =>
      obtain ⟨later, hlater⟩ := finish_spec o (groupCells [] cells) hs h
      exact ⟨later, 0, hlater, fun _ => rfl⟩
  | cons g gs ih =>
      have hroom : g.length ≤ cells.length := by
        rw [hlen, List.flatten_cons, List.length_append]
        omega
      have htake : (cells.take g.length).length = g.length := by
        rw [List.length_take]
        omega
      have hdrop : (cells.drop g.length).length = gs.flatten.length := by
        rw [List.length_drop, hlen, List.flatten_cons, List.length_append]
        omega
      have hsplit : cells = cells.take g.length ++ cells.drop g.length :=
        (List.take_append_drop ..).symm
      have hfirst : ∀ cell ∈ cells.take g.length, cell.Good :=
        fun cell hc => hgood cell (List.mem_of_mem_take hc)
      have hlast : ∀ cell ∈ cells.drop g.length, cell.Good :=
        fun cell hc => hgood cell (List.mem_of_mem_drop hc)
      -- once the grapheme is out, the induction hypothesis delivers the rest
      have hgoes : ∀ (start next : Rendering) (done : List Item), Sound o limit start done →
          start.cursor.cells = cells → start.attempt o limit g = some next →
          next.run o limit totalLimit complete gs = .ok chunks →
          ∃ later count, Delivery o limit totalLimit start done (groupCells (g :: gs) cells)
            chunks later (count + 1) ∧ (complete → count = gs.length) := by
        intro start next done hsound hfrom hattempt hrun
        obtain ⟨hnext, hrest, hchunks, htotal⟩ := attempt_spec o limit hsound (hfrom.trans hsplit) htake hfirst
          hattempt
        obtain ⟨later, count, hlater, hcount⟩ := ih next _ _ hnext hrest hdrop hlast hrun
        refine ⟨later, count, ⟨?_, hlater.parts, ?_, ?_⟩, hcount⟩
        · rw [hlater.chunks, hchunks]
        · rw [hlater.shown, visible_append, visible_strokes, groupCells, List.take_succ_cons,
            List.flatMap_cons, List.append_assoc]
        · rw [← htotal]
          exact hlater.total
      unfold Rendering.run at h
      cases hattempt : st.attempt o limit g with
      | some next =>
          rw [hattempt] at h
          obtain ⟨later, count, hlater, hcount⟩ := hgoes st next items hs hcells hattempt h
          exact ⟨later, count + 1, hlater, fun hc => by rw [hcount hc, List.length_cons]⟩
      | none =>
          rw [hattempt] at h
          by_cases hcomplete : complete
          · rw [if_neg (by simpa using hcomplete)] at h
            obtain ⟨fresh, hcut, h⟩ := bind_eq_ok _ _ _ h
            obtain ⟨hfresh, hpart, hcursor, hchunks, htotal, hout⟩ :=
              cut_spec o hs hcut
            cases hagain : fresh.attempt o limit g with
            | some next =>
                rw [hagain] at h
                obtain ⟨later, count, hlater, hcount⟩ := hgoes fresh next [] hfresh
                  (by rw [hcursor, hcells]) hagain h
                refine ⟨(items ++ closeItems st.pen) :: later, count + 1, ⟨?_, ?_, ?_, ?_⟩,
                  fun hc => by rw [hcount hc, List.length_cons]⟩
                · rw [hlater.chunks, hchunks, List.append_assoc]
                  rfl
                · exact List.forall_mem_cons.mpr ⟨hpart, hlater.parts⟩
                · rw [List.flatten_cons, visible_append, visible_append, visible_closeItems,
                    hlater.shown, List.append_nil]
                  rfl
                · have hsum := hlater.total
                  rw [htotal] at hsum
                  simp only [partBytes, totalLength, List.map_cons, List.sum_cons] at hsum ⊢
                  omega
            | none =>
                -- a fresh message has nothing to cut off
                rw [hagain] at h
                obtain ⟨other, hother, -⟩ := bind_eq_ok _ _ _ h
                obtain ⟨_, hensure, -⟩ := bind_eq_ok _ _ _ hother
                have hne := ensure_eq_ok hensure
                rw [hout] at hne
                simp at hne
          · rw [if_pos (by simpa using hcomplete)] at h
            obtain ⟨later, hlater⟩ :=
              finish_spec o (groupCells (g :: gs) cells) hs h
            exact ⟨later, 0, hlater, fun hc => absurd hc hcomplete⟩

end StompyMux.StyledText
