import StompyMux.Library.Terminal
import StompyMux.StyledText.Render

namespace StompyMux.StyledText

open Library Library.Text
open StompyMux.Telnet

-- What the renderer sends: visible characters and sequences of its own.
inductive Item
  | Visible (c : Char)
  | Rendition (parameters : List Char)
  | LinkOpen (uri : List Char)
  | LinkClose
  | Picture (tag : List Char)
  deriving DecidableEq

namespace Item

def text : Item → List Char
  | .Visible c => [c]
  | .Rendition parameters => rendition parameters
  | .LinkOpen uri => openLink uri
  | .LinkClose => OSC8_CLOSE
  | .Picture tag => tag

def bytes (item : Item) : List UInt8 := utf8 item.text

def isParameter (c : Char) : Bool := c.isDigit || c == ';'

-- The parameters are decimal numbers and semicolons, the target of a link holds no control
-- byte, and a picture is a mode switch and one tag with no bracket but its own.
def Safe : Item → Prop
  | .Visible c => isShown c
  | .Rendition parameters => ∀ c ∈ parameters, isParameter c
  | .LinkOpen uri => uri ≠ [] ∧ ∀ b ∈ utf8 uri, 0x20 ≤ b ∧ b < 0x7F
  | .LinkClose => True
  | .Picture tag => ∃ inner, (∀ c ∈ inner, Mxp.isTagText c) ∧
      tag = "\x1b[4z".toList ++ ['<'] ++ inner ++ ['>']

end Item

def itemsText (items : List Item) : List Char := items.flatMap Item.text

@[simp] theorem itemsText_nil : itemsText [] = [] := rfl

variable (item : Item) (items : List Item)

@[simp] theorem itemsText_cons : itemsText (item :: items) = item.text ++ itemsText items := rfl

@[simp] theorem itemsText_append (items rest : List Item) :
    itemsText (items ++ rest) = itemsText items ++ itemsText rest := List.flatMap_append

def AllSafe (items : List Item) : Prop := ∀ item ∈ items, item.Safe

@[simp] theorem allSafe_nil : AllSafe [] := by simp [AllSafe]

@[simp] theorem allSafe_cons :
    AllSafe (item :: items) ↔ item.Safe ∧ AllSafe items := List.forall_mem_cons

@[simp] theorem allSafe_append (items rest : List Item) :
    AllSafe (items ++ rest) ↔ AllSafe items ∧ AllSafe rest := List.forall_mem_append

-- The bytes are visible characters and whole sequences of the renderer, nothing else.
def ControlSafe (output : List UInt8) : Prop :=
  ∃ items : List Item, AllSafe items ∧ output = items.flatMap Item.bytes

theorem utf8_itemsText : utf8 (itemsText items) = items.flatMap Item.bytes := by
  induction items with
  | nil => rfl
  | cons item items ih =>
      rw [itemsText_cons, utf8_append, ih]
      rfl

theorem ControlSafe.append (first rest : List UInt8) (hf : ControlSafe first)
    (hr : ControlSafe rest) : ControlSafe (first ++ rest) := by
  obtain ⟨items, hitems, rfl⟩ := hf
  obtain ⟨more, hmore, rfl⟩ := hr
  exact ⟨items ++ more, (allSafe_append _ _).mpr ⟨hitems, hmore⟩, List.flatMap_append.symm⟩

theorem ControlSafe.nil : ControlSafe [] := ⟨[], allSafe_nil, rfl⟩

-- Line ends are normalised between the sequences; none of them holds a line end.
def dropReturnItems : List Item → List Item
  | [] => []
  | item :: items =>
      if item = .Visible '\r' ∧ items.head? = some (.Visible '\n') then dropReturnItems items
      else item :: dropReturnItems items

def addReturnItem (item : Item) : List Item :=
  if item = .Visible '\n' then [.Visible '\r', .Visible '\n'] else [item]

def normalizedItems (items : List Item) : List Item :=
  (dropReturnItems items).flatMap addReturnItem

theorem isShown_escape : isShown ESC = false := by decide

-- The characters of a sequence that could be mistaken for a line end.
theorem Item.sequence_text (hs : item.Safe) (hv : ∀ c, item ≠ .Visible c) :
    (∀ c ∈ item.text, c ≠ '\r' ∧ c ≠ '\n') ∧ item.text.head? = some ESC := by
  cases item with
  | Visible c => exact absurd rfl (hv c)
  | Rendition parameters =>
      refine ⟨?_, rfl⟩
      intro c hc
      simp only [Item.text, rendition, List.mem_append, List.mem_cons, List.not_mem_nil,
        or_false] at hc
      rcases hc with ((rfl | rfl) | hc) | rfl
      · decide
      · decide
      · have hp := hs c hc
        constructor <;> (rintro rfl; revert hp; decide)
      · decide
  | LinkOpen uri =>
      refine ⟨?_, rfl⟩
      have hlead : ∀ c ∈ "\x1b]8;;".toList, c ≠ '\r' ∧ c ≠ '\n' := by decide
      have htail : ∀ c ∈ "\x1b\\".toList, c ≠ '\r' ∧ c ≠ '\n' := by decide
      intro c hc
      simp only [Item.text, openLink, List.mem_append] at hc
      rcases hc with (hc | hc) | hc
      · exact hlead c hc
      · constructor
        · rintro rfl
          have hb := hs.2 13 (List.mem_flatMap.mpr ⟨'\r', hc, by decide⟩)
          revert hb
          decide
        · rintro rfl
          have hb := hs.2 10 (List.mem_flatMap.mpr ⟨'\n', hc, by decide⟩)
          revert hb
          decide
      · exact htail c hc
  | LinkClose => exact ⟨by decide, rfl⟩
  | Picture tag =>
      obtain ⟨inner, hinner, htag⟩ := hs
      have hlead : ∀ c ∈ "\x1b[4z".toList, c ≠ '\r' ∧ c ≠ '\n' := by decide
      rw [Item.text, htag]
      refine ⟨?_, rfl⟩
      intro c hc
      simp only [List.mem_append, List.mem_singleton] at hc
      rcases hc with ((hc | rfl) | hc) | rfl
      · exact hlead c hc
      · decide
      · have ht := hinner c hc
        constructor <;> (rintro rfl; revert ht; decide)
      · decide

theorem dropReturns_append (first rest : List Char) (hf : ∀ c ∈ first, c ≠ '\r') :
    dropReturns (first ++ rest) = first ++ dropReturns rest := by
  induction first with
  | nil => rfl
  | cons c first ih =>
      have hc := hf c List.mem_cons_self
      rw [List.cons_append, dropReturns, if_neg (fun h => hc h.1),
        ih (fun d hd => hf d (List.mem_cons_of_mem c hd))]
      rfl

theorem addReturns_eq_self (text : List Char) (ht : ∀ c ∈ text, c ≠ '\n') :
    addReturns text = text := by
  induction text with
  | nil => rfl
  | cons c text ih =>
      rw [addReturns, List.flatMap_cons, if_neg (ht c List.mem_cons_self), ← addReturns,
        ih (fun d hd => ht d (List.mem_cons_of_mem c hd))]
      rfl

theorem head_itemsText (hs : AllSafe items) :
    (itemsText items).head? = some '\n' ↔ items.head? = some (.Visible '\n') := by
  cases items with
  | nil => simp
  | cons item items =>
      have hitem := ((allSafe_cons _ _).mp hs).1
      by_cases hv : ∃ c, item = .Visible c
      · obtain ⟨c, rfl⟩ := hv
        simp [Item.text]
      · have hseq := item.sequence_text hitem (fun c hc => hv ⟨c, hc⟩)
        have hhead : (itemsText (item :: items)).head? = some ESC := by
          rw [itemsText_cons, List.head?_append, hseq.2]
          rfl
        rw [hhead, List.head?_cons]
        constructor
        · intro h
          exact absurd (Option.some.inj h) (by decide)
        · intro h
          exact absurd ⟨'\n', Option.some.inj h⟩ hv

theorem dropReturns_itemsText (hs : AllSafe items) :
    dropReturns (itemsText items) = itemsText (dropReturnItems items) := by
  induction items with
  | nil => rfl
  | cons item items ih =>
      obtain ⟨hitem, hrest⟩ := (allSafe_cons _ _).mp hs
      by_cases hv : ∃ c, item = .Visible c
      · obtain ⟨c, rfl⟩ := hv
        rw [itemsText_cons, Item.text, List.singleton_append, dropReturns, dropReturnItems]
        simp only [head_itemsText items hrest, Item.Visible.injEq]
        split
        · exact ih hrest
        · rw [itemsText_cons, ih hrest]
          rfl
      · have hne : ∀ c, item ≠ .Visible c := fun c hc => hv ⟨c, hc⟩
        have hseq := item.sequence_text hitem hne
        rw [itemsText_cons, dropReturns_append _ _ (fun c hc => (hseq.1 c hc).1), ih hrest,
          dropReturnItems, if_neg (fun h => hne _ h.1), itemsText_cons]

theorem addReturns_itemsText (hs : AllSafe items) :
    addReturns (itemsText items) = itemsText (items.flatMap addReturnItem) := by
  induction items with
  | nil => rfl
  | cons item items ih =>
      obtain ⟨hitem, hrest⟩ := (allSafe_cons _ _).mp hs
      have happend : addReturns (item.text ++ itemsText items) =
          addReturns item.text ++ addReturns (itemsText items) := List.flatMap_append
      rw [itemsText_cons, happend, ih hrest, List.flatMap_cons, itemsText_append]
      congr 1
      by_cases hv : ∃ c, item = .Visible c
      · obtain ⟨c, rfl⟩ := hv
        by_cases hc : c = '\n'
        · rw [hc]
          rfl
        · simp [addReturns, addReturnItem, Item.text, hc]
      · have hne : ∀ c, item ≠ .Visible c := fun c hc => hv ⟨c, hc⟩
        have hseq := item.sequence_text hitem hne
        rw [addReturns_eq_self _ (fun c hc => (hseq.1 c hc).2), addReturnItem, if_neg (hne _)]
        simp

theorem dropReturnItems_safe (hs : AllSafe items) : AllSafe (dropReturnItems items) := by
  induction items with
  | nil => exact allSafe_nil
  | cons item items ih =>
      obtain ⟨hitem, hrest⟩ := (allSafe_cons _ _).mp hs
      unfold dropReturnItems
      split
      · exact ih hrest
      · exact (allSafe_cons _ _).mpr ⟨hitem, ih hrest⟩

theorem normalizedItems_safe (hs : AllSafe items) : AllSafe (normalizedItems items) := by
  intro item hitem
  obtain ⟨kept, hkept, hitem⟩ := List.mem_flatMap.mp hitem
  unfold addReturnItem at hitem
  split at hitem
  · simp only [List.mem_cons, List.not_mem_nil, or_false] at hitem
    rcases hitem with rfl | rfl
    · exact (by decide : isShown '\r' = true)
    · exact (by decide : isShown '\n' = true)
  · rw [List.mem_singleton.mp hitem]
    exact dropReturnItems_safe items hs kept hkept

-- Encoding acts on the visible characters only.
theorem encode_itemsText (hs : AllSafe items) :
    encode (itemsText items) = (normalizedItems items).flatMap Item.bytes := by
  rw [encode_eq, normalized, dropReturns_itemsText items hs,
    addReturns_itemsText _ (dropReturnItems_safe items hs), utf8_itemsText, normalizedItems]

theorem encode_safe (hs : AllSafe items) : ControlSafe (encode (itemsText items)) :=
  ⟨normalizedItems items, normalizedItems_safe items hs, encode_itemsText items hs⟩

def visibleItems (text : List Char) : List Item := text.map .Visible

theorem itemsText_visibleItems (text : List Char) : itemsText (visibleItems text) = text := by
  induction text with
  | nil => rfl
  | cons c text ih =>
      have hcons : visibleItems (c :: text) = .Visible c :: visibleItems text := rfl
      rw [hcons, itemsText_cons, ih]
      rfl

theorem visibleItems_safe (text : List Char) (ht : IsShown text) : AllSafe (visibleItems text) := by
  intro item hitem
  obtain ⟨c, hc, rfl⟩ := List.mem_map.mp hitem
  exact ht c hc

end StompyMux.StyledText
