import StompyMux.Library.Toml
import Mathlib.Data.List.Dedup

-- The tables of documents whose fields may be left out.
namespace StompyMux.Library.Toml

open Library.Text

@[simp] theorem entries_append (lines more : List Line) :
    entries (lines ++ more) = entries lines ++ entries more := List.filterMap_append

@[simp] theorem entries_blank (lines : List Line) : entries (.blank :: lines) = entries lines := rfl

@[simp] theorem linesText_append (quote : List Char → List Char) (lines more : List Line) :
    linesText quote (lines ++ more) = linesText quote lines ++ linesText quote more :=
  List.flatMap_append

-- The fields that are present.
def pairs (fields : List (String × Option Spelling)) : List Line :=
  fields.filterMap (fun field => field.2.map (Line.pair field.1))

variable (key : String) (fields : List (String × Option Spelling))

theorem pairs_cons_none : pairs ((key, none) :: fields) = pairs fields := rfl

theorem mem_pairs (line : Line) :
    line ∈ pairs fields ↔ ∃ key value, (key, some value) ∈ fields ∧ line = .pair key value := by
  unfold pairs
  rw [List.mem_filterMap]
  constructor
  · rintro ⟨⟨key, value⟩, hfield, hline⟩
    obtain ⟨value, rfl, rfl⟩ := Option.map_eq_some_iff.mp hline
    exact ⟨key, value, hfield, rfl⟩
  · rintro ⟨key, value, hfield, rfl⟩
    exact ⟨(key, some value), hfield, rfl⟩

theorem keys_pairs : ((entries (pairs fields)).map Prod.fst).Sublist (fields.map Prod.fst) := by
  induction fields with
  | nil => exact List.Sublist.refl []
  | cons field fields ih =>
      obtain ⟨key, value⟩ := field
      cases value with
      | none => exact ih.cons key
      | some value => exact ih.cons_cons key

theorem lookup_eq_none_of_not_mem {V : Type} {key : String} {table : List (String × V)}
    (h : key ∉ table.map Prod.fst) : table.lookup key = none := by
  apply List.lookup_eq_none_iff.mpr
  intro entry hentry
  simp only [bne_iff_ne, ne_eq]
  rintro rfl
  exact h (List.mem_map_of_mem hentry)

theorem lookup_pairs (h : (fields.map Prod.fst).Nodup) :
    (entries (pairs fields)).lookup key = ((fields.lookup key).join).map Tree.value := by
  induction fields with
  | nil => rfl
  | cons field fields ih =>
      obtain ⟨name, value⟩ := field
      have ⟨hname, hlater⟩ := List.nodup_cons.mp h
      have hrest := ih hlater
      by_cases hkey : key = name
      · subst hkey
        have habsent : (entries (pairs fields)).lookup key = none :=
          lookup_eq_none_of_not_mem (fun hmem => hname ((keys_pairs fields).subset hmem))
        cases value with
        | none =>
            rw [pairs_cons_none, habsent]
            simp
        | some value =>
            show List.lookup key ((key, value.value) :: entries (pairs fields)) = _
            simp
      · have hbeq : (key == name) = false := by simpa using hkey
        cases value with
        | none =>
            rw [pairs_cons_none, hrest, List.lookup_cons, hbeq]
        | some value =>
            show List.lookup key ((name, value.value) :: entries (pairs fields)) = _
            rw [List.lookup_cons, hbeq, List.lookup_cons, hbeq]
            exact hrest

theorem lookup_group (name : String) (blocks : List (String × Table)) :
    (group blocks).lookup name =
      if name ∈ blocks.map Prod.fst then
        some (.array ((blocks.filter (fun block => block.1 = name)).map (fun block => .table block.2)))
      else none := by
  have hrun : ∀ names : List String,
      (names.map (fun name => (name, (Tree.array ((blocks.filter (fun block => block.1 = name)).map
        (fun block => .table block.2)) : Value)))).lookup name =
      if name ∈ names then
        some (.array ((blocks.filter (fun block => block.1 = name)).map (fun block => .table block.2)))
      else none := by
    intro names
    induction names with
    | nil => rfl
    | cons other names ih =>
        rw [List.map_cons, List.lookup_cons]
        by_cases hname : name = other
        · subst hname
          simp
        · have hbeq : (name == other) = false := by simpa using hname
          rw [hbeq]
          simp only [ih, List.mem_cons, hname, false_or]
  rw [group, hrun]
  simp only [List.mem_dedup]

theorem keys_group (blocks : List (String × Table)) :
    (group blocks).map Prod.fst = (blocks.map Prod.fst).dedup := by
  unfold group
  rw [List.map_map]
  exact List.map_id _

-- The fields that are present can be written.
def FieldsFit (fields : List (String × Option Spelling)) : Prop :=
  ∀ field ∈ fields, BareKey field.1 ∧ ∀ value, field.2 = some value → value.Fits Spelled nesting

theorem pairs_wellFormed (hn : (fields.map Prod.fst).Nodup)
    (hfit : FieldsFit fields) : LinesWellFormed (pairs fields) := by
  refine ⟨?_, hn.sublist (keys_pairs fields)⟩
  intro line hline
  obtain ⟨key, value, hfield, rfl⟩ := (mem_pairs fields line).mp hline
  have ⟨hkey, hvalue⟩ := hfit (key, some value) hfield
  exact ⟨hkey, hvalue value rfl⟩

def Ends (text : List Char) : Prop := ∃ start c, text = start ++ [c] ∧ isWhitespace c = false

theorem trimEnd_ends {text : List Char} (h : Ends text) : trimEnd (text ++ ['\n']) = text := by
  obtain ⟨start, c, rfl, hc⟩ := h
  have hline : isWhitespace '\n' = true := by decide
  unfold trimEnd
  rw [List.reverse_append, List.reverse_append, List.reverse_singleton, List.reverse_singleton]
  show ((List.dropWhile isWhitespace ('\n' :: c :: start.reverse))).reverse = _
  rw [List.dropWhile_cons_of_pos hline, List.dropWhile_cons_of_neg (by rw [hc]; decide)]
  simp

theorem ends_append (text more : List Char) (h : Ends more) : Ends (text ++ more) := by
  obtain ⟨start, c, rfl, hc⟩ := h
  exact ⟨text ++ start, c, by rw [List.append_assoc], hc⟩

theorem ends_integer (n : Int) : Ends (integerText n) := by
  have hdecimal : ∀ n : Nat, Ends (decimal n) := by
    intro n
    have hne : decimal n ≠ [] := Nat.toDigits_ne_nil
    have hlast := isDigit_of_mem_decimal n _ (List.getLast_mem hne)
    refine ⟨(decimal n).dropLast, (decimal n).getLast hne, (List.dropLast_append_getLast hne).symm, ?_⟩
    have hrange : 48 ≤ ((decimal n).getLast hne).toNat ∧ ((decimal n).getLast hne).toNat ≤ 57 :=
      Char.isDigit_iff_toNat.mp hlast
    unfold isWhitespace
    simp only [Bool.or_eq_false_iff, Bool.and_eq_false_iff, decide_eq_false_iff_not, beq_eq_false_iff_ne]
    omega
  unfold integerText
  by_cases hn : n < 0
  · rw [if_pos hn]
    exact ends_append ['-'] _ (hdecimal n.natAbs)
  · rw [if_neg hn]
    exact hdecimal n.natAbs

theorem ends_array {S : Type} (render : S → List Char) (items : List (Tree S)) :
    Ends ((Tree.array items).text render) := by
  have hmore : ∀ items : List (Tree S), Ends (moreItems render items) := by
    intro items
    induction items with
    | nil => exact ⟨[], ']', rfl, by decide⟩
    | cons item items ih => exact ends_append _ _ ih
  cases items with
  | nil => exact ⟨['['], ']', rfl, by decide⟩
  | cons item items => exact ends_append _ _ (hmore items)

end StompyMux.Library.Toml
