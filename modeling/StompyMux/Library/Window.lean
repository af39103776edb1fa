import Mathlib.Data.List.DropRight
import Mathlib.Data.List.Induction
import Mathlib.Data.List.Nodup

-- A bounded window over a growing record: the oldest item leaves when a new one finds it full.
namespace StompyMux.Library.Window

variable {α : Type*} (bound : Nat)

def push (window : List α) (item : α) : List α :=
  if bound < (window ++ [item]).length then (window ++ [item]).tail else window ++ [item]

theorem length_push_le {window : List α} (item : α) (h : window.length ≤ bound) :
    (push bound window item).length ≤ bound := by
  unfold push
  split
  · simpa using h
  · omega

theorem push_eq_rtake {window : List α} (item : α) (h : window.length ≤ bound) :
    push bound window item = (window ++ [item]).rtake bound := by
  unfold push List.rtake
  rw [List.length_append, List.length_singleton]
  split
  · rw [show window.length + 1 - bound = 1 by omega, List.drop_one]
  · rw [show window.length + 1 - bound = 0 by omega, List.drop_zero]

-- The window holds the last items of the whole record.
theorem foldl_push (window items : List α) (h : window.length ≤ bound) :
    items.foldl (push bound) window = (window ++ items).rtake bound := by
  induction items generalizing window with
  | nil => simp [List.rtake, Nat.sub_eq_zero_of_le h]
  | cons item items ih =>
      rw [List.foldl_cons, ih _ (length_push_le bound item h), push_eq_rtake bound item h]
      simp only [List.rtake, List.length_append, List.length_drop, List.length_cons, List.length_nil]
      have hcut : window.length + (0 + 1) - bound ≤ (window ++ [item]).length := by
        rw [List.length_append, List.length_singleton]
        omega
      rw [← List.drop_append_of_le_length hcut, List.drop_drop, List.append_assoc,
        List.singleton_append]
      congr 1
      omega

section Numbered

-- A record whose items carry the numbers from one on.
variable (number : α → Nat) (record : List α)

theorem numbered_append (item : α) (h : record.map number = List.range' 1 record.length)
    (hitem : number item = record.length + 1) :
    (record ++ [item]).map number = List.range' 1 (record ++ [item]).length := by
  rw [List.map_append, h, List.map_singleton, hitem, List.length_append, List.length_singleton,
    List.range'_concat, Nat.one_mul, Nat.add_comm 1]

theorem number_getElem (h : record.map number = List.range' 1 record.length) {i : Nat}
    (hi : i < record.length) : number record[i] = i + 1 := by
  have hget := List.getElem_of_eq h (i := i) (by rw [List.length_map]; exact hi)
  rw [List.getElem_map, List.getElem_range'] at hget
  omega

theorem number_le (h : record.map number = List.range' 1 record.length) {item : α}
    (hitem : item ∈ record) : 0 < number item ∧ number item ≤ record.length := by
  obtain ⟨i, hi, rfl⟩ := List.getElem_of_mem hitem
  rw [number_getElem number record h hi]
  omega

-- What comes after a number is what stands behind it.
theorem drop_eq_filter (h : record.map number = List.range' 1 record.length) (count : Nat) :
    record.drop count = record.filter (fun item => count < number item) := by
  induction record using List.reverseRecOn with
  | nil => simp
  | append_singleton record item ih =>
      rw [List.length_append, List.length_singleton, List.map_append, List.range'_concat] at h
      obtain ⟨hrecord, hitem⟩ := List.append_inj h (by simp)
      rw [List.map_singleton, List.singleton_inj, Nat.one_mul] at hitem
      rw [List.filter_append, ← ih hrecord]
      by_cases hcount : count ≤ record.length
      · rw [List.drop_append_of_le_length hcount, List.filter_cons_of_pos (by simp; omega),
          List.filter_nil]
      · rw [List.filter_cons_of_neg (by simp; omega), List.drop_of_length_le (by simp; omega),
          List.drop_of_length_le (by omega)]
        rfl

theorem nodup_of_numbered (h : record.map number = List.range' 1 record.length) : record.Nodup :=
  List.Nodup.of_map number (h ▸ List.nodup_range')

end Numbered

end StompyMux.Library.Window
