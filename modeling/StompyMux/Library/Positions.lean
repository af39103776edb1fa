import Mathlib.Data.List.Basic

-- Positions in a list that closes its gaps: where an item goes when another one is removed.
namespace StompyMux.Library.Positions

def shift (removed position : Nat) : Option Nat :=
  if position = removed then none
  else if removed < position then some (position - 1)
  else some position

theorem shift_self (removed : Nat) : shift removed removed = none := if_pos rfl

theorem shift_ne_none {removed position : Nat} (h : position ≠ removed) :
    ∃ moved, shift removed position = some moved := by
  unfold shift
  rw [if_neg h]
  split
  · exact ⟨_, rfl⟩
  · exact ⟨_, rfl⟩

theorem getElem?_shift {α : Type*} (items : List α) {removed position moved : Nat}
    (h : shift removed position = some moved) : (items.eraseIdx removed)[moved]? = items[position]? := by
  unfold shift at h
  by_cases hself : position = removed
  · rw [if_pos hself] at h
    contradiction
  · rw [if_neg hself] at h
    by_cases hlt : removed < position
    · rw [if_pos hlt] at h
      injection h with h
      rw [List.getElem?_eraseIdx, if_neg (by omega), ← h]
      congr 1
      omega
    · rw [if_neg hlt] at h
      injection h with h
      rw [List.getElem?_eraseIdx, if_pos (by omega), h]

theorem shift_lt {α : Type*} {items : List α} {removed position moved : Nat}
    (h : shift removed position = some moved) (hp : position < items.length) :
    moved < (items.eraseIdx removed).length := by
  have hsome : items[position]? = some items[position] := List.getElem?_eq_getElem hp
  rw [← getElem?_shift items h] at hsome
  exact (List.getElem?_eq_some_iff.mp hsome).1

end StompyMux.Library.Positions
