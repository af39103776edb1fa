import StompyMux.Library.Text

-- Texts of equal lines, and lists cut into rows.
namespace StompyMux.Library.Grid

open Library.Text

-- A carriage return before the line feed is part of the line end.
def lineEnd (line : List Char) : List Char := (stripSuffix ['\r'] line).getD line

-- The lines of a text; nothing follows a last line feed.
def lines (text : List Char) : List (List Char) :=
  let segments := split '\n' text
  segments.dropLast.map lineEnd ++ segments.getLast?.toList.filter (fun line => !line.isEmpty)

def rowsText (rows : List (List Char)) : List Char := rows.flatMap (fun row => row ++ ['\n'])

theorem split_append (separator : Char) (row rest : List Char) (hrow : separator ∉ row) :
    split separator (row ++ separator :: rest) = row :: split separator rest := by
  induction row with
  | nil => simp [split]
  | cons c row ih =>
      have hc : c ≠ separator := fun heq => hrow (heq ▸ List.mem_cons_self)
      have hlater := ih (fun hmem => hrow (List.mem_cons_of_mem c hmem))
      rw [List.cons_append, split, hlater]
      simp [hc]

theorem split_rowsText (rows : List (List Char)) (hrows : ∀ row ∈ rows, '\n' ∉ row) :
    split '\n' (rowsText rows) = rows ++ [[]] := by
  induction rows with
  | nil => rfl
  | cons row rows ih =>
      have ⟨hrow, hlater⟩ := List.forall_mem_cons.mp hrows
      have htext : rowsText (row :: rows) = row ++ '\n' :: rowsText rows := by
        simp [rowsText]
      rw [htext, split_append '\n' row _ hrow, ih hlater, List.cons_append]

theorem lineEnd_eq {line : List Char} (h : '\r' ∉ line) : lineEnd line = line := by
  have hsuffix : ¬ ['\r'] <:+ line := by
    intro hsuffix
    exact h (hsuffix.subset List.mem_cons_self)
  unfold lineEnd stripSuffix
  rw [if_neg (by simpa using hsuffix)]
  rfl

theorem lines_rowsText (rows : List (List Char)) (hrows : ∀ row ∈ rows, '\n' ∉ row ∧ '\r' ∉ row) :
    lines (rowsText rows) = rows := by
  unfold lines
  rw [split_rowsText rows (fun row hrow => (hrows row hrow).1)]
  have hends : rows.map lineEnd = rows := by
    rw [List.map_congr_left (fun row hrow => lineEnd_eq (hrows row hrow).2), List.map_id']
  simp [hends]

section

variable {α : Type}

-- Pieces of `size` items, the last one possibly shorter.
def chunks (size : Nat) (items : List α) : List (List α) :=
  if _ : size = 0 ∨ items.isEmpty then [] else items.take size :: chunks size (items.drop size)
termination_by items.length
decreasing_by
  have ⟨hsize, hitems⟩ := not_or.mp ‹¬ (size = 0 ∨ items.isEmpty)›
  have hlength := List.length_pos_iff.mpr (fun hnil => hitems (List.isEmpty_iff.mpr hnil))
  rw [List.length_drop]
  omega

variable (size : Nat) (rows : List (List α))

theorem chunks_flatten (hsize : 0 < size)
    (hrows : ∀ row ∈ rows, row.length = size) : chunks size rows.flatten = rows := by
  induction rows with
  | nil =>
      rw [chunks, dif_pos]
      right
      rfl
  | cons row rows ih =>
      have ⟨hrow, hlater⟩ := List.forall_mem_cons.mp hrows
      have hlong : ¬ (size = 0 ∨ (row ++ rows.flatten).isEmpty = true) := by
        rintro (hzero | hempty)
        · omega
        · have hnil := List.append_eq_nil_iff.mp (List.isEmpty_iff.mp hempty)
          rw [hnil.1] at hrow
          exact absurd hrow (by simp; omega)
      rw [List.flatten_cons, chunks, dif_neg hlong]
      subst hrow
      rw [List.take_left, List.drop_left, ih hlater]

theorem length_flatten_rows
    (hrows : ∀ row ∈ rows, row.length = size) : rows.flatten.length = size * rows.length := by
  induction rows with
  | nil => rfl
  | cons row rows ih =>
      have ⟨hrow, hlater⟩ := List.forall_mem_cons.mp hrows
      rw [List.flatten_cons, List.length_append, hrow, ih hlater, List.length_cons, Nat.mul_succ]
      omega

theorem exists_rows (size count : Nat) (items : List α) (h : items.length = size * count) :
    ∃ rows : List (List α), rows.flatten = items ∧ rows.length = count ∧
      ∀ row ∈ rows, row.length = size := by
  induction count generalizing items with
  | zero =>
      refine ⟨[], ?_, rfl, fun row hrow => by contradiction⟩
      exact (List.eq_nil_of_length_eq_zero (by omega)).symm
  | succ count ih =>
      rw [Nat.mul_succ] at h
      obtain ⟨rows, hflat, hcount, hrows⟩ := ih (items.drop size) (by
        rw [List.length_drop]
        omega)
      refine ⟨items.take size :: rows, ?_, ?_, ?_⟩
      · rw [List.flatten_cons, hflat, List.take_append_drop]
      · rw [List.length_cons, hcount]
      · intro row hrow
        rcases List.mem_cons.mp hrow with rfl | hrow
        · rw [List.length_take]
          omega
        · exact hrows row hrow

end

end StompyMux.Library.Grid
