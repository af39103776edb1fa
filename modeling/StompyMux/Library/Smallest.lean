import Mathlib.Data.Finset.Sort

-- A sorted list that holds no more than the smallest items of those it was given.
namespace StompyMux.Library.Smallest

theorem minOn?_le {B K : Type} [LinearOrder K] {key : B → K} {items : List B} {least : B}
    (h : items.minOn? key = some least) {item : B} (hitem : item ∈ items) : key least ≤ key item := by
  have hle : key ((items.minOn? key).get (List.isSome_minOn?_of_mem hitem)) ≤ key item :=
    List.apply_get_minOn?_le_of_mem hitem
  simpa only [h, Option.get_some] using hle

variable {A : Type} [LinearOrder A]

def keep (limit : Nat) (kept : List A) (x : A) : List A :=
  let grown := if x ∈ kept then kept else kept.orderedInsert (· ≤ ·) x
  if limit < grown.length then grown.dropLast else grown

-- The smallest items of all that were seen.
def smallest (limit : Nat) (seen : List A) : List A := (seen.toFinset.sort (· ≤ ·)).take limit

@[simp] theorem smallest_nil (limit : Nat) : smallest limit ([] : List A) = [] := by simp [smallest]

theorem sort_insert {s : Finset A} {x : A} (hx : x ∉ s) :
    (insert x s).sort (· ≤ ·) = (s.sort (· ≤ ·)).orderedInsert (· ≤ ·) x := by
  refine List.Perm.eq_of_pairwise' (r := (· ≤ ·)) (Finset.pairwise_sort _ _)
    (List.Pairwise.orderedInsert x _ (Finset.pairwise_sort _ _)) ?_
  have hnodup : (x :: s.sort (· ≤ ·)).Nodup :=
    List.nodup_cons.mpr ⟨by simpa using hx, Finset.sort_nodup _ _⟩
  refine ((List.perm_ext_iff_of_nodup (Finset.sort_nodup _ _) hnodup).mpr fun y => ?_).trans
    (List.perm_orderedInsert _ _ _).symm
  simp

theorem take_orderedInsert (limit : Nat) (items : List A) (x : A) :
    ((items.take limit).orderedInsert (· ≤ ·) x).take limit =
      (items.orderedInsert (· ≤ ·) x).take limit := by
  induction items generalizing limit with
  | nil => simp
  | cons y items ih =>
      cases limit with
      | zero => simp
      | succ limit =>
          by_cases hle : x ≤ y
          · cases limit with
            | zero => simp [hle]
            | succ limit => simp [hle, List.take_take]
          · simp [hle, ih]

theorem orderedInsert_last (items : List A) (x : A) (h : ∀ y ∈ items, y < x) :
    items.orderedInsert (· ≤ ·) x = items ++ [x] := by
  induction items with
  | nil => rfl
  | cons y items ih =>
      have hy := h y List.mem_cons_self
      rw [List.orderedInsert_cons, if_neg hy.not_ge, ih fun z hz => h z (List.mem_cons_of_mem _ hz),
        List.cons_append]

theorem length_smallest_le (limit : Nat) (seen : List A) :
    (smallest limit seen).length ≤ limit := List.length_take_le _ _

theorem keep_new {limit : Nat} {kept : List A} {x : A} (hlen : kept.length ≤ limit) (hx : x ∉ kept) :
    keep limit kept x = (kept.orderedInsert (· ≤ ·) x).take limit := by
  have hgrown := List.orderedInsert_length (· ≤ ·) kept x
  unfold keep
  simp only [if_neg hx]
  split
  · rw [List.dropLast_eq_take, hgrown]
    congr 1
    omega
  · rw [List.take_of_length_le (by omega)]

-- Keeping one more item gives the smallest of all that were seen, that one included.
theorem keep_smallest (limit : Nat) (seen : List A) (x : A) :
    keep limit (smallest limit seen) x = smallest limit (seen ++ [x]) := by
  have hseen : (seen ++ [x]).toFinset = insert x seen.toFinset := by
    ext y
    simp
  by_cases hkept : x ∈ smallest limit seen
  · have hmem : x ∈ seen.toFinset := (Finset.mem_sort _).mp (List.mem_of_mem_take hkept)
    have hlen := length_smallest_le limit seen
    unfold keep
    rw [if_pos hkept, if_neg (by omega), smallest, smallest, hseen, Finset.insert_eq_of_mem hmem]
  · rw [keep_new (length_smallest_le limit seen) hkept, smallest, smallest, hseen]
    by_cases hmem : x ∈ seen.toFinset
    · -- The item lies behind all that are kept.
      have hsplit := List.take_append_drop limit (seen.toFinset.sort (· ≤ ·))
      have hdrop : x ∈ (seen.toFinset.sort (· ≤ ·)).drop limit := by
        have hall : x ∈ seen.toFinset.sort (· ≤ ·) := (Finset.mem_sort _).mpr hmem
        rw [← hsplit, List.mem_append] at hall
        exact hall.resolve_left hkept
      have hbehind : ∀ y ∈ (seen.toFinset.sort (· ≤ ·)).take limit, y < x := by
        intro y hy
        have hsorted : (seen.toFinset.sort (· ≤ ·)).Pairwise (· ≤ ·) := Finset.pairwise_sort _ _
        rw [← hsplit, List.pairwise_append] at hsorted
        refine lt_of_le_of_ne (hsorted.2.2 y hy x hdrop) ?_
        rintro rfl
        exact hkept hy
      have hlen : ((seen.toFinset.sort (· ≤ ·)).take limit).length = limit := by
        have hpos := List.length_pos_of_mem hdrop
        rw [List.length_drop] at hpos
        rw [List.length_take]
        omega
      rw [orderedInsert_last _ _ hbehind, Finset.insert_eq_of_mem hmem]
      exact List.take_left' hlen
    · rw [take_orderedInsert, sort_insert hmem]

end StompyMux.Library.Smallest
