import Mathlib.Data.List.Sort

-- Sorting by a key that keeps the order of equal keys.
namespace StompyMux.Library

variable {α K : Type} [LinearOrder K] (key : α → K) (before : α → α → Prop)

-- The order of a sorted list whose ties stand as they stood before.
def Ranked (a b : α) : Prop := key a < key b ∨ key a = key b ∧ before a b

def stableSort (list : List α) : List α := list.insertionSort fun a b => key a ≤ key b

theorem stableSort_perm (list : List α) : (stableSort key list).Perm list :=
  List.perm_insertionSort _ _

theorem stableSort_pairwise {list : List α} (hkeys : (list.map key).Nodup) :
    (stableSort key list).Pairwise (fun a b => key a < key b) := by
  have hsorted : (stableSort key list).Pairwise (fun a b => key a ≤ key b) := List.pairwise_insertionSort _ _
  have hnodup : ((stableSort key list).map key).Nodup :=
    ((stableSort_perm key list).map key).nodup_iff.mpr hkeys
  exact (hsorted.and (List.pairwise_map.mp hnodup)).imp fun {a b} h => lt_of_le_of_ne h.1 h.2

theorem stableSort_eq {list expected : List α} (hperm : list.Perm expected)
    (hsorted : expected.Pairwise (fun a b => key a < key b)) : stableSort key list = expected := by
  have hkeys : (expected.map key).Nodup := List.pairwise_map.mpr (hsorted.imp ne_of_lt)
  have hstable := stableSort_pairwise key ((hperm.map key).nodup_iff.mpr hkeys)
  have hsame := (stableSort_perm key list).trans hperm
  refine hsame.eq_of_pairwise (fun a b _ _ hab hba => ?_) hstable hsorted
  exact absurd hab (lt_asymm hba)

variable {key before}

-- What comes first goes in front of its equals.
theorem ranked_orderedInsert {a : α} {list : List α} (hfirst : ∀ b ∈ list, before a b)
    (hsorted : list.Pairwise (Ranked key before)) :
    (list.orderedInsert (fun a b => key a ≤ key b) a).Pairwise (Ranked key before) := by
  induction list with
  | nil => exact List.pairwise_singleton _ _
  | cons b rest ih =>
      obtain ⟨hb, hrest⟩ := List.pairwise_cons.mp hsorted
      by_cases hle : key a ≤ key b
      · rw [List.orderedInsert_cons, if_pos hle]
        refine List.pairwise_cons.mpr ⟨fun c hc => ?_, hsorted⟩
        have hbc : key b ≤ key c := by
          rcases List.mem_cons.mp hc with rfl | hc
          · exact le_rfl
          · exact (hb c hc).elim le_of_lt fun htie => le_of_eq htie.1
        exact (lt_or_eq_of_le (hle.trans hbc)).imp_right fun heq => ⟨heq, hfirst c hc⟩
      · rw [List.orderedInsert_cons, if_neg hle]
        refine List.pairwise_cons.mpr ⟨fun c hc => ?_, ih (fun c hc => ?_) hrest⟩
        · rcases (List.mem_orderedInsert _).mp hc with rfl | hc
          · exact Or.inl (lt_of_not_ge hle)
          · exact hb c hc
        · exact hfirst c (List.mem_cons_of_mem _ hc)

theorem ranked_stableSort {list : List α} (hlist : list.Pairwise before) :
    (stableSort key list).Pairwise (Ranked key before) := by
  induction list with
  | nil => exact List.Pairwise.nil
  | cons a rest ih =>
      obtain ⟨ha, hrest⟩ := List.pairwise_cons.mp hlist
      refine ranked_orderedInsert (fun b hb => ?_) (ih hrest)
      exact ha b ((stableSort_perm key rest).mem_iff.mp hb)

end StompyMux.Library
