import Mathlib.Data.Set.Insert
import Mathlib.Data.List.Nodup

-- Things that can be used up once each.
namespace StompyMux.Library

variable {ι : Type}

-- From the live things to the later live things, the listed ones were used up in this order.
structure Spends (live later : Set ι) (used : List ι) : Prop where
  once : used.Nodup
  taken : ∀ i ∈ used, i ∈ live ∧ i ∉ later
  shrinks : later ⊆ live

namespace Spends

variable (live later last : Set ι) (used more : List ι)

theorem ofSubset (h : later ⊆ live) : Spends live later [] where
  once := List.nodup_nil
  taken := by simp
  shrinks := h

theorem refl : Spends live live [] := ofSubset live live (Set.Subset.refl live)

theorem trans (h : Spends live later used) (h' : Spends later last more) :
    Spends live last (used ++ more) where
  once := by
    refine List.nodup_append.mpr ⟨h.once, h'.once, ?_⟩
    rintro i hi j hj rfl
    exact (h.taken i hi).2 (h'.taken i hj).1
  taken := by
    intro i hi
    rcases List.mem_append.mp hi with hi | hi
    · obtain ⟨hlive, hlater⟩ := h.taken i hi
      exact ⟨hlive, fun hlast => hlater (h'.shrinks hlast)⟩
    · obtain ⟨hlater, hlast⟩ := h'.taken i hi
      exact ⟨h.shrinks hlater, hlast⟩
  shrinks := h'.shrinks.trans h.shrinks

-- What is set aside meanwhile is neither used nor brought back.
theorem carry (aside : Set ι) (ha : ∀ i ∈ aside, i ∉ live) (h : Spends live later used) :
    Spends (live ∪ aside) (later ∪ aside) used where
  once := h.once
  taken := by
    intro i hi
    obtain ⟨hlive, hlater⟩ := h.taken i hi
    refine ⟨Or.inl hlive, ?_⟩
    rintro (hl | haside)
    · exact hlater hl
    · exact ha i haside hlive
  shrinks := Set.union_subset_union_left aside h.shrinks

theorem single (i : ι) (hi : i ∈ live) (hl : i ∉ later) (hs : later ⊆ live) :
    Spends live later [i] where
  once := List.nodup_singleton i
  taken := by
    intro j hj
    rw [List.mem_singleton.mp hj]
    exact ⟨hi, hl⟩
  shrinks := hs

end Spends

end StompyMux.Library
