import Mathlib.Logic.Relation
import Mathlib.Logic.Function.Basic
import Mathlib.Data.List.Basic

-- Nodes with at most one parent each, and the chains that climb from a node to a root.
namespace StompyMux.Library.Forest

variable {K : Type*} (up other : K → Option K)

-- The nodes met from a start to a node without a parent.
def Climb : Option K → List K → Prop
  | start, [] => start = none
  | start, k :: rest => start = some k ∧ Climb (up k) rest

abbrev Below : K → K → Prop := fun k parent => up k = some parent

def Acyclic : Prop := ∀ k, ¬ Relation.TransGen (Below up) k k

variable {up other}

variable (start : Option K) (chain : List K)

theorem Climb.unique (a b : List K) (ha : Climb up start a) (hb : Climb up start b) : a = b := by
  induction a generalizing start b with
  | nil =>
      cases b with
      | nil => rfl
      | cons j rest =>
          have hnone : start = none := ha
          rw [hnone] at hb
          exact absurd hb.1 (by simp)
  | cons k rest ih =>
      cases b with
      | nil =>
          have hnone : start = none := hb
          rw [hnone] at ha
          exact absurd ha.1 (by simp)
      | cons j tail =>
          have hjk : j = k := Option.some.inj (hb.1.symm.trans ha.1)
          subst hjk
          rw [ih (up j) tail ha.2 hb.2]

theorem Climb.split (earlier later : List K) (k : K)
    (h : Climb up start (earlier ++ k :: later)) : Climb up (up k) later := by
  induction earlier generalizing start with
  | nil => exact h.2
  | cons j earlier ih => exact ih (up j) h.2

theorem Climb.nodup (h : Climb up start chain) : chain.Nodup := by
  induction chain generalizing start with
  | nil => exact List.nodup_nil
  | cons k rest ih =>
      refine List.nodup_cons.mpr ⟨fun hk => ?_, ih (up k) h.2⟩
      obtain ⟨earlier, later, hsplit⟩ := List.append_of_mem hk
      have hlater := Climb.split (up k) earlier later k (hsplit ▸ h.2)
      have hsame := congrArg List.length (h.2.unique _ _ _ hlater)
      rw [hsplit, List.length_append, List.length_cons] at hsame
      omega

theorem Climb.not_mem (k : K) (chain : List K) (h : Climb up (up k) chain) : k ∉ chain := by
  have hcons : Climb up (some k) (k :: chain) := ⟨rfl, h⟩
  exact (List.nodup_cons.mp (hcons.nodup _ _)).1

theorem Climb.frame (h : Climb up start chain)
    (hsame : ∀ k ∈ chain, other k = up k) : Climb other start chain := by
  induction chain generalizing start with
  | nil => exact h
  | cons k rest ih =>
      refine ⟨h.1, ?_⟩
      rw [hsame k List.mem_cons_self]
      exact ih (up k) h.2 fun j hj => hsame j (List.mem_cons_of_mem _ hj)

-- A node hung elsewhere takes every chain that meets it along.
theorem Climb.hang [DecidableEq K] (k destination : K) (target : List K)
    (ht : Climb up (some destination) target) (hk : k ∉ target) (start : Option K)
    (chain : List K) (h : Climb up start chain) :
    ∃ moved, Climb (Function.update up k (some destination)) start moved ∧
      ∀ j ∈ moved, j ∈ chain ∨ j ∈ target := by
  have htarget : Climb (Function.update up k (some destination)) (some destination) target := by
    refine ht.frame _ _ fun j hj => Function.update_of_ne ?_ _ _
    rintro rfl
    exact hk hj
  induction chain generalizing start with
  | nil => exact ⟨[], h, fun j hj => Or.inl hj⟩
  | cons j rest ih =>
      by_cases hjk : j = k
      · subst hjk
        refine ⟨j :: target, ⟨h.1, ?_⟩, ?_⟩
        · rw [Function.update_self]
          exact htarget
        · intro i hi
          rcases List.mem_cons.mp hi with rfl | hi
          · exact Or.inl List.mem_cons_self
          · exact Or.inr hi
      · obtain ⟨moved, hm, hmem⟩ := ih (up j) h.2
        refine ⟨j :: moved, ⟨h.1, ?_⟩, ?_⟩
        · rw [Function.update_of_ne hjk]
          exact hm
        · intro i hi
          rcases List.mem_cons.mp hi with rfl | hi
          · exact Or.inl List.mem_cons_self
          · exact (hmem i hi).imp (List.mem_cons_of_mem _) id

theorem Climb.mem_of_above {k j : K} {chain : List K} (h : Climb up (up k) chain)
    (habove : Relation.TransGen (Below up) k j) : j ∈ chain := by
  have hstep : ∀ start chain i, Climb up start chain → start = some i → i ∈ chain := by
    rintro start chain i hc rfl
    cases chain with
    | nil => exact absurd hc (by simp [Climb])
    | cons l rest =>
        rw [Option.some.inj hc.1]
        exact List.mem_cons_self
  induction habove with
  | single hj => exact hstep _ _ _ h hj
  | tail _ hl ih =>
      obtain ⟨earlier, later, hsplit⟩ := List.append_of_mem ih
      have hlater := Climb.split (up k) earlier later _ (hsplit ▸ h)
      have hm := hstep _ _ _ hlater hl
      rw [hsplit]
      exact List.mem_append_right _ (List.mem_cons_of_mem _ hm)

theorem Climb.no_cycle (k : K) {chain : List K} (h : Climb up (up k) chain) :
    ¬ Relation.TransGen (Below up) k k :=
  fun hcycle => h.not_mem k chain (h.mem_of_above hcycle)

-- A path exists already without the changed parents, or it passes through one of them.
theorem path_or_changed (changed : K → Prop)
    (hsame : ∀ k parent, ¬ changed k → up k = some parent → other k = some parent) {a b : K}
    (h : Relation.TransGen (Below up) a b) :
    Relation.TransGen (Below other) a b ∨
      ∃ k, changed k ∧ Relation.ReflTransGen (Below up) a k ∧
        Relation.TransGen (Below up) k b := by
  induction h using Relation.TransGen.head_induction_on with
  | single hb =>
      rename_i a
      by_cases ha : changed a
      · exact Or.inr ⟨a, ha, .refl, .single hb⟩
      · exact Or.inl (.single (hsame a b ha hb))
  | head hc hrest ih =>
      rename_i a c
      by_cases ha : changed a
      · exact Or.inr ⟨a, ha, .refl, .head hc hrest⟩
      · rcases ih with hother | ⟨k, hk, hck, hkb⟩
        · exact Or.inl (.head (hsame a c ha hc) hother)
        · exact Or.inr ⟨k, hk, .head hc hck, hkb⟩

-- New cycles pass through changed parents.
theorem acyclic_of_changed (changed : K → Prop)
    (hsame : ∀ k parent, ¬ changed k → up k = some parent → other k = some parent)
    (hold : Acyclic other)
    (hchanged : ∀ k, changed k → ¬ Relation.TransGen (Below up) k k) : Acyclic up := by
  intro k hcycle
  rcases path_or_changed changed hsame hcycle with hother | ⟨j, hj, hkj, hjk⟩
  · exact hold k hother
  · exact hchanged j hj (Relation.TransGen.trans_left hjk hkj)

end StompyMux.Library.Forest
