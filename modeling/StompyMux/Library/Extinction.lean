import Mathlib.Algebra.BigOperators.Group.Finset.Basic
import Mathlib.Algebra.Order.BigOperators.Group.Finset
import Mathlib.Algebra.Order.Ring.Nat
import Mathlib.Tactic.Ring

-- Processes that feed on what their places hold, and die out with it.
namespace StompyMux.Library

-- A place with pieces of fuel. What burns there takes one piece along when its clock has run down.
structure Site where
  fuel : Nat
  clock : Option Nat

namespace Site

variable (cap : Nat)

-- No clock starts above the cap, so that a piece of fuel is worth one.
def potential (site : Site) : Nat :=
  match site.clock with
  | none => cap * site.fuel
  | some clock => clock + cap * (site.fuel - 1)

theorem potential_ignite {fuel clock : Nat} (hfuel : 0 < fuel) (hclock : clock ≤ cap) :
    potential cap ⟨fuel, some clock⟩ ≤ potential cap ⟨fuel, none⟩ := by
  obtain ⟨rest, rfl⟩ : ∃ rest, fuel = rest + 1 := ⟨fuel - 1, by omega⟩
  calc clock + cap * (rest + 1 - 1) ≤ cap + cap * rest := Nat.add_le_add_right hclock _
    _ = cap * (rest + 1) := by ring

theorem potential_run (fuel : Nat) {clock later drop : Nat} (h : later + drop ≤ clock) :
    potential cap ⟨fuel, some later⟩ + drop ≤ potential cap ⟨fuel, some clock⟩ := by
  show later + cap * (fuel - 1) + drop ≤ clock + cap * (fuel - 1)
  omega

theorem potential_burn (fuel clock : Nat) :
    potential cap ⟨fuel - 1, none⟩ ≤ potential cap ⟨fuel, some clock⟩ := Nat.le_add_left _ _

variable (n : Nat) (site later : Nat → Site)

def total : Nat := ∑ i ∈ Finset.range n, (site i).potential cap

theorem total_le_of (h : ∀ i < n, (later i).potential cap ≤ (site i).potential cap) :
    total cap n later ≤ total cap n site :=
  Finset.sum_le_sum fun i hi => h i (Finset.mem_range.mp hi)

-- What one place loses, all of them together lose.
theorem total_drop {j drop : Nat} (hj : j < n)
    (hothers : ∀ i < n, i ≠ j → (later i).potential cap ≤ (site i).potential cap)
    (hdrop : (later j).potential cap + drop ≤ (site j).potential cap) :
    total cap n later + drop ≤ total cap n site := by
  have hmem : j ∈ Finset.range n := Finset.mem_range.mpr hj
  have hrest : ∑ i ∈ (Finset.range n).erase j, (later i).potential cap ≤
      ∑ i ∈ (Finset.range n).erase j, (site i).potential cap := by
    refine Finset.sum_le_sum fun i hi => ?_
    obtain ⟨hne, hi⟩ := Finset.mem_erase.mp hi
    exact hothers i (Finset.mem_range.mp hi) hne
  have hlater := Finset.add_sum_erase _ (fun i => (later i).potential cap) hmem
  have hsite := Finset.add_sum_erase _ (fun i => (site i).potential cap) hmem
  unfold total
  omega

end Site

-- A run whose measure falls while it is active, and that does not become active again, dies out.
theorem dies_out (measure : Nat → Nat) (active : Nat → Prop)
    (hfalls : ∀ n, active n → measure (n + 1) < measure n)
    (hstill : ∀ n, ¬active n → ¬active (n + 1)) : ∃ n, ∀ m, n ≤ m → ¬active m := by
  have hstops : ∃ n, ¬active n := by
    by_contra hnever
    have hactive : ∀ n, active n := fun n => not_not.mp fun h => hnever ⟨n, h⟩
    have hbound : ∀ n, measure n + n ≤ measure 0 := by
      intro n
      induction n with
      | zero => exact le_refl _
      | succ n ih =>
        have hlt := hfalls n (hactive n)
        omega
    have hlast := hbound (measure 0 + 1)
    omega
  obtain ⟨n, hn⟩ := hstops
  refine ⟨n, fun m hm => ?_⟩
  induction m, hm using Nat.le_induction with
  | base => exact hn
  | succ m _ ih => exact hstill m ih

end StompyMux.Library
