import StompyMux.Library.Grades
import StompyMux.Map.TerrainRules

-- How woods, jungle and crops wear down under fire.
namespace StompyMux.Map

namespace Density

def thinner : Density → Option Density
  | Light => none
  | Heavy => some Light
  | UltraHeavy => some Heavy

end Density

namespace Foliage

def woods : Density → Foliage
  | .Light => LightWoods
  | .Heavy => HeavyWoods
  | .UltraHeavy => UltraHeavyWoods

def jungle : Density → Foliage
  | .Light => LightJungle
  | .Heavy => HeavyJungle
  | .UltraHeavy => UltraHeavyJungle

-- The damage that growth takes before weapon fire reduces it.
def terrainFactor : Foliage → Nat
  | LightWoods => 50
  | HeavyWoods => 90
  | UltraHeavyWoods => 120
  | LightJungle => 60
  | HeavyJungle => 100
  | UltraHeavyJungle => 130
  | PlantedFields => 30

def thinned (foliage : Foliage) : Option Foliage := do
  let density ← foliage.density
  let thinner ← density.thinner
  some (if foliage.isJungle then jungle thinner else woods thinner)

theorem thinned_lighter (foliage thinner : Foliage) (h : foliage.thinned = some thinner) :
    thinner.terrainFactor < foliage.terrainFactor := by
  cases foliage <;> cases h <;> decide

end Foliage

namespace Hex

variable (hex : Hex)

def withGround (ground : Ground) : Hex := { hex with ground }

def withFoliage (foliage : Option Foliage) : Hex := { hex with foliage }

def withCondition (condition : Option Condition) : Hex := { hex with condition }

def isBurning : Bool := hex.overlay = some .Fire

end Hex

end StompyMux.Map

namespace StompyMux.Woodland

open Library
open StompyMux.Map

inductive WoodlandClearing
  | Thin | CutToClear | CutToRough
  deriving DecidableEq

namespace WoodlandClearing

def of (foliage : Foliage) : WoodlandClearing :=
  if foliage.thinned.isSome then Thin
  else if foliage.density.isSome then CutToRough
  else CutToClear

def apply (clearing : WoodlandClearing) (hex : Hex) : Option Hex := do
  let foliage ← hex.foliage
  match clearing, foliage.thinned with
  | Thin, some thinner => some (hex.withFoliage (some thinner))
  | CutToClear, none => some (hex.withFoliage none)
  | CutToRough, none => some ((hex.withFoliage none).withGround .Rough)
  | _, _ => none

end WoodlandClearing

structure WoodlandReduction where
  hex : Hex
  carried : Nat
  clearing : WoodlandClearing
  deriving DecidableEq

-- The loop takes lighter types while what remains is below their factor. There are three densities.
def reduced (remaining : Nat) : Nat → Foliage → Foliage
  | 0, foliage => foliage
  | rounds + 1, foliage =>
      match foliage.thinned with
      | some thinner =>
          if remaining < thinner.terrainFactor then reduced remaining rounds thinner else foliage
      | none => foliage

def reduceWoodland (hex : Hex) (total : Nat) : Option WoodlandReduction := do
  let foliage ← hex.foliage
  let factor := foliage.terrainFactor
  if factor ≤ total then
    if foliage.density.isSome then
      some ⟨(hex.withFoliage none).withGround .Rough, 0, .CutToRough⟩
    else some ⟨hex.withFoliage none, 0, .CutToClear⟩
  else
    let remaining := factor - total
    let lighter := reduced remaining 3 foliage
    if lighter = foliage then none
    else some ⟨hex.withFoliage (some lighter), lighter.terrainFactor - remaining, .Thin⟩

-- Growth as a thing that wears down through its densities.
def growth : Grades Foliage where
  factor := Foliage.terrainFactor
  next := Foliage.thinned
  lighter := Foliage.thinned_lighter

theorem reduced_eq (remaining : Nat) (foliage : Foliage) :
    reduced remaining 3 foliage = growth.settle remaining foliage := by
  have hlight : ∀ f : Foliage, f.thinned = none → growth.settle remaining f = f :=
    fun f hf => growth.settle_last remaining hf
  have hdown : ∀ f g : Foliage, f.thinned = some g →
      growth.settle remaining f = if remaining < g.terrainFactor then growth.settle remaining g else f :=
    fun f g hf => growth.settle_next remaining hf
  cases foliage with
  | LightWoods => exact (hlight .LightWoods rfl).symm
  | LightJungle => exact (hlight .LightJungle rfl).symm
  | PlantedFields => exact (hlight .PlantedFields rfl).symm
  | HeavyWoods =>
    rw [hdown .HeavyWoods .LightWoods rfl, hlight .LightWoods rfl]
    rfl
  | HeavyJungle =>
    rw [hdown .HeavyJungle .LightJungle rfl, hlight .LightJungle rfl]
    rfl
  | UltraHeavyWoods =>
    rw [hdown .UltraHeavyWoods .HeavyWoods rfl, hdown .HeavyWoods .LightWoods rfl,
      hlight .LightWoods rfl]
    rfl
  | UltraHeavyJungle =>
    rw [hdown .UltraHeavyJungle .HeavyJungle rfl, hdown .HeavyJungle .LightJungle rfl,
      hlight .LightJungle rfl]
    rfl

-- Growth never gets denser: a lighter density of the same kind, or none at all.
def NoDenser (after before : Option Foliage) : Prop :=
  ∀ f', after = some f' → ∃ f, before = some f ∧ Relation.ReflTransGen growth.Lighter f f'

-- The ground that is left when growth of this kind has fallen.
def felled (hex : Hex) (foliage : Foliage) : Hex :=
  if foliage.density.isSome then (hex.withFoliage none).withGround .Rough else hex.withFoliage none

-- Whether growth keeps its density under so much damage.
def holds (foliage : Foliage) (total : Nat) : Bool :=
  total < foliage.terrainFactor &&
    foliage.thinned.all (fun thinner => thinner.terrainFactor ≤ foliage.terrainFactor - total)

section Reduction

variable (hex : Hex) (s : growth.Standing) (damage : Nat)

theorem reduceWoodland_fallen (hfoliage : hex.foliage = some s.grade) (h : s.wear damage = none) :
    ∃ clearing, reduceWoodland hex (s.taken + damage) = some ⟨felled hex s.grade, 0, clearing⟩ := by
  have hspent : s.grade.terrainFactor ≤ s.taken + damage := by
    have hle := (s.wear_none damage).mp h
    exact Nat.sub_le_iff_le_add'.mp hle
  unfold reduceWoodland felled
  rw [hfoliage]
  simp only [Option.bind_eq_bind, Option.bind_some, if_pos hspent]
  split
  · exact ⟨.CutToRough, rfl⟩
  · exact ⟨.CutToClear, rfl⟩

theorem reduceWoodland_standing (hfoliage : hex.foliage = some s.grade) {t : growth.Standing}
    (h : s.wear damage = some t) : reduceWoodland hex (s.taken + damage) =
      if t.grade = s.grade then none
      else some ⟨hex.withFoliage (some t.grade), t.taken, .Thin⟩ := by
  obtain ⟨hlt, hleft, hgrade⟩ := s.wear_some damage t h
  have hstands : ¬s.grade.terrainFactor ≤ s.taken + damage := not_le.mpr (Nat.lt_sub_iff_add_lt'.mp hlt)
  have hremaining : s.grade.terrainFactor - (s.taken + damage) = s.left - damage := Nat.sub_add_eq _ _ _
  have htaken : t.taken = t.grade.terrainFactor - (s.left - damage) := by
    rw [← hleft]
    exact (Nat.sub_sub_self (le_of_lt t.stands)).symm
  unfold reduceWoodland
  rw [hfoliage]
  simp only [Option.bind_eq_bind, Option.bind_some, if_neg hstands]
  rw [hremaining, reduced_eq, ← hgrade, htaken]

theorem reduceWoodland_none_iff (hfoliage : hex.foliage = some s.grade) :
    reduceWoodland hex (s.taken + damage) = none ↔ ∃ t, s.wear damage = some t ∧ t.grade = s.grade := by
  cases hwear : s.wear damage with
  | none =>
    obtain ⟨clearing, hreduction⟩ := reduceWoodland_fallen hex s damage hfoliage hwear
    rw [hreduction]
    exact ⟨fun h => by contradiction, fun ⟨t, ht, _⟩ => by contradiction⟩
  | some t =>
    rw [reduceWoodland_standing hex s damage hfoliage hwear]
    split
    · rename_i hsame
      exact ⟨fun _ => ⟨t, rfl, hsame⟩, fun _ => rfl⟩
    · rename_i hother
      refine ⟨fun h => by contradiction, fun ⟨u, hu, hsame⟩ => ?_⟩
      cases hu
      exact absurd hsame hother

theorem standing_total (t : growth.Standing) (h : s.wear damage = some t) (hsame : t.grade = s.grade) :
    t.taken = s.taken + damage := by
  obtain ⟨hlt, hleft, -⟩ := s.wear_some damage t h
  have ht := t.stands
  unfold Grades.Standing.left at hlt hleft
  rw [hsame] at hleft ht
  omega

theorem holds_iff : holds s.grade (s.taken + damage) = true ↔
    ∃ t, s.wear damage = some t ∧ t.grade = s.grade := by
  unfold holds
  rw [Bool.and_eq_true, decide_eq_true_eq]
  have hremaining : s.grade.terrainFactor - (s.taken + damage) = s.left - damage := Nat.sub_add_eq _ _ _
  have hlt : s.taken + damage < s.grade.terrainFactor ↔ damage < s.left := Nat.lt_sub_iff_add_lt'.symm
  have hstay := growth.settle_stays_iff (s.left - damage) s.grade
  rw [hremaining, hlt]
  refine (and_congr_right fun _ => hstay.symm).trans ?_
  constructor
  · rintro ⟨hleft, hstays⟩
    cases hwear : s.wear damage with
    | none => exact absurd hleft (not_lt.mpr ((s.wear_none damage).mp hwear))
    | some t => exact ⟨t, rfl, ((s.wear_some damage t hwear).2.2).trans hstays⟩
  · rintro ⟨t, hwear, hsame⟩
    obtain ⟨hleft, -, hgrade⟩ := s.wear_some damage t hwear
    exact ⟨hleft, hgrade.symm.trans hsame⟩

end Reduction

-- Every factor is far below the largest total that is recorded.
theorem reduceWoodland_saturated (hex : Hex) (total : Nat) {largest : Nat} (h : 130 ≤ largest) :
    reduceWoodland hex (min total largest) = reduceWoodland hex total := by
  cases le_total total largest with
  | inl hle => rw [Nat.min_eq_left hle]
  | inr hle =>
    rw [Nat.min_eq_right hle]
    have hfactor : ∀ f : Foliage, f.terrainFactor ≤ 130 := by
      intro f
      cases f <;> decide
    unfold reduceWoodland
    cases hex.foliage with
    | none => rfl
    | some f =>
      have hspent := le_trans (hfactor f) h
      simp only [Option.bind_eq_bind, Option.bind_some, if_pos hspent, if_pos (le_trans hspent hle)]

end StompyMux.Woodland
