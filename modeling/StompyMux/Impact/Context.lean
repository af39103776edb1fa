import StompyMux.Btech.Explosives
import StompyMux.Library.Update

-- One damage cascade: the unit it happens to and what it has done so far.
namespace StompyMux.Impact

open Library
open StompyMux.Btech

inductive DamageClass
  | Ordinary | Energy | AreaEffect | Impact | ArmorPiercing
  deriving DecidableEq

inductive WeaponEffect (Weapon : Type)
  | Conventional
  | ArmorPiercing (weapon : Weapon)
  | Plasma
  | Energy
  | AreaEffect
  | Impact

def WeaponEffect.damageClass {Weapon : Type} : WeaponEffect Weapon → DamageClass
  | .Plasma | .Energy => .Energy
  | .AreaEffect => .AreaEffect
  | .Impact => .Impact
  | .ArmorPiercing _ => .ArmorPiercing
  | .Conventional => .Ordinary

structure Hit where
  place : MechSection
  rearArmor : Bool
  throughArmorCritical : Bool

-- What the battlefield does to the unit while a cascade waits: injuries, falls and flooding.
inductive Interlude
  | HeadInjury
  | ExplosionInjury
  | SectionLost (place : MechSection)
  | Flood (place : MechSection)
  | HullBreach (place : MechSection)
  | Exposure (place : MechSection)
  | Critical (system : System)

-- Battlefield rules. Whatever they do to the unit, it is only worn further.
structure FallRules {Weapon : Type} (d : Design Weapon) where
  play : Interlude → Mech Weapon → Mech Weapon
  worn : ∀ interlude m, Mech.Worn d m (play interlude m)

structure Battlefield (Weapon : Type) where
  design : Design Weapon
  rules : Option (FallRules design)
  -- whether damage by this attacker, or by none, starts on a building complex
  complex : Option Nat → Bool
  vacuum : Bool

structure DumpIgnition where
  binIndex : Nat
  place : MechSection
  damage : Nat

structure ImpactReport where
  criticals : List (CriticalLocation × CriticalLoss)
  phases : List DamageResult
  plasmaHeat : Option Nat
  dumpIgnitions : List DumpIgnition

def ImpactReport.empty : ImpactReport := ⟨[], [], none, []⟩

-- What a section held just before the hit that destroyed it: the slots that could be struck,
-- and the explosive ones with the loss each would suffer.
structure DestroyedLocation where
  candidates : List CriticalLocation
  explosive : List (CriticalLocation × CriticalLoss)

-- The turns a cascade takes. They are kept for the proofs: nothing reads them.
inductive Event
  | Surveyed (survey : DestroyedLocation)
  | Detonated (component : Component)
  | BlownOff (place : MechSection)
  | Ignited (place : MechSection)
  | Intercepted
  | Breached (place : MechSection)

structure Context (Weapon : Type) where
  unit : Mech Weapon
  attacker : Option Nat
  work : Nat
  report : ImpactReport
  trace : List Event

abbrev Cascade (Weapon α : Type) := Update (Context Weapon) Error α

variable {Weapon : Type}

namespace Context

def setUnit (c : Context Weapon) (m : Mech Weapon) : Context Weapon := { c with unit := m }

def record (c : Context Weapon) (event : Event) : Context Weapon :=
  { c with trace := c.trace ++ [event] }

end Context

def unit : Cascade Weapon (Mech Weapon) := fun c => .ok c.unit c

def setUnit (m : Mech Weapon) : Cascade Weapon Unit := modify (fun c => c.setUnit m)

def record (event : Event) : Cascade Weapon Unit := modify (fun c => c.record event)

def roll (draw : Dice → Nat × Dice) : Cascade Weapon Nat := fun c =>
  .ok (draw c.unit.dice).1 (c.setUnit { c.unit with dice := (draw c.unit.dice).2 })

def genericRoll : Cascade Weapon Nat := roll Dice.genericRoll

def WORK_LIMIT : Error := "Damage cascade exceeds work limit"

-- Bound nested ammunition work.
def spend : Cascade Weapon Unit := fun c =>
  if 0 < c.work then .ok () { c with work := c.work - 1 } else .error WORK_LIMIT c

def liftExcept {α : Type} (x : Except Error α) : Cascade Weapon α := fun c =>
  match x with
  | .ok a => .ok a c
  | .error e => .error e c

variable (b : Battlefield Weapon)

def interlude (event : Interlude) : Cascade Weapon Unit :=
  modify (fun c =>
    match b.rules with
    | none => c
    | some rules => c.setUnit (rules.play event c.unit))

-- Every material entry rolls once before immunity is looked at.
def enterDamage : Cascade Weapon Bool := do
  let _ ← genericRoll
  let c ← get
  return c.unit.combatSafe || b.complex c.attacker

def damagePhase (s : MechSection) (damage : Nat) (phase : DamagePhase) :
    Cascade Weapon DamageResult := fun c =>
  .ok (c.unit.damagePhase b.design s damage phase).1
    (c.setUnit (c.unit.damagePhase b.design s damage phase).2)

def loseSections : List MechSection → Cascade Weapon Unit
  | [] => pure ()
  | s :: rest => do
      interlude b (.SectionLost s)
      loseSections rest

def recordPhase (phase : DamageResult) : Cascade Weapon Unit := do
  modify (fun c => { c with report := { c.report with phases := c.report.phases ++ [phase] } })
  loseSections b phase.destroyedSections
  interlude b (.Flood phase.place)

def pushCritical (location : CriticalLocation) (loss : CriticalLoss) : Cascade Weapon Unit :=
  modify (fun c =>
    { c with report := { c.report with criticals := c.report.criticals ++ [(location, loss)] } })

-- Exposure disables a section's equipment and spills its ammunition.
def expose (d : Design Weapon) (s : MechSection) (m : Mech Weapon) : Mech Weapon :=
  { m with
    breachedSections := insert s m.breachedSections
    ammunition := Mech.emptyBins d s m.ammunition }.reconcileDamage d

-- Water comes into a section under the surface once its armor is gone on one side.
def floodSection (d : Design Weapon) (underwater : MechSection → Bool) (s : MechSection)
    (m : Mech Weapon) : Mech Weapon :=
  if underwater s ∧ 0 < m.internal s ∧ ¬ m.sectionDisabled s ∧
      ¬ (0 < (m.sections s).armor ∧ (0 < (m.sections s).rear ∨ (d.sections s).rear = 0)) then
    { m with
      floodedSections := insert s m.floodedSections
      ammunition := Mech.emptyBins d s m.ammunition }.reconcileDamage d
  else m

def vacuumRoll (penetrating : Bool) : Cascade Weapon Bool :=
  if penetrating then pure true
  else do
    let roll ← genericRoll
    return decide (10 ≤ roll)

def checkVacuum (s : MechSection) (penetrating : Bool) : Cascade Weapon Unit :=
  if ¬ b.vacuum then pure ()
  else do
    let breach ← vacuumRoll penetrating
    let m ← unit
    if ¬ breach ∨ m.internal s = 0 ∨ m.sectionDisabled s then pure ()
    else do
      record (.Breached s)
      setUnit (expose b.design s m)
      interlude b (.Exposure s)

def wearCocoon (amount : Nat) (m : Mech Weapon) : Mech Weapon :=
  { m with cocoon :=
      m.cocoon.bind (fun integrity => if integrity ≤ amount then none else some (integrity - amount)) }

-- A cocoon diverts the whole packet on a roll above eight.
def intercept (amount : Nat) : Cascade Weapon Bool := do
  let m ← unit
  if m.cocoon = none then return false
  else do
    let roll ← genericRoll
    if roll ≤ 8 then return false
    else do
      record .Intercepted
      modify (fun c => c.setUnit (wearCocoon amount c.unit))
      return true

-- Nobody is credited with what the program does.
def unattributed {α : Type} (x : Cascade Weapon α) : Cascade Weapon α := fun c =>
  match x { c with attacker := none } with
  | .ok a after => .ok a { after with attacker := c.attacker }
  | .error e after => .error e { after with attacker := c.attacker }

structure HardenedHit where
  removed : Nat
  overflow : Nat
  dented : Bool

-- Each point takes two damage: the first slashes it, the second destroys it.
def hardenedHit (amount armor : Nat) (dented : Bool) : HardenedHit :=
  let slash := if dented && 0 < armor then 1 else 0
  let capacity := armor * 2 - slash
  if capacity ≤ amount then ⟨armor, amount - capacity, false⟩
  else ⟨(amount + slash) / 2, 0, (amount + slash) % 2 = 1⟩

-- Points removed and damage passed on, if the armor treats the class in a way of its own.
def reflectiveHit (kind : DamageClass) (amount armor : Nat) : Option (Nat × Nat) :=
  match kind with
  | .Ordinary | .ArmorPiercing => none
  | .Energy => some (min (max (amount / 2) (min amount 1)) armor, amount - armor * 2)
  | .AreaEffect | .Impact =>
      if amount * 2 ≤ armor then some (amount * 2, 0) else some (armor, amount - (armor + 1) / 2)

structure ArmorHit where
  removed : Nat
  overflow : Nat
  dented : Option Bool

def armorHit (d : Design Weapon) (m : Mech Weapon) (s : MechSection) (rear : Bool) (amount : Nat)
    (kind : DamageClass) : Option ArmorHit :=
  let facing := ArmorFacing.struck s rear
  let armor := (m.sections s).struck facing
  if d.hardenedArmor then
    if kind = .ArmorPiercing then none
    else
      let hit := hardenedHit amount armor (facing ∈ m.hardenedDents)
      some ⟨hit.removed, min hit.overflow 65535, some hit.dented⟩
  else if ¬ d.reflectiveArmor then none
  else (reflectiveHit kind amount armor).map (fun hit => ⟨hit.1, min hit.2 65535, none⟩)

def markHardenedDent (m : Mech Weapon) (facing : ArmorFacing) (dented : Bool) : Mech Weapon :=
  { m with hardenedDents :=
      if dented then insert facing m.hardenedDents else m.hardenedDents.erase facing }

end StompyMux.Impact
