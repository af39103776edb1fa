import Mathlib.Data.Finset.Lattice.Basic
import Mathlib.Logic.Function.Basic
import StompyMux.Btech.Equipment

-- A unit in combat.
namespace StompyMux.Btech

-- The values a unit's dice will show, already reduced to fair rolls.
abbrev Dice := Nat → Nat

namespace Dice

def die (dice : Dice) (sides : Nat) : Nat × Dice :=
  (dice 0 % sides + 1, fun n => dice (n + 1))

def d6 (dice : Dice) : Nat × Dice := dice.die 6

def genericRoll (dice : Dice) : Nat × Dice :=
  (dice.d6.1 + dice.d6.2.d6.1, dice.d6.2.d6.2)

end Dice

inductive EquipmentFailure
  | Jammed | Shorted | Dud | Empty | Disabled | AmmunitionJam | CriticalAmmunitionJam
  deriving DecidableEq

inductive Power
  | Off
  | Starting (remaining : Nat)
  | Running
  deriving DecidableEq

inductive DumpSelection (Weapon : Type)
  | All
  | Weapon (weapon : Weapon)
  | Section (place : MechSection)
  | Slot (location : CriticalLocation)

structure Mech (Weapon : Type) where
  sections : MechSection → SectionState
  lostCriticals : Finset CriticalLocation
  -- rounds left in each bin of the loadout
  ammunition : Nat → Nat
  ammunitionModes : Nat → AmmunitionMode
  fireModes : Nat → FireMode
  jammedWeapons : Finset Nat
  weaponFailures : Nat → Option EquipmentFailure
  poweredDownWeapons : Finset Nat
  floodedSections : Finset MechSection
  breachedSections : Finset MechSection
  hardenedDents : Finset ArmorFacing
  beacons : Finset MechSection
  combatSafe : Bool
  dumping : Option (DumpSelection Weapon)
  -- integrity of the orbital drop cocoon around the unit
  cocoon : Option Nat
  transportDestroyed : Bool
  pilotKilled : Bool
  characterPilotKilled : Bool
  power : Power
  pilot : Option Nat
  targetLock : Option Nat
  selfDestruct : Option Nat
  dice : Dice

inductive CriticalLoss
  | Weapon (index explosionDamage : Nat)
  | Ammunition (index rounds explosionDamage : Nat)
  | System (system : System)
  deriving DecidableEq

-- What a loss sets off.
def explosionDamage : CriticalLoss → Nat
  | .Weapon _ damage => damage
  | .Ammunition _ _ damage => damage
  | .System _ => 0

namespace Mech

variable {Weapon : Type} (d : Design Weapon) (m : Mech Weapon)

def internal (s : MechSection) : Nat := (m.sections s).internal

def criticalDestroyed (location : CriticalLocation) : Bool :=
  location ∈ m.lostCriticals || m.internal location.place = 0

def sectionDisabled (s : MechSection) : Bool := s ∈ m.floodedSections || s ∈ m.breachedSections

def criticalUnavailable (location : CriticalLocation) : Bool :=
  m.criticalDestroyed location || m.sectionDisabled location.place

def criticalCandidates (s : MechSection) : List CriticalLocation :=
  (((d.sections s).criticals.entries.filter
    (fun part => !part.2.system.any System.isNoncritical)).map
      (fun part => (⟨s, part.1⟩ : CriticalLocation))).filter (fun location => !m.criticalDestroyed location)

def weaponIntact (index : Nat) : Bool :=
  d.loadout.weapons[index]?.any
    (fun mount => mount.criticals.all (fun location => !m.criticalUnavailable location))

def systemsIntact : Bool :=
  m.lostCriticals = ∅ && m.floodedSections = ∅ && m.breachedSections = ∅ &&
    MechSection.ALL.all (fun s => 0 < m.internal s)

-- Destruction asks for the engine and the cockpit; grouped sinks and jets are counted by group.
def systemHits (system : System) : Nat :=
  if m.systemsIntact then 0
  else
    MechSection.ALL.foldl (fun hits s => hits + ((d.sections s).criticals.entries.filter (fun part =>
      (m.criticalDestroyed ⟨s, part.1⟩ ||
          ([System.Engine, .HeatSink, .JumpJet].contains system && m.sectionDisabled s)) &&
        part.2.system = some system)).length) 0

def isDestroyed : Bool :=
  m.transportDestroyed || m.sectionDisabled d.cockpitSection || m.characterPilotKilled ||
    m.pilotKilled ||
    (!m.systemsIntact && (3 ≤ m.systemHits d .Engine || 0 < m.systemHits d .Cockpit)) ||
    (!d.torsoMountedCockpit && m.internal .Head = 0) || m.internal .CenterTorso = 0

def weaponJammed (index : Nat) : Bool :=
  index ∈ m.jammedWeapons || m.weaponFailures index = some .AmmunitionJam

-- A powered-down or disabled mount cannot initiate an explosion.
def explosionDisabled (index : Nat) : Bool :=
  index ∈ m.poweredDownWeapons || m.weaponFailures index = some .Disabled

def hotloadSupply [DecidableEq Weapon] (weapon : Weapon) (mode : AmmunitionMode) : Bool :=
  (List.range d.loadout.ammunition.length).any (fun i =>
    d.loadout.ammunition[i]?.any (fun bin =>
      bin.weapon = weapon && bin.mode = mode && 0 < m.ammunition i &&
        !m.criticalUnavailable bin.location))

def weaponExplosion [DecidableEq Weapon] (index : Nat) (weapon : Weapon) : Nat :=
  if m.weaponIntact d index && !m.explosionDisabled index then
    let supply := d.catalog.hotloadSupplyMode weapon (m.ammunitionModes index)
    if m.fireModes index = .Hotload ∧ m.hotloadSupply d weapon supply then
      (d.catalog.profileForAmmunition weapon supply).damage *
        max (d.catalog.profile weapon).missiles 1
    else if 0 < d.catalog.jammedExplosionDamage weapon ∧ m.weaponJammed index then
      d.catalog.jammedExplosionDamage weapon
    else if d.catalog.isBPod weapon then d.catalog.podExplosionDamage weapon
    else d.catalog.weaponExplosionDamage weapon
  else 0

def mountAt (location : CriticalLocation) : Option Nat :=
  d.loadout.weapons.findIdx? (fun mount => location ∈ mount.criticals)

def binAt (location : CriticalLocation) : Option Nat :=
  d.loadout.ammunition.findIdx? (fun bin => bin.location = location)

-- The loss before it is known whether the slot is still there.
def pendingLoss [DecidableEq Weapon] (location : CriticalLocation) : Except Error CriticalLoss :=
  match mountAt d location with
  | some index =>
      match d.loadout.weapons[index]? with
      | some mount => .ok (.Weapon index (m.weaponExplosion d index mount.weapon))
      | none => .error "Weapon index out of bounds"
  | none =>
      match binAt d location with
      | some index =>
          match d.loadout.ammunition[index]? with
          | some bin =>
              .ok (.Ammunition index (m.ammunition index)
                (d.catalog.ammunitionExplosionDamageForMode bin.weapon (m.ammunition index) bin.mode))
          | none => .error "Ammunition index out of bounds"
      | none =>
          match d.loadout.systems.find? (fun part => part.location = location) with
          | some part => .ok (.System part.system)
          | none => .error "Critical slot is not installed"

def criticalLoss [DecidableEq Weapon] (location : CriticalLocation) :
    Except Error (Option CriticalLoss) :=
  match m.pendingLoss d location with
  | .ok loss => .ok (if m.criticalDestroyed location then none else some loss)
  | .error e => .error e

def structureDamage (amount : Nat) : Nat :=
  if d.reinforcedStructure then (amount + 1) / 2
  else if d.compositeStructure then min (amount * 2) 65535
  else amount

end Mech

-- Armor and structure damage, and what a destroyed section takes with it.

inductive DamagePhase
  | Armor (rear : Bool)
  | Internal
  deriving DecidableEq

structure DamageResult where
  place : MechSection
  absorbed : Nat
  remaining : Nat
  destroyedSections : List MechSection
  unitDestroyed : Bool
  deriving DecidableEq

namespace Mech

variable {Weapon : Type} (d : Design Weapon) (m : Mech Weapon)

-- Damage clamps controls; destruction cancels power and releases the cockpit.
def reconcileDamage : Mech Weapon :=
  let kept := { m with
    weaponFailures := fun index => if m.weaponIntact d index then m.weaponFailures index else none }
  if kept.isDestroyed d then
    { kept with selfDestruct := none, power := .Off, pilot := none, targetLock := none }
  else kept

def setSection (s : MechSection) (state : SectionState) : Mech Weapon :=
  { m with sections := Function.update m.sections s state }

-- The bins of a section lose their rounds with it.
def emptyBins (s : MechSection) (ammunition : Nat → Nat) (index : Nat) : Nat :=
  if d.loadout.ammunition[index]?.any (fun bin => bin.location.place = s) then 0
  else ammunition index

def clearSection (s : MechSection) : Mech Weapon :=
  { m with
    sections := Function.update m.sections s ⟨0, 0, 0⟩
    beacons := m.beacons.erase s
    floodedSections := m.floodedSections.erase s
    breachedSections := m.breachedSections.erase s
    hardenedDents := m.hardenedDents.filter (fun facing => facing.place ≠ s)
    lostCriticals := m.lostCriticals ∪ (d.locations s).toFinset
    ammunition := emptyBins d s m.ammunition }

-- A side torso takes its arm along; an arm takes nothing further.
def clearDestroyedSection (s : MechSection) : Mech Weapon × List MechSection :=
  let cleared := m.clearSection d s
  match s.arm with
  | none => (cleared, [s])
  | some arm =>
      if cleared.internal arm ≠ 0 then (cleared.clearSection d arm, [s, arm]) else (cleared, [s])

def protection (s : MechSection) (phase : DamagePhase) : Nat :=
  match phase with
  | .Armor rear => if rear && s.isTorso then (m.sections s).rear else (m.sections s).armor
  | .Internal => (m.sections s).internal

def setProtection (s : MechSection) (phase : DamagePhase) (value : Nat) : Mech Weapon :=
  m.setSection s <|
    match phase with
    | .Armor rear =>
        if rear && s.isTorso then { m.sections s with rear := value }
        else { m.sections s with armor := value }
    | .Internal => { m.sections s with internal := value }

-- No armor point is left to carry a slash.
def dropDent (s : MechSection) (phase : DamagePhase) : Mech Weapon :=
  match phase with
  | .Armor rear =>
      if m.protection s phase = 0 then
        { m with hardenedDents := m.hardenedDents.erase (ArmorFacing.struck s rear) }
      else m
  | .Internal => m

def collapse (s : MechSection) (phase : DamagePhase) : Mech Weapon × List MechSection :=
  if phase = .Internal ∧ m.internal s = 0 then m.clearDestroyedSection d s else (m, [])

def damagePhase (s : MechSection) (amount : Nat) (phase : DamagePhase) :
    DamageResult × Mech Weapon :=
  if amount = 0 ∨ m.internal s = 0 then (⟨s, 0, amount, [], m.isDestroyed d⟩, m)
  else
    let absorbed := min (m.protection s phase) amount
    let struck := (m.setProtection s phase (m.protection s phase - absorbed)).dropDent s phase
    let collapsed := struck.collapse d s phase
    (⟨s, absorbed, amount - absorbed, collapsed.2, collapsed.1.isDestroyed d⟩,
      collapsed.1.reconcileDamage d)

end Mech

end StompyMux.Btech

-- Losing one critical slot.
namespace StompyMux.Btech

open Library.Text

-- A controller's one-based link to its launcher's first slot.
def fireControlLink (data : List Char) : Except Error Nat :=
  if data = ['-'] then .error "has no launcher link"
  else
    match parseUnsigned 10 255 data with
    | .error _ => .error "has an invalid launcher link"
    | .ok 0 => .error "has no launcher link"
    | .ok (link + 1) => .ok (link + 1)

def fallbackMode (mode : AmmunitionMode) : AmmunitionMode :=
  if mode.munition = .Artemis then mode.withMunition .Normal else mode

namespace Mech

variable {Weapon : Type} (d : Design Weapon) (m : Mech Weapon)

def loseSlots (slots : Finset CriticalLocation) : Mech Weapon :=
  { m with lostCriticals := m.lostCriticals ∪ slots }

-- The failure of a struck mount is forgotten.
def forgetFailure (loss : CriticalLoss) : Mech Weapon :=
  match loss with
  | .Weapon index _ => { m with weaponFailures := Function.update m.weaponFailures index none }
  | _ => m

def dataAt (location : CriticalLocation) : Option (List Char) :=
  ((d.sections location.place).criticals.entries.find?
    (fun part => part.1 = location.slot)).map (fun part => part.2.data)

-- A launcher keeps its long-range family when its controller is lost.
def dropGuidance (location : CriticalLocation) (loss : CriticalLoss) : Except Error (Mech Weapon) :=
  if loss = .System .ArtemisIv ∨ loss = .System .ArtemisV then
    match dataAt d location with
    | none => .error "Critical slot is not installed"
    | some data =>
        match fireControlLink data with
        | .error e => .error e
        | .ok link =>
            let launcher : CriticalLocation := ⟨location.place, link - 1⟩
            .ok { m with ammunitionModes := fun index =>
              if d.loadout.weapons[index]?.any (fun mount => mount.criticals.head? = some launcher)
              then fallbackMode (m.ammunitionModes index)
              else m.ammunitionModes index }
  else .ok m

-- An explosive mount is lost as a whole.
def loseMount (loss : CriticalLoss) : Mech Weapon :=
  match loss with
  | .Weapon index damage =>
      if 0 < damage then
        match d.loadout.weapons[index]? with
        | some mount => m.loseSlots mount.criticals.toFinset
        | none => m
      else m
  | _ => m

-- Every slot of the installation that holds the location.
def loseGroup (groups : Except Error (List (List CriticalLocation))) (location : CriticalLocation)
    (missing : Error) : Except Error (Mech Weapon) :=
  match groups with
  | .error e => .error e
  | .ok groups =>
      match groups.find? (fun group => location ∈ group) with
      | some group => .ok (m.loseSlots group.toFinset)
      | none => .error missing

def loseSinks (location : CriticalLocation) (loss : CriticalLoss) : Except Error (Mech Weapon) :=
  if loss = .System .HeatSink ∧ d.hasDoubleHeatSinks then
    m.loseGroup (d.loadout.heatSinkGroups d.heatSinkSlots) location "installed sink group"
  else .ok m

def loseJets (location : CriticalLocation) (loss : CriticalLoss) : Except Error (Mech Weapon) :=
  if loss = .System .JumpJet ∧ d.improvedJumpJets then
    m.loseGroup (d.loadout.jumpJetGroups true) location "installed jet group"
  else .ok m

def emptyBin (loss : CriticalLoss) : Mech Weapon :=
  match loss with
  | .Ammunition index _ _ => { m with ammunition := Function.update m.ammunition index 0 }
  | _ => m

def destroyCritical [DecidableEq Weapon] (location : CriticalLocation) :
    Except Error (Option CriticalLoss × Mech Weapon) :=
  match m.criticalLoss d location with
  | .error e => .error e
  | .ok none => .ok (none, m)
  | .ok (some loss) =>
      let struck := (m.loseSlots {location}).forgetFailure loss
      match struck.dropGuidance d location loss with
      | .error e => .error e
      | .ok unguided =>
          match (unguided.loseMount d loss).loseSinks d location loss with
          | .error e => .error e
          | .ok cooled =>
              match cooled.loseJets d location loss with
              | .error e => .error e
              | .ok grounded => .ok (some loss, (grounded.emptyBin loss).reconcileDamage d)

end Mech

end StompyMux.Btech
