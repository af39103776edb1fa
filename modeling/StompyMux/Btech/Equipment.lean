import Mathlib.Data.Finset.Basic
import Mathlib.Data.List.Nodup
import StompyMux.Library.Text

-- A BattleMech's eight sections and what they hold.
namespace StompyMux.Btech

-- In storage order.
inductive MechSection
  | LeftArm
  | RightArm
  | LeftTorso
  | RightTorso
  | CenterTorso
  | LeftLeg
  | RightLeg
  | Head
  deriving DecidableEq

namespace MechSection

def ALL : List MechSection :=
  [.LeftArm, .RightArm, .LeftTorso, .RightTorso, .CenterTorso, .LeftLeg, .RightLeg, .Head]

theorem mem_all (s : MechSection) : s ∈ ALL := by cases s <;> decide

def damageTransfer : MechSection → Option MechSection
  | .LeftArm | .LeftLeg => some .LeftTorso
  | .RightArm | .RightLeg => some .RightTorso
  | .LeftTorso | .RightTorso => some .CenterTorso
  | .CenterTorso | .Head => none

def isTorso : MechSection → Bool
  | .LeftTorso | .RightTorso | .CenterTorso => true
  | _ => false

def isLimb : MechSection → Bool
  | .LeftArm | .RightArm | .LeftLeg | .RightLeg => true
  | _ => false

-- The arm that is lost with a side torso.
def arm : MechSection → Option MechSection
  | .LeftTorso => some .LeftArm
  | .RightTorso => some .RightArm
  | _ => none

-- The sections damage passes through from this one on.
def chain : MechSection → List MechSection
  | .LeftArm => [.LeftArm, .LeftTorso, .CenterTorso]
  | .LeftLeg => [.LeftLeg, .LeftTorso, .CenterTorso]
  | .RightArm => [.RightArm, .RightTorso, .CenterTorso]
  | .RightLeg => [.RightLeg, .RightTorso, .CenterTorso]
  | .LeftTorso => [.LeftTorso, .CenterTorso]
  | .RightTorso => [.RightTorso, .CenterTorso]
  | .CenterTorso => [.CenterTorso]
  | .Head => [.Head]

theorem chain_eq (s : MechSection) :
    s.chain = s :: (s.damageTransfer.map chain).getD [] := by cases s <;> rfl

theorem chain_nodup (s : MechSection) : s.chain.Nodup := by cases s <;> decide

-- How many sections damage can reach.
def depth (s : MechSection) : Nat := s.chain.length

theorem depth_transfer {s next : MechSection} (h : s.damageTransfer = some next) :
    next.depth + 1 = s.depth := by
  rw [depth, depth, chain_eq s, h, Option.map_some, Option.getD_some, List.length_cons]

theorem depth_le (s : MechSection) : s.depth ≤ 3 := by cases s <;> decide

end MechSection

-- Limb arrangement determines leg roles and critical capacity.
inductive MechChassis
  | Biped
  | Quad
  deriving DecidableEq

namespace MechChassis

def isLeg (chassis : MechChassis) : MechSection → Bool
  | .LeftLeg | .RightLeg => true
  | .LeftArm | .RightArm => chassis = .Quad
  | _ => false

def criticalSlots (chassis : MechChassis) (s : MechSection) : Nat :=
  if s = .Head ∨ chassis.isLeg s then 6 else 12

theorem criticalSlots_total (chassis : MechChassis) :
    (MechSection.ALL.map chassis.criticalSlots).sum ≤ 78 := by cases chassis <;> decide

end MechChassis

structure SectionState where
  armor : Nat
  internal : Nat
  rear : Nat
  deriving DecidableEq

-- A zero-based slot of a section.
structure CriticalLocation where
  place : MechSection
  slot : Nat
  deriving DecidableEq

-- The front armor of a location, or the rear armor of a torso.
structure ArmorFacing where
  place : MechSection
  rear : Bool
  deriving DecidableEq

def ArmorFacing.struck (s : MechSection) (rear : Bool) : ArmorFacing := ⟨s, rear && s.isTorso⟩

-- The armor a hit on the facing strikes.
def SectionState.struck (state : SectionState) (facing : ArmorFacing) : Nat :=
  if facing.rear then state.rear else state.armor

end StompyMux.Btech

-- What a design installs. It never changes in combat.
namespace StompyMux.Btech

open Library.Text

-- The text of a failure.
abbrev Error := String

inductive System
  | ShoulderOrHip | UpperActuator | LowerActuator | HandOrFootActuator | Engine | Gyro | Cockpit
  | LifeSupport | Sensors | HeatSink | FuelTank | JumpJet | FerroFibrous | EndoSteel
  | TripleStrengthMyomer | Masc | Supercharger | C3Master | C3Slave | C3i | HeavyFerroFibrous
  | LightFerroFibrous | Case | CaseIi | TargetingComputer | ArtemisIv | ArtemisV | ApolloFcs | Ecm
  | AngelEcm | StealthArmor | LaserReflective | NullSignature | BeagleProbe | Tag | LightTag
  | LightProbe | BloodhoundProbe | Axe | Sword | Mace | DualSaw | Claw | RetractableBlade | Lance
  | Flail | WreckingBall | ChainWhip | SmallVibroblade | MediumVibroblade | LargeVibroblade | Talons
  | MachineGunArray | Spikes | Cargo | CommunicationsEquipment | LiftHoist | Backhoe
  deriving DecidableEq

-- Passive equipment that takes no random critical hits.
def System.isNoncritical : System → Bool
  | .FerroFibrous | .StealthArmor | .LaserReflective | .EndoSteel | .TripleStrengthMyomer
  | .HeavyFerroFibrous | .LightFerroFibrous | .Case | .CaseIi => true
  | _ => false

inductive AmmunitionMode
  | Normal | Cluster | Smoke | Mine | Artemis | Narc | SemiGuided | Swarm | Swarm1 | MmlLrm
  | MmlLrmArtemis | MmlLrmNarc | MmlLrmSwarm | MmlLrmSwarm1 | MmlLrmSemiGuided | ExtendedRange
  | HighExplosive | INarcExplosive | INarcHaywire | INarcEcm | INarcNemesis | Precision | Flechette
  | ArmorPiercing | Caseless | Inferno | ThunderAugmented | ThunderVibrabomb | ThunderActive
  | Homing
  deriving DecidableEq

namespace AmmunitionMode

def isMmlLrm : AmmunitionMode → Bool
  | .MmlLrm | .MmlLrmArtemis | .MmlLrmNarc | .MmlLrmSwarm | .MmlLrmSwarm1 | .MmlLrmSemiGuided => true
  | _ => false

def munition : AmmunitionMode → AmmunitionMode
  | .MmlLrm => .Normal
  | .MmlLrmArtemis => .Artemis
  | .MmlLrmNarc => .Narc
  | .MmlLrmSwarm => .Swarm
  | .MmlLrmSwarm1 => .Swarm1
  | .MmlLrmSemiGuided => .SemiGuided
  | mode => mode

-- The round in the long-range family of a multi-missile launcher.
def withMmlFamily (mode : AmmunitionMode) : Option AmmunitionMode :=
  match mode.munition with
  | .Normal => some .MmlLrm
  | .Artemis => some .MmlLrmArtemis
  | .Narc => some .MmlLrmNarc
  | .Swarm => some .MmlLrmSwarm
  | .Swarm1 => some .MmlLrmSwarm1
  | .SemiGuided => some .MmlLrmSemiGuided
  | _ => none

def withMunition (mode munition : AmmunitionMode) : AmmunitionMode :=
  if mode.isMmlLrm then munition.withMmlFamily.getD .MmlLrm else munition

theorem withMunition_normal (mode : AmmunitionMode) :
    (mode.withMunition .Normal).withMunition .Normal = mode.withMunition .Normal := by
  cases mode <;> rfl

end AmmunitionMode

inductive FireMode
  | Normal | Heat | Hotload | Ultra | Rapid | Rotary2 | Rotary3 | Rotary4 | Rotary5 | Rotary6
  | Gatling
  deriving DecidableEq

structure WeaponProfile where
  damage : Nat
  missiles : Nat

-- The weapon catalogue: what the tables say about each weapon.
structure Catalog (Weapon : Type) where
  profile : Weapon → WeaponProfile
  profileForAmmunition : Weapon → AmmunitionMode → WeaponProfile
  weaponExplosionDamage : Weapon → Nat
  isBPod : Weapon → Bool
  isRotary : Weapon → Bool
  isMml : Weapon → Bool
  isPlasma : Weapon → Bool
  isINarcBeacon : Weapon → Bool
  armorPiercingPenalty : Weapon → Nat

namespace Catalog

variable {Weapon : Type} (c : Catalog Weapon)

def podExplosionDamage (w : Weapon) : Nat := if c.isBPod w then 2 else 0

def jammedExplosionDamage (w : Weapon) : Nat := if c.isRotary w then (c.profile w).damage else 0

def hotloadSupplyMode (w : Weapon) (selected : AmmunitionMode) : AmmunitionMode :=
  if c.isMml w then selected else .Normal

def ammunitionExplosionDamageForMode (w : Weapon) (rounds : Nat) (ammunition : AmmunitionMode) :
    Nat :=
  if 0 < c.weaponExplosionDamage w ∨ c.isPlasma w then 0
  else if c.isINarcBeacon w then rounds * if ammunition = .INarcExplosive then 6 else 3
  else
    let profile := c.profileForAmmunition w ammunition
    rounds * profile.damage * max profile.missiles 1

theorem ammunitionExplosionDamage_pos {w : Weapon} {rounds : Nat} {ammunition : AmmunitionMode}
    (h : 0 < c.ammunitionExplosionDamageForMode w rounds ammunition) : 0 < rounds := by
  rcases Nat.eq_zero_or_pos rounds with hzero | hpos
  · simp [ammunitionExplosionDamageForMode, hzero] at h
  · exact hpos

end Catalog

-- `system` is what the slot's equipment name stands for, if it is a system.
structure CriticalDefinition where
  system : Option System
  data : List Char
  deriving DecidableEq

-- The occupied slots, in order.
structure Slots where
  entries : List (Nat × CriticalDefinition)
  sorted : entries.Pairwise (fun a b => a.1 < b.1)

def Slots.keys (slots : Slots) : List Nat := slots.entries.map Prod.fst

theorem Slots.keys_nodup (slots : Slots) : slots.keys.Nodup := by
  rw [Slots.keys, List.Nodup, List.pairwise_map]
  exact slots.sorted.imp (fun hlt => Nat.ne_of_lt hlt)

structure SectionDefinition where
  armor : Nat
  internal : Nat
  rear : Nat
  criticals : Slots

-- The primary section's slots come first, then any linked extension slots.
structure WeaponMount (Weapon : Type) where
  weapon : Weapon
  criticals : List CriticalLocation

structure AmmunitionBin (Weapon : Type) where
  location : CriticalLocation
  weapon : Weapon
  mode : AmmunitionMode

structure SystemCritical where
  location : CriticalLocation
  system : System
  deriving DecidableEq

structure MechLoadout (Weapon : Type) where
  weapons : List (WeaponMount Weapon)
  ammunition : List (AmmunitionBin Weapon)
  systems : List SystemCritical

-- The owned definition with the equipment resolved from it.
structure Design (Weapon : Type) where
  catalog : Catalog Weapon
  sections : MechSection → SectionDefinition
  specials : List (List Char)
  loadout : MechLoadout Weapon

namespace Design

variable {Weapon : Type} (d : Design Weapon)

def hasSpecial (name : String) : Bool :=
  d.specials.any (fun flag => eqIgnoreAsciiCase flag name.toList)

-- Templates use a technology's name and its abbreviation interchangeably.
def hasTechnology (name abbreviation : String) : Bool :=
  d.hasSpecial name || d.hasSpecial abbreviation

def hardenedArmor : Bool := d.hasTechnology "HardenedArmor_Tech" "HARM"

def reflectiveArmor : Bool := d.hasTechnology "LaserRefArmor_Tech" "LRARM"

def reinforcedStructure : Bool := d.hasTechnology "ReinforcedInternal_Tech" "RINT"

def compositeStructure : Bool := d.hasTechnology "CompositeInternal_Tech" "CINT"

def torsoMountedCockpit : Bool := d.hasTechnology "TorsoCockpit_Tech" "TCPIT"

def cockpitSection : MechSection := if d.torsoMountedCockpit then .CenterTorso else .Head

def critProof : Bool := d.hasSpecial "CritProof_Tech"

def clanStructure : Bool :=
  d.hasSpecial "Clan" !=
    d.hasSpecial (if d.hasSpecial "Clan" then "ISStructure_Tech" else "ClanStructure_Tech")

def installs (s : MechSection) (system : System) : Bool :=
  (d.sections s).criticals.entries.any (fun part => part.2.system = some system)

def hasCaseIi (s : MechSection) : Bool := d.installs s .CaseIi

def hasCase (s : MechSection) : Bool :=
  d.clanStructure || d.hasCaseIi s || d.installs s .Case

def hasDoubleHeatSinks : Bool :=
  (d.hasSpecial "Clan" && !d.hasSpecial "SingleHS") || d.hasSpecial "DoubleHS"

def heatSinkSlots : Nat :=
  if d.hasSpecial "SingleHS" then 1
  else if d.hasSpecial "Clan" then 2
  else if d.hasSpecial "DoubleHS" then 3
  else 1

def improvedJumpJets : Bool := d.hasSpecial "ImprovedJJ_Tech"

def locations (s : MechSection) : List CriticalLocation :=
  (d.sections s).criticals.keys.map (fun slot => ⟨s, slot⟩)

theorem mem_locations_place {s : MechSection} {location : CriticalLocation}
    (h : location ∈ d.locations s) : location.place = s := by
  obtain ⟨slot, -, rfl⟩ := List.mem_map.mp h
  rfl

theorem locations_nodup (s : MechSection) : (d.locations s).Nodup := by
  refine ((d.sections s).criticals.keys_nodup).map ?_
  intro a b hab
  exact congrArg CriticalLocation.slot hab

end Design

-- Pieces of `size` elements.
def chunks {Part : Type} (size : Nat) : Nat → List Part → List (List Part)
  | _, [] => []
  | 0, _ => []
  | fuel + 1, parts => parts.take size :: chunks size fuel (parts.drop size)

def adjacent : List SystemCritical → Bool
  | a :: b :: rest =>
      a.location.place = b.location.place && a.location.slot + 1 = b.location.slot &&
        adjacent (b :: rest)
  | _ => true

def MechLoadout.systemGroups {Weapon : Type} (loadout : MechLoadout Weapon) (system : System)
    (size : Nat) (label : String) : Except Error (List (List CriticalLocation)) :=
  let slots := loadout.systems.filter (fun part => part.system = system)
  if slots.length % size ≠ 0 then .error ("Incomplete " ++ label ++ " installation")
  else if ¬ (chunks size slots.length slots).all adjacent then
    .error ("Incomplete or inconsistent " ++ label ++ " criticals")
  else .ok ((chunks size slots.length slots).map (fun group => group.map SystemCritical.location))

def MechLoadout.heatSinkGroups {Weapon : Type} (loadout : MechLoadout Weapon) (slots : Nat) :
    Except Error (List (List CriticalLocation)) := loadout.systemGroups .HeatSink slots "heat sink"

def MechLoadout.jumpJetGroups {Weapon : Type} (loadout : MechLoadout Weapon) (improved : Bool) :
    Except Error (List (List CriticalLocation)) :=
  loadout.systemGroups .JumpJet (if improved then 2 else 1) "jump jet"

end StompyMux.Btech
