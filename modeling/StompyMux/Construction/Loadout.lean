import Mathlib.Data.Prod.Lex
import Mathlib.Data.String.Basic
import StompyMux.Construction.Parts
import StompyMux.Library.OrderedMap

-- A decoded 'Mech asset.
namespace StompyMux.Construction

open Library Library.Fallible Library.Text

inductive MechSection
  | LeftArm
  | RightArm
  | LeftTorso
  | RightTorso
  | CenterTorso
  | LeftLeg
  | RightLeg
  | Head
  deriving DecidableEq

namespace MechSection

def all : List MechSection :=
  [LeftArm, RightArm, LeftTorso, RightTorso, CenterTorso, LeftLeg, RightLeg, Head]

-- The place in the storage order.
def index : MechSection → Nat
  | LeftArm => 0
  | RightArm => 1
  | LeftTorso => 2
  | RightTorso => 3
  | CenterTorso => 4
  | LeftLeg => 5
  | RightLeg => 6
  | Head => 7

theorem index_injective : Function.Injective index := by
  intro a b h
  cases a <;> cases b <;> first | rfl | contradiction

instance : LinearOrder MechSection := LinearOrder.lift' index index_injective

def name : MechSection → String
  | LeftArm => "Left_Arm"
  | RightArm => "Right_Arm"
  | LeftTorso => "Left_Torso"
  | RightTorso => "Right_Torso"
  | CenterTorso => "Center_Torso"
  | LeftLeg => "Left_Leg"
  | RightLeg => "Right_Leg"
  | Head => "Head"

def parse (text : List Char) : Except Error MechSection :=
  ofOption ("unsupported section " ++ String.ofList text)
    (all.find? (fun part => eqIgnoreAsciiCase part.name.toList text))

end MechSection

-- A zero-based slot in a section.
structure CriticalLocation where
  part : MechSection
  slot : Nat
  deriving DecidableEq

namespace CriticalLocation

def key (location : CriticalLocation) : MechSection ×ₗ Nat := toLex (location.part, location.slot)

theorem key_injective : Function.Injective key := by
  intro a b h
  have hpair : (a.part, a.slot) = (b.part, b.slot) := toLex.injective h
  injection hpair with hpart hslot
  cases a
  cases b
  congr

instance : LinearOrder CriticalLocation := LinearOrder.lift' key key_injective

end CriticalLocation

-- An occupied slot, its data and modes as written.
structure CriticalDefinition where
  equipment : List Char
  data : List Char
  modes : List String
  deriving DecidableEq

-- Unoccupied slots are absent.
structure SectionDefinition where
  criticals : OrderedMap Nat CriticalDefinition

structure MechTemplate where
  sections : OrderedMap MechSection SectionDefinition
  attributes : OrderedMap String (List Char)

inductive MechChassis
  | Biped
  | Quad
  deriving DecidableEq

namespace MechChassis

def parse (text : List Char) : Except Error MechChassis :=
  if eqIgnoreAsciiCase text "Biped".toList then .ok .Biped
  else if eqIgnoreAsciiCase text "Quad".toList then .ok .Quad
  else .error ["Unsupported BattleMech chassis " ++ String.ofList text]

-- A quad's front attachments are legs.
def sectionName (chassis : MechChassis) (part : MechSection) : String :=
  match chassis, part with
  | .Quad, .LeftArm => "Front_Left_Leg"
  | .Quad, .RightArm => "Front_Right_Leg"
  | .Quad, .LeftLeg => "Rear_Left_Leg"
  | .Quad, .RightLeg => "Rear_Right_Leg"
  | _, part => part.name

end MechChassis

namespace MechTemplate

def chassis (template : MechTemplate) : Except Error MechChassis :=
  match template.attributes.get? "move_type" with
  | some text => MechChassis.parse text
  | none => .error ["Missing movement type"]

-- Flags are separated by white space, and letter case does not matter.
def hasSpecial (template : MechTemplate) (name : String) : Bool :=
  ((template.attributes.get? "specials").map (fun value =>
    (words value).any (fun flag => eqIgnoreAsciiCase flag name.toList))).getD false

def heatSinkSlots (template : MechTemplate) : Nat :=
  if template.hasSpecial "SingleHS" then 1
  else if template.hasSpecial "Clan" then 2
  else if template.hasSpecial "DoubleHS" then 3
  else 1

def critical? (template : MechTemplate) (location : CriticalLocation) : Option CriticalDefinition :=
  (template.sections.get? location.part).bind (fun layout => layout.criticals.get? location.slot)

end MechTemplate

-- Critical slots resolved into weapons, ammunition bins and systems.

inductive FireMode
  | Normal | Heat | Hotload | Ultra | Rapid | Gatling
  | Rotary2 | Rotary3 | Rotary4 | Rotary5 | Rotary6
  deriving DecidableEq

structure WeaponMount where
  weapon : Weapon
  -- primary slots first, then any linked extension slots
  criticals : List CriticalLocation
  rearMount : Bool
  oneShot : Bool
  initiallySpent : Bool
  initialFireMode : FireMode
  initialAmmunitionMode : AmmunitionMode
  deriving DecidableEq

structure AmmunitionBin where
  location : CriticalLocation
  weapon : Weapon
  rounds : Nat
  capacity : Nat
  halfTon : Bool
  hotload : Bool
  mode : AmmunitionMode
  deriving DecidableEq

structure SystemCritical where
  location : CriticalLocation
  system : System
  -- the base that the slot's namespace states
  techBase : Option TechBase
  -- one-based first slots of the machine guns an array links
  links : List Nat
  deriving DecidableEq

structure MechLoadout where
  weapons : List WeaponMount
  ammunition : List AmmunitionBin
  systems : List SystemCritical
  deriving DecidableEq

-- A comma-separated list of one-based slots.
def machineGunArrayLinks (data : List Char) : Except Error (List Nat) :=
  if data = "-".toList then .ok []
  else
    (data.splitOnP (fun c => c == ',')).mapM (fun slot =>
      ofOption ("has an invalid machine gun link " ++ (String.ofList data).quote)
        ((parseUnsigned 255 (trim slot)).filter (fun slot => 0 < slot)))

-- What a system reads of its data: nothing, a launcher's link, gun links, or tons.
def systemDataSupported (critical : CriticalDefinition) : Bool :=
  if critical.data = "-".toList then true
  else
    match System.named critical.equipment with
    | some .ArtemisIv | some .ArtemisV | some .ApolloFcs | some .CommunicationsEquipment =>
        (parseUnsigned 255 critical.data).isSome
    | some .MachineGunArray => (machineGunArrayLinks critical.data).isOk
    | _ => false

def SystemCritical.resolve (location : CriticalLocation) (system : System)
    (techBase : Option TechBase) (critical : CriticalDefinition) : Except Error SystemCritical :=
  if system = .MachineGunArray then
    (machineGunArrayLinks critical.data).map (fun links => ⟨location, system, techBase, links⟩)
  else .ok ⟨location, system, techBase, []⟩

-- Salvos of one bin.
def binCapacity (fullCapacity : Nat) (halfTon : Bool) (mode : AmmunitionMode) : Nat :=
  if halfTon || [AmmunitionMode.Precision, .ArmorPiercing, .ThunderAugmented, .ThunderActive,
      .ThunderVibrabomb].contains mode then fullCapacity / 2
  else if mode = .Caseless then fullCapacity * 2
  else fullCapacity

def contractAmmunitionModes : List String :=
  ["LBX/Cluster", "Artemis/Mine", "Narc/Smoke", "Cluster", "Mine", "Smoke", "Inferno", "Swarm",
    "Swarm1", "iNarc_Explosive", "iNarc_Haywire", "iNarc_ECM", "iNarc_Nemesis", "AP", "Flechette",
    "Precision", "Caseless", "Sguided", "ExtendedRange", "HighExplosive", "MML_LRM", "ThunderAug",
    "ThunderVibra", "ThunderActive", "Homing"]

def isContractAmmunitionMode (mode : String) : Bool := contractAmmunitionModes.contains mode

def rotaryModes : List String :=
  ["Rotary_TwoShot", "Rotary_ThreeShot", "Rotary_FourShot", "Rotary_FiveShot", "Rotary_SixShot"]

def contractFireModes : List String :=
  ["Destroyed", "Disabled", "Broken", "Damaged", "RearMount", "Hotload", "Halfton", "OneShot",
    "OneShot_Used", "UltraMode", "RapidFire", "Gattling"] ++ rotaryModes ++
      ["Heat", "BackPack", "Jettisoned", "OmniBase", "RocketFired"]

def isContractFireMode (mode : String) : Bool := contractFireModes.contains mode

def isContractMode (mode : String) : Bool := isContractFireMode mode || isContractAmmunitionMode mode

namespace WeaponMount

def fireMode (modes : List String) : FireMode :=
  if modes.contains "Heat" then .Heat
  else if modes.contains "Hotload" then .Hotload
  else if modes.contains "UltraMode" then .Ultra
  else if modes.contains "RapidFire" then .Rapid
  else if modes.contains "Gattling" then .Gatling
  else if modes.contains "Rotary_TwoShot" then .Rotary2
  else if modes.contains "Rotary_ThreeShot" then .Rotary3
  else if modes.contains "Rotary_FourShot" then .Rotary4
  else if modes.contains "Rotary_FiveShot" then .Rotary5
  else if modes.contains "Rotary_SixShot" then .Rotary6
  else .Normal

def project (weapon : Weapon) (critical : CriticalDefinition) (criticals : List CriticalLocation) :
    WeaponMount where
  weapon := weapon
  criticals := criticals
  rearMount := critical.modes.contains "RearMount"
  oneShot := critical.modes.contains "OneShot"
  initiallySpent := critical.modes.contains "OneShot_Used"
  initialFireMode := fireMode critical.modes
  initialAmmunitionMode := .initialSelection weapon critical.modes

def admits (weapon : Weapon) (mode : String) : Bool :=
  mode == "RearMount" ||
    (mode == "Heat" && weapon.supportsHeatMode) ||
    (mode == "Hotload" && weapon.supportsHotload) ||
    (mode == "UltraMode" && weapon.isUltra) ||
    (mode == "RapidFire" && weapon.supportsRapidFire) ||
    (((AmmunitionMode.fromFlag weapon mode).map (fun mode => mode.supports weapon)).getD false) ||
    (mode == "Gattling" && weapon.supportsGatling) ||
    (rotaryModes.contains mode && weapon.isRotary) ||
    (["OneShot", "OneShot_Used"].contains mode && (weapon.oneShotCapable || weapon.isRocket))

def fromCritical (weapon : Weapon) (critical : CriticalDefinition)
    (criticals : List CriticalLocation) : Except Error WeaponMount := do
  ensure (!weapon.isArtillery ||
      (critical.modes.filter (fun flag => ["Cluster", "Smoke", "Mine"].contains flag)).length ≤ 1)
    "Conflicting artillery ammunition flags"
  ensure (critical.modes.Nodup && critical.modes.all (admits weapon))
    ("Unsupported weapon modes " ++ debugTexts critical.modes)
  ensure (!critical.modes.contains "OneShot_Used" || critical.modes.contains "OneShot")
    "Used launcher requires OneShot"
  ensure (!weapon.isRocket || critical.modes.contains "OneShot") "Rocket launcher requires OneShot"
  pure (project weapon critical criticals)

def fromCriticalContract (weapon : Weapon) (critical : CriticalDefinition)
    (criticals : List CriticalLocation) : Except Error WeaponMount := do
  ensure (critical.modes.Nodup && critical.modes.all isContractMode)
    ("Unsupported weapon modes " ++ debugTexts critical.modes)
  pure (project weapon critical criticals)

end WeaponMount

namespace AmmunitionBin

def unsupported (weapon : Weapon) (flags : List String) : String :=
  "Unsupported ammunition mode " ++ debugTexts flags ++ " for " ++ String.ofList weapon.name

def coldOnly (weapon : Weapon) : String :=
  String.ofList weapon.name ++
    " ammunition cannot be hot-loaded (Tactical Operations: Advanced Rules p. 101)"

-- Capacity, half-ton lot and type of a bin with these flags.
def configuration (weapon : Weapon) (flags : List String) :
    Except Error (Nat × Bool × AmmunitionMode) := do
  ensure (0 < weapon.profile.ammunitionPerTon) "Weapon does not use ammunition"
  ensure flags.Nodup "Duplicate ammunition flags"
  let halfTon := flags.contains "Halfton"
  ensure (!halfTon || weapon.allowsHalfTonBins) "Half-ton ammunition bins are limited to machine guns"
  ensure (!flags.contains "Hotload" || weapon.supportsHotload) (coldOnly weapon)
  let ammunitionFlags := flags.filter (fun mode => !(["Halfton", "Hotload"].contains mode))
  let mode ← AmmunitionMode.fromFlags weapon ammunitionFlags
  let fullCapacity := (weapon.profileForAmmunition mode).ammunitionPerTon
  pure (binCapacity fullCapacity halfTon mode, halfTon, mode)

def firedBy (weapon : Weapon) (flag : String) : Bool :=
  match AmmunitionMode.fromFlag weapon flag with
  | some mode =>
      mode.supports weapon ||
        (weapon.isMml && (flag == "MML_LRM" || (mode.withMmlFamily true).isSome))
  | none => false

def configurationContract (weapon : Weapon) (flags : List String) :
    Except Error (Nat × Bool × AmmunitionMode) := do
  ensure (0 < weapon.profile.ammunitionPerTon) "Weapon does not use ammunition"
  ensure flags.Nodup "Duplicate ammunition flags"
  let halfTon := flags.contains "Halfton"
  let ammunitionFlags := flags.filter (fun mode => !isContractFireMode mode)
  ensure (ammunitionFlags.all isContractAmmunitionMode) (unsupported weapon ammunitionFlags)
  ensure (ammunitionFlags.all (firedBy weapon)) (unsupported weapon ammunitionFlags)
  ensure (!halfTon || weapon.allowsHalfTonBins) "Half-ton ammunition bins are limited to machine guns"
  ensure (!flags.contains "Hotload" || weapon.supportsHotload) (coldOnly weapon)
  let mode := AmmunitionMode.initialSelection weapon ammunitionFlags
  let fullCapacity := (weapon.profileForAmmunition mode).ammunitionPerTon
  pure (binCapacity fullCapacity halfTon mode, halfTon, mode)

-- A bin under one of the two configurations.
def fromConfiguration
    (configuration : Weapon → List String → Except Error (Nat × Bool × AmmunitionMode))
    (name : List Char) (critical : CriticalDefinition) (location : CriticalLocation) :
    Except Error AmmunitionBin := do
  let weapon ← Weapon.parse name
  let (capacity, halfTon, mode) ← configuration weapon critical.modes
  let rounds ← ofOption "Invalid ammunition count" (parseUnsigned 65535 critical.data)
  ensure (rounds ≤ capacity) "Ammunition exceeds bin capacity"
  pure {
    location := location
    weapon := weapon
    rounds := rounds
    capacity := capacity
    halfTon := halfTon
    hotload := critical.modes.contains "Hotload"
    mode := mode }

def fromCritical : List Char → CriticalDefinition → CriticalLocation → Except Error AmmunitionBin :=
  fromConfiguration configuration

def fromCriticalContract :
    List Char → CriticalDefinition → CriticalLocation → Except Error AmmunitionBin :=
  fromConfiguration configurationContract

end AmmunitionBin

end StompyMux.Construction
