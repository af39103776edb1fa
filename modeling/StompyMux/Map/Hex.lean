import Mathlib.Data.Nat.Basic
import Mathlib.Order.Basic
import Mathlib.Order.Nat
import StompyMux.Library.Fallible
import StompyMux.Library.Text

-- The layers of a hex.
namespace StompyMux.Map

def snakeCase : List Char → List Char
  | [] => []
  | c :: variant =>
      c.toLower :: variant.flatMap (fun c => if c.isUpper then ['_', c.toLower] else [c])

-- The variant that is spelled so.
def named {T : Type} (all : List T) (variant : T → String) (text : List Char) : Option T :=
  all.find? (fun value => snakeCase (variant value).toList = text)

inductive Ground
  | Clear | Pavement | Rough | UltraRough | Rubble | UltraRubble
  | Sand | Tundra | Swamp | MagmaCrust | Magma | HeavyIndustrial
  deriving DecidableEq

namespace Ground

def label : Ground → String
  | Clear => "Clear"
  | Pavement => "Pavement"
  | Rough => "Rough"
  | UltraRough => "Ultra rough"
  | Rubble => "Rubble"
  | UltraRubble => "Ultra rubble"
  | Sand => "Sand"
  | Tundra => "Tundra"
  | Swamp => "Swamp"
  | MagmaCrust => "Magma crust"
  | Magma => "Magma"
  | HeavyIndustrial => "Heavy industrial"

def supportsFoliage : Ground → Bool
  | Magma | Pavement | HeavyIndustrial => false
  | _ => true

end Ground

inductive Foliage
  | LightWoods | HeavyWoods | UltraHeavyWoods
  | LightJungle | HeavyJungle | UltraHeavyJungle | PlantedFields
  deriving DecidableEq

def Foliage.label : Foliage → String
  | LightWoods => "Light woods"
  | HeavyWoods => "Heavy woods"
  | UltraHeavyWoods => "Ultra-heavy woods"
  | LightJungle => "Light jungle"
  | HeavyJungle => "Heavy jungle"
  | UltraHeavyJungle => "Ultra-heavy jungle"
  | PlantedFields => "Planted fields"

inductive Flow
  | Still | Rapids | Torrent
  deriving DecidableEq

def Flow.isStill : Flow → Bool
  | Still => true
  | _ => false

structure Water where
  depth : UInt8
  flow : Flow
  deriving DecidableEq

inductive Route
  | PavedRoad | GravelRoad | DirtRoad | Rail
  deriving DecidableEq

inductive Condition
  | Ice | ThinSnow | DeepSnow | Mud
  deriving DecidableEq

inductive DecorationKind
  | Fire | Smoke | HeavySmoke
  deriving DecidableEq

inductive StructureKind
  | Building | Wall | Bridge
  deriving DecidableEq

namespace StructureKind

def ALL : List StructureKind := [Building, Wall, Bridge]

theorem ctorIdx_injective : Function.Injective StructureKind.ctorIdx := by
  intro a b h
  cases a <;> cases b <;> first | rfl | exact absurd h (by decide)

def variant : StructureKind → String
  | Building => "Building"
  | Wall => "Wall"
  | Bridge => "Bridge"

end StructureKind

inductive ConstructionClass
  | Light | Medium | Heavy | Hardened
  deriving DecidableEq

def MAX_CONSTRUCTION_FACTOR : UInt16 := 150

namespace ConstructionClass

def ALL : List ConstructionClass := [Light, Medium, Heavy, Hardened]

theorem ctorIdx_injective : Function.Injective ConstructionClass.ctorIdx := by
  intro a b h
  cases a <;> cases b <;> first | rfl | exact absurd h (by decide)

def variant : ConstructionClass → String
  | Light => "Light"
  | Medium => "Medium"
  | Heavy => "Heavy"
  | Hardened => "Hardened"

def constructionFactor : ConstructionClass → UInt16
  | Light => 15
  | Medium => 40
  | Heavy => 90
  | Hardened => MAX_CONSTRUCTION_FACTOR

def label : ConstructionClass → String
  | Light => "Light"
  | Medium => "Medium"
  | Heavy => "Heavy"
  | Hardened => "Hardened"

end ConstructionClass

structure Structure where
  kind : StructureKind
  class' : ConstructionClass
  height : UInt8
  cf : UInt16
  deriving DecidableEq

namespace Structure

-- Structures are ordered by kind, then class, then height, then factor.
def rank (s : Structure) : Nat :=
  ((s.kind.ctorIdx * 4 + s.class'.ctorIdx) * 2 ^ 8 + s.height.toNat) * 2 ^ 16 + s.cf.toNat

theorem rank_injective : Function.Injective rank := by
  intro s t h
  unfold rank at h
  have hsh := s.height.toNat_lt
  have hth := t.height.toNat_lt
  have hsc := s.cf.toNat_lt
  have htc := t.cf.toNat_lt
  have hindex : ∀ c : ConstructionClass, c.ctorIdx < 4 := by
    intro c
    cases c <;> decide
  have hs := hindex s.class'
  have ht := hindex t.class'
  have hkinds : s.kind.ctorIdx = t.kind.ctorIdx := by omega
  have hclasses : s.class'.ctorIdx = t.class'.ctorIdx := by omega
  have hkind := StructureKind.ctorIdx_injective hkinds
  have hclass := ConstructionClass.ctorIdx_injective hclasses
  have hheight : s.height = t.height := UInt8.toNat_inj.mp (by omega)
  have hcf : s.cf = t.cf := UInt16.toNat_inj.mp (by omega)
  cases s
  cases t
  congr

instance : LinearOrder Structure := LinearOrder.lift' rank rank_injective

end Structure

end StompyMux.Map

-- One hex as independent layers, and the combinations that make sense.
namespace StompyMux.Map

open Library.Fallible Library.Text

def MAX_HEIGHT : UInt8 := 35

def MAX_DEPTH : UInt8 := 9

structure Hex where
  level : UInt8
  ground : Ground
  water : Option Water
  foliage : Option Foliage
  route : Option Route
  structure' : Option Structure
  condition : Option Condition
  overlay : Option DecorationKind
  deriving DecidableEq

namespace Hex

def atLevel (level : UInt8) : Hex := ⟨level, .Clear, none, none, none, none, none, none⟩

def waterDepth (hex : Hex) : UInt8 :=
  match hex.water with
  | some water => water.depth
  | none => 0

def lowercase (label : String) : String := String.ofList (toAsciiLowercase label.toList)

def validateWater (hex : Hex) (water : Water) : Except Error Unit := do
  ensure (hex.ground = .Clear) "Water must lie over clear ground"
  ensure (hex.foliage.isNone && hex.route.isNone)
    "Foliage, roads and rails cannot be under water; use a bridge"
  ensure (hex.condition = none || hex.condition = some .Ice) "Only ice can lie over water"
  ensure (water.flow.isStill || 1 ≤ water.depth)
    "Rapids and torrents need water at least one level deep"

def validateStructure (hex : Hex) (s : Structure) : Except Error Unit := do
  let full := s.class'.constructionFactor
  let label := lowercase s.class'.label
  ensure (1 ≤ s.cf && s.cf ≤ full)
    s!"A {label} structure's construction factor must be between 1 and {full}"
  match s.kind with
  | .Bridge => ensure hex.water.isSome "A bridge must span water"
  | .Building | .Wall =>
      ensure (hex.water.isNone && hex.foliage.isNone && hex.route.isNone)
        "Buildings and walls stand on dry ground without foliage or routes"

def validateFoliage (hex : Hex) (foliage : Foliage) : Except Error Unit :=
  ensure hex.ground.supportsFoliage
    s!"{foliage.label} cannot grow on {lowercase hex.ground.label}"

-- The check of a layer that may be absent.
def validateLayer {T : Type} (check : T → Except Error Unit) : Option T → Except Error Unit
  | some layer => check layer
  | none => pure ()

def validate (hex : Hex) : Except Error Unit := do
  let height := match hex.structure' with
    | some s => s.height
    | none => 0
  ensure (hex.level ≤ MAX_HEIGHT && height ≤ MAX_HEIGHT && hex.waterDepth ≤ MAX_DEPTH)
    "Hex heights exceed map limits"
  validateLayer hex.validateWater hex.water
  validateLayer hex.validateFoliage hex.foliage
  ensure (hex.ground != .Magma || hex.condition.isNone && hex.route.isNone)
    "Nothing but a structure can lie on magma"
  validateLayer hex.validateStructure hex.structure'

-- What the file format relies on.
structure Sound (hex : Hex) : Prop where
  level : hex.level ≤ MAX_HEIGHT
  depth : ∀ water, hex.water = some water → water.depth ≤ MAX_DEPTH
  ground : ∀ water, hex.water = some water → hex.ground = .Clear
  height : ∀ s, hex.structure' = some s → s.height ≤ MAX_HEIGHT
  factor : ∀ s, hex.structure' = some s → 1 ≤ s.cf ∧ s.cf ≤ s.class'.constructionFactor

-- The limits that the checks of a hex leave behind.
theorem sound_of_validate (hex : Hex) (h : hex.validate = .ok ()) : hex.Sound := by
  obtain ⟨hheights, h⟩ := ok_of_ensure h
  obtain ⟨⟨⟩, hwater, h⟩ := ok_of_bind h
  obtain ⟨⟨⟩, -, h⟩ := ok_of_bind h
  obtain ⟨-, hstructure⟩ := ok_of_ensure h
  simp only [Bool.and_eq_true, decide_eq_true_eq] at hheights
  obtain ⟨⟨hlevel, hheight⟩, hdepth⟩ := hheights
  refine ⟨hlevel, ?_, ?_, ?_, ?_⟩
  · intro water hw
    unfold waterDepth at hdepth
    rw [hw] at hdepth
    exact hdepth
  · intro water hw
    rw [hw] at hwater
    obtain ⟨hclear, -⟩ := ok_of_ensure hwater
    exact of_decide_eq_true hclear
  · intro s hs
    rw [hs] at hheight
    exact hheight
  · intro s hs
    rw [hs] at hstructure
    obtain ⟨hfactor, -⟩ := ok_of_ensure hstructure
    simp only [Bool.and_eq_true, decide_eq_true_eq] at hfactor
    exact hfactor

-- The check of each hex of a stored map, whose overlays are records of their own.
def validateTile (hex : Hex) : Except Error Unit := do
  withContext "Invalid map elevation" hex.validate
  ensure hex.overlay.isNone "Map terrain cannot hold fire or smoke"

theorem validateTile_ok_iff (hex : Hex) :
    hex.validateTile = .ok () ↔ hex.validate = .ok () ∧ hex.overlay = none := by
  unfold validateTile
  rw [unit_bind_ok_iff, withContext_ok_iff, ensure_ok_iff, Option.isNone_iff_eq_none]

end Hex

end StompyMux.Map
