import StompyMux.Library.OrderedMap
import StompyMux.Map.Geometry
import StompyMux.Map.Hex

-- Shared terrain rule lookups on a hex's layers, and the hexes of a battlefield.
namespace StompyMux.Map

open Library Library.Fallible

inductive Density
  | Light | Heavy | UltraHeavy
  deriving DecidableEq

def Density.points : Density → Nat
  | Light => 1
  | Heavy => 2
  | UltraHeavy => 3

namespace Foliage

def density : Foliage → Option Density
  | LightWoods | LightJungle => some .Light
  | HeavyWoods | HeavyJungle => some .Heavy
  | UltraHeavyWoods | UltraHeavyJungle => some .UltraHeavy
  | PlantedFields => none

def height (foliage : Foliage) : Nat :=
  match foliage.density with
  | some .UltraHeavy => 3
  | some _ => 2
  | none => 1

def isJungle : Foliage → Bool
  | LightJungle | HeavyJungle | UltraHeavyJungle => true
  | _ => false

end Foliage

def Route.isRoad (route : Route) : Bool := route ≠ .Rail

def Condition.label : Condition → String
  | Ice => "Ice"
  | ThinSnow => "Thin snow"
  | DeepSnow => "Deep snow"
  | Mud => "Mud"

inductive GroundMovement
  | Legged | Tracked | Wheeled | Hover
  deriving DecidableEq

-- Why a ground unit cannot enter a hex.
inductive Prohibition
  | Water
  | Terrain (label : String)
  deriving DecidableEq

def DecorationKind.isSmoke : DecorationKind → Bool
  | Fire => false
  | Smoke | HeavySmoke => true

def DecorationKind.density : DecorationKind → Nat
  | Fire => 0
  | Smoke => 1
  | HeavySmoke => 2

def Structure.isBridge (s : Structure) : Bool := s.kind = .Bridge

def Structure.isStanding (s : Structure) : Bool := !s.isBridge

namespace Hex

variable (hex : Hex)

def isWoods : Bool := (hex.foliage.bind Foliage.density).isSome

def woodsDensity : Nat := ((hex.foliage.bind Foliage.density).map Density.points).getD 0

def foliageHeight : Nat := (hex.foliage.map Foliage.height).getD 0

def holdsWater : Bool := hex.water.isSome

def isFrozen : Bool := hex.water.isSome && hex.condition = some .Ice

def isOpenWater : Bool := hex.water.isSome && !hex.isFrozen && hex.structure'.isNone

def isSmoky : Bool := hex.overlay.any DecorationKind.isSmoke

def smokeDensity : Nat := (hex.overlay.map DecorationKind.density).getD 0

def hasBridge : Bool := hex.structure'.any Structure.isBridge

def hasBuilding : Bool := hex.structure'.any fun s => s.kind = .Building

def hasStandingStructure : Bool := hex.structure'.any Structure.isStanding

def isWaterSurface : Bool := hex.water.isSome && hex.structure'.isNone

def isIce : Bool := hex.isFrozen && hex.structure'.isNone

def bottomHeight : Int := hex.level.toNat - hex.waterDepth.toNat

def surfaceHeight : Int :=
  match hex.structure' with
  | some s => hex.level.toNat + s.height.toNat
  | none => hex.bottomHeight

def standingHeight : Int := if hex.isIce then hex.level.toNat else hex.surfaceHeight

def isRoad : Bool := hex.route.any Route.isRoad && hex.water.isNone && hex.structure'.isNone

def bansFoliage (foliage : Foliage) (movement : GroundMovement) : Bool :=
  let vehicle := movement ≠ .Legged
  match foliage.density with
  | some .UltraHeavy => true
  | some .Heavy => vehicle
  | some .Light => foliage.isJungle && vehicle || movement = .Wheeled || movement = .Hover
  | none => false

def bansGround (ground : Ground) (movement : GroundMovement) : Bool :=
  match ground with
  | .Magma | .UltraRough => movement ≠ .Legged
  | .Rough | .Rubble | .UltraRubble | .MagmaCrust => movement = .Wheeled
  | _ => false

-- A road or a structure carries a unit through what it could not enter otherwise.
def prohibition (movement : GroundMovement) : Option Prohibition :=
  if hex.isRoad || hex.structure'.isSome then none
  else match hex.water with
    | some water =>
        if !hex.isFrozen && movement ≠ .Legged && movement ≠ .Hover && 1 ≤ water.depth then some .Water
        else none
    | none =>
        match hex.foliage.filter (fun foliage => bansFoliage foliage movement) with
        | some foliage => some (.Terrain foliage.label)
        | none =>
            if bansGround hex.ground movement then some (.Terrain hex.ground.label)
            else if hex.condition = some .DeepSnow ∧ movement = .Wheeled then
              some (.Terrain Condition.DeepSnow.label)
            else none

def withOverlay (overlay : Option DecorationKind) : Hex := { hex with overlay := overlay }

end Hex

-- The terrain of a map and the fire and smoke over it, by row-major tile position.
structure Battlefield where
  width : Int
  height : Int
  terrain : Option (List Hex)
  decorations : OrderedMap Nat DecorationKind
  deriving DecidableEq

namespace Battlefield

variable (map : Battlefield)

def baseHex (point : HexCoordinate) : Except Error Hex := do
  let terrain ← ofOption "Map terrain is ambiguous; explicitly reload its map asset first" map.terrain
  ensure (0 ≤ point.x && point.x < map.width && 0 ≤ point.y && point.y < map.height)
    "Map coordinates out of bounds"
  ofOption "Incomplete map terrain" terrain[(point.y * map.width + point.x).toNat]?

def hex (point : HexCoordinate) : Except Error Hex := do
  let hex ← map.baseHex point
  .ok (hex.withOverlay (map.decorations.get? ((point.y * map.width + point.x).toNat % 2 ^ 32)))

end Battlefield

end StompyMux.Map
