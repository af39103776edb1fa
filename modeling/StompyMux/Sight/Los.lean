import Mathlib.Data.Rat.Lemmas
import Mathlib.Algebra.Order.Ring.Rat
import StompyMux.Map.TerrainRules

-- Terrain line-of-sight reports at live unit eye heights, along a given trace.
namespace StompyMux.Sight

open Library Library.Fallible
open StompyMux.Map

structure TerrainLos where
  blocked : Bool
  woods : Nat
  smoke : Nat
  fields : Nat
  targetWoods : Nat
  targetSmoke : Nat
  water : Nat
  partialCover : Bool
  hills : Bool
  buildings : Nat
  hardenedBuildings : Nat
  heavyWoods : Nat
  ultraWoods : Nat
  deriving DecidableEq

-- Counters are bytes.
def saturatingAdd (a b : Nat) : Nat := min (a + b) 255

def TerrainLos.buildingHexes (report : TerrainLos) : Nat :=
  saturatingAdd report.buildings report.hardenedBuildings

-- Endpoint rules beyond heights: a hull-down biped at either end, and a hex instead of a unit.
structure TraceOptions where
  kneeling : Bool × Bool
  hexTarget : Bool
  deriving DecidableEq

-- A feature reaches both ends of the line, or the one that it is next to.
def intervenes (height : ℚ) (index steps : Nat) (start finish : ℚ) : Bool :=
  (start ≤ height && finish ≤ height) || (index = 1 && start ≤ height) ||
    (index + 1 = steps && finish ≤ height)

-- What the ends of a line fix for every hex along it.
structure Line where
  startGround : ℚ
  endGround : ℚ
  startHeight : ℚ
  endHeight : ℚ
  airborne : Option ℚ × Option ℚ
  options : TraceOptions
  underwater : Bool
  targetBothWorlds : Bool
  steps : Nat

namespace Line

variable (line : Line) (index : Nat) (ground tile : Hex) (report : TerrainLos)

-- The one-level rise that a kneeling unit shelters behind.
def shelters : Bool :=
  (line.options.kneeling.1 && index = 1 && line.airborne.1.isNone &&
    (ground.surfaceHeight : ℚ) = line.startGround + 1) ||
  (line.options.kneeling.2 && index + 1 = line.steps && line.airborne.2.isNone &&
    (ground.surfaceHeight : ℚ) = line.endGround + 1)

def meets (height : ℚ) : Bool := intervenes height index line.steps line.startHeight line.endHeight

-- What sensors care for.
def countStructure : TerrainLos :=
  match ground.structure' with
  | some s =>
      if s.isStanding then
        if s.class' = .Hardened then
          { report with hardenedBuildings := saturatingAdd report.hardenedBuildings 1 }
        else { report with buildings := saturatingAdd report.buildings 1 }
      else report
  | none => report

def countWoods : TerrainLos :=
  if tile.woodsDensity = 2 then { report with heavyWoods := saturatingAdd report.heavyWoods 1 }
  else if tile.woodsDensity = 3 then { report with ultraWoods := saturatingAdd report.ultraWoods 1 }
  else report

-- The hex before a targeted hex counts one level lower.
def relief : ℚ := if line.options.hexTarget && index + 1 = line.steps then 1 else 0

def level : ℚ := (ground.level.toNat : ℚ) - line.relief index

def sightHeight : ℚ :=
  line.startHeight + (line.endHeight - line.startHeight) * index / line.steps

-- An underwater line follows the water, under any bed and below the surface.
def leavesWater : Bool :=
  !ground.holdsWater || (!ground.hasBridge && line.sightHeight index ≤ (ground.surfaceHeight : ℚ)) ||
    (!line.targetBothWorlds && (ground.level.toNat : ℚ) < line.sightHeight index)

def crossSurface : TerrainLos :=
  if ground.isWaterSurface then
    let report := if line.meets index (line.level index ground) then
      { report with blocked := true, hills := true } else report
    if min line.startHeight line.endHeight < line.level index ground + 2 then
      { report with water := min (saturatingAdd report.water 1) 7 } else report
  else if !ground.hasBridge && !line.shelters index ground &&
      line.meets index ((ground.surfaceHeight : ℚ) - line.relief index) then
    { report with blocked := true, hills := report.hills || !ground.hasStandingStructure }
  else report

def crossFoliage : TerrainLos :=
  if tile.foliage.isSome && line.meets index (line.level index ground + tile.foliageHeight) then
    if tile.isWoods then { report with woods := min (saturatingAdd report.woods tile.woodsDensity) 15 }
    else { report with fields := min (saturatingAdd report.fields 1) 15 }
  else report

def crossSmoke : TerrainLos :=
  if tile.isSmoky && line.meets index (line.level index ground + 2) then
    { report with smoke := min (saturatingAdd report.smoke tile.smokeDensity) 15 }
  else report

-- The hexes after the observer's own, with their places; the target's own hex never intervenes.
-- The second result tells whether an underwater line ended early.
def walk (map : Battlefield) : List (HexCoordinate × Nat) → TerrainLos → Except Error (TerrainLos × Bool)
  | [], report => .ok (report, false)
  | (point, index) :: rest, report =>
      if index = line.steps then .ok (report, false)
      -- No sensor's answer can change any more.
      else if report.hills && 0 < report.buildingHexes then .ok (report, false)
      else do
        let tile ← map.hex point
        let ground ← map.baseHex point
        let report := countWoods tile (countStructure ground report)
        if line.underwater then
          if line.leavesWater index ground then .ok ({ report with blocked := true }, true)
          else walk map rest { report with water := min (saturatingAdd report.water 1) 7 }
        else
          let report := line.crossSurface index ground report
          let report := line.crossFoliage index ground tile report
          walk map rest (line.crossSmoke index ground tile report)

end Line

variable (map : Battlefield) (trace : HexCoordinate → HexCoordinate → Except Error (List HexCoordinate))

def bothWorlds (hex : Hex) (ground : ℚ) : Bool :=
  hex.holdsWater && ground = (hex.level.toNat : ℚ) - 1

-- A target behind a ridge or with water around its legs.
def coverBehind (line : Line) (eyes : ℚ × ℚ) (destination : Hex) (cells : List HexCoordinate)
    (report : TerrainLos) : Except Error TerrainLos :=
  if 2 ≤ line.steps && (eyes.2 = 3 / 2 || line.options.kneeling.2) && line.airborne.2.isNone then do
    let point ← ofOption "index out of bounds" cells[line.steps - 1]?
    let preceding ← map.baseHex point
    let ridge := (line.startHeight ≤ line.endHeight || line.options.kneeling.2) &&
      !preceding.hasBridge && (preceding.surfaceHeight : ℚ) = line.endGround + 1
    .ok { report with partialCover := ridge ||
      (destination.isOpenWater && line.endGround = (destination.level.toNat : ℚ) - 1) }
  else .ok report

def coverInside (line : Line) (eyes : ℚ × ℚ) (destination : Hex) (report : TerrainLos) : TerrainLos :=
  if 1 ≤ line.steps && eyes.2 = 3 / 2 && !line.options.kneeling.2 && destination.hasBuilding &&
      line.airborne.2 = some (line.endGround - 1) then
    { report with partialCover := true }
  else report

def terrainLosAtHeights (observer target : HexCoordinate) (eyes : ℚ × ℚ)
    (airborne : Option ℚ × Option ℚ) (options : TraceOptions) : Except Error TerrainLos := do
  let source ← map.baseHex observer
  let destination ← map.baseHex target
  let visibleDestination ← map.hex target
  let startGround : ℚ := source.standingHeight
  let endGround : ℚ := destination.standingHeight
  let startHeight := airborne.1.getD startGround + eyes.1
  let endHeight := airborne.2.getD endGround + eyes.2
  let underwater := source.holdsWater && startHeight < (source.level.toNat : ℚ)
  let targetUnderwater := destination.holdsWater && endHeight < (destination.level.toNat : ℚ)
  let report : TerrainLos := ⟨false, 0, 0, 0, visibleDestination.woodsDensity,
    visibleDestination.smokeDensity, 0, false, false, 0, 0, 0, 0⟩
  if underwater ≠ targetUnderwater then .ok { report with blocked := true }
  else if observer = target then .ok report
  else
    let cells ← trace observer target
    let line : Line := ⟨startGround, endGround, startHeight, endHeight, airborne, options, underwater,
      bothWorlds destination endGround, cells.length - 1⟩
    let (report, returned) ← line.walk map (cells.zipIdx.drop 1) report
    if returned then .ok report
    else
      let report ← coverBehind map line eyes destination cells report
      .ok (coverInside line eyes destination report)

end StompyMux.Sight
