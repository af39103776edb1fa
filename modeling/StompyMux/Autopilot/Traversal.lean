import StompyMux.Autopilot.Congestion
import StompyMux.Autopilot.Search
import StompyMux.Stacking.Limits
import StompyMux.Woodland.Growth

-- What the ground asks of a unit that enters a hex.
namespace StompyMux.Map.Hex

variable (hex : Hex)

def waterLine : Int := hex.level.toNat

def deckClearance : Option UInt8 := (hex.structure'.filter Structure.isBridge).map Structure.height

def groundCost : Ground → GroundMovement → Nat
  | .Rough, _ | .Rubble, _ => 1
  | .UltraRough, _ | .UltraRubble, _ => 2
  | .Sand, .Wheeled => 1
  | .Swamp, .Legged => 1
  | .Swamp, .Hover => 0
  | .Swamp, _ => 2
  | .Magma, _ => 1
  | .HeavyIndustrial, .Legged => 1
  | _, _ => 0

def foliageCost : Option Foliage → Nat
  | some .LightWoods => 1
  | some .HeavyWoods | some .LightJungle => 2
  | some .UltraHeavyWoods | some .HeavyJungle => 3
  | some .UltraHeavyJungle => 4
  | some .PlantedFields | none => 0

-- A road replaces the terrain that it runs through.
def terrainCost (movement : GroundMovement) : Nat :=
  if hex.route.any Route.isRoad then 0
  else if hex.route = some .Rail ∧ movement ≠ .Hover then 1
  else max (groundCost hex.ground movement) (foliageCost hex.foliage)

def conditionCost (movement : GroundMovement) : Nat :=
  if movement = .Hover then 0
  else match hex.condition with
    | some .Ice | some .DeepSnow | some .Mud => 1
    | some .ThinSnow => if movement = .Wheeled then 1 else 0
    | none => 0

def depthCost (depth : UInt8) : Nat := if depth = 0 then 0 else if depth = 1 then 1 else 3

def flowCost : Flow → Nat
  | .Still => 0
  | .Rapids => 1
  | .Torrent => 2

def waterCost (water : Water) (movement : GroundMovement) : Nat :=
  if movement = .Hover then 0 else depthCost water.depth + flowCost water.flow

-- Structures are crossed on their roofs or decks like roads.
def movementCost (movement : GroundMovement) : Nat :=
  let terrain := match hex.structure', hex.water with
    | some _, _ => 0
    | none, some water => waterCost water movement
    | none, none => hex.terrainCost movement
  let cost := 1 + terrain + hex.conditionCost movement
  if hex.isBurning then max cost 2 else cost

def touchesGround (level : Int) : Bool :=
  hex.water.isNone && hex.structure'.isNone && level ≤ hex.level.toNat

def inLiquidMagma (level : Int) : Bool := hex.ground = .Magma && hex.touchesGround level

def onMagmaCrust (level : Int) : Bool := hex.ground = .MagmaCrust && hex.touchesGround level

end StompyMux.Map.Hex

-- Which adjacent hex a unit on the ground may be driven into, and at which cost: the live rule
-- and the rule with one snapshot of the units that stand on the map.
namespace StompyMux.Autopilot.Ground

open Library Library.Fallible
open StompyMux.Map
open StompyMux.Stacking (truncate)

abbrev ObjectId := Int

structure Position where
  map : ObjectId
  x : Nat
  y : Nat
  deriving DecidableEq

namespace Position

variable (position : Position)

def coordinate : HexCoordinate := ⟨position.x, position.y⟩

def cell : Cell := toLex (position.x, position.y)

end Position

structure Mech where
  position : Option Position
  mapSlot : Option Nat
  team : Int
  destroyed : Bool
  -- the level in an orbital drop, a jump or a fall
  aloft : Option Int
  groundElevation : Option ℚ
  deriving DecidableEq

namespace Mech

variable (unit : Mech)

def airborne : Bool := unit.aloft.isSome

def elevationLevel (tile : Hex) : Int :=
  match unit.aloft with
  | some level => level
  | none => truncate (unit.groundElevation.getD tile.standingHeight)

end Mech

inductive VehicleMovement
  | Tracked | Wheeled | Hover | Stationary | Vtol
  deriving DecidableEq

structure Vehicle where
  position : Option Position
  mapSlot : Option Nat
  team : Int
  destroyed : Bool
  falling : Bool
  movement : VehicleMovement
  waterproof : Bool
  -- the level in an orbital drop, in flight or in a fall
  aloft : Option Int
  groundElevation : Option ℚ
  underBridge : Bool
  deriving DecidableEq

namespace Vehicle

variable (vehicle : Vehicle)

def ridesWaterSurface : Bool := vehicle.movement = .Hover || vehicle.waterproof

def terrainElevation (tile : Hex) (underBridge : Bool) : Int :=
  if underBridge && tile.hasBridge then tile.waterLine
  else if vehicle.ridesWaterSurface && tile.isWaterSurface then tile.waterLine
  else tile.standingHeight

def elevationLevel (tile : Hex) : Int :=
  match vehicle.aloft, vehicle.groundElevation with
  | some level, _ => level
  | none, some level => truncate level
  | none, none => vehicle.terrainElevation tile vehicle.underBridge

end Vehicle

structure ScannerUnit where
  position : Option Position
  slot : Option Nat
  deriving DecidableEq

def Mech.scanned (unit : Mech) : ScannerUnit := ⟨unit.position, unit.mapSlot⟩

def Vehicle.scanned (vehicle : Vehicle) : ScannerUnit := ⟨vehicle.position, vehicle.mapSlot⟩

structure World where
  maps : OrderedMap ObjectId Battlefield
  constructed : OrderedMap ObjectId Mech
  vehicles : OrderedMap ObjectId Vehicle

structure ContactFacts where
  knownDestroyed : Bool
  deriving DecidableEq

-- The contact readers of the world at hand, and what they tell of the units.
structure Contacts where
  Reader : Type
  new : ObjectId → Except Error Reader
  facts : Reader → ObjectId → Except Error (Option ContactFacts)

inductive TraversalReason
  | Eligible
  | OutOfBounds
  | WrongMap
  | MapUnavailable
  | UnitUnavailable
  | UnitNotPlaced
  | NotAdjacent
  | ImpassableTerrain
  | ElevationTooSteep
  | OccupancyUnknown
  | Congested
  | Occupied
  | WaterRisk
  | IceRisk
  | BridgeRisk
  | KnownHazard
  deriving DecidableEq

-- The cost is zero when the transition is blocked.
structure TraversalAssessment where
  eligible : Bool
  cost : UInt32
  reason : TraversalReason
  deriving DecidableEq

namespace TraversalAssessment

def blocked (reason : TraversalReason) : TraversalAssessment := ⟨false, 0, reason⟩

def allowed (cost : UInt32) (reason : TraversalReason) : TraversalAssessment :=
  ⟨true, if cost = 0 then 1 else cost, reason⟩

end TraversalAssessment

inductive GroundUnitKind
  | Mech | Tracked | Wheeled | Hover
  deriving DecidableEq

namespace GroundUnitKind

def groundMovement : GroundUnitKind → GroundMovement
  | Mech => .Legged
  | Tracked => .Tracked
  | Wheeled => .Wheeled
  | Hover => .Hover

def maximumChange : GroundUnitKind → Nat
  | Mech => 2
  | Tracked | Wheeled | Hover => 1

end GroundUnitKind

def saturate (n : Nat) : UInt32 := UInt32.ofNat (min n U32_MAX)

def saturatingSum (a b : UInt32) : UInt32 := saturate (a.toNat + b.toNat)

def inBounds (width height : Int) (x y : Nat) : Bool := x < width && y < height

-- No way into a wall, or into terrain that the unit may not enter.
def terrainCost (hex : Hex) (kind : GroundUnitKind) : Option UInt32 :=
  if hex.structure'.any (fun s => s.kind = .Wall) then none
  else if (hex.prohibition kind.groundMovement).isSome then none
  else some (if hex.isWaterSurface then 3 else UInt32.ofNat (hex.movementCost kind.groundMovement))

def transitionReason (kind : GroundUnitKind) (source target : Hex) (targetHeight : Int) :
    TraversalReason × UInt32 :=
  if target.overlay.isSome then (.KnownHazard, 8)
  else if target.isIce then (.IceRisk, 8)
  else if target.inLiquidMagma targetHeight then (.KnownHazard, 12)
  else if target.onMagmaCrust targetHeight then (.KnownHazard, 4)
  else if target.hasBridge then
    if targetHeight < target.waterLine || kind = .Hover && source.hasBridge then (.BridgeRisk, 8)
    else (.Eligible, 1)
  else if target.isOpenWater then (.WaterRisk, 12)
  else if source.isWaterSurface && (kind = .Tracked || kind = .Wheeled) then (.WaterRisk, 4)
  else (.Eligible, 0)

def refuseUnless (condition : Bool) (reason : TraversalReason) : Except TraversalReason Unit :=
  if condition then .ok () else .error reason

def found {A : Type} (reason : TraversalReason) : Option A → Except TraversalReason A
  | some a => .ok a
  | none => .error reason

def readTile (map : Battlefield) (position : Position) : Except TraversalReason Hex :=
  match map.hex position.coordinate with
  | .ok tile => .ok tile
  | .error _ =>
      if inBounds map.width map.height position.x position.y then .error .MapUnavailable
      else .error .OutOfBounds

namespace World

variable (world : World)

def team (id : ObjectId) : Option Int :=
  ((world.constructed.get? id).map Mech.team).or ((world.vehicles.get? id).map Vehicle.team)

def unitPosition (id : ObjectId) : Option Position :=
  ((world.constructed.get? id).bind Mech.position).or
    ((world.vehicles.get? id).bind Vehicle.position)

def unitKind (id : ObjectId) : Option GroundUnitKind :=
  match world.constructed.get? id, world.vehicles.get? id with
  | some unit, _ => if !unit.destroyed && !unit.airborne then some .Mech else none
  | none, some vehicle =>
      if vehicle.destroyed || vehicle.falling then none
      else match vehicle.movement with
        | .Tracked => some .Tracked
        | .Wheeled => some .Wheeled
        | .Hover => some .Hover
        | .Stationary | .Vtol => none
  | none, none => none

def activeOccupant (id : ObjectId) : Bool :=
  match world.constructed.get? id with
  | some unit => !unit.destroyed && !unit.airborne
  | none => (world.vehicles.get? id).any (fun vehicle => !vehicle.destroyed && !vehicle.falling)

-- The kind was read from the unit, so that the unit is there.
def sourceHeight (id : ObjectId) (kind : GroundUnitKind) (source : Hex) : Int :=
  match kind with
  | .Mech => ((world.constructed.get? id).map (fun unit => unit.elevationLevel source)).getD 0
  | .Tracked | .Wheeled | .Hover =>
      ((world.vehicles.get? id).map (fun vehicle => vehicle.elevationLevel source)).getD 0

def supportHeights (id : ObjectId) (kind : GroundUnitKind) (source target : Hex) : Int × Int :=
  let sourceHeight := world.sourceHeight id kind source
  let waterLine := target.waterLine
  let height := target.standingHeight
  let height := if target.isIce && sourceHeight < waterLine then target.surfaceHeight else height
  let height := if target.hasBridge && sourceHeight < target.standingHeight - 2 then waterLine - 1
    else height
  let height := if kind = .Hover && target.isWaterSurface then waterLine else height
  let height :=
    if kind = .Hover && target.deckClearance.any (fun deck => 2 ≤ deck) &&
        sourceHeight = source.waterLine &&
        (source.isOpenWater || source.isIce ||
          (world.vehicles.get? id).any Vehicle.underBridge) then waterLine
    else height
  (sourceHeight, height)

-- Everything that is asked before the units in the hex: what the way costs without them, and why.
def approach (id : ObjectId) (source target : Position) :
    Except TraversalReason (UInt32 × TraversalReason) := do
  refuseUnless (source.map = target.map) .WrongMap
  refuseUnless (!(source.x = target.x && source.y = target.y)) .NotAdjacent
  refuseUnless (source.coordinate.distance target.coordinate = 1) .NotAdjacent
  let map ← found .MapUnavailable (world.maps.get? source.map)
  let kind ← found .UnitUnavailable (world.unitKind id)
  let position ← found .UnitNotPlaced (world.unitPosition id)
  refuseUnless (position.map = source.map) .WrongMap
  let sourceTile ← readTile map source
  let targetTile ← readTile map target
  let cost ← found .ImpassableTerrain (terrainCost targetTile kind)
  let heights := world.supportHeights id kind sourceTile targetTile
  let change := (heights.2 - heights.1).natAbs
  refuseUnless (change ≤ kind.maximumChange) .ElevationTooSteep
  let cost := saturatingSum cost (saturate (change * 10))
  let hazard := transitionReason kind sourceTile targetTile heights.2
  .ok (saturatingSum cost hazard.2, hazard.1)

-- Constructed units come first, then vehicles.
def members : List (ObjectId × ScannerUnit) :=
  world.constructed.entries.map (fun entry => (entry.1, entry.2.scanned)) ++
    world.vehicles.entries.map (fun entry => (entry.1, entry.2.scanned))

def placed : List (ObjectId × Position) :=
  world.members.filterMap fun member => member.2.position.map fun position => (member.1, position)

def scannerUnit (id : ObjectId) : Option ScannerUnit :=
  ((world.vehicles.get? id).map Vehicle.scanned).or ((world.constructed.get? id).map Mech.scanned)

def scannerIds : List ObjectId :=
  (world.constructed.keys ++ world.vehicles.keys).toFinset.sort (· ≤ ·)

def membership (map : ObjectId) (id : ObjectId) : Except Error (Option (Nat × ObjectId)) := do
  let unit ← ofOption "Unit is unavailable" (world.scannerUnit id)
  if unit.position.any (fun position => position.map = map) then do
    let slot ← ofOption "Placed unit lacks a map slot" unit.slot
    .ok (some (slot, id))
  else .ok none

-- Slots are compared first, then ids.
def slotOrder (a b : Nat × ObjectId) : Bool := a.1 < b.1 || a.1 = b.1 && a.2 ≤ b.2

def allUnitOrder (map : ObjectId) : Except Error (List ObjectId) := do
  ensure (world.maps.get? map).isSome "Map not found"
  let slots ← world.scannerIds.foldlM (fun slots id => do
    let slot ← world.membership map id
    .ok (slots ++ slot.toList)) []
  let slots := slots.mergeSort slotOrder
  ensure (slots.IsChain fun a b => a.1 ≠ b.1) "Duplicate battlefield slot"
  .ok (slots.map Prod.snd)

def standsAt (coordinate : HexCoordinate) (id : ObjectId) : Bool :=
  ((world.scannerUnit id).bind ScannerUnit.position).any fun position =>
    position.coordinate = coordinate

-- Occupants keep slot order.
def hexOccupants (map : ObjectId) (coordinate : HexCoordinate) : Except Error (List ObjectId) := do
  let battlefield ← ofOption "Map not found" (world.maps.get? map)
  let _ ← battlefield.hex coordinate
  let order ← world.allUnitOrder map
  .ok (order.filter (world.standsAt coordinate))

end World

-- The occupants, and the friendly ones among them.
abbrev Counts := Nat × Nat

abbrev OccupancyCounts := OrderedMap Cell Counts

def withOccupant (counts : Counts) (friendly : Bool) : Counts :=
  (counts.1 + 1, if friendly then counts.2 + 1 else counts.2)

def crowded (counts : Counts) : Bool := 6 < counts.1 || 2 < counts.2

-- Stacking resolves crowded hexes, so that light congestion is a penalty and no wall.
def enter (cost : UInt32) (reason : TraversalReason) (counts : Counts) : TraversalAssessment :=
  if crowded counts then .blocked .Congested
  else if counts.1 = 0 then .allowed cost reason
  else .allowed (saturatingSum cost (UInt32.ofNat (min (counts.1 * 4) USIZE_MAX))) .Occupied

section

variable (world : World) (contacts : Contacts)

-- A reader that is made when the first enemy is looked at.
abbrev ReaderCell := Option (Option contacts.Reader)

def knownOccupantWithTeam (reader : ReaderCell contacts) (moving : ObjectId) (movingTeam : Int)
    (occupant : ObjectId) : Bool × ReaderCell contacts :=
  if world.team occupant = some movingTeam then (world.activeOccupant occupant, reader)
  else
    let value := reader.getD (contacts.new moving).toOption
    (value.any fun reader => (contacts.facts reader occupant).toOption.any fun facts =>
      facts.any fun contact => !contact.knownDestroyed, some value)

def knownOccupant (moving occupant : ObjectId) : Bool :=
  match world.team moving with
  | some team => (knownOccupantWithTeam world contacts none moving team occupant).1
  | none => false

-- The mover itself, the units of other maps, and those in cells that nobody asked for.
def passedOver (moving map : ObjectId) (cells : Option Cells) (unit : ObjectId × Position) : Bool :=
  unit.1 = moving || unit.2.map ≠ map || cells.any (fun cells => unit.2.cell ∉ cells)

-- One unit of the walk over all that are placed.
def tally (moving : ObjectId) (movingTeam : Int) (map : ObjectId) (cells : Option Cells)
    (state : ReaderCell contacts × OccupancyCounts) (unit : ObjectId × Position) :
    ReaderCell contacts × OccupancyCounts :=
  if passedOver moving map cells unit then state
  else
    let known := knownOccupantWithTeam world contacts state.1 moving movingTeam unit.1
    if known.1 then
      let counts := (state.2.get? unit.2.cell).getD (0, 0)
      (known.2,
        state.2.insert unit.2.cell (withOccupant counts (world.team unit.1 = some movingTeam)))
    else (known.2, state.2)

def filteredOccupancy (moving map : ObjectId) (cells : Option Cells) : OccupancyCounts :=
  match world.team moving with
  | some team => (world.placed.foldl (tally world contacts moving team map cells) (none, .empty)).2
  | none => .empty

def knownOccupancy (moving map : ObjectId) : OccupancyCounts :=
  filteredOccupancy world contacts moving map none

def observe (moving : ObjectId) (movingTeam : Int) (counts : Counts) (occupant : ObjectId) : Counts :=
  if occupant = moving || !knownOccupant world contacts moving occupant then counts
  else withOccupant counts (world.team occupant = some movingTeam)

def occupancy (map : ObjectId) (coordinate : HexCoordinate) (moving : ObjectId) :
    Except Unit Counts := do
  let occupants ← (world.hexOccupants map coordinate).mapError fun _ => ()
  let team ← (world.team moving).elim (.error ()) .ok
  .ok (occupants.foldl (observe world contacts moving team) (0, 0))

def watchedClearance (moving map : ObjectId) (cells : Cells) : Bool :=
  let occupancy := filteredOccupancy world contacts moving map (some cells)
  cells.any fun cell => !crowded ((occupancy.get? cell).getD (0, 0))

-- From the snapshot, where there is one.
def occupancyAt (id : ObjectId) (source target : Position) : Option OccupancyCounts → Except Unit Counts
  | some cached => .ok ((cached.get? target.cell).getD (0, 0))
  | none => occupancy world contacts source.map target.coordinate id

def assessWithOccupancy (id : ObjectId) (source target : Position)
    (cachedOccupancy : Option OccupancyCounts) : TraversalAssessment :=
  match world.approach id source target with
  | .error reason => .blocked reason
  | .ok (cost, reason) =>
      match occupancyAt world contacts id source target cachedOccupancy with
      | .error _ => .blocked .OccupancyUnknown
      | .ok counts => enter cost reason counts

def assess (id : ObjectId) (source target : Position) : TraversalAssessment :=
  assessWithOccupancy world contacts id source target none

-- The provider of costs to one search, with one snapshot and the crowded cells it met.
structure GroundTraversal where
  unitId : ObjectId
  map : ObjectId
  occupancy : OccupancyCounts
  congested : Cells

namespace GroundTraversal

def new (unitId map : ObjectId) : GroundTraversal :=
  ⟨unitId, map, knownOccupancy world contacts unitId map, []⟩

def traversalCost (traversal : GroundTraversal) (source target : GridHex) :
    Option UInt32 × GroundTraversal :=
  let assessment := assessWithOccupancy world contacts traversal.unitId
    ⟨traversal.map, source.x, source.y⟩ ⟨traversal.map, target.x, target.y⟩ traversal.occupancy
  let congested := if assessment.reason = .Congested then
    remember traversal.congested (toLex (target.x, target.y)) else traversal.congested
  (if assessment.eligible then some assessment.cost else none, { traversal with congested })

end GroundTraversal

end

namespace ScannerUnit

variable (unit : ScannerUnit)

def onMap (map : ObjectId) : Bool := unit.position.any fun position => position.map = map

-- The map that it is placed on, and its slot there.
def seat : Option (ObjectId × Nat) :=
  unit.position.bind fun position => unit.slot.map fun slot => (position.map, slot)

theorem seat_of_slot {map : ObjectId} {slot : Nat} (hmap : unit.onMap map) (hslot : unit.slot = some slot) :
    unit.seat = some (map, slot) := by
  obtain ⟨position, hposition, hon⟩ := Option.any_eq_true _ _ |>.mp hmap
  have hon : position.map = map := of_decide_eq_true hon
  rw [seat, hposition, hslot, Option.bind_some, Option.map_some, hon]

end ScannerUnit

-- No object is both a Mech and a vehicle, and the placed units of a map have slots of their own.
structure World.Valid (world : World) : Prop where
  apart : ∀ id ∈ world.constructed.keys, id ∉ world.vehicles.keys
  seated : ∀ member ∈ world.members, member.2.position.isSome → member.2.slot.isSome
  distinct : ∀ a ∈ world.members, ∀ b ∈ world.members,
    a.2.seat.isSome → a.2.seat = b.2.seat → a.1 = b.1

namespace World

variable (world : World)

theorem mem_members (id : ObjectId) (unit : ScannerUnit) :
    (id, unit) ∈ world.members ↔
      (world.constructed.get? id).map Mech.scanned = some unit ∨
        (world.vehicles.get? id).map Vehicle.scanned = some unit := by
  unfold members
  rw [List.mem_append, List.mem_map, List.mem_map, Option.map_eq_some_iff, Option.map_eq_some_iff]
  simp only [OrderedMap.get?_eq_some_iff, Prod.mk.injEq, Prod.exists, existsAndEq, true_and]

theorem members_keys : world.members.map Prod.fst = world.constructed.keys ++ world.vehicles.keys := by
  simp [members, OrderedMap.keys, Function.comp_def]

theorem mem_scannerIds (id : ObjectId) : id ∈ world.scannerIds ↔ ∃ unit, (id, unit) ∈ world.members := by
  unfold scannerIds
  rw [Finset.mem_sort, List.mem_toFinset, ← members_keys, List.mem_map]
  constructor
  · rintro ⟨⟨_, unit⟩, hmem, rfl⟩
    exact ⟨unit, hmem⟩
  · rintro ⟨unit, hmem⟩
    exact ⟨_, hmem, rfl⟩

theorem scannerIds_nodup : world.scannerIds.Nodup := Finset.sort_nodup _ _

theorem mem_placed (id : ObjectId) (position : Position) :
    (id, position) ∈ world.placed ↔ ∃ unit, (id, unit) ∈ world.members ∧ unit.position = some position := by
  unfold placed
  rw [List.mem_filterMap]
  simp

section

variable (hv : world.Valid)
include hv

theorem Valid.members_nodup : (world.members.map Prod.fst).Nodup := by
  rw [members_keys]
  refine List.Nodup.append world.constructed.keys_nodup world.vehicles.keys_nodup ?_
  exact fun id hmech hvehicle => hv.apart id hmech hvehicle

theorem Valid.scannerUnit (id : ObjectId) (unit : ScannerUnit) :
    world.scannerUnit id = some unit ↔ (id, unit) ∈ world.members := by
  rw [mem_members, World.scannerUnit]
  cases hvehicle : world.vehicles.get? id with
  | none => simp
  | some vehicle =>
      have hmech : world.constructed.get? id = none := by
        rw [OrderedMap.get?_eq_none_iff]
        intro hmem
        apply hv.apart id hmem
        rw [OrderedMap.mem_keys_iff, hvehicle]
        rfl
      simp [hmech]

theorem Valid.placed_nodup : (world.placed.map Prod.fst).Nodup := by
  refine hv.members_nodup.sublist ?_
  have hsub : ∀ members : List (ObjectId × ScannerUnit),
      ((members.filterMap fun member =>
        member.2.position.map fun position => (member.1, position)).map Prod.fst).Sublist
        (members.map Prod.fst) := by
    intro members
    induction members with
    | nil => exact List.Sublist.refl _
    | cons member members ih =>
        cases hposition : member.2.position with
        | none =>
            rw [List.filterMap_cons_none (by rw [hposition]; rfl)]
            exact ih.cons _
        | some position =>
            rw [List.filterMap_cons_some (by rw [hposition]; rfl)]
            exact ih.cons_cons _
  exact hsub world.members

omit hv in
theorem team_of_placed {id : ObjectId} (hplaced : (world.unitPosition id).isSome) :
    ∃ team, world.team id = some team := by
  unfold unitPosition at hplaced
  unfold team
  cases hmech : world.constructed.get? id with
  | some unit => exact ⟨unit.team, rfl⟩
  | none =>
      cases hvehicle : world.vehicles.get? id with
      | some vehicle => exact ⟨vehicle.team, rfl⟩
      | none => simp [hmech, hvehicle] at hplaced

-- The slots that the loop collects.
def seatOn (map : ObjectId) (id : ObjectId) : Option (Nat × ObjectId) :=
  (world.scannerUnit id).bind fun unit =>
    if unit.onMap map then unit.slot.map fun slot => (slot, id) else none

theorem Valid.membership (map id : ObjectId) (unit : ScannerUnit) (hmem : (id, unit) ∈ world.members) :
    world.membership map id = .ok (world.seatOn map id) := by
  have hunit := (hv.scannerUnit world id unit).mpr hmem
  unfold World.membership seatOn
  rw [hunit, ofOption, Option.bind_some]
  change (if unit.onMap map then _ else _) = _
  cases hon : unit.onMap map with
  | false => rfl
  | true =>
      obtain ⟨position, hposition, -⟩ := Option.any_eq_true _ _ |>.mp hon
      obtain ⟨slot, hslot⟩ := Option.isSome_iff_exists.mp
        (hv.seated _ hmem (Option.isSome_iff_exists.mpr ⟨position, hposition⟩))
      change unit.slot = some slot at hslot
      rw [hslot]
      rfl

theorem Valid.memberships (map : ObjectId) (ids : List ObjectId) (slots : List (Nat × ObjectId))
    (hids : ∀ id ∈ ids, id ∈ world.scannerIds) :
    ids.foldlM (fun slots id => do
      let slot ← world.membership map id
      .ok (slots ++ slot.toList)) slots =
      (.ok (slots ++ ids.filterMap (world.seatOn map)) : Except Error _) := by
  induction ids generalizing slots with
  | nil =>
      rw [List.filterMap_nil, List.append_nil]
      rfl
  | cons id ids ih =>
      obtain ⟨unit, hmem⟩ := (world.mem_scannerIds id).mp (hids id List.mem_cons_self)
      rw [List.foldlM_cons, hv.membership world map id unit hmem]
      refine (ih _ fun other hother => hids other (List.mem_cons_of_mem _ hother)).trans ?_
      cases hseat : world.seatOn map id with
      | none => rw [List.filterMap_cons_none hseat, Option.toList_none, List.append_nil]
      | some slot =>
          rw [List.filterMap_cons_some hseat, Option.toList_some, List.append_assoc,
            List.singleton_append]

theorem Valid.seatOn_eq_some (map id : ObjectId) (entry : Nat × ObjectId) :
    world.seatOn map id = some entry ↔
      entry.2 = id ∧ ∃ unit, (id, unit) ∈ world.members ∧ unit.onMap map ∧ unit.slot = some entry.1 := by
  unfold seatOn
  rw [Option.bind_eq_some_iff]
  constructor
  · rintro ⟨unit, hunit, hentry⟩
    split at hentry
    · rename_i hon
      obtain ⟨slot, hslot, rfl⟩ := Option.map_eq_some_iff.mp hentry
      exact ⟨rfl, unit, (hv.scannerUnit world id unit).mp hunit, hon, hslot⟩
    · contradiction
  · rintro ⟨rfl, unit, hmem, hon, hslot⟩
    refine ⟨unit, (hv.scannerUnit world _ unit).mpr hmem, ?_⟩
    rw [if_pos hon, hslot]
    rfl

theorem Valid.slots_nodup (map : ObjectId) :
    ((world.scannerIds.filterMap (world.seatOn map)).map Prod.fst).Nodup := by
  have hnodup := world.scannerIds_nodup
  rw [List.Nodup, List.pairwise_map, List.pairwise_filterMap]
  refine hnodup.imp fun {id other} hne entry hentry entry' hentry' hslot => hne ?_
  obtain ⟨-, unit, hmem, hon, hunit⟩ := (hv.seatOn_eq_some world map id entry).mp hentry
  obtain ⟨-, unit', hmem', hon', hunit'⟩ := (hv.seatOn_eq_some world map other entry').mp hentry'
  have hseat := unit.seat_of_slot hon hunit
  have hseat' := unit'.seat_of_slot hon' hunit'
  refine hv.distinct _ hmem _ hmem' ?_ ?_
  · rw [hseat]
    rfl
  · rw [hseat, hseat', hslot]

theorem Valid.allUnitOrder {map : ObjectId} (hmap : (world.maps.get? map).isSome) :
    ∃ order, world.allUnitOrder map = .ok order ∧ order.Nodup ∧
      ∀ id, id ∈ order ↔ ∃ unit, (id, unit) ∈ world.members ∧ unit.onMap map := by
  let slots := world.scannerIds.filterMap (world.seatOn map)
  have hperm : (slots.mergeSort slotOrder).Perm slots := List.mergeSort_perm _ _
  have hdistinct : ((slots.mergeSort slotOrder).map Prod.fst).Nodup :=
    (hperm.map Prod.fst).nodup_iff.mpr (hv.slots_nodup world map)
  have hchain : (slots.mergeSort slotOrder).IsChain fun a b => a.1 ≠ b.1 :=
    (List.pairwise_map.mp hdistinct).isChain
  refine ⟨(slots.mergeSort slotOrder).map Prod.snd, ?_, ?_, ?_⟩
  · unfold World.allUnitOrder
    rw [hmap, ensure_true_bind, hv.memberships world map _ [] fun id hid => hid]
    change (ensure (decide ((slots.mergeSort slotOrder).IsChain fun a b => a.1 ≠ b.1)) _ >>= _) = _
    rw [decide_eq_true hchain]
    rfl
  · rw [(hperm.map Prod.snd).nodup_iff, List.Nodup, List.pairwise_map, List.pairwise_filterMap]
    refine world.scannerIds_nodup.imp fun {id other} hne entry hentry entry' hentry' hsame => hne ?_
    rw [← ((hv.seatOn_eq_some world map id entry).mp hentry).1, hsame]
    exact ((hv.seatOn_eq_some world map other entry').mp hentry').1
  · intro id
    rw [(hperm.map Prod.snd).mem_iff, List.mem_map]
    constructor
    · rintro ⟨entry, hentry, rfl⟩
      obtain ⟨other, -, hseat⟩ := List.mem_filterMap.mp hentry
      obtain ⟨rfl, unit, hmem, hon, -⟩ := (hv.seatOn_eq_some world map other entry).mp hseat
      exact ⟨unit, hmem, hon⟩
    · rintro ⟨unit, hmem, hon⟩
      obtain ⟨position, hposition, -⟩ := Option.any_eq_true _ _ |>.mp hon
      obtain ⟨slot, hslot⟩ := Option.isSome_iff_exists.mp
        (hv.seated _ hmem (Option.isSome_iff_exists.mpr ⟨position, hposition⟩))
      refine ⟨(slot, id), List.mem_filterMap.mpr ⟨id, (world.mem_scannerIds id).mpr ⟨unit, hmem⟩, ?_⟩, rfl⟩
      exact (hv.seatOn_eq_some world map id _).mpr ⟨rfl, unit, hmem, hon, hslot⟩

theorem Valid.hexOccupants (map : ObjectId) (battlefield : Battlefield) (coordinate : HexCoordinate)
    (tile : Hex) (hmap : world.maps.get? map = some battlefield)
    (htile : battlefield.hex coordinate = .ok tile) :
    ∃ occupants, world.hexOccupants map coordinate = .ok occupants ∧
      occupants.Perm ((world.placed.filter fun unit =>
        unit.2.map = map && unit.2.coordinate = coordinate).map Prod.fst) := by
  obtain ⟨order, horder, hnodup, hmem⟩ := hv.allUnitOrder world (by rw [hmap]; rfl)
  refine ⟨order.filter (world.standsAt coordinate), ?_, ?_⟩
  · unfold World.hexOccupants
    rw [hmap, ofOption, horder]
    exact bind_ok rfl (bind_ok htile rfl)
  · refine (List.perm_ext_iff_of_nodup (hnodup.filter _)
      (hv.placed_nodup.sublist (List.filter_sublist.map _))).mpr fun id => ?_
    rw [List.mem_filter, hmem, List.mem_map]
    constructor
    · rintro ⟨⟨unit, hunit, hon⟩, hstands⟩
      obtain ⟨position, hposition, hon⟩ := Option.any_eq_true _ _ |>.mp hon
      have hstands : position.coordinate = coordinate := by
        have hread := (hv.scannerUnit world id unit).mpr hunit
        rw [standsAt, hread, Option.bind_some, hposition] at hstands
        exact of_decide_eq_true hstands
      refine ⟨(id, position), List.mem_filter.mpr
        ⟨(world.mem_placed id position).mpr ⟨unit, hunit, hposition⟩, ?_⟩, rfl⟩
      rw [Bool.and_eq_true]
      exact ⟨hon, decide_eq_true hstands⟩
    · rintro ⟨⟨other, position⟩, hfilter, rfl⟩
      obtain ⟨hplaced, hhere⟩ := List.mem_filter.mp hfilter
      obtain ⟨unit, hunit, hposition⟩ := (world.mem_placed other position).mp hplaced
      obtain ⟨hon, hstands⟩ := Bool.and_eq_true _ _ |>.mp hhere
      refine ⟨⟨unit, hunit, Option.any_eq_true _ _ |>.mpr ⟨position, hposition, hon⟩⟩, ?_⟩
      rw [standsAt, (hv.scannerUnit world other unit).mpr hunit, Option.bind_some, hposition]
      exact hstands

end

end World

section

variable (world : World) (contacts : Contacts) (moving : ObjectId) (movingTeam : Int)

-- The units that the mover must reckon with, and its friends among them.
def counts (id : ObjectId) : Bool := id ≠ moving && knownOccupant world contacts moving id

def friendly (id : ObjectId) : Bool :=
  counts world contacts moving id && world.team id = some movingTeam

theorem observe_fold (occupants : List ObjectId) (total : Counts) :
    occupants.foldl (observe world contacts moving movingTeam) total =
      (total.1 + occupants.countP (counts world contacts moving),
        total.2 + occupants.countP (friendly world contacts moving movingTeam)) := by
  induction occupants generalizing total with
  | nil => rfl
  | cons occupant occupants ih =>
      have hstep : observe world contacts moving movingTeam total occupant =
          (total.1 + (if counts world contacts moving occupant then 1 else 0),
            total.2 + (if friendly world contacts moving movingTeam occupant then 1 else 0)) := by
        unfold observe friendly counts withOccupant
        by_cases hself : occupant = moving
        · simp [hself]
        · cases knownOccupant world contacts moving occupant <;> simp [hself]
          split <;> rfl
      rw [List.foldl_cons, hstep, ih, List.countP_cons, List.countP_cons]
      ext <;> dsimp only <;> omega

-- The reader is made at most once, and it does not matter when.
def Fresh (reader : ReaderCell contacts) : Prop :=
  ∀ value, reader = some value → value = (contacts.new moving).toOption

theorem known_fresh (hteam : world.team moving = some movingTeam) {reader : ReaderCell contacts}
    (hfresh : Fresh contacts moving reader) (occupant : ObjectId) :
    (knownOccupantWithTeam world contacts reader moving movingTeam occupant).1 =
        knownOccupant world contacts moving occupant ∧
      Fresh contacts moving
        (knownOccupantWithTeam world contacts reader moving movingTeam occupant).2 := by
  have hbase : knownOccupant world contacts moving occupant =
      (knownOccupantWithTeam world contacts none moving movingTeam occupant).1 := by
    unfold knownOccupant
    rw [hteam]
  have hvalue : reader.getD (contacts.new moving).toOption = (contacts.new moving).toOption := by
    cases reader with
    | none => rfl
    | some value => exact hfresh value rfl
  rw [hbase]
  unfold knownOccupantWithTeam
  by_cases hfriend : world.team occupant = some movingTeam
  · rw [if_pos hfriend, if_pos hfriend]
    exact ⟨rfl, hfresh⟩
  · rw [if_neg hfriend, if_neg hfriend, hvalue]
    exact ⟨rfl, fun value h => (Option.some.inj h).symm⟩

def inCell (map : ObjectId) (cell : Cell) (unit : ObjectId × Position) : Bool :=
  unit.2.map = map && unit.2.cell = cell

theorem tally_step (hteam : world.team moving = some movingTeam) (map : ObjectId)
    (cells : Option Cells) (cell : Cell) (hcell : ∀ watched, cells = some watched → cell ∈ watched)
    {state : ReaderCell contacts × OccupancyCounts} (hfresh : Fresh contacts moving state.1)
    (unit : ObjectId × Position) :
    let after := tally world contacts moving movingTeam map cells state unit
    let total := (state.2.get? cell).getD (0, 0)
    let here := inCell map cell unit
    Fresh contacts moving after.1 ∧
      (after.2.get? cell).getD (0, 0) =
        (total.1 + (if here && counts world contacts moving unit.1 then 1 else 0),
          total.2 + (if here && friendly world contacts moving movingTeam unit.1 then 1 else 0)) := by
  intro after total here
  -- What is not counted in the cell leaves its counts as they are.
  have hidle : (here && counts world contacts moving unit.1) = false →
      total = (total.1 + (if here && counts world contacts moving unit.1 then 1 else 0),
        total.2 + (if here && friendly world contacts moving movingTeam unit.1 then 1 else 0)) := by
    intro hnone
    have hfriend : (here && friendly world contacts moving movingTeam unit.1) = false := by
      unfold friendly
      rw [← Bool.and_assoc, hnone, Bool.false_and]
    rw [hnone, hfriend]
    rfl
  obtain ⟨hknown, hnext⟩ := known_fresh world contacts moving movingTeam hteam hfresh unit.1
  cases hpassed : passedOver moving map cells unit with
  | true =>
      have hafter : after = state := if_pos hpassed
      rw [hafter]
      refine ⟨hfresh, hidle ?_⟩
      unfold passedOver at hpassed
      rw [Bool.or_eq_true, Bool.or_eq_true, decide_eq_true_eq, decide_eq_true_eq] at hpassed
      rcases hpassed with (hself | hmap) | hwatch
      · simp [counts, hself]
      · simp [here, inCell, hmap]
      · obtain ⟨watched, hwatched, hout⟩ := Option.any_eq_true _ _ |>.mp hwatch
        have hin := hcell watched hwatched
        have hne : unit.2.cell ≠ cell := fun heq => of_decide_eq_true hout (heq ▸ hin)
        simp [here, inCell, hne]
  | false =>
      obtain ⟨⟨hself, hmap⟩, -⟩ : (unit.1 ≠ moving ∧ unit.2.map = map) ∧ _ := by
        simpa only [passedOver, Bool.or_eq_false_iff, decide_eq_false_iff_not, not_not] using hpassed
      generalize hseen : knownOccupantWithTeam world contacts state.1 moving movingTeam unit.1 = seen
        at hknown hnext
      obtain ⟨sees, reader⟩ := seen
      change sees = _ at hknown
      have hcounts : counts world contacts moving unit.1 = sees := by
        rw [hknown]
        simp [counts, hself]
      cases sees with
      | false =>
          have hafter : after = (reader, state.2) := by
            simp only [after, tally, hpassed, hseen, Bool.false_eq_true, if_false]
          rw [hafter]
          refine ⟨hnext, hidle ?_⟩
          rw [hcounts, Bool.and_false]
      | true =>
          have hafter : after = (reader, state.2.insert unit.2.cell
              (withOccupant ((state.2.get? unit.2.cell).getD (0, 0))
                (world.team unit.1 = some movingTeam))) := by
            simp only [after, tally, hpassed, hseen, Bool.false_eq_true, if_false, if_true]
          rw [hafter]
          refine ⟨hnext, ?_⟩
          rw [OrderedMap.get?_insert]
          by_cases hsame : cell = unit.2.cell
          · have hhere : here = true := by simp [here, inCell, hmap, hsame]
            rw [if_pos hsame, ← hsame, hhere, friendly, hcounts]
            simp only [Option.getD_some, withOccupant, Bool.true_and, if_true]
            by_cases hfriend : world.team unit.1 = some movingTeam
            · simp only [hfriend, decide_true, if_true, total]
            · simp only [hfriend, decide_false, Bool.false_eq_true, if_false, Nat.add_zero, total]
          · have hhere : here = false := by simp [here, inCell, Ne.symm hsame]
            rw [if_neg hsame]
            exact hidle (by rw [hhere, Bool.false_and])

theorem tally_fold (hteam : world.team moving = some movingTeam) (map : ObjectId)
    (cells : Option Cells) (cell : Cell) (hcell : ∀ watched, cells = some watched → cell ∈ watched)
    (units : List (ObjectId × Position)) (state : ReaderCell contacts × OccupancyCounts)
    (hfresh : Fresh contacts moving state.1) :
    let total := (state.2.get? cell).getD (0, 0)
    (((units.foldl (tally world contacts moving movingTeam map cells) state).2.get? cell).getD
        (0, 0)) =
      (total.1 + units.countP fun unit => inCell map cell unit && counts world contacts moving unit.1,
        total.2 + units.countP fun unit =>
          inCell map cell unit && friendly world contacts moving movingTeam unit.1) := by
  induction units generalizing state with
  | nil => rfl
  | cons unit units ih =>
      obtain ⟨hnext, hstep⟩ := tally_step world contacts moving movingTeam hteam map cells cell hcell hfresh unit
      intro total
      rw [List.foldl_cons, ih _ hnext, hstep, List.countP_cons, List.countP_cons]
      ext <;> dsimp only [total] <;> omega

theorem countP_inCell (map : ObjectId) (cell : Cell) (p : ObjectId → Bool)
    (units : List (ObjectId × Position)) :
    (units.countP fun unit => inCell map cell unit && p unit.1) =
      ((units.filter (inCell map cell)).map Prod.fst).countP p := by
  rw [List.countP_map, List.countP_filter]
  refine List.countP_congr fun unit _ => ?_
  rw [Bool.and_comm]
  rfl

def Cell.coordinate (cell : Cell) : HexCoordinate := ⟨(ofLex cell).1, (ofLex cell).2⟩

theorem inCell_eq (map : ObjectId) (cell : Cell) :
    inCell map cell = fun unit => unit.2.map = map && unit.2.coordinate = Cell.coordinate cell := by
  funext unit
  obtain ⟨x, y⟩ := cell
  unfold inCell
  congr 1
  change decide (toLex (unit.2.x, unit.2.y) = toLex (x, y)) =
    decide ((⟨unit.2.x, unit.2.y⟩ : HexCoordinate) = ⟨(x : Nat), (y : Nat)⟩)
  simp

-- The snapshot holds for a hex that can be read what the live rule finds there.
theorem snapshot_eq (hv : world.Valid) (map : ObjectId) (hplaced : (world.unitPosition moving).isSome)
    (cells : Option Cells) (cell : Cell) (hcell : ∀ watched, cells = some watched → cell ∈ watched)
    (battlefield : Battlefield) (tile : Hex) (hmap : world.maps.get? map = some battlefield)
    (htile : battlefield.hex (Cell.coordinate cell) = .ok tile) :
    occupancy world contacts map (Cell.coordinate cell) moving =
      .ok (((filteredOccupancy world contacts moving map cells).get? cell).getD (0, 0)) := by
  obtain ⟨team, hteam⟩ := world.team_of_placed hplaced
  obtain ⟨occupants, hoccupants, hperm⟩ := hv.hexOccupants world map battlefield _ tile hmap htile
  rw [← inCell_eq] at hperm
  have hlive : occupancy world contacts map (Cell.coordinate cell) moving =
      .ok (occupants.foldl (observe world contacts moving team) (0, 0)) := by
    unfold occupancy
    rw [hoccupants, hteam]
    rfl
  have hwalk := tally_fold world contacts moving team hteam map cells cell hcell world.placed
    (none, .empty) fun value h => by contradiction
  have hsnapshot : filteredOccupancy world contacts moving map cells =
      (world.placed.foldl (tally world contacts moving team map cells) (none, .empty)).2 := by
    unfold filteredOccupancy
    rw [hteam]
  rw [hlive, observe_fold, hsnapshot, hwalk, countP_inCell, countP_inCell, hperm.countP_eq,
    hperm.countP_eq]
  rfl

end

section

variable (world : World) (contacts : Contacts)

theorem of_found {A : Type} {reason : TraversalReason} {x : Option A} {a : A}
    (h : found reason x = .ok a) : x = some a := by
  cases x with
  | some b => rw [Except.ok.inj h]
  | none => contradiction

theorem of_readTile {map : Battlefield} {position : Position} {tile : Hex}
    (h : readTile map position = .ok tile) : map.hex position.coordinate = .ok tile := by
  unfold readTile at h
  split at h
  · rename_i hread
    rw [hread, Except.ok.inj h]
  · split at h <;> contradiction

theorem approach_reads {id : ObjectId} {source target : Position}
    {way : UInt32 × TraversalReason} (h : world.approach id source target = .ok way) :
    ∃ battlefield tile, world.maps.get? source.map = some battlefield ∧
      battlefield.hex target.coordinate = .ok tile := by
  unfold World.approach at h
  obtain ⟨-, -, h⟩ := ok_of_bind h
  obtain ⟨-, -, h⟩ := ok_of_bind h
  obtain ⟨-, -, h⟩ := ok_of_bind h
  obtain ⟨battlefield, hmap, h⟩ := ok_of_bind h
  obtain ⟨kind, -, h⟩ := ok_of_bind h
  obtain ⟨position, -, h⟩ := ok_of_bind h
  obtain ⟨-, -, h⟩ := ok_of_bind h
  obtain ⟨sourceTile, -, h⟩ := ok_of_bind h
  obtain ⟨tile, htile, -⟩ := ok_of_bind h
  exact ⟨battlefield, tile, of_found hmap, of_readTile htile⟩

theorem approach_adjacent {id : ObjectId} {source target : Position}
    {way : UInt32 × TraversalReason} (h : world.approach id source target = .ok way) :
    source.coordinate.distance target.coordinate = 1 := by
  unfold World.approach at h
  obtain ⟨-, -, h⟩ := ok_of_bind h
  obtain ⟨-, -, h⟩ := ok_of_bind h
  obtain ⟨_, hdistance, -⟩ := ok_of_bind h
  unfold refuseUnless at hdistance
  split at hdistance
  · rename_i hnear
    exact of_decide_eq_true hnear
  · contradiction

-- With the snapshot of its map a search judges every way as the live rule does.
theorem assess_snapshot (hv : world.Valid) {id : ObjectId} (hplaced : (world.unitPosition id).isSome)
    (source target : Position) :
    assessWithOccupancy world contacts id source target
        (some (knownOccupancy world contacts id source.map)) =
      assess world contacts id source target := by
  unfold assess assessWithOccupancy
  cases hway : world.approach id source target with
  | error reason => rfl
  | ok way =>
      obtain ⟨battlefield, tile, hmap, htile⟩ := approach_reads world hway
      have hlive := snapshot_eq world contacts id hv source.map hplaced none target.cell
        (fun _ h => by contradiction) battlefield tile hmap htile
      have hsame : occupancyAt world contacts id source target
          (some (knownOccupancy world contacts id source.map)) =
            occupancyAt world contacts id source target none := hlive.symm
      rw [hsame]

theorem allowed_positive (cost : UInt32) (reason : TraversalReason) :
    0 < (TraversalAssessment.allowed cost reason).cost := by
  unfold TraversalAssessment.allowed
  dsimp only
  split
  · decide
  · rename_i hne
    exact UInt32.pos_iff_ne_zero.mpr hne

theorem enter_positive {cost : UInt32} {reason : TraversalReason} {counts : Counts}
    (h : (enter cost reason counts).eligible = true) : 0 < (enter cost reason counts).cost := by
  unfold enter at h ⊢
  split at h
  · contradiction
  · rename_i hcrowded
    rw [if_neg hcrowded]
    split <;> exact allowed_positive _ _

theorem assess_positive {id : ObjectId} {source target : Position} {cached : Option OccupancyCounts}
    (h : (assessWithOccupancy world contacts id source target cached).eligible = true) :
    0 < (assessWithOccupancy world contacts id source target cached).cost := by
  unfold assessWithOccupancy at h ⊢
  cases hway : world.approach id source target with
  | error reason =>
      rw [hway] at h
      contradiction
  | ok way =>
      cases hcounts : occupancyAt world contacts id source target cached with
      | error _ =>
          rw [hway] at h
          rw [hcounts] at h
          contradiction
      | ok counts =>
          rw [hway] at h
          rw [hcounts] at h
          exact enter_positive h

def Readable (map : ObjectId) (cell : Cell) : Prop :=
  ∃ battlefield tile, world.maps.get? map = some battlefield ∧
    battlefield.hex (Cell.coordinate cell) = .ok tile

-- What a watch finds in a cell with the live rule: the units there, and no crowd.
def Clear (map moving : ObjectId) (cell : Cell) : Prop :=
  ∃ counts, occupancy world contacts map (Cell.coordinate cell) moving = .ok counts ∧
    crowded counts = false

theorem watchedClearance_iff (moving map : ObjectId) (cells : Cells) :
    watchedClearance world contacts moving map cells = true ↔
      ∃ cell ∈ cells, crowded
        (((filteredOccupancy world contacts moving map (some cells)).get? cell).getD (0, 0)) = false := by
  unfold watchedClearance
  rw [List.any_eq_true]
  simp only [Bool.not_eq_true']

theorem clear_iff (hv : world.Valid) {moving : ObjectId} (hplaced : (world.unitPosition moving).isSome)
    {map : ObjectId} {cells : Cells} {cell : Cell} (hcell : cell ∈ cells)
    (hread : Readable world map cell) :
    Clear world contacts map moving cell ↔ crowded
      (((filteredOccupancy world contacts moving map (some cells)).get? cell).getD (0, 0)) = false := by
  obtain ⟨battlefield, tile, hmap, htile⟩ := hread
  have hlive := snapshot_eq world contacts moving hv map hplaced (some cells) cell
    (fun watched h => Option.some.inj h ▸ hcell) battlefield tile hmap htile
  unfold Clear
  rw [hlive]
  constructor
  · rintro ⟨counts, hcounts, hclear⟩
    rw [Except.ok.inj hcounts]
    exact hclear
  · exact fun hclear => ⟨_, rfl, hclear⟩

-- A cell that the live rule has counts for can be read.
theorem Clear.readable (map moving : ObjectId) (cell : Cell)
    (h : Clear world contacts map moving cell) : Readable world map cell := by
  obtain ⟨counts, hcounts, -⟩ := h
  obtain ⟨occupants, hoccupants, -⟩ := ok_of_bind hcounts
  cases hread : world.hexOccupants map (Cell.coordinate cell) with
  | error e =>
      rw [hread] at hoccupants
      contradiction
  | ok order =>
      obtain ⟨battlefield, hmap, h⟩ := ok_of_bind hread
      obtain ⟨tile, htile, -⟩ := ok_of_bind h
      exact ⟨battlefield, tile, ok_of_ofOption hmap, htile⟩

theorem assess_adjacent {id : ObjectId} {source target : Position} {cached : Option OccupancyCounts}
    (h : (assessWithOccupancy world contacts id source target cached).eligible = true) :
    source.coordinate.distance target.coordinate = 1 := by
  unfold assessWithOccupancy at h
  cases hway : world.approach id source target with
  | error reason =>
      rw [hway] at h
      contradiction
  | ok way => exact approach_adjacent world hway

namespace GroundTraversal

-- What the provider answers does not depend on the crowded cells that it met before.
theorem traversalCost_iff (hv : world.Valid) {moving : ObjectId} (map : ObjectId)
    (hplaced : (world.unitPosition moving).isSome) (congested : Cells) (source target : GridHex)
    (cost : UInt32) :
    (({ new world contacts moving map with congested } : GroundTraversal).traversalCost world contacts
        source target).1 = some cost ↔
      (assess world contacts moving ⟨map, source.x, source.y⟩ ⟨map, target.x, target.y⟩).eligible ∧
        (assess world contacts moving ⟨map, source.x, source.y⟩
          ⟨map, target.x, target.y⟩).cost = cost := by
  have hsame := assess_snapshot world contacts hv hplaced ⟨map, source.x, source.y⟩
    ⟨map, target.x, target.y⟩
  unfold traversalCost new
  dsimp only at hsame ⊢
  rw [hsame]
  split
  · rename_i heligible
    simp [heligible]
  · rename_i hblocked
    simp [hblocked]

-- A search over the snapshot has the edges that the live rule admits.
theorem edge_iff (hv : world.Valid) (moving map : ObjectId)
    (hplaced : (world.unitPosition moving).isSome) (congested : Cells) (width height : UInt16)
    (source target : GridHex) (k : Nat) :
    Edge width height (fun source target =>
        (({ new world contacts moving map with congested } : GroundTraversal).traversalCost world
          contacts source target).1) source target k ↔
      AStarSearch.onMap width height source ∧ AStarSearch.onMap width height target ∧
        (assess world contacts moving ⟨map, source.x, source.y⟩ ⟨map, target.x, target.y⟩).eligible ∧
        (assess world contacts moving ⟨map, source.x, source.y⟩
          ⟨map, target.x, target.y⟩).cost.toNat = k := by
  unfold Edge
  constructor
  · rintro ⟨hsource, htarget, -, -, cost, hcost, rfl⟩
    obtain ⟨heligible, hcost⟩ := (traversalCost_iff world contacts hv map hplaced congested source target
      cost).mp hcost
    exact ⟨hsource, htarget, heligible, congrArg UInt32.toNat hcost⟩
  · rintro ⟨hsource, htarget, heligible, rfl⟩
    have hpositive := assess_positive world contacts heligible
    refine ⟨hsource, htarget, ?_, UInt32.lt_iff_toNat_lt.mp hpositive, _,
      (traversalCost_iff world contacts hv map hplaced congested source target _).mpr ⟨heligible, rfl⟩, rfl⟩
    exact assess_adjacent world contacts heligible

end GroundTraversal

-- The planner and the follower agree: on every way and its cost, and on every watched cell that
-- can be read. A watched cell that cannot be read counts by the units of the snapshot alone.
theorem planner_agrees (hv : world.Valid) (moving map : ObjectId)
    (hplaced : (world.unitPosition moving).isSome) :
    (∀ (congested : Cells) (source target : GridHex) (cost : UInt32),
      let asked := (({ GroundTraversal.new world contacts moving map with
        congested } : GroundTraversal).traversalCost world contacts source target).1
      let live := assess world contacts moving ⟨map, source.x, source.y⟩ ⟨map, target.x, target.y⟩
      (asked = some cost ↔ live.eligible ∧ live.cost = cost) ∧ (asked = some cost → 0 < cost)) ∧
    (∀ cells : Cells, (∀ cell ∈ cells, Readable world map cell) →
      (watchedClearance world contacts moving map cells = true ↔
        ∃ cell ∈ cells, Clear world contacts map moving cell)) ∧
    (∀ cells : Cells, (∃ cell ∈ cells, Clear world contacts map moving cell) →
      watchedClearance world contacts moving map cells = true) ∧
    (∀ cells : Cells, watchedClearance world contacts moving map cells = true →
      ∃ cell ∈ cells, Readable world map cell → Clear world contacts map moving cell) := by
  have hsuffices : ∀ cells : Cells, (∃ cell ∈ cells, Clear world contacts map moving cell) →
      watchedClearance world contacts moving map cells = true := by
    rintro cells ⟨cell, hcell, hclear⟩
    have hread := hclear.readable world contacts map moving cell
    exact (watchedClearance_iff world contacts moving map cells).mpr ⟨cell, hcell,
      (clear_iff world contacts hv hplaced hcell hread).mp hclear⟩
  have hneeds : ∀ cells : Cells, watchedClearance world contacts moving map cells = true →
      ∃ cell ∈ cells, Readable world map cell → Clear world contacts map moving cell := by
    intro cells hclearance
    obtain ⟨cell, hcell, hopen⟩ := (watchedClearance_iff world contacts moving map cells).mp hclearance
    exact ⟨cell, hcell, fun hread =>
      (clear_iff world contacts hv hplaced hcell hread).mpr hopen⟩
  refine ⟨fun congested source target cost => ?_, fun cells hread => ⟨fun h => ?_, hsuffices cells⟩,
    hsuffices, hneeds⟩
  · have hiff := GroundTraversal.traversalCost_iff world contacts hv map hplaced congested
      source target cost
    refine ⟨hiff, fun hasked => ?_⟩
    obtain ⟨heligible, hcost⟩ := hiff.mp hasked
    rw [← hcost]
    exact assess_positive world contacts heligible
  · obtain ⟨cell, hcell, hclear⟩ := hneeds cells h
    exact ⟨cell, hcell, hclear (hread cell hcell)⟩

end

-- A Mech at the edge of a strip of clear hexes, with an enemy that it does not see in the next one.
def strip : Battlefield := ⟨1, 3, some (List.replicate 3 (Hex.atLevel 0)), .empty⟩

def scout : Mech := ⟨some ⟨7, 0, 0⟩, some 0, 0, false, none, none⟩

def enemy : Vehicle := ⟨some ⟨7, 0, 1⟩, some 1, 1, false, false, .Tracked, false, none, none, false⟩

def outpost : World := ⟨OrderedMap.empty.insert 7 strip, OrderedMap.empty.insert 1 scout,
  OrderedMap.empty.insert 2 enemy⟩

def unseen : Contacts := ⟨Unit, fun _ => .ok (), fun _ _ => .ok none⟩

theorem outpost_valid : outpost.Valid := ⟨by decide, by decide, by decide⟩

theorem planner_agrees_outpost :
    ((GroundTraversal.new outpost unseen 1 7).traversalCost outpost unseen ⟨0, 0⟩ ⟨0, 1⟩).1 = some 1 ∧
      (assess outpost unseen 1 ⟨7, 0, 0⟩ ⟨7, 0, 1⟩).eligible = true ∧
      (assess outpost unseen 1 ⟨7, 0, 0⟩ ⟨7, 0, 1⟩).cost = 1 := by
  have hasked : ((GroundTraversal.new outpost unseen 1 7).traversalCost outpost unseen
      ⟨0, 0⟩ ⟨0, 1⟩).1 = some 1 := by decide +kernel
  have hagrees := (planner_agrees outpost unseen outpost_valid 1 7 (by decide)).1 [] ⟨0, 0⟩ ⟨0, 1⟩ 1
  exact ⟨hasked, hagrees.1.mp hasked⟩

-- A cell off the map is clear to the watch, and unknown to the live rule.
theorem watch_off_map :
    outpost.Valid ∧ (outpost.unitPosition 1).isSome ∧
      ¬ (watchedClearance outpost unseen 1 7 [toLex (5, 5)] = true ↔
        ∃ cell ∈ [(toLex (5, 5) : Cell)], Clear outpost unseen 7 1 cell) := by
  refine ⟨outpost_valid, by decide, fun hiff => ?_⟩
  obtain ⟨cell, hcell, counts, hcounts, -⟩ := hiff.mp (by decide +kernel)
  rw [List.mem_singleton.mp hcell] at hcounts
  contradiction

end StompyMux.Autopilot.Ground
