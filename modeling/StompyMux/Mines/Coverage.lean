import StompyMux.Mines.Range
import StompyMux.Woodland.Overlays

-- Which minefields a unit sets off, and the gate that is asked before.
namespace StompyMux.Mines

open Library Library.Fallible
open StompyMux.Map

inductive MineKind
  | Standard | Inferno | Command | Vibra | Trigger | Active
  deriving DecidableEq

-- The extra is the command channel, the vibrabomb's setting or the trigger's radius.
structure Minefield where
  coordinate : HexCoordinate
  kind : MineKind
  strength : Int
  extra : Int
  deriving DecidableEq

structure StoredMap extends Woodland.StoredMap where
  minefields : OrderedMap Nat Minefield
  -- the gameplay traversal order
  minefieldOrder : List Nat

inductive MineTriggerReason
  | Step | Land | Drop | Fall
  deriving DecidableEq

inductive MineResponse
  | Explode | Trigger | Spotted
  deriving DecidableEq

structure Mover where
  mech : Bool
  hover : Bool
  deriving DecidableEq

structure MineActivation where
  ordinal : Nat
  mine : Minefield
  response : MineResponse
  target : Option Nat
  deriving DecidableEq

-- What the selection reads of the unit: its coordinate, elevation and mass.
structure Arrival where
  coordinate : HexCoordinate
  elevation : Int
  mass : Nat
  mover : Mover

-- The 2d6 result a conventional field needs to go off under a unit that enters its hex.
def densityTarget (strength : Int) : Nat := if strength ≤ 10 then 9 else if strength ≤ 20 then 8 else 7

namespace Minefield

variable (field : Minefield) (coordinate : HexCoordinate)

def columns : Int := |field.coordinate.x - coordinate.x|

def rows : Int := |field.coordinate.y - coordinate.y|

def detonationTarget (reason : MineTriggerReason) (mover : Mover) : Option Nat :=
  match field.kind with
  | .Standard | .Inferno =>
      some (if reason = .Fall || mover.hover then 12 else densityTarget field.strength)
  | .Active => some 9
  | _ => none

def coverageRadius : Int :=
  match field.kind with
  | .Trigger => field.extra
  | .Vibra => Int.tdiv (100 - field.extra) 10
  | _ => 0

noncomputable def covers : Bool :=
  if field.kind = .Trigger then
    field.columns coordinate ≤ field.coverageRadius && field.rows coordinate ≤ field.coverageRadius &&
      roundTiesEven (field.coordinate.center.range coordinate.center) ≤ field.extra
  else if field.kind ≠ .Vibra then field.coordinate = coordinate
  else if field.coverageRadius = 0 then field.coordinate = coordinate
  else field.columns coordinate ≤ field.coverageRadius && field.rows coordinate ≤ field.coverageRadius &&
    field.columns coordinate + field.rows coordinate ≤ Int.tdiv (field.coverageRadius * 3) 2

noncomputable def response (tons : Int) (reason : MineTriggerReason) (mover : Mover) :
    Option MineResponse :=
  let range := roundTiesEven (field.coordinate.center.range coordinate.center)
  if field.kind = .Trigger then
    if !(reason = .Step || reason = .Land) || field.strength > tons then none
    else if field.coordinate = coordinate || range ≤ field.extra then some .Trigger
    else none
  else if field.kind = .Active then
    if mover.mech && reason = .Land && field.coordinate = coordinate then some .Explode else none
  else if field.kind = .Vibra && (!mover.mech || tons ≤ field.extra - 10) then none
  else if field.coordinate = coordinate then
    match field.kind with
    | .Command => some .Spotted
    | _ => some .Explode
  else if field.kind ≠ .Vibra then none
  else if range ≤ max (tons - field.extra) 0 / 10 then some .Explode
  else none

-- The gate passes over the fields that are too far away, and asks the others.
noncomputable def admits : Bool :=
  if field.coverageRadius < 0 || field.columns coordinate > field.coverageRadius ||
    field.rows coordinate > field.coverageRadius then false
  else field.covers coordinate

end Minefield

namespace StoredMap

variable (map : StoredMap)

def validateMinefields : Except Error Unit := do
  ensure (map.minefieldOrder.length = map.minefields.entries.length &&
    map.minefieldOrder.all (· ∈ map.minefields.keys) && map.minefields.keys.all (· ∈ map.minefieldOrder))
    "Invalid minefield order"
  ensure (map.minefields.entries.length ≤ 1000000 &&
    map.minefields.values.all (fun field => map.onMap field.coordinate)) "Invalid minefield definitions"

noncomputable def mineCoverage (coordinate : HexCoordinate) : Except Error Bool := do
  let _ ← map.baseHex coordinate.x coordinate.y
  .ok (map.minefields.values.any (fun field => field.admits coordinate))

def orderedMinefields : List (Nat × Minefield) :=
  map.minefieldOrder.filterMap (fun slot => (map.minefields.get? slot).map (slot, ·))

end StoredMap

noncomputable def activation (unit : Arrival) (reason : MineTriggerReason) (airborne : Bool)
    (entry : Nat × Minefield) : Option MineActivation :=
  if airborne && entry.2.kind ≠ .Active then none
  else (entry.2.response unit.coordinate (unit.mass / 1024 : Nat) reason unit.mover).map fun response =>
    { ordinal := entry.1, mine := entry.2, response := response,
      target := if response = .Explode then entry.2.detonationTarget reason unit.mover else none }

noncomputable def mineActivations (map : StoredMap) (unit : Arrival) (reason : MineTriggerReason) :
    Except Error (List MineActivation) := do
  let covered ← map.mineCoverage unit.coordinate
  if !covered then .ok []
  else
    let tile ← map.baseHex unit.coordinate.x unit.coordinate.y
    -- nothing on the ground reaches a unit above the surface, and nothing at all one above that
    if unit.elevation > tile.standingHeight + 1 then .ok []
    else .ok (map.orderedMinefields.filterMap
      (activation unit reason (unit.elevation > tile.standingHeight)))

namespace Minefield

variable (field : Minefield) (coordinate : HexCoordinate)

-- What the gate lets through, in whole numbers.
def Boxed : Prop :=
  match field.kind with
  | .Vibra => field.columns coordinate ≤ field.coverageRadius ∧
      field.rows coordinate ≤ field.coverageRadius ∧
      2 * (field.columns coordinate + field.rows coordinate) ≤ 3 * field.coverageRadius
  | .Trigger => field.columns coordinate ≤ field.extra ∧ field.rows coordinate ≤ field.extra ∧
      field.coordinate.roundedRange coordinate ≤ field.extra
  | _ => field.coordinate = coordinate

-- The fields that answer without the gate letting them through: vibrabombs within reach across the
-- corners of the box, and triggers within their radius but more columns away.
def Hidden (tons : Int) (reason : MineTriggerReason) (mover : Mover) : Prop :=
  match field.kind with
  | .Vibra => mover.mech = true ∧ field.extra - 10 < tons ∧
      field.coordinate.roundedRange coordinate ≤ max (tons - field.extra) 0 / 10 ∧
      (field.coverageRadius < field.columns coordinate ∨
        3 * field.coverageRadius < 2 * (field.columns coordinate + field.rows coordinate))
  | .Trigger => (reason = .Step ∨ reason = .Land) ∧ field.strength ≤ tons ∧
      (field.coordinate = coordinate ∧ field.extra < 0 ∨
        field.coordinate.roundedRange coordinate ≤ field.extra ∧ field.extra < field.columns coordinate)
  | _ => False

theorem columns_nonneg : 0 ≤ field.columns coordinate := abs_nonneg _

theorem rows_nonneg : 0 ≤ field.rows coordinate := abs_nonneg _

theorem rows_le : field.rows coordinate ≤ field.coordinate.roundedRange coordinate := by
  unfold rows
  rw [abs_sub_comm]
  exact field.coordinate.rows_le_roundedRange coordinate

theorem colocated_iff :
    field.coordinate = coordinate ↔ field.columns coordinate = 0 ∧ field.rows coordinate = 0 := by
  unfold columns rows
  rw [abs_eq_zero, abs_eq_zero, sub_eq_zero, sub_eq_zero]
  cases field.coordinate
  cases coordinate
  simp

theorem range_of_colocated (h : field.coordinate = coordinate) :
    field.coordinate.roundedRange coordinate = 0 := by
  rw [h]
  exact coordinate.roundedRange_self

theorem admits_iff : field.admits coordinate = true ↔ field.Boxed coordinate := by
  have hcolumns := field.columns_nonneg coordinate
  have hrows := field.rows_nonneg coordinate
  have hcolocated := field.colocated_iff coordinate
  unfold admits covers Boxed
  rw [field.coordinate.roundTiesEven_range coordinate]
  cases hkind : field.kind with
  | Vibra =>
      have hhalf : 0 ≤ field.coverageRadius →
          Int.tdiv (field.coverageRadius * 3) 2 = field.coverageRadius * 3 / 2 := fun h =>
        Int.tdiv_eq_ediv_of_nonneg (by omega)
      by_cases hradius : 0 ≤ field.coverageRadius
      · rw [hhalf hradius]
        by_cases hzero : field.coverageRadius = 0
        · simp [hzero, hcolocated]
          omega
        · simp [hzero]
          omega
      · have hnegative : field.coverageRadius < 0 := by omega
        simp [hnegative]
        omega
  | Trigger =>
      have hradius : field.coverageRadius = field.extra := by rw [coverageRadius, hkind]
      simp [hradius]
      omega
  | Standard | Inferno | Command | Active =>
      have hradius : field.coverageRadius = 0 := by rw [coverageRadius, hkind]
      simp [hradius, hcolocated]
      omega

theorem reach_le {tons : Int} (hkind : field.kind = .Vibra) (htons : tons ≤ 100)
    (hset : field.extra - 10 < tons) : max (tons - field.extra) 0 / 10 ≤ field.coverageRadius := by
  rw [coverageRadius, hkind]
  dsimp only
  by_cases hover : field.extra ≤ 100
  · rw [Int.tdiv_eq_ediv_of_nonneg (by omega)]
    omega
  · have hzero : Int.tdiv (100 - field.extra) 10 = 0 := by
      have hneg : 100 - field.extra = -(field.extra - 100) := by omega
      rw [hneg, Int.neg_tdiv, Int.tdiv_eq_ediv_of_nonneg (by omega)]
      omega
    rw [hzero]
    omega

theorem response_ne_none_iff (tons : Int) (reason : MineTriggerReason) (mover : Mover) :
    field.response coordinate tons reason mover ≠ none ↔
      match field.kind with
      | .Vibra => mover.mech = true ∧ field.extra - 10 < tons ∧
          field.coordinate.roundedRange coordinate ≤ max (tons - field.extra) 0 / 10
      | .Trigger => (reason = .Step ∨ reason = .Land) ∧ field.strength ≤ tons ∧
          (field.coordinate = coordinate ∨ field.coordinate.roundedRange coordinate ≤ field.extra)
      | .Active => mover.mech = true ∧ reason = .Land ∧ field.coordinate = coordinate
      | _ => field.coordinate = coordinate := by
  unfold response
  rw [field.coordinate.roundTiesEven_range coordinate]
  cases hkind : field.kind with
  | Vibra =>
      by_cases hcolocated : field.coordinate = coordinate
      · have hrange := field.range_of_colocated coordinate hcolocated
        simp [hcolocated] at hrange ⊢
        omega
      · simp [hcolocated]
  | Trigger =>
      simp
      tauto
  | Active => simp
  | Standard | Inferno | Command => simp

-- What hides a field from the gate although it answers.
theorem hidden_iff (tons : Int) (reason : MineTriggerReason) (mover : Mover)
    (htons : mover.mech = true → tons ≤ 100) :
    field.Hidden coordinate tons reason mover ↔
      field.response coordinate tons reason mover ≠ none ∧ ¬ field.Boxed coordinate := by
  have hrows := field.rows_le coordinate
  have hcolumns := field.columns_nonneg coordinate
  have hcolocated := field.colocated_iff coordinate
  rw [response_ne_none_iff]
  unfold Boxed Hidden
  cases hkind : field.kind with
  | Vibra =>
      constructor
      · rintro ⟨hmech, hset, hreach, hfar⟩
        exact ⟨⟨hmech, hset, hreach⟩, fun ⟨hcolumns, _, hbox⟩ => by omega⟩
      · rintro ⟨⟨hmech, hset, hreach⟩, hfar⟩
        have hwide := field.reach_le hkind (htons hmech) hset
        exact ⟨hmech, hset, hreach, by omega⟩
  | Trigger =>
      have hself := field.range_of_colocated coordinate
      rw [hcolocated] at hself ⊢
      constructor
      · rintro ⟨hreason, hweight, hfar⟩
        exact ⟨⟨hreason, hweight, by omega⟩, by omega⟩
      · rintro ⟨⟨hreason, hweight, hnear⟩, hfar⟩
        exact ⟨hreason, hweight, by omega⟩
  | Standard | Inferno | Command => simp
  | Active => simp

end Minefield

namespace StoredMap

variable (map : StoredMap) (coordinate : HexCoordinate)

theorem mineCoverage_ok {hex : Hex} (h : map.baseHex coordinate.x coordinate.y = .ok hex) :
    map.mineCoverage coordinate =
      .ok (map.minefields.values.any (fun field => field.admits coordinate)) := by
  unfold mineCoverage
  rw [h]
  rfl

theorem mineCoverage_true_iff {hex : Hex} (h : map.baseHex coordinate.x coordinate.y = .ok hex) :
    map.mineCoverage coordinate = .ok true ↔
      ∃ field ∈ map.minefields.values, field.Boxed coordinate := by
  rw [map.mineCoverage_ok coordinate h, Except.ok.injEq, List.any_eq_true]
  exact exists_congr fun field => and_congr_right fun _ => field.admits_iff coordinate

-- Hidden fields go off only where another field lets the coordinate through.
theorem mineCoverage_answers_iff (hex : Hex) (tons : Int) (reason : MineTriggerReason) (mover : Mover)
    (hon : map.baseHex coordinate.x coordinate.y = .ok hex)
    (htons : mover.mech = true → tons ≤ 100) :
    ((∃ field ∈ map.minefields.values, field.response coordinate tons reason mover ≠ none) →
        map.mineCoverage coordinate = .ok true) ↔
      ∀ field ∈ map.minefields.values, field.Hidden coordinate tons reason mover →
        ∃ other ∈ map.minefields.values, other.Boxed coordinate := by
  rw [map.mineCoverage_true_iff coordinate hon]
  constructor
  · intro hgate field hfield hhidden
    have hanswers := (field.hidden_iff coordinate tons reason mover htons).mp hhidden
    exact hgate ⟨field, hfield, hanswers.1⟩
  · rintro hothers ⟨field, hfield, hanswers⟩
    by_cases hboxed : field.Boxed coordinate
    · exact ⟨field, hfield, hboxed⟩
    · exact hothers field hfield
        ((field.hidden_iff coordinate tons reason mover htons).mpr ⟨hanswers, hboxed⟩)

end StoredMap

-- A vibrabomb that is set for ninety tons, on clear ground.
namespace Crossroads

def vibrabomb : Minefield := ⟨⟨2, 2⟩, .Vibra, 30, 90⟩

def record : StoredMap where
  width := 4
  height := 4
  windDirection := 0
  windSpeed := 0
  fireDice := none
  terrain := some (List.replicate 16 (Hex.atLevel 0))
  terrainDamage := .empty
  decorations := .empty
  staticDecorations := fun _ => .empty
  minefields := OrderedMap.ofList [(0, vibrabomb)]
  minefieldOrder := [0]

def walking : Mover := ⟨true, false⟩

theorem adjacent_range : vibrabomb.coordinate.roundedRange ⟨3, 3⟩ = 1 := by
  have hquadrupled : vibrabomb.coordinate.quadrupled ⟨3, 3⟩ = 2 ^ 2 := by decide
  unfold HexCoordinate.roundedRange
  rw [hquadrupled, Nat.sqrt_eq']
  rfl

theorem vibrabomb_answers : vibrabomb.response ⟨3, 3⟩ 100 .Step walking ≠ none := by
  rw [Minefield.response_ne_none_iff]
  refine ⟨rfl, by decide, ?_⟩
  rw [adjacent_range]
  decide

theorem mineCoverage_answers_colocated :
    ((∃ field ∈ record.minefields.values, field.response ⟨2, 2⟩ 100 .Step walking ≠ none) →
        record.mineCoverage ⟨2, 2⟩ = .ok true) ↔
      ∀ field ∈ record.minefields.values, field.Hidden ⟨2, 2⟩ 100 .Step walking →
        ∃ other ∈ record.minefields.values, other.Boxed ⟨2, 2⟩ :=
  record.mineCoverage_answers_iff ⟨2, 2⟩ (Hex.atLevel 0) 100 .Step walking rfl (fun _ => by decide)

-- The hex southeast of it is one away, and not in its box.
theorem adjacent_hidden :
    record.validate = .ok () ∧ record.validateMinefields = .ok () ∧
      HexCoordinate.distance ⟨2, 2⟩ ⟨3, 3⟩ = 1 ∧
      (∃ field ∈ record.minefields.values, field.response ⟨3, 3⟩ 100 .Step walking ≠ none) ∧
      record.mineCoverage ⟨3, 3⟩ = .ok false ∧
      mineActivations record ⟨⟨3, 3⟩, 0, 100 * 1024, walking⟩ .Step = .ok [] := by
  have hbox : vibrabomb.admits ⟨3, 3⟩ = false := by
    rw [Bool.eq_false_iff, Ne, Minefield.admits_iff]
    rintro ⟨-, -, hsum⟩
    exact absurd hsum (by decide)
  have hgate : record.mineCoverage ⟨3, 3⟩ = .ok false := by
    rw [record.mineCoverage_ok ⟨3, 3⟩ rfl]
    show Except.ok (vibrabomb.admits ⟨3, 3⟩ || false) = .ok false
    rw [hbox]
    rfl
  refine ⟨rfl, rfl, by decide, ⟨vibrabomb, List.mem_cons_self, vibrabomb_answers⟩, hgate, ?_⟩
  unfold mineActivations
  rw [hgate]
  rfl

end Crossroads

end StompyMux.Mines
