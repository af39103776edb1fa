import StompyMux.Autopilot.Controller
import StompyMux.Library.Machine
import StompyMux.Persistence.Rows

-- The columns of autopilot controllers, their orders, patrol waypoints and feedback.
namespace StompyMux.Persistence

open Library Library.Fallible
open StompyMux.Autopilot
open StompyMux.World (ObjectId)

def fireModeCode : AutopilotFireMode → Int
  | .Hold => 0
  | .AssignedTarget => 1
  | .Opportunistic => 2

def fireModeFromCode : Int → Except Error AutopilotFireMode
  | 0 => .ok .Hold
  | 1 => .ok .AssignedTarget
  | 2 => .ok .Opportunistic
  | other => .error [s!"Unknown AutopilotFireMode code {other}"]

def stateCode : AutopilotState → Int
  | .Paused => 0
  | .Idle => 1
  | .Executing => 2
  | .Blocked => 3

def stateFromCode : Int → Except Error AutopilotState
  | 0 => .ok .Paused
  | 1 => .ok .Idle
  | 2 => .ok .Executing
  | 3 => .ok .Blocked
  | other => .error [s!"Unknown AutopilotState code {other}"]

def reasonCode : AutopilotReason → Int
  | .ManualTakeover => 0
  | .ContactLost => 1
  | .Stuck => 2
  | .Unreachable => 3
  | .Invalidated => 4
  | .ResourceLimit => 5
  | .Congested => 6
  | .InvalidTarget => 7
  | .UnitUnavailable => 8
  | .MapChanged => 9
  | .Unsupported => 10
  | .StaleRevision => 11

def reasonFromCode : Int → Except Error AutopilotReason
  | 0 => .ok .ManualTakeover
  | 1 => .ok .ContactLost
  | 2 => .ok .Stuck
  | 3 => .ok .Unreachable
  | 4 => .ok .Invalidated
  | 5 => .ok .ResourceLimit
  | 6 => .ok .Congested
  | 7 => .ok .InvalidTarget
  | 8 => .ok .UnitUnavailable
  | 9 => .ok .MapChanged
  | 10 => .ok .Unsupported
  | 11 => .ok .StaleRevision
  | other => .error [s!"Unknown AutopilotReason code {other}"]

def eventCode : AutopilotFeedbackEvent → Int
  | .Configured => 0
  | .Paused => 1
  | .Resumed => 2
  | .ManualTakeover => 3
  | .OrderQueued => 4
  | .OrderStarted => 5
  | .OrderSucceeded => 6
  | .OrderFailed => 7
  | .OrderCanceled => 8
  | .Blocked => 9

def eventFromCode : Int → Except Error AutopilotFeedbackEvent
  | 0 => .ok .Configured
  | 1 => .ok .Paused
  | 2 => .ok .Resumed
  | 3 => .ok .ManualTakeover
  | 4 => .ok .OrderQueued
  | 5 => .ok .OrderStarted
  | 6 => .ok .OrderSucceeded
  | 7 => .ok .OrderFailed
  | 8 => .ok .OrderCanceled
  | 9 => .ok .Blocked
  | other => .error [s!"Unknown AutopilotFeedbackEvent code {other}"]

def orderStateCode : AutopilotOrderState → Int
  | .Queued => 0
  | .Running => 1
  | .Succeeded => 2
  | .Failed => 3
  | .Canceled => 4

def orderStateFromCode : Int → Except Error AutopilotOrderState
  | 0 => .ok .Queued
  | 1 => .ok .Running
  | 2 => .ok .Succeeded
  | 3 => .ok .Failed
  | 4 => .ok .Canceled
  | other => .error [s!"Unknown AutopilotOrderState code {other}"]

theorem fireModeFromCode_code (mode : AutopilotFireMode) :
    fireModeFromCode (fireModeCode mode) = .ok mode := by cases mode <;> rfl

theorem stateFromCode_code (state : AutopilotState) :
    stateFromCode (stateCode state) = .ok state := by cases state <;> rfl

theorem reasonFromCode_code (reason : AutopilotReason) :
    reasonFromCode (reasonCode reason) = .ok reason := by cases reason <;> rfl

theorem eventFromCode_code (event : AutopilotFeedbackEvent) :
    eventFromCode (eventCode event) = .ok event := by cases event <;> rfl

theorem orderStateFromCode_code (state : AutopilotOrderState) :
    orderStateFromCode (orderStateCode state) = .ok state := by cases state <;> rfl

-- Integers of the database are signed and have 64 bits.
def tryI64 (value : Nat) : Except Error Int :=
  if value ≤ I64_MAX then .ok value else .error ["out of range integral type conversion attempted"]

theorem tryI64_ok {value : Nat} (h : value ≤ I64_MAX) : tryI64 value = .ok (value : Int) := if_pos h

-- A counter beyond the range of the database is refused.
def unsigned (value : Nat) : Except Error Cell :=
  (withContext "Autopilot counter exceeds storage range" (tryI64 value)).map Cell.Integer

theorem unsigned_ok {value : Nat} (h : value ≤ I64_MAX) : unsigned value = .ok (.Integer value) := by
  rw [unsigned, tryI64_ok h]
  rfl

def optional (value : Option Int) : Cell := value.elim .Null Cell.Integer

def controllerFields (c : AutopilotController) : Fields :=
  let range := c.config.preferredRange
  [("speed_percent", .Integer c.config.speedPercent.toNat),
    ("fire_mode", .Integer (fireModeCode c.config.fireMode)),
    ("heat_ceiling", .Integer c.config.heatCeiling.toNat),
    ("range_minimum", optional (range.map (·.minimum.toNat))),
    ("range_maximum", optional (range.map (·.maximum.toNat))),
    ("state", .Integer (stateCode c.state)),
    ("blocking_reason", optional (c.blockingReason.map reasonCode)),
    ("revision", .Integer c.revision),
    ("next_order_id", .Integer c.nextOrderId),
    ("next_feedback_sequence", .Integer c.nextFeedbackSequence)]

def encodeController (c : AutopilotController) : Except Error Fields := do
  let range := c.config.preferredRange
  let revision ← unsigned c.revision
  let nextOrderId ← unsigned c.nextOrderId
  let nextFeedbackSequence ← unsigned c.nextFeedbackSequence
  .ok [("speed_percent", .Integer c.config.speedPercent.toNat),
    ("fire_mode", .Integer (fireModeCode c.config.fireMode)),
    ("heat_ceiling", .Integer c.config.heatCeiling.toNat),
    ("range_minimum", optional (range.map (·.minimum.toNat))),
    ("range_maximum", optional (range.map (·.maximum.toNat))),
    ("state", .Integer (stateCode c.state)),
    ("blocking_reason", optional (c.blockingReason.map reasonCode)),
    ("revision", revision),
    ("next_order_id", nextOrderId),
    ("next_feedback_sequence", nextFeedbackSequence)]

-- What an order holds of the columns that only some kinds have.
structure OrderParts where
  destination : Option Position
  arrivalRadius : Option Int
  target : Option ObjectId
  separation : Option Int
  range : Option AutopilotRangeBand

def orderParts : AutopilotOrder → OrderParts
  | .Move destination radius | .AttackMove destination radius =>
      ⟨some destination, some radius.toNat, none, none, none⟩
  | .Hold | .Patrol _ => ⟨none, none, none, none, none⟩
  | .Follow unit distance => ⟨none, none, some unit, some distance.toNat, none⟩
  | .Attack unit band => ⟨none, none, some unit, none, band⟩

def orderPoints : AutopilotOrder → List Position
  | .Patrol waypoints => waypoints
  | _ => []

-- The active order has no position in the queue.
def encodeOrder (record : AutopilotOrderRecord) (queuePosition : Option Nat) : Fields :=
  let parts := orderParts record.order
  let progress := record.progress
  let origin := progress.attackMoveOrigin
  [("queue_position", optional (queuePosition.map Int.ofNat)),
    ("kind", .Integer record.order.kindCode),
    ("state", .Integer (orderStateCode record.state)),
    ("destination_map", optional (parts.destination.map (·.map))),
    ("destination_x", optional (parts.destination.map (·.x.toNat))),
    ("destination_y", optional (parts.destination.map (·.y.toNat))),
    ("arrival_radius", optional parts.arrivalRadius),
    ("target_dbref", optional parts.target),
    ("separation", optional parts.separation),
    ("range_minimum", optional (parts.range.map (·.minimum.toNat))),
    ("range_maximum", optional (parts.range.map (·.maximum.toNat))),
    ("waypoint_index", .Integer progress.waypointIndex.toNat),
    ("recovery_attempts", .Integer progress.recoveryAttempts.toNat),
    ("stagnant_ticks", .Integer progress.stagnantTicks.toNat),
    ("origin_map", optional (origin.map (·.map))),
    ("origin_x", optional (origin.map (·.x.toNat))),
    ("origin_y", optional (origin.map (·.y.toNat))),
    ("suppressed_target", optional progress.attackMoveSuppressedTarget)]

def encodeWaypoint (point : Position) : Fields :=
  [("map_dbref", .Integer point.map), ("x", .Integer point.x.toNat), ("y", .Integer point.y.toNat)]

def feedbackFields (record : AutopilotFeedback) : Fields :=
  [("simulation_time", .Integer record.simulationTime),
    ("order_id", optional (record.orderId.map Int.ofNat)),
    ("event", .Integer (eventCode record.event)),
    ("reason", optional (record.reason.map reasonCode))]

def encodeFeedback (record : AutopilotFeedback) : Except Error Fields := do
  let orderId ← match record.orderId with
    | some id => unsigned id
    | none => .ok .Null
  .ok [("simulation_time", .Integer record.simulationTime),
    ("order_id", orderId),
    ("event", .Integer (eventCode record.event)),
    ("reason", optional (record.reason.map reasonCode))]

-- Counters that the database can hold.
structure Storable (c : AutopilotController) : Prop where
  revision : c.revision ≤ I64_MAX
  nextOrderId : c.nextOrderId ≤ I64_MAX
  nextFeedbackSequence : c.nextFeedbackSequence ≤ I64_MAX
  feedback : ∀ record ∈ c.feedback, ∀ id ∈ record.orderId, id ≤ I64_MAX

theorem encodeController_ok (c : AutopilotController) (h : Storable c) :
    encodeController c = .ok (controllerFields c) := by
  refine bind_ok (unsigned_ok h.revision) ?_
  refine bind_ok (unsigned_ok h.nextOrderId) ?_
  exact bind_ok (unsigned_ok h.nextFeedbackSequence) rfl

theorem encodeFeedback_ok (record : AutopilotFeedback) (h : ∀ id ∈ record.orderId, id ≤ I64_MAX) :
    encodeFeedback record = .ok (feedbackFields record) := by
  unfold encodeFeedback feedbackFields
  cases hid : record.orderId with
  | none => rfl
  | some id => exact bind_ok (unsigned_ok (h id hid)) rfl

section Decode

variable (stored : Row)

def getNullable (column : String) : Except Error (Option Int) :=
  match stored column with
  | .Integer value => .ok (some value)
  | .Null => .ok none
  | _ => .error ["error occurred while decoding column " ++ column]

-- A value that must fit the target type, which holds the numbers below a size.
def narrow {T : Type} (size : Nat) (ofNat : Nat → T) (column : String) (value : Int) :
    Except Error T := do
  ensure (0 ≤ value ∧ value < size)
    ("Autopilot column " ++ column ++ " is out of range: " ++ toString value)
  .ok (ofNat value.toNat)

def get {T : Type} (size : Nat) (ofNat : Nat → T) (column : String) : Except Error T := do
  let value ← getInteger stored column
  narrow size ofNat column value

def getOptional {T : Type} (size : Nat) (ofNat : Nat → T) (column : String) :
    Except Error (Option T) := do
  match ← getNullable stored column with
  | some value => (narrow size ofNat column value).map some
  | none => .ok none

-- A signed value is never beyond an unsigned type of the same width.
def U64_SIZE : Nat := 2 ^ 64

def getU8 (column : String) : Except Error UInt8 := get stored UInt8.size UInt8.ofNat column

def getU16 (column : String) : Except Error UInt16 := get stored UInt16.size UInt16.ofNat column

def getU64 (column : String) : Except Error Nat := get stored U64_SIZE id column

def getOptionalU16 (column : String) : Except Error (Option UInt16) :=
  getOptional stored UInt16.size UInt16.ofNat column

def getOptionalU64 (column : String) : Except Error (Option Nat) := getOptional stored U64_SIZE id column

def getRange : Except Error (Option AutopilotRangeBand) := do
  let minimum ← getOptionalU16 stored "range_minimum"
  let maximum ← getOptionalU16 stored "range_maximum"
  match minimum, maximum with
  | some minimum, some maximum => .ok (some ⟨minimum, maximum⟩)
  | none, none => .ok none
  | _, _ => .error ["Autopilot range band is incomplete"]

def getPosition (name : String) : Except Error (Option Position) := do
  match ← getNullable stored (name ++ "_map") with
  | none => .ok none
  | some map =>
      let x ← getU16 stored (name ++ "_x")
      let y ← getU16 stored (name ++ "_y")
      .ok (some ⟨map, x, y⟩)

def getDestination : Except Error Position := do
  let destination ← getPosition stored "destination"
  ofOption "Autopilot order lacks a destination" destination

def getArrivalRadius : Except Error UInt16 := do
  let radius ← getOptionalU16 stored "arrival_radius"
  ofOption "Autopilot order lacks an arrival radius" radius

def getTarget : Except Error ObjectId := do
  let target ← getNullable stored "target_dbref"
  ofOption "Autopilot order lacks a target" target

def getSeparation : Except Error UInt16 := do
  let separation ← getOptionalU16 stored "separation"
  ofOption "Autopilot follow order lacks a separation" separation

def getReason (column : String) : Except Error (Option AutopilotReason) := do
  match ← getNullable stored column with
  | some code => (reasonFromCode code).map some
  | none => .ok none

def decodeKind (waypoints : List Position) : Int → Except Error AutopilotOrder
  | 0 => do
      let destination ← getDestination stored
      let radius ← getArrivalRadius stored
      .ok (.Move destination radius)
  | 1 => .ok .Hold
  | 2 => do
      let target ← getTarget stored
      let separation ← getSeparation stored
      .ok (.Follow target separation)
  | 3 => .ok (.Patrol waypoints)
  | 4 => do
      let target ← getTarget stored
      let range ← getRange stored
      .ok (.Attack target range)
  | 5 => do
      let destination ← getDestination stored
      let radius ← getArrivalRadius stored
      .ok (.AttackMove destination radius)
  | other => .error ["Unknown autopilot order kind " ++ toString other]

def decodeProgress : Except Error AutopilotOrderProgress := do
  let waypointIndex ← getU16 stored "waypoint_index"
  let recoveryAttempts ← getU8 stored "recovery_attempts"
  let stagnantTicks ← getU16 stored "stagnant_ticks"
  let origin ← getPosition stored "origin"
  let suppressed ← getNullable stored "suppressed_target"
  .ok ⟨waypointIndex, recoveryAttempts, stagnantTicks, origin, suppressed⟩

def decodeOrder (order : Int) (waypoints : List Position) : Except Error AutopilotOrderRecord := do
  let kind ← getInteger stored "kind"
  ensure (kind = 3 ∨ waypoints.isEmpty) "Only patrol orders have waypoints"
  let decoded ← decodeKind stored waypoints kind
  let id ← narrow U64_SIZE id "order_id" order
  let stateCode ← getInteger stored "state"
  let state ← orderStateFromCode stateCode
  let progress ← decodeProgress stored
  .ok ⟨id, decoded, state, progress⟩

def decodeWaypoint : Except Error Position := do
  let map ← getInteger stored "map_dbref"
  let x ← getU16 stored "x"
  let y ← getU16 stored "y"
  .ok ⟨map, x, y⟩

def decodeFeedback (sequence : Int) : Except Error AutopilotFeedback := do
  let sequence ← narrow U64_SIZE id "sequence" sequence
  let time ← getInteger stored "simulation_time"
  let orderId ← getOptionalU64 stored "order_id"
  let eventCode ← getInteger stored "event"
  let event ← eventFromCode eventCode
  let reason ← getReason stored "reason"
  .ok ⟨sequence, time, orderId, event, reason⟩

-- A controller from its row, its orders and its feedback. Sightings are not stored.
def decodeController (active : Option AutopilotOrderRecord) (queue : List AutopilotOrderRecord)
    (feedback : List AutopilotFeedback) : Except Error AutopilotController := do
  let speedPercent ← getU8 stored "speed_percent"
  let fireModeCode ← getInteger stored "fire_mode"
  let fireMode ← fireModeFromCode fireModeCode
  let heatCeiling ← getU16 stored "heat_ceiling"
  let range ← getRange stored
  let stateCode ← getInteger stored "state"
  let state ← stateFromCode stateCode
  let reason ← getReason stored "blocking_reason"
  let revision ← getU64 stored "revision"
  let nextOrderId ← getU64 stored "next_order_id"
  let nextFeedbackSequence ← getU64 stored "next_feedback_sequence"
  .ok ⟨⟨speedPercent, fireMode, heatCeiling, range⟩, state, reason, revision, nextOrderId, active,
    queue, feedback, nextFeedbackSequence, .empty⟩

end Decode

end StompyMux.Persistence
