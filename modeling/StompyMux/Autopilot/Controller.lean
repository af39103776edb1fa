import StompyMux.Autopilot.Navigation
import StompyMux.Library.Fallible
import StompyMux.Library.Machine
import StompyMux.Library.Window
import StompyMux.World.Object

-- Durable orders of the ground autopilot: what to do, never a path.
namespace StompyMux.Autopilot

open Library.Fallible
open StompyMux.World (ObjectId)

structure Position where
  map : ObjectId
  x : UInt16
  y : UInt16
  deriving DecidableEq

structure AutopilotRangeBand where
  minimum : UInt16
  maximum : UInt16
  deriving DecidableEq

def AutopilotRangeBand.validate (band : AutopilotRangeBand) : Except Error Unit :=
  ensure (band.minimum ≤ band.maximum) "Autopilot range minimum exceeds maximum"

inductive AutopilotOrder
  | Move (destination : Position) (arrivalRadius : UInt16)
  | Hold
  | Follow (target : ObjectId) (separation : UInt16)
  | Patrol (waypoints : List Position)
  | Attack (target : ObjectId) (range : Option AutopilotRangeBand)
  | AttackMove (destination : Position) (arrivalRadius : UInt16)
  deriving DecidableEq

def MAX_QUEUED_ORDERS : Nat := 64

def MAX_PATROL_WAYPOINTS : Nat := 64

namespace AutopilotOrder

def validPosition (position : Position) : Except Error Unit :=
  ensure (0 ≤ position.map) "Autopilot order references an invalid map"

-- The limits that need no unit and no map.
def validate : AutopilotOrder → Except Error Unit
  | Move destination _ | AttackMove destination _ => validPosition destination
  | Hold => .ok ()
  | Follow target separation => do
      ensure (0 ≤ target) "Autopilot follow references an invalid unit"
      ensure (0 < separation) "Autopilot follow separation must be positive"
  | Patrol waypoints => do
      ensure (2 ≤ waypoints.length ∧ waypoints.length ≤ MAX_PATROL_WAYPOINTS)
        s!"Autopilot patrols require two to {MAX_PATROL_WAYPOINTS} waypoints"
      waypoints.forM validPosition
      ensure ((waypoints.map Position.map).dedup.length ≤ 1)
        "Autopilot patrol waypoints must share a map"
  | Attack target range => do
      ensure (0 ≤ target) "Autopilot attack references an invalid unit"
      match range with
      | some band => band.validate
      | none => .ok ()

def kindCode : AutopilotOrder → Nat
  | Move _ _ => 0
  | Hold => 1
  | Follow _ _ => 2
  | Patrol _ => 3
  | Attack _ _ => 4
  | AttackMove _ _ => 5

end AutopilotOrder

inductive AutopilotOrderState
  | Queued
  | Running
  | Succeeded
  | Failed
  | Canceled
  deriving DecidableEq

-- A small execution cursor. Paths and search frontiers stay transient.
structure AutopilotOrderProgress where
  waypointIndex : UInt16
  recoveryAttempts : UInt8
  stagnantTicks : UInt16
  attackMoveOrigin : Option Position
  attackMoveSuppressedTarget : Option ObjectId
  deriving DecidableEq

def AutopilotOrderProgress.default : AutopilotOrderProgress := ⟨0, 0, 0, none, none⟩

structure AutopilotOrderRecord where
  id : Nat
  order : AutopilotOrder
  state : AutopilotOrderState
  progress : AutopilotOrderProgress
  deriving DecidableEq

namespace AutopilotOrderRecord

def queued (id : Nat) (order : AutopilotOrder) : AutopilotOrderRecord :=
  ⟨id, order, .Queued, .default⟩

def withState (record : AutopilotOrderRecord) (state : AutopilotOrderState) :
    AutopilotOrderRecord :=
  { record with state := state }

def validate (record : AutopilotOrderRecord) (active : Bool) : Except Error Unit := do
  ensure (0 < record.id) "Autopilot order ID must be positive"
  record.order.validate
  if active then
    ensure (record.state = .Running ∨ record.state = .Failed)
      "Active autopilot order has an invalid state"
  else
    ensure (record.state = .Queued) "Queued autopilot order has an invalid state"

theorem validate_ok_iff (record : AutopilotOrderRecord) (active : Bool) :
    record.validate active = .ok () ↔
      0 < record.id ∧ record.order.validate = .ok () ∧
        (if active then record.state = .Running ∨ record.state = .Failed
          else record.state = .Queued) := by
  have hlast : (if active then
      ensure (record.state = .Running ∨ record.state = .Failed)
        "Active autopilot order has an invalid state"
      else ensure (record.state = .Queued) "Queued autopilot order has an invalid state") = .ok () ↔
      (if active then record.state = .Running ∨ record.state = .Failed
        else record.state = .Queued) := by
    cases active with
    | true => exact (ensure_ok_iff).trans decide_eq_true_iff
    | false => exact (ensure_ok_iff).trans decide_eq_true_iff
  rw [validate, ensure_bind_ok_iff, decide_eq_true_iff]
  refine and_congr_right fun _ => ⟨fun h => ?_, fun ⟨horder, h⟩ => ?_⟩
  · obtain ⟨⟨⟩, horder, h⟩ := ok_of_bind h
    exact ⟨horder, hlast.mp h⟩
  · exact bind_ok horder (hlast.mpr h)

end AutopilotOrderRecord

end StompyMux.Autopilot

-- The controller of one unit: its intent, its queue and the outcomes it reports.
namespace StompyMux.Autopilot

open Library Library.Fallible
open StompyMux.World (ObjectId)

inductive AutopilotFireMode
  | Hold
  | AssignedTarget
  | Opportunistic
  deriving DecidableEq

structure AutopilotConfig where
  speedPercent : UInt8
  fireMode : AutopilotFireMode
  heatCeiling : UInt16
  preferredRange : Option AutopilotRangeBand
  deriving DecidableEq

namespace AutopilotConfig

def default : AutopilotConfig := ⟨100, .Hold, 8, none⟩

def validate (config : AutopilotConfig) : Except Error Unit := do
  ensure (config.speedPercent ≤ 100) "Autopilot speed percentage must be between 0 and 100"
  ensure (config.heatCeiling ≤ 1000) "Autopilot heat ceiling is out of range"
  match config.preferredRange with
  | some range => range.validate
  | none => .ok ()

end AutopilotConfig

-- A range of none leaves the range unchanged, some none clears it.
structure AutopilotConfigPatch where
  speedPercent : Option UInt8
  fireMode : Option AutopilotFireMode
  heatCeiling : Option UInt16
  preferredRange : Option (Option AutopilotRangeBand)
  deriving DecidableEq

def AutopilotConfigPatch.applyTo (patch : AutopilotConfigPatch) (config : AutopilotConfig) :
    AutopilotConfig where
  speedPercent := patch.speedPercent.getD config.speedPercent
  fireMode := patch.fireMode.getD config.fireMode
  heatCeiling := patch.heatCeiling.getD config.heatCeiling
  preferredRange := patch.preferredRange.getD config.preferredRange

-- Paused and blocked controllers keep their intent.
inductive AutopilotState
  | Paused
  | Idle
  | Executing
  | Blocked
  deriving DecidableEq

inductive AutopilotFeedbackEvent
  | Configured
  | Paused
  | Resumed
  | ManualTakeover
  | OrderQueued
  | OrderStarted
  | OrderSucceeded
  | OrderFailed
  | OrderCanceled
  | Blocked
  deriving DecidableEq

inductive AutopilotReason
  | ManualTakeover
  | ContactLost
  | Stuck
  | Unreachable
  | Invalidated
  | ResourceLimit
  | Congested
  | InvalidTarget
  | UnitUnavailable
  | MapChanged
  | Unsupported
  | StaleRevision
  deriving DecidableEq

structure AutopilotFeedback where
  sequence : Nat
  simulationTime : Int
  orderId : Option Nat
  event : AutopilotFeedbackEvent
  reason : Option AutopilotReason
  deriving DecidableEq

structure AutopilotFeedbackPage where
  records : List AutopilotFeedback
  historyGap : Bool
  deriving DecidableEq

structure LastSighting where
  position : Position
  seenAt : Int
  deriving DecidableEq

inductive AutopilotSubmissionMode
  | Append
  | Replace
  deriving DecidableEq

def MAX_FEEDBACK : Nat := 128

structure AutopilotController where
  config : AutopilotConfig
  state : AutopilotState
  blockingReason : Option AutopilotReason
  revision : Nat
  nextOrderId : Nat
  active : Option AutopilotOrderRecord
  queue : List AutopilotOrderRecord
  feedback : List AutopilotFeedback
  nextFeedbackSequence : Nat
  sightings : OrderedMap ObjectId LastSighting
  deriving DecidableEq

namespace AutopilotController

-- Paused, with no intent.
def new : AutopilotController where
  config := .default
  state := .Paused
  blockingReason := none
  revision := 0
  nextOrderId := 1
  active := none
  queue := []
  feedback := []
  nextFeedbackSequence := 1
  sightings := .empty

variable (c : AutopilotController)

def orderCount : Nat := c.queue.length + (if c.active.isSome then 1 else 0)

def ensureRevision : Option Nat → Except Error Unit
  | some expected =>
      ensure (expected = c.revision)
        s!"Autopilot revision mismatch: expected {expected}, current {c.revision}"
  | none => .ok ()

def bumpRevision : Except Error AutopilotController := do
  let revision ← ofOption "Autopilot revision exhausted" (checkedAdd c.revision 1)
  .ok { c with revision := revision }

-- The sequence number recorded is returned. Only the last records are retained.
def recordFeedback (simulationTime : Int) (orderId : Option Nat) (event : AutopilotFeedbackEvent)
    (reason : Option AutopilotReason) : Nat × AutopilotController :=
  (c.nextFeedbackSequence,
    { c with
      nextFeedbackSequence := max (min (c.nextFeedbackSequence + 1) U64_MAX) 1
      feedback := Window.push MAX_FEEDBACK c.feedback
        ⟨c.nextFeedbackSequence, simulationTime, orderId, event, reason⟩ })

def feedbackSince : Option Nat → AutopilotFeedbackPage
  | none => ⟨c.feedback, false⟩
  | some after =>
      ⟨c.feedback.filter (fun feedback => after < feedback.sequence),
        c.feedback.head?.any (fun first => min (after + 1) U64_MAX < first.sequence)⟩

-- What a call leaves behind and what it answers. A failing step leaves what was done before it.
def attempt {α β : Type} (x : Except Error α) (rest : α → AutopilotController × Except Error β) :
    AutopilotController × Except Error β :=
  match x with
  | .ok a => rest a
  | .error e => (c, .error e)

def configure (patch : AutopilotConfigPatch) (expectedRevision : Option Nat) :
    AutopilotController × Except Error Unit :=
  c.attempt (c.ensureRevision expectedRevision) fun () =>
  let next := patch.applyTo c.config
  c.attempt next.validate fun () =>
  if next = c.config then (c, .ok ())
  else
    let c := { c with config := next }
    c.attempt c.bumpRevision fun c => ((c.recordFeedback 0 none .Configured none).2, .ok ())

-- The records of a batch and the next id. The ids are consecutive.
def enroll : Nat → List AutopilotOrder → Except Error (List AutopilotOrderRecord × Nat)
  | nextId, [] => .ok ([], nextId)
  | nextId, order :: orders => do
      ensure (0 < nextId) "Autopilot order ID exhausted"
      let later ← ofOption "Autopilot order ID exhausted" (checkedAdd nextId 1)
      let (records, final) ← enroll later orders
      .ok (.queued nextId order :: records, final)

-- What is checked of a batch before anything changes.
def checkSubmission (orders : List AutopilotOrder) (mode : AutopilotSubmissionMode)
    (expectedRevision : Option Nat) : Except Error (List AutopilotOrderRecord × Nat) := do
  c.ensureRevision expectedRevision
  ensure (mode ≠ .Append ∨ orders ≠ []) "Cannot append an empty autopilot order batch"
  ensure (orders.length ≤ MAX_QUEUED_ORDERS) "Too many autopilot orders"
  orders.forM AutopilotOrder.validate
  let existing := match mode with
    | .Append => c.orderCount
    | .Replace => 0
  ensure (existing + orders.length ≤ MAX_QUEUED_ORDERS) "Autopilot order queue is full"
  enroll c.nextOrderId orders

def recordAll (event : AutopilotFeedbackEvent) (records : List AutopilotOrderRecord) :
    AutopilotController :=
  records.foldl (fun c record => (c.recordFeedback 0 (some record.id) event none).2) c

def cancelAll : AutopilotController :=
  { c with blockingReason := none, active := none, queue := [] }.recordAll .OrderCanceled
    (c.active.toList ++ c.queue)

def makeRoom : AutopilotSubmissionMode → AutopilotController
  | .Append => c
  | .Replace => c.cancelAll

-- The state after a batch has joined the queue.
def submittedState (mode : AutopilotSubmissionMode) : AutopilotState :=
  if c.queue ≠ [] ∧ c.state ≠ .Paused ∧ ¬ (c.state = .Blocked ∧ mode = .Append) then .Executing
  else if c.queue = [] ∧ c.active = none then
    if c.state = .Paused then .Paused else .Idle
  else c.state

def submit (orders : List AutopilotOrder) (mode : AutopilotSubmissionMode)
    (expectedRevision : Option Nat) : AutopilotController × Except Error (List Nat) :=
  c.attempt (c.checkSubmission orders mode expectedRevision) fun (records, nextId) =>
  let c := c.makeRoom mode
  let c := { c with queue := c.queue ++ records, nextOrderId := nextId }
  let c := { c with state := c.submittedState mode }
  c.attempt c.bumpRevision fun c => (c.recordAll .OrderQueued records, .ok (records.map (·.id)))

def takeOrder (orderId : Nat) : Option AutopilotController :=
  if c.active.any (fun record => record.id = orderId) then some { c with active := none }
  else (c.queue.findIdx? (fun record => record.id = orderId)).map
    (fun index => { c with queue := c.queue.eraseIdx index })

-- What is left when an order is gone: no reason without an active order, and work goes on.
def released : AutopilotController :=
  if c.active.isNone then
    { c with
      blockingReason := none
      state :=
        if c.state = .Paused then c.state else if c.queue.isEmpty then .Idle else .Executing }
  else c

def cancel (orderId : Nat) (expectedRevision : Option Nat) :
    AutopilotController × Except Error Bool :=
  c.attempt (c.ensureRevision expectedRevision) fun () =>
  match c.takeOrder orderId with
  | none => (c, .ok false)
  | some c =>
      let c := (c.recordFeedback 0 (some orderId) .OrderCanceled none).2
      c.attempt c.bumpRevision fun c => (c.released, .ok true)

def pause (expectedRevision : Option Nat) : AutopilotController × Except Error Unit :=
  c.attempt (c.ensureRevision expectedRevision) fun () =>
  if c.state = .Paused then (c, .ok ())
  else
    let c := { c with state := .Paused }
    c.attempt c.bumpRevision fun c => ((c.recordFeedback 0 none .Paused none).2, .ok ())

def resume (expectedRevision : Option Nat) : AutopilotController × Except Error Unit :=
  c.attempt (c.ensureRevision expectedRevision) fun () =>
  if c.state = .Paused ∨ c.state = .Blocked then
    let c := { c with active := c.active.map (AutopilotOrderRecord.withState · .Running) }
    let c := { c with
      state := if c.active.isSome ∨ c.queue ≠ [] then .Executing else .Idle
      blockingReason := none }
    c.attempt c.bumpRevision fun c => ((c.recordFeedback 0 none .Resumed none).2, .ok ())
  else (c, .ok ())

-- The heartbeat calls it after checking the unit.
def startNext (simulationTime : Int) : AutopilotController × Option Nat :=
  if c.state ≠ .Executing ∨ c.active.isSome then (c, none)
  else match c.queue with
    | [] => (c, none)
    | record :: queue =>
        let c := { c with active := some (record.withState .Running), queue := queue }
        ((c.recordFeedback simulationTime (some record.id) .OrderStarted none).2, some record.id)

def completeActive (simulationTime : Int) : AutopilotController × Option Nat :=
  match c.active with
  | none => (c, none)
  | some record =>
      let c := { c with active := none }
      let c := (c.recordFeedback simulationTime (some record.id) .OrderSucceeded none).2
      ({ c with state := if c.queue.isEmpty then .Idle else .Executing }, some record.id)

-- The failed order is kept for a retry by resume.
def failActive (simulationTime : Int) (reason : AutopilotReason) :
    AutopilotController × Option Nat :=
  match c.active with
  | none => (c, none)
  | some record =>
      let c := { c with
        active := some (record.withState .Failed)
        state := .Blocked
        blockingReason := some reason }
      let c := (c.recordFeedback simulationTime (some record.id) .OrderFailed (some reason)).2
      ((c.recordFeedback simulationTime (some record.id) .Blocked (some reason)).2, some record.id)

def manualTakeover (simulationTime : Int) : AutopilotController × Bool :=
  if c.state = .Executing ∨ c.state = .Idle then
    let c := { c with state := .Paused, blockingReason := none }
    ((c.recordFeedback simulationTime (c.active.map (·.id)) .ManualTakeover
      (some .ManualTakeover)).2, true)
  else (c, false)

def insertId (ids : List Nat) (id : Nat) : Except Error (List Nat) := do
  ensure (id ∉ ids) "Duplicate autopilot order ID"
  .ok (id :: ids)

def validateQueued (ids : List Nat) (queued : AutopilotOrderRecord) : Except Error (List Nat) := do
  queued.validate false
  insertId ids queued.id

def followSequence (previous : Nat) (feedback : AutopilotFeedback) : Except Error Nat := do
  ensure (previous < feedback.sequence) "Autopilot feedback is out of order"
  .ok feedback.sequence

def validate : Except Error Unit := do
  c.config.validate
  ensure (0 < c.nextOrderId) "Autopilot next order ID is invalid"
  ensure (c.state ≠ .Blocked ∨ c.blockingReason.isSome) "Blocked autopilot lacks a reason"
  ensure (c.orderCount ≤ MAX_QUEUED_ORDERS) "Autopilot order queue exceeds capacity"
  ensure (c.state ≠ .Idle ∨ c.orderCount = 0) "Idle autopilot retains pending orders"
  ensure (c.state ≠ .Executing ∨ 0 < c.orderCount) "Executing autopilot has no pending order"
  c.active.toList.forM (fun active => active.validate true)
  let ids ← (c.active.toList.map (·.id)).foldlM insertId []
  let ids ← c.queue.foldlM validateQueued ids
  ensure (ids.all (· < c.nextOrderId)) "Autopilot next order ID is behind its queue"
  ensure (c.feedback.length ≤ MAX_FEEDBACK ∧ 0 < c.nextFeedbackSequence)
    "Autopilot feedback history is invalid"
  let previous ← c.feedback.foldlM followSequence 0
  ensure (previous < c.nextFeedbackSequence) "Autopilot feedback sequence is not monotonic"
  ensure (c.sightings.values.all (fun sighting => 0 ≤ sighting.position.map))
    "Autopilot sighting references an invalid map"

end AutopilotController

end StompyMux.Autopilot
