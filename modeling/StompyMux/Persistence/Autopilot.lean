import Mathlib.Data.List.Sort
import StompyMux.Autopilot.Validity
import StompyMux.Library.Grouping
import StompyMux.Persistence.AutopilotCodec
import StompyMux.Persistence.Batch

-- One row for each controller, with child rows for its orders, patrol waypoints and feedback.
namespace StompyMux.Persistence

open Library Library.Fallible
open StompyMux.Autopilot
open StompyMux.World (ObjectId)

def within (low high : Int) : Cell → Bool
  | .Integer value => low ≤ value ∧ value ≤ high
  | .Null => true
  | _ => false

def atLeast (low : Int) : Cell → Bool
  | .Integer value => low ≤ value
  | .Null => true
  | _ => false

-- A comparison with NULL is no violation.
def atMost : Cell → Cell → Bool
  | .Integer a, .Integer b => a ≤ b
  | _, _ => true

def isNull (cell : Cell) : Bool := cell = .Null

-- A row keeps all constraints of its table.
def checks (constraints : List Bool) : Bool := constraints.all id

def controllersCheck (_ : List Int) (row : Row) : Bool :=
  checks
    [notNull ["speed_percent", "fire_mode", "heat_ceiling", "state", "revision", "next_order_id",
        "next_feedback_sequence"] row,
      within 0 100 (row "speed_percent"),
      within 0 2 (row "fire_mode"),
      within 0 1000 (row "heat_ceiling"),
      within 0 65535 (row "range_minimum"),
      within 0 65535 (row "range_maximum"),
      within 0 3 (row "state"),
      within 0 11 (row "blocking_reason"),
      atLeast 0 (row "revision"),
      atLeast 1 (row "next_order_id"),
      atLeast 1 (row "next_feedback_sequence"),
      isNull (row "range_minimum") == isNull (row "range_maximum"),
      atMost (row "range_minimum") (row "range_maximum"),
      row "state" ≠ .Integer 3 || !isNull (row "blocking_reason")]

def kindIn (codes : List Int) (row : Row) : Bool := codes.any (fun code => row "kind" = .Integer code)

def ordersCheck (key : List Int) (row : Row) : Bool :=
  checks
    [match key with
      | [_, order] => 0 < order
      | _ => false,
      notNull ["kind", "state", "waypoint_index", "recovery_attempts", "stagnant_ticks"] row,
      within 0 63 (row "queue_position"),
      within 0 5 (row "kind"),
      within 0 4 (row "state"),
      atLeast 0 (row "destination_map"),
      within 0 65535 (row "destination_x"),
      within 0 65535 (row "destination_y"),
      within 0 65535 (row "arrival_radius"),
      atLeast 0 (row "target_dbref"),
      within 1 65535 (row "separation"),
      within 0 65535 (row "range_minimum"),
      within 0 65535 (row "range_maximum"),
      within 0 65535 (row "waypoint_index"),
      within 0 255 (row "recovery_attempts"),
      within 0 65535 (row "stagnant_ticks"),
      within 0 65535 (row "origin_x"),
      within 0 65535 (row "origin_y"),
      kindIn [0, 5] row == !isNull (row "destination_map"),
      isNull (row "destination_map") == isNull (row "destination_x"),
      isNull (row "destination_map") == isNull (row "destination_y"),
      isNull (row "destination_map") == isNull (row "arrival_radius"),
      kindIn [2, 4] row == !isNull (row "target_dbref"),
      kindIn [2] row == !isNull (row "separation"),
      kindIn [4] row || isNull (row "range_minimum"),
      isNull (row "range_minimum") == isNull (row "range_maximum"),
      atMost (row "range_minimum") (row "range_maximum"),
      isNull (row "origin_map") == isNull (row "origin_x"),
      isNull (row "origin_map") == isNull (row "origin_y")]

def waypointsCheck (key : List Int) (row : Row) : Bool :=
  checks
    [match key with
      | [_, _, position] => 0 ≤ position ∧ position ≤ 63
      | _ => false,
      notNull ["map_dbref", "x", "y"] row,
      atLeast 0 (row "map_dbref"),
      within 0 65535 (row "x"),
      within 0 65535 (row "y")]

def feedbackCheck (key : List Int) (row : Row) : Bool :=
  checks
    [match key with
      | [_, sequence] => 0 < sequence
      | _ => false,
      notNull ["simulation_time", "event"] row,
      atLeast 0 (row "order_id"),
      within 0 9 (row "event"),
      within 0 11 (row "reason")]

structure AutopilotTables where
  controllers : KeyedTable
  orders : KeyedTable
  waypoints : KeyedTable
  feedback : KeyedTable
  defaults : String → Row

def keyColumns (names : List String) (key : List Int) : List (String × KeyCell) :=
  names.zip (key.map KeyCell.Integer)

namespace AutopilotTables

variable (t : AutopilotTables)

def controllersSchema : Schema (List Int) where
  name := "btech_autopilot_controllers"
  key := keyColumns ["unit_dbref"]
  defaults := t.defaults "btech_autopilot_controllers"
  check := controllersCheck

def ordersSchema : Schema (List Int) where
  name := "btech_autopilot_controller_orders"
  key := keyColumns ["unit_dbref", "order_id"]
  defaults := t.defaults "btech_autopilot_controller_orders"
  check := ordersCheck

def waypointsSchema : Schema (List Int) where
  name := "btech_autopilot_controller_waypoints"
  key := keyColumns ["unit_dbref", "order_id", "position"]
  defaults := t.defaults "btech_autopilot_controller_waypoints"
  check := waypointsCheck

def feedbackSchema : Schema (List Int) where
  name := "btech_autopilot_controller_feedback"
  key := keyColumns ["unit_dbref", "sequence"]
  defaults := t.defaults "btech_autopilot_controller_feedback"
  check := feedbackCheck

end AutopilotTables

def CONTROLLER_COLUMNS : List String :=
  ["speed_percent", "fire_mode", "heat_ceiling", "range_minimum", "range_maximum", "state",
    "blocking_reason", "revision", "next_order_id", "next_feedback_sequence"]

def ORDER_COLUMNS : List String :=
  ["queue_position", "kind", "state", "destination_map", "destination_x", "destination_y",
    "arrival_radius", "target_dbref", "separation", "range_minimum", "range_maximum",
    "waypoint_index", "recovery_attempts", "stagnant_ticks", "origin_map", "origin_x", "origin_y",
    "suppressed_target"]

def WAYPOINT_COLUMNS : List String := ["map_dbref", "x", "y"]

def FEEDBACK_COLUMNS : List String := ["simulation_time", "order_id", "event", "reason"]

def orderRecords (c : AutopilotController) : List (AutopilotOrderRecord × Option Nat) :=
  c.active.toList.map (fun record => (record, none)) ++
    c.queue.zipIdx.map (fun record => (record.1, some record.2))

def waypointEntries (order : Int) (record : AutopilotOrderRecord) : List (List Int × Fields) :=
  (orderPoints record.order).zipIdx.map (fun point => ([order, (point.2 : Int)], encodeWaypoint point.1))

def desiredOrders (c : Option AutopilotController) : Except Error (Rows × Rows) := do
  let records ← ((c.map orderRecords).getD []).mapM fun record => do
    let order ← tryI64 record.1.id
    .ok (([order], encodeOrder record.1 record.2), waypointEntries order record.1)
  .ok (OrderedMap.ofList (records.map Prod.fst), OrderedMap.ofList (records.flatMap Prod.snd))

def desiredFeedback (c : Option AutopilotController) : Except Error Rows := do
  let records ← ((c.map (·.feedback)).getD []).mapM fun record => do
    let sequence ← tryI64 record.sequence
    let fields ← encodeFeedback record
    .ok ([sequence], fields)
  .ok (OrderedMap.ofList records)

def sameRow (old new : AutopilotController) : Bool :=
  old.config = new.config ∧ old.state = new.state ∧ old.blockingReason = new.blockingReason ∧
    old.revision = new.revision ∧ old.nextOrderId = new.nextOrderId ∧
    old.nextFeedbackSequence = new.nextFeedbackSequence

def sameOrders (old new : AutopilotController) : Bool := old.active = new.active ∧ old.queue = new.queue

def sameFeedback (old new : AutopilotController) : Bool := old.feedback = new.feedback

-- Whether both versions are there and have something in common.
def bothSame (same : AutopilotController → AutopilotController → Bool)
    (previous controller : Option AutopilotController) : Bool :=
  match previous, controller with
  | some old, some new => same old new
  | _, _ => false

-- The tables during a save, and whether anything has been written.
abbrev AutopilotWriting := AutopilotTables × Bool

def syncControllerRow (id : ObjectId) (w : AutopilotWriting) (desired : Rows) :
    Except Error AutopilotWriting := do
  let (controllers, changed) ← syncRows w.1.controllersSchema w.1.controllers [id] CONTROLLER_COLUMNS desired
  .ok ({ w.1 with controllers := controllers }, w.2 || changed)

def syncOrders (id : ObjectId) (controller : Option AutopilotController) (w : AutopilotWriting) :
    Except Error AutopilotWriting := do
  let (orderRows, waypointRows) ← desiredOrders controller
  let (orders, ordersChanged) ← syncRows w.1.ordersSchema w.1.orders [id] ORDER_COLUMNS orderRows
  let (waypoints, waypointsChanged) ←
    syncRows w.1.waypointsSchema w.1.waypoints [id] WAYPOINT_COLUMNS waypointRows
  .ok ({ w.1 with orders := orders, waypoints := waypoints }, w.2 || ordersChanged || waypointsChanged)

def syncFeedback (id : ObjectId) (controller : Option AutopilotController) (w : AutopilotWriting) :
    Except Error AutopilotWriting := do
  let desired ← desiredFeedback controller
  let (feedback, changed) ← syncRows w.1.feedbackSchema w.1.feedback [id] FEEDBACK_COLUMNS desired
  .ok ({ w.1 with feedback := feedback }, w.2 || changed)

def writeController (id : ObjectId) (previous controller : Option AutopilotController)
    (w : AutopilotWriting) : Except Error AutopilotWriting :=
  match controller with
  | some c =>
      if bothSame sameRow previous controller then .ok w
      else do
        let fields ← encodeController c
        syncControllerRow id w (OrderedMap.ofList [([], fields)])
  | none => .ok w

def writeOrders (id : ObjectId) (previous controller : Option AutopilotController)
    (w : AutopilotWriting) : Except Error AutopilotWriting :=
  if bothSame sameOrders previous controller then .ok w else syncOrders id controller w

def writeFeedback (id : ObjectId) (previous controller : Option AutopilotController)
    (w : AutopilotWriting) : Except Error AutopilotWriting :=
  if bothSame sameFeedback previous controller then .ok w else syncFeedback id controller w

def removeController (id : ObjectId) (controller : Option AutopilotController)
    (w : AutopilotWriting) : Except Error AutopilotWriting :=
  match controller with
  | some _ => .ok w
  | none => syncControllerRow id w .empty

-- The controller row goes first so that its children never lack a parent, and goes last when removed.
def syncController (id : ObjectId) (previous controller : Option AutopilotController)
    (w : AutopilotWriting) : Except Error AutopilotWriting := do
  let w ← writeController id previous controller w
  let w ← writeOrders id previous controller w
  let w ← writeFeedback id previous controller w
  removeController id controller w

abbrev Controllers := OrderedMap ObjectId AutopilotController

-- Sightings are not stored.
def sameSavedState (c other : AutopilotController) : Bool :=
  c.config = other.config ∧ c.state = other.state ∧ c.blockingReason = other.blockingReason ∧
    c.revision = other.revision ∧ c.nextOrderId = other.nextOrderId ∧ c.active = other.active ∧
    c.queue = other.queue ∧ c.feedback = other.feedback ∧
    c.nextFeedbackSequence = other.nextFeedbackSequence

def saveController (before after : Controllers) (sharing : Sharing before after) (w : AutopilotWriting)
    (entry : ObjectId × AutopilotController) : Except Error AutopilotWriting :=
  let previous := before.get? entry.1
  if sharing.shares entry.1 ∨ previous.any (fun old => sameSavedState old entry.2) then .ok w
  else syncController entry.1 previous (some entry.2) w

def dropController (after : Controllers) (w : AutopilotWriting)
    (entry : ObjectId × AutopilotController) : Except Error AutopilotWriting :=
  if (after.get? entry.1).isSome then .ok w else syncController entry.1 (some entry.2) none w

def saveControllers (before after : Controllers) (sharing : Sharing before after)
    (t : AutopilotTables) : Except Error AutopilotWriting :=
  if before.entries = [] ∧ after.entries = [] then .ok (t, false)
  else do
    let w ← after.entries.foldlM (saveController before after sharing) (t, false)
    before.entries.foldlM (dropController after) w

def ordered (key : List Int × Row → List Int) (t : KeyedTable) : List (List Int × Row) :=
  t.rows.insertionSort (fun a b => key a ≤ key b)

def primary (row : List Int × Row) : List Int := row.1

-- The order of a queue: the active order has no position and comes first.
def queueOrder (row : List Int × Row) : List Int :=
  row.1.take 1 ++ (match row.2 "queue_position" with
    | .Integer position => [position]
    | _ => [])

def noColumn : Error := ["no such column"]

def loadWaypoint (row : List Int × Row) : Except Error ((Int × Int) × Position) :=
  match row.1 with
  | [unit, order, _] => (decodeWaypoint row.2).map (fun point => ((unit, order), point))
  | _ => .error noColumn

structure LoadedOrders where
  active : OrderedMap Int AutopilotOrderRecord
  queues : List (Int × AutopilotOrderRecord)
  read : List (Int × Int)

def loadOrder (waypoints : List ((Int × Int) × Position)) (loaded : LoadedOrders)
    (row : List Int × Row) : Except Error LoadedOrders :=
  match row.1 with
  | [unit, order] => do
      let record ← withContext ("decoding autopilot order " ++ toString order ++ " for #" ++ toString unit)
        (decodeOrder row.2 order (collected waypoints (unit, order)))
      let read := loaded.read ++ [(unit, order)]
      match ← getNullable row.2 "queue_position" with
      | some _ => .ok ⟨loaded.active, loaded.queues ++ [(unit, record)], read⟩
      | none => do
          ensure (loaded.active.get? unit).isNone
            ("Autopilot controller #" ++ toString unit ++ " has more than one active order")
          .ok ⟨loaded.active.insert unit record, loaded.queues, read⟩
  | _ => .error noColumn

def loadFeedback (row : List Int × Row) : Except Error (Int × AutopilotFeedback) :=
  match row.1 with
  | [unit, sequence] => (decodeFeedback row.2 sequence).map (fun record => (unit, record))
  | _ => .error noColumn

def loadController (orders : LoadedOrders) (feedback : List (Int × AutopilotFeedback))
    (row : List Int × Row) : Except Error (ObjectId × AutopilotController) :=
  match row.1 with
  | [unit] => do
      let controller ← decodeController row.2 (orders.active.get? unit) (collected orders.queues unit)
        (collected feedback unit)
      withContext ("validating autopilot controller for #" ++ toString unit) controller.validate
      .ok (unit, controller)
  | _ => .error noColumn

def loadControllers (t : AutopilotTables) : Except Error Controllers := do
  let waypoints ← (ordered primary t.waypoints).mapM loadWaypoint
  let orders ← (ordered queueOrder t.orders).foldlM (loadOrder waypoints) ⟨.empty, [], []⟩
  ensure (waypoints.all (fun point => point.1 ∈ orders.read))
    "Autopilot waypoints reference a missing order"
  let feedback ← (ordered primary t.feedback).mapM loadFeedback
  let controllers ← (ordered primary t.controllers).mapM (loadController orders feedback)
  let units := controllers.map Prod.fst
  ensure (orders.active.keys.all (· ∈ units) ∧ orders.queues.all (·.1 ∈ units) ∧
      feedback.all (·.1 ∈ units))
    "Autopilot orders or feedback reference a missing controller"
  .ok (OrderedMap.ofList controllers)

end StompyMux.Persistence
