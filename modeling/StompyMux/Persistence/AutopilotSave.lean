import StompyMux.Persistence.AutopilotChecks

namespace StompyMux.Persistence

open Library Library.Fallible
open StompyMux.Autopilot
open StompyMux.World (ObjectId)

section Images

variable (c : AutopilotController)

def controllerImage : Rows := OrderedMap.ofList [([], controllerFields c)]

def orderImage : Rows :=
  OrderedMap.ofList ((orderRecords c).map (fun record => ([(record.1.id : Int)], encodeOrder record.1 record.2)))

def waypointImage : Rows :=
  OrderedMap.ofList ((orderRecords c).flatMap (fun record => waypointEntries record.1.id record.1))

def feedbackImage : Rows :=
  OrderedMap.ofList (c.feedback.map (fun record => ([(record.sequence : Int)], feedbackFields record)))

theorem records_of_orderRecords : (orderRecords c).map Prod.fst = c.orders := by
  unfold orderRecords AutopilotController.orders
  rw [List.map_append, List.map_map, List.map_map]
  congr 1
  · exact List.map_id _
  · exact List.zipIdx_map_fst ..

variable (hv : c.Valid)

include hv

theorem order_position (record : AutopilotOrderRecord × Option Nat) (h : record ∈ orderRecords c) :
    ∀ p ∈ record.2, p ≤ 63 := by
  intro p hp
  have hcount := hv.count
  rcases List.mem_append.mp h with h | h
  · obtain ⟨active, -, rfl⟩ := List.mem_map.mp h
    contradiction
  · obtain ⟨⟨queued, i⟩, hmem, rfl⟩ := List.mem_map.mp h
    have hlt := (List.getElem?_eq_some_iff.mp (List.mem_zipIdx_iff_getElem?.mp hmem)).1
    have hi : i = p := Option.some.inj hp
    unfold AutopilotController.orderCount MAX_QUEUED_ORDERS at hcount
    omega

theorem order_valid {record : AutopilotOrderRecord × Option Nat} (h : record ∈ orderRecords c) :
    0 < record.1.id ∧ record.1.id < c.nextOrderId ∧ record.1.order.validate = .ok () := by
  have hmem : record.1 ∈ c.orders := by
    rw [← records_of_orderRecords]
    exact List.mem_map.mpr ⟨record, h, rfl⟩
  have hbelow := hv.below record.1 hmem
  rcases List.mem_append.mp hmem with hmem | hmem
  · have hvalid := (AutopilotOrderRecord.validate_ok_iff _ _).mp (hv.active _ hmem)
    exact ⟨hvalid.1, hbelow, hvalid.2.1⟩
  · have hvalid := (AutopilotOrderRecord.validate_ok_iff _ _).mp (hv.queued _ hmem)
    exact ⟨hvalid.1, hbelow, hvalid.2.1⟩

theorem feedback_sequence {record : AutopilotFeedback} (h : record ∈ c.feedback) :
    0 < record.sequence ∧ record.sequence < c.nextFeedbackSequence := by
  have hsorted := hv.sequences
  rw [List.pairwise_cons, List.pairwise_append] at hsorted
  have hmem : record.sequence ∈ c.feedback.map AutopilotFeedback.sequence :=
    List.mem_map.mpr ⟨record, h, rfl⟩
  exact ⟨hsorted.1 _ (List.mem_append_left _ hmem),
    hsorted.2.2.2 _ hmem _ (List.mem_singleton.mpr rfl)⟩

theorem orderIds_nodup : ((orderRecords c).map (fun record => (record.1.id : Int))).Nodup := by
  have hids := hv.ids
  rw [← records_of_orderRecords, List.map_map] at hids
  have hcast : ((orderRecords c).map (fun record => (record.1.id : Int))) =
      ((orderRecords c).map ((·.id) ∘ Prod.fst)).map Int.ofNat := by
    rw [List.map_map]
    rfl
  rw [hcast]
  exact hids.map Int.ofNat_injective

theorem sequences_nodup : (c.feedback.map (fun record => (record.sequence : Int))).Nodup := by
  have hsorted := (List.pairwise_append.mp (List.pairwise_cons.mp hv.sequences).2).1
  have hnodup : (c.feedback.map AutopilotFeedback.sequence).Nodup := hsorted.imp Nat.ne_of_lt
  have hcast : c.feedback.map (fun record => (record.sequence : Int)) =
      (c.feedback.map AutopilotFeedback.sequence).map Int.ofNat := by
    rw [List.map_map]
    rfl
  rw [hcast]
  exact hnodup.map Int.ofNat_injective

omit hv in
theorem get?_controllerImage (rest : List Int) (fields : Fields) :
    (controllerImage c).get? rest = some fields ↔ rest = [] ∧ fields = controllerFields c := by
  rw [controllerImage, OrderedMap.get?_ofList (by simp), List.mem_singleton, Prod.mk.injEq]

theorem get?_orderImage (rest : List Int) (fields : Fields) :
    (orderImage c).get? rest = some fields ↔
      ∃ record ∈ orderRecords c, rest = [(record.1.id : Int)] ∧
        fields = encodeOrder record.1 record.2 := by
  have hnodup : (((orderRecords c).map (fun record =>
      ([(record.1.id : Int)], encodeOrder record.1 record.2))).map Prod.fst).Nodup := by
    have hmap : (((orderRecords c).map (fun record =>
        ([(record.1.id : Int)], encodeOrder record.1 record.2))).map Prod.fst) =
        ((orderRecords c).map (fun record => (record.1.id : Int))).map (fun id => [id]) := by
      rw [List.map_map, List.map_map]
      rfl
    rw [hmap]
    exact (orderIds_nodup c hv).map (fun a b h => List.head_eq_of_cons_eq h)
  rw [orderImage, OrderedMap.get?_ofList hnodup, List.mem_map]
  simp only [Prod.mk.injEq, @eq_comm _ rest, @eq_comm _ fields]

theorem get?_feedbackImage (rest : List Int) (fields : Fields) :
    (feedbackImage c).get? rest = some fields ↔
      ∃ record ∈ c.feedback, rest = [(record.sequence : Int)] ∧ fields = feedbackFields record := by
  have hnodup : ((c.feedback.map (fun record =>
      ([(record.sequence : Int)], feedbackFields record))).map Prod.fst).Nodup := by
    have hmap : ((c.feedback.map (fun record =>
        ([(record.sequence : Int)], feedbackFields record))).map Prod.fst) =
        (c.feedback.map (fun record => (record.sequence : Int))).map (fun id => [id]) := by
      rw [List.map_map, List.map_map]
      rfl
    rw [hmap]
    exact (sequences_nodup c hv).map (fun a b h => List.head_eq_of_cons_eq h)
  rw [feedbackImage, OrderedMap.get?_ofList hnodup, List.mem_map]
  simp only [Prod.mk.injEq, @eq_comm _ rest, @eq_comm _ fields]

omit hv in
theorem mem_waypointEntries (order : Int) (record : AutopilotOrderRecord) (entry : List Int × Fields) :
    entry ∈ waypointEntries order record ↔ ∃ (i : Nat) (point : Position),
      (orderPoints record.order)[i]? = some point ∧ entry = ([order, (i : Int)], encodeWaypoint point) := by
  unfold waypointEntries
  rw [List.mem_map]
  refine ⟨fun ⟨⟨point, i⟩, hmem, heq⟩ => ?_, fun ⟨i, point, hget, heq⟩ => ?_⟩
  · exact ⟨i, point, List.mem_zipIdx_iff_getElem?.mp hmem, heq.symm⟩
  · exact ⟨(point, i), List.mem_zipIdx_iff_getElem?.mpr hget, heq.symm⟩

-- The key of a waypoint is its order and its place on the way.
theorem get?_waypointImage (rest : List Int) (fields : Fields) :
    (waypointImage c).get? rest = some fields ↔
      ∃ record ∈ orderRecords c, ∃ (i : Nat) (point : Position),
        (orderPoints record.1.order)[i]? = some point ∧
          rest = [(record.1.id : Int), (i : Int)] ∧ fields = encodeWaypoint point := by
  have hnodup : (((orderRecords c).flatMap (fun record =>
      waypointEntries record.1.id record.1)).map Prod.fst).Nodup := by
    rw [List.map_flatMap]
    refine List.nodup_flatMap.mpr ⟨fun record _ => ?_, ?_⟩
    · have hmap : (waypointEntries (record.1.id : Int) record.1).map Prod.fst =
          ((orderPoints record.1.order).zipIdx.map Prod.snd).map
            (fun (i : Nat) => [(record.1.id : Int), (i : Int)]) := by
        unfold waypointEntries
        rw [List.map_map, List.map_map]
        rfl
      rw [hmap, List.zipIdx_map_snd]
      refine List.Nodup.map (fun i j h => ?_) List.nodup_range'
      injection h with _ h
      injection h with h
      exact Int.ofNat_inj.mp h
    · have hpairs := List.pairwise_map.mp (orderIds_nodup c hv)
      refine hpairs.imp fun {a b} hne => ?_
      intro key ha hb
      obtain ⟨entry, hentry, rfl⟩ := List.mem_map.mp ha
      obtain ⟨other, hother, heq⟩ := List.mem_map.mp hb
      obtain ⟨i, point, -, rfl⟩ := (mem_waypointEntries _ _ _).mp hentry
      obtain ⟨j, point', -, rfl⟩ := (mem_waypointEntries _ _ _).mp hother
      exact hne (List.head_eq_of_cons_eq heq).symm
  rw [waypointImage, OrderedMap.get?_ofList hnodup, List.mem_flatMap]
  simp only [mem_waypointEntries, Prod.mk.injEq]

end Images

section Tables

variable (rowsOf : AutopilotController → Rows) (current : ObjectId → Option AutopilotController)

-- What a table holds of some controllers, by primary key.
def imageAt : List Int → Option Fields
  | unit :: rest => (current unit).bind (fun c => (rowsOf c).get? rest)
  | [] => none

theorem imageAt_cons (unit : Int) (rest : List Int) :
    imageAt rowsOf current (unit :: rest) = (current unit).bind (fun c => (rowsOf c).get? rest) := rfl

def TableImage (t : KeyedTable) : Prop := ∀ key, Stores (imageAt rowsOf current key) (t.get? key)

variable (t : KeyedTable) (h : TableImage rowsOf current t) (id : ObjectId)
  (controller : Option AutopilotController)

include h

-- Skipped rows hold what they should.
theorem tableImage_same (hsame : (current id).map rowsOf = controller.map rowsOf) :
    TableImage rowsOf (Function.update current id controller) t := by
  intro key
  have hkey : imageAt rowsOf (Function.update current id controller) key = imageAt rowsOf current key := by
    cases key with
    | nil => rfl
    | cons unit rest =>
        rw [imageAt_cons, imageAt_cons]
        by_cases hunit : unit = id
        · subst hunit
          rw [Function.update_self]
          have hbind := congrArg (fun rows => rows.bind (fun r : Rows => r.get? rest)) hsame
          rw [Option.bind_map, Option.bind_map] at hbind
          exact hbind.symm
        · rw [Function.update_of_ne hunit]
  rw [hkey]
  exact h key

-- A table scoped by the unit changes in the rows of that unit alone.
theorem tableImage_sync (schema : Schema (List Int)) (columns : List String) {desired : Rows}
    (hdesired : desired = (controller.map rowsOf).getD .empty)
    (hnodup : ∀ entry ∈ desired.entries, (entry.2.map Prod.fst).Nodup)
    (hcheck : ∀ entry ∈ desired.entries, ∀ base, schema.check (id :: entry.1) (assign entry.2 base)) :
    ∃ w, syncRows schema t [id] columns desired = .ok w ∧
      TableImage rowsOf (Function.update current id controller) w.1 := by
  obtain ⟨w, hw, hget⟩ := syncRows_ok schema t [id] columns desired hnodup
    (fun entry hentry => hcheck entry hentry _)
  refine ⟨w, hw, fun key => ?_⟩
  rw [hget]
  cases key with
  | nil => exact h []
  | cons unit rest =>
      rw [imageAt_cons]
      unfold synced
      by_cases hunit : unit = id
      · subst hunit
        have hprefix : [unit] <+: unit :: rest := ⟨rest, rfl⟩
        rw [if_pos hprefix, Function.update_self, hdesired]
        show Stores _ ((((controller.map rowsOf).getD .empty).get? rest).map _)
        cases controller with
        | none => exact trivial
        | some c =>
            rw [Option.map_some, Option.getD_some, Option.bind_some]
            cases (rowsOf c).get? rest with
            | none => trivial
            | some fields => exact holds_assign fields _
      · have hprefix : ¬ [id] <+: unit :: rest := by
          rintro ⟨tail, heq⟩
          exact hunit (List.head_eq_of_cons_eq heq).symm
        rw [if_neg hprefix, Function.update_of_ne hunit]
        exact h (unit :: rest)

end Tables

structure AutopilotImage (current : ObjectId → Option AutopilotController) (t : AutopilotTables) :
    Prop where
  controllers : TableImage controllerImage current t.controllers
  orders : TableImage orderImage current t.orders
  waypoints : TableImage waypointImage current t.waypoints
  feedback : TableImage feedbackImage current t.feedback

section Controller

variable (c : AutopilotController) (hv : c.Valid) (hs : Storable c)

theorem controllerImage_congr {d : AutopilotController} (h : sameRow c d) :
    controllerImage c = controllerImage d := by
  obtain ⟨hconfig, hstate, hreason, hrevision, horder, hfeedback⟩ := of_decide_eq_true h
  unfold controllerImage controllerFields
  rw [hconfig, hstate, hreason, hrevision, horder, hfeedback]

theorem orderRecords_congr {d : AutopilotController} (h : sameOrders c d) :
    orderRecords c = orderRecords d := by
  obtain ⟨hactive, hqueue⟩ := of_decide_eq_true h
  unfold orderRecords
  rw [hactive, hqueue]

theorem feedbackImage_congr {d : AutopilotController} (h : sameFeedback c d) :
    feedbackImage c = feedbackImage d := by
  unfold feedbackImage
  rw [of_decide_eq_true h]

include hv hs

theorem desiredOrders_ok : desiredOrders (some c) = .ok (orderImage c, waypointImage c) := by
  have hrecords : (orderRecords c).mapM (fun record => do
        let order ← tryI64 record.1.id
        .ok (([order], encodeOrder record.1 record.2), waypointEntries order record.1)) =
      .ok ((orderRecords c).map (fun record =>
        (([(record.1.id : Int)], encodeOrder record.1 record.2),
          waypointEntries record.1.id record.1))) := by
    refine mapM_ok _ _ _ fun record hrecord => ?_
    have hbelow := (order_valid c hv hrecord).2.1
    exact bind_ok (tryI64_ok (Nat.le_trans (Nat.le_of_lt hbelow) hs.nextOrderId)) rfl
  refine bind_ok hrecords ?_
  rw [List.map_map, List.flatMap_map]
  rfl

theorem desiredFeedback_ok : desiredFeedback (some c) = .ok (feedbackImage c) := by
  have hrecords : c.feedback.mapM (fun record => do
        let sequence ← tryI64 record.sequence
        let fields ← encodeFeedback record
        .ok ([sequence], fields)) =
      .ok (c.feedback.map (fun record => ([(record.sequence : Int)], feedbackFields record))) := by
    refine mapM_ok _ _ _ fun record hrecord => ?_
    have hbelow := (feedback_sequence c hv hrecord).2
    refine bind_ok
      (tryI64_ok (Nat.le_trans (Nat.le_of_lt hbelow) hs.nextFeedbackSequence)) ?_
    exact bind_ok (encodeFeedback_ok record (hs.feedback record hrecord)) rfl
  exact bind_ok hrecords rfl

omit hv hs in
theorem entry_of_image {rows : Rows} {entry : List Int × Fields} (h : entry ∈ rows.entries) :
    rows.get? entry.1 = some entry.2 := (rows.get?_eq_some_iff _ _).mpr h

omit hs in
theorem controllerEntries_ok (id : ObjectId) {entry : List Int × Fields}
    (h : entry ∈ (controllerImage c).entries) :
    (entry.2.map Prod.fst).Nodup ∧ ∀ base, controllersCheck (id :: entry.1) (assign entry.2 base) := by
  obtain ⟨hrest, hfields⟩ := (get?_controllerImage c _ _).mp (entry_of_image h)
  rw [hrest, hfields]
  refine ⟨?_, controllersCheck_ok c hv id⟩
  show CONTROLLER_COLUMNS.Nodup
  decide

omit hs in
theorem orderEntries_ok (id : ObjectId) {entry : List Int × Fields}
    (h : entry ∈ (orderImage c).entries) :
    (entry.2.map Prod.fst).Nodup ∧ ∀ base, ordersCheck (id :: entry.1) (assign entry.2 base) := by
  obtain ⟨record, hrecord, hrest, hfields⟩ := (get?_orderImage c hv _ _).mp (entry_of_image h)
  obtain ⟨hid, -, hvalid⟩ := order_valid c hv hrecord
  rw [hrest, hfields]
  refine ⟨?_, ordersCheck_ok record.1.order hvalid rfl hid record.2
    (order_position c hv record hrecord) id⟩
  show ORDER_COLUMNS.Nodup
  decide

omit hs in
theorem waypointEntries_ok (id : ObjectId) {entry : List Int × Fields}
    (h : entry ∈ (waypointImage c).entries) :
    (entry.2.map Prod.fst).Nodup ∧ ∀ base, waypointsCheck (id :: entry.1) (assign entry.2 base) := by
  obtain ⟨record, hrecord, i, point, hpoint, hrest, hfields⟩ :=
    (get?_waypointImage c hv _ _).mp (entry_of_image h)
  obtain ⟨-, -, hvalid⟩ := order_valid c hv hrecord
  rw [hrest, hfields]
  have hpatrol : 0 ≤ point.map ∧ i ≤ 63 := by
    cases horder : record.1.order with
    | Patrol waypoints =>
        rw [horder] at hvalid hpoint
        obtain ⟨hcount, hvalid⟩ := ok_of_ensure hvalid
        obtain ⟨⟨⟩, hall, -⟩ := ok_of_bind hvalid
        have hcount := (of_decide_eq_true hcount).2
        have hlt := (List.getElem?_eq_some_iff.mp hpoint).1
        have hmap := (ensure_ok_iff).mp (ok_of_forM hall point (List.mem_of_getElem? hpoint))
        refine ⟨of_decide_eq_true hmap, ?_⟩
        have hlt : i < waypoints.length := hlt
        unfold MAX_PATROL_WAYPOINTS at hcount
        omega
    | _ =>
        rw [horder] at hpoint
        contradiction
  refine ⟨?_, waypointsCheck_ok hpatrol.1 id record.1.id hpatrol.2⟩
  show WAYPOINT_COLUMNS.Nodup
  decide

omit hs in
theorem feedbackEntries_ok (id : ObjectId) {entry : List Int × Fields}
    (h : entry ∈ (feedbackImage c).entries) :
    (entry.2.map Prod.fst).Nodup ∧ ∀ base, feedbackCheck (id :: entry.1) (assign entry.2 base) := by
  obtain ⟨record, hrecord, hrest, hfields⟩ := (get?_feedbackImage c hv _ _).mp (entry_of_image h)
  rw [hrest, hfields]
  refine ⟨?_, feedbackCheck_ok (feedback_sequence c hv hrecord).1 id⟩
  show FEEDBACK_COLUMNS.Nodup
  decide

end Controller

end StompyMux.Persistence
