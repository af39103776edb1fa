import StompyMux.Persistence.AutopilotLoad
import StompyMux.Persistence.AutopilotWrite

namespace StompyMux.Persistence

open Library Library.Fallible
open StompyMux.Autopilot
open StompyMux.World (ObjectId)

section Loading

variable (after : Controllers) (t : AutopilotTables) (h : AutopilotImage after.get? t)
  (hv : ∀ unit c, after.get? unit = some c → c.Valid)
  (hs : ∀ unit c, after.get? unit = some c → Storable c)

def queuedRecord (record : AutopilotOrderRecord × Option Nat) : Option AutopilotOrderRecord :=
  record.2.map (fun _ => record.1)

variable (orders : LoadedOrders) (unit : ObjectId) (c : AutopilotController)

theorem queuedRecords : (orderRecords c).filterMap queuedRecord = c.queue := by
  unfold orderRecords
  rw [List.filterMap_append, List.filterMap_map, List.filterMap_map]
  have hactive : c.active.toList.filterMap (queuedRecord ∘ fun record => (record, none)) = [] := by
    refine List.filterMap_eq_nil_iff.mpr fun record _ => rfl
  have hqueue : c.queue.zipIdx.filterMap (queuedRecord ∘ fun record => (record.1, some record.2)) =
      c.queue.zipIdx.map Prod.fst := by
    rw [← List.filterMap_eq_map]
    rfl
  rw [hactive, hqueue, List.zipIdx_map_fst, List.nil_append]

theorem mem_active (record : AutopilotOrderRecord) :
    (record, none) ∈ orderRecords c ↔ c.active = some record := by
  unfold orderRecords
  rw [List.mem_append, List.mem_map, List.mem_map]
  refine ⟨fun hmem => ?_, fun hactive => ?_⟩
  · rcases hmem with ⟨other, hmem, heq⟩ | ⟨queued, -, heq⟩
    · rw [← (Prod.mk.inj heq).1]
      exact Option.mem_toList.mp hmem
    · exact absurd (Prod.mk.inj heq).2 (by simp)
  · exact Or.inl ⟨record, Option.mem_toList.mpr hactive, rfl⟩

include h hv

theorem loadWaypoints_ok :
    (ordered primary t.waypoints).mapM loadWaypoint = .ok (grouped (patrols after)) := by
  rw [ordered_waypoints after t h hv, List.mapM_map,
    mapM_ok (loadWaypoint ∘ fun item => storedRow t.waypoints (pointKey item))
      (fun item => (item.1, item.2.1))]
  · have hmap := map_grouped ((patrols after).map (fun patrol => (patrol.1, patrol.2.zipIdx)))
      (Prod.fst : Position × Nat → Position)
    rw [List.map_map] at hmap
    refine congrArg Except.ok (hmap.trans (congrArg grouped ?_))
    refine (List.map_congr_left fun patrol _ => ?_).trans (List.map_id _)
    show (patrol.1, patrol.2.zipIdx.map Prod.fst) = patrol
    rw [List.zipIdx_map_fst]
  · intro item hitem
    obtain ⟨row, -, hstored, hholds⟩ := point_row after t h hv hitem
    show loadWaypoint (storedRow t.waypoints (pointKey item)) = _
    rw [hstored]
    show (decodeWaypoint row).map _ = _
    rw [decodeWaypoint_ok row _ hholds]
    rfl

omit h in
theorem collected_patrols {record : AutopilotOrderRecord × Option Nat}
    (hmem : (unit, record) ∈ orderItems after) :
    collected (grouped (patrols after)) (unit, (record.1.id : Int)) = orderPoints record.1.order := by
  obtain ⟨c, hget, hrecord⟩ := (mem_groups after orderRecords unit record).mp hmem
  refine collected_grouped _ (List.pairwise_map.mpr ?_) ?_
  · refine (patrols_increasing after hv).imp fun {a b} hlt heq => ?_
    rw [heq] at hlt
    exact lt_irrefl _ hlt
  · exact (mem_patrols after _ _ _).mpr ⟨c, hget, record, hrecord, rfl, rfl⟩

structure OrdersRead (done : List (ObjectId × (AutopilotOrderRecord × Option Nat)))
    (loaded : LoadedOrders) : Prop where
  active : ∀ unit record, loaded.active.get? unit = some record ↔ (unit, (record, none)) ∈ done
  queues : loaded.queues =
    done.filterMap (fun item => (queuedRecord item.2).map (fun record => (item.1, record)))
  read : loaded.read = done.map (fun item => (item.1, (item.2.1.id : Int)))

include hs

-- The orders come back in queue order, so that each joins the end of its controller's queue.
theorem loadOrder_ok {done : List (ObjectId × (AutopilotOrderRecord × Option Nat))}
    {item : ObjectId × (AutopilotOrderRecord × Option Nat)}
    {rest : List (ObjectId × (AutopilotOrderRecord × Option Nat))}
    (hitems : orderItems after = done ++ item :: rest) {loaded : LoadedOrders}
    (hread : OrdersRead done loaded) :
    ∃ loaded', loadOrder (grouped (patrols after)) loaded (storedRow t.orders (orderKey item)) =
        .ok loaded' ∧ OrdersRead (done ++ [item]) loaded' := by
  obtain ⟨unit, record, position⟩ := item
  have hmem : (unit, (record, position)) ∈ orderItems after := by
    rw [hitems]
    exact List.mem_append_right _ List.mem_cons_self
  obtain ⟨c, hget, hrecord⟩ := (mem_groups after orderRecords unit (record, position)).mp hmem
  obtain ⟨row, -, hstored, hholds⟩ := order_row after t h hv hmem
  have hid : record.id ≤ I64_MAX :=
    Nat.le_trans (Nat.le_of_lt (order_valid c (hv unit c hget) hrecord).2.1)
      (hs unit c hget).nextOrderId
  have hdecoded := decodeOrder_ok row record position hid hholds
  rw [← collected_patrols after hv unit hmem] at hdecoded
  have hposition := getNullable_ok row "queue_position" (value_of_holds _ _ _ _ hholds rfl)
  rw [hstored]
  cases position with
  | some p =>
      refine ⟨⟨loaded.active, loaded.queues ++ [(unit, record)],
        loaded.read ++ [(unit, (record.id : Int))]⟩, ?_, fun other active => ?_, ?_, ?_⟩
      · exact bind_ok (withContext_ok hdecoded) (bind_ok hposition rfl)
      · rw [hread.active, List.mem_append, List.mem_singleton]
        simp
      · rw [hread.queues, List.filterMap_append]
        rfl
      · rw [hread.read, List.map_append]
        rfl
  | none =>
      -- Another active order of the unit would have the same rank.
      have hnone : loaded.active.get? unit = none := by
        cases hactive : loaded.active.get? unit with
        | none => rfl
        | some other =>
            have hdone := (hread.active unit other).mp hactive
            have hsorted := pairwise_groups after orderRecords _
              (fun entry _ => orderRecords_increasing entry.2)
            unfold orderItems at hitems
            rw [hitems, List.pairwise_append] at hsorted
            exact absurd (hsorted.2.2 _ hdone _ List.mem_cons_self) (lt_irrefl _)
      refine ⟨⟨loaded.active.insert unit record, loaded.queues,
        loaded.read ++ [(unit, (record.id : Int))]⟩, ?_, fun other active => ?_, ?_, ?_⟩
      · refine bind_ok (withContext_ok hdecoded) (bind_ok hposition ?_)
        refine bind_ok (ensure_ok ?_) rfl
        rw [hnone]
        rfl
      · show (loaded.active.insert unit record).get? other = _ ↔ _
        rw [OrderedMap.get?_insert, List.mem_append, List.mem_singleton, ← hread.active]
        by_cases hother : other = unit
        · subst hother
          rw [if_pos rfl, hnone]
          simp [eq_comm]
        · simp [hother]
      · rw [List.filterMap_append, ← hread.queues]
        exact (List.append_nil _).symm
      · rw [hread.read, List.map_append]
        rfl

theorem loadOrders_ok : ∃ orders,
    (ordered queueOrder t.orders).foldlM (loadOrder (grouped (patrols after))) ⟨.empty, [], []⟩ =
      .ok orders ∧ OrdersRead (orderItems after) orders := by
  rw [ordered_orders after t h hv, List.foldlM_map]
  refine foldlM_succeeds OrdersRead _ (orderItems after)
    (fun done item rest loaded hitems hread => loadOrder_ok after t h hv hs hitems hread)
    ⟨.empty, [], []⟩ ⟨fun unit record => ?_, rfl, rfl⟩
  exact ⟨fun hactive => absurd hactive (by simp [OrderedMap.get?, OrderedMap.empty]),
    fun hmem => absurd hmem List.not_mem_nil⟩

theorem loadFeedback_ok :
    (ordered primary t.feedback).mapM loadFeedback = .ok (feedbackItems after) := by
  rw [ordered_feedback after t h hv, List.mapM_map,
    mapM_ok (loadFeedback ∘ fun item => storedRow t.feedback (feedbackKey item)) id]
  · rw [List.map_id]
  · rintro ⟨unit, record⟩ hmem
    obtain ⟨c, hget, hrecord⟩ := (mem_groups after (·.feedback) unit record).mp hmem
    obtain ⟨row, -, hstored, hholds⟩ := feedback_row after t h hv hmem
    have hsequence : record.sequence ≤ I64_MAX :=
      Nat.le_trans (Nat.le_of_lt (feedback_sequence c (hv unit c hget) hrecord).2)
        (hs unit c hget).nextFeedbackSequence
    have hdecoded := decodeFeedback_ok row hsequence
      ((hs unit c hget).feedback record hrecord) hholds
    rw [Function.comp_apply, hstored, loadFeedback]
    simp only [feedbackKey, hdecoded]
    rfl

omit h hv hs in
theorem collected_part {A : Type} (part : AutopilotController → List A) {unit : ObjectId}
    {c : AutopilotController} (hget : after.get? unit = some c) :
    collected (grouped (after.entries.map (fun entry => (entry.1, part entry.2)))) unit = part c := by
  refine collected_grouped _ ?_ ?_
  · rw [groups_keys]
    exact after.keys_nodup
  · exact List.mem_map.mpr ⟨(unit, c), (after.get?_eq_some_iff unit c).mp hget, rfl⟩

omit h hv hs in
theorem queues_of_read (hread : OrdersRead (orderItems after) orders) :
    orders.queues = grouped (after.entries.map (fun entry => (entry.1, entry.2.queue))) := by
  rw [hread.queues, orderItems, filterMap_grouped, List.map_map]
  refine congrArg grouped (List.map_congr_left fun entry _ => ?_)
  show (entry.1, (orderRecords entry.2).filterMap queuedRecord) = _
  rw [queuedRecords]

omit h hv hs in
theorem active_of_read (hread : OrdersRead (orderItems after) orders)
    {unit : ObjectId} {c : AutopilotController} (hget : after.get? unit = some c) :
    orders.active.get? unit = c.active := by
  ext record
  rw [hread.active, orderItems, mem_groups, ← mem_active]
  refine ⟨fun ⟨d, hd, hmem⟩ => ?_, fun hmem => ⟨c, hget, hmem⟩⟩
  rw [hget] at hd
  exact (Option.some.inj hd) ▸ hmem

omit h hs in
theorem validate_withoutSightings
    (hget : after.get? unit = some c) : (withoutSightings c).validate = .ok () := by
  have hvalid := hv unit c hget
  refine (AutopilotController.validate_ok_iff _).mpr { hvalid with sightings := ?_ }
  exact fun sighting hmem => absurd hmem List.not_mem_nil

theorem loadEntries_ok (hread : OrdersRead (orderItems after) orders) :
    (ordered primary t.controllers).mapM (loadController orders (feedbackItems after)) =
      .ok (after.entries.map (fun entry => (entry.1, withoutSightings entry.2))) := by
  rw [ordered_controllers after t h, List.mapM_map]
  refine mapM_ok _ _ _ ?_
  rintro ⟨unit, c⟩ hentry
  have hget := (after.get?_eq_some_iff unit c).mpr hentry
  obtain ⟨row, -, hstored, hholds⟩ := controller_row after t h hget
  have hdecoded := decodeController_ok row c (hs unit c hget) hholds
  rw [← active_of_read after orders hread hget,
    ← collected_part after (·.queue) hget, ← queues_of_read after orders hread,
    ← collected_part after (·.feedback) hget] at hdecoded
  show loadController orders (feedbackItems after) (storedRow t.controllers [unit]) = _
  rw [hstored]
  refine bind_ok hdecoded ?_
  refine bind_ok (a := ()) (withContext_ok ?_) rfl
  exact validate_withoutSightings after hv unit c hget

-- The queues and the feedback are read first, and each controller takes its own.
theorem loadControllers_ok : ∃ loaded, loadControllers t = .ok loaded ∧
    ∀ unit, loaded.get? unit = (after.get? unit).map withoutSightings := by
  obtain ⟨orders, horders, hread⟩ := loadOrders_ok after t h hv hs
  have hentries := loadEntries_ok after t h hv hs orders hread
  have hkeys : ∀ unit c, after.get? unit = some c → unit ∈ (after.entries.map
      (fun entry => (entry.1, withoutSightings entry.2))).map Prod.fst := by
    intro unit c hget
    rw [List.map_map]
    exact List.mem_map.mpr ⟨(unit, c), (after.get?_eq_some_iff unit c).mp hget, rfl⟩
  have hwaypoints : (grouped (patrols after)).all (fun point => point.1 ∈ orders.read) = true := by
    refine List.all_eq_true.mpr ?_
    rintro ⟨⟨unit, order⟩, point⟩ hmem
    obtain ⟨points, hpatrol, -⟩ := (mem_grouped _ _ _).mp hmem
    obtain ⟨c, hget, record, hrecord, rfl, -⟩ := (mem_patrols after _ _ _).mp hpatrol
    refine decide_eq_true ?_
    rw [hread.read]
    exact List.mem_map.mpr ⟨(unit, record), (mem_groups after orderRecords unit record).mpr
      ⟨c, hget, hrecord⟩, rfl⟩
  have hactive : ∀ unit ∈ orders.active.keys, unit ∈ (after.entries.map
      (fun entry => (entry.1, withoutSightings entry.2))).map Prod.fst := by
    intro unit hkey
    obtain ⟨record, hrecord⟩ := Option.isSome_iff_exists.mp ((orders.active.mem_keys_iff unit).mp hkey)
    obtain ⟨c, hget, -⟩ :=
      (mem_groups after orderRecords unit (record, none)).mp ((hread.active unit record).mp hrecord)
    exact hkeys unit c hget
  have hqueues : ∀ queued ∈ orders.queues, queued.1 ∈ (after.entries.map
      (fun entry => (entry.1, withoutSightings entry.2))).map Prod.fst := by
    rintro ⟨unit, record⟩ hmem
    rw [queues_of_read after orders hread] at hmem
    obtain ⟨c, hget, -⟩ := (mem_groups after (·.queue) unit record).mp hmem
    exact hkeys unit c hget
  have hfeedback : ∀ record ∈ feedbackItems after, record.1 ∈ (after.entries.map
      (fun entry => (entry.1, withoutSightings entry.2))).map Prod.fst := by
    rintro ⟨unit, record⟩ hmem
    obtain ⟨c, hget, -⟩ := (mem_groups after (·.feedback) unit record).mp hmem
    exact hkeys unit c hget
  refine ⟨OrderedMap.ofList (after.entries.map (fun entry => (entry.1, withoutSightings entry.2))),
    ?_, fun unit => ?_⟩
  · refine bind_ok (loadWaypoints_ok after t h hv) ?_
    refine bind_ok horders ?_
    refine bind_ok (ensure_ok hwaypoints) ?_
    refine bind_ok (loadFeedback_ok after t h hv hs) ?_
    refine bind_ok hentries ?_
    refine bind_ok (ensure_ok ?_) rfl
    simp only [List.all_eq_true, decide_eq_true_eq]
    exact ⟨hactive, hqueues, hfeedback⟩
  · ext c
    have hnodup : ((after.entries.map
        (fun entry => (entry.1, withoutSightings entry.2))).map Prod.fst).Nodup := by
      rw [List.map_map]
      exact after.keys_nodup
    rw [OrderedMap.get?_ofList hnodup, List.mem_map, Option.map_eq_some_iff]
    refine ⟨fun ⟨⟨other, d⟩, hentry, heq⟩ => ?_, fun ⟨d, hget, heq⟩ => ?_⟩
    · obtain ⟨rfl, rfl⟩ := Prod.mk.inj heq
      exact ⟨d, (after.get?_eq_some_iff _ d).mpr hentry, rfl⟩
    · exact ⟨(unit, d), (after.get?_eq_some_iff unit d).mp hget, heq ▸ rfl⟩

end Loading

-- Sightings are not stored, so loading forgets them and nothing else.
theorem save_then_load (before after : Controllers) (sharing : Sharing before after)
    (t : AutopilotTables) (himage : AutopilotImage before.get? t)
    (hvalid : ∀ unit c, after.get? unit = some c → c.validate = .ok ())
    (hcounters : ∀ unit c, after.get? unit = some c → Storable c) :
    ∃ w loaded, saveControllers before after sharing t = .ok w ∧ AutopilotImage after.get? w.1 ∧
      loadControllers w.1 = .ok loaded ∧
      ∀ unit, loaded.get? unit = (after.get? unit).map withoutSightings := by
  have hv : ∀ unit c, after.get? unit = some c → c.Valid := fun unit c hget =>
    c.validate_ok_iff.mp (hvalid unit c hget)
  obtain ⟨w, hsaved, hafter⟩ := saveControllers_ok before after sharing t himage fun entry hentry =>
    have hget := (after.get?_eq_some_iff entry.1 entry.2).mpr hentry
    ⟨hv _ _ hget, hcounters _ _ hget⟩
  obtain ⟨loaded, hloaded, hsame⟩ := loadControllers_ok after w.1 hafter hv hcounters
  exact ⟨w, loaded, hsaved, hafter, hloaded, hsame⟩

def AutopilotTables.empty : AutopilotTables := ⟨.empty, .empty, .empty, .empty, fun _ _ => .Null⟩

theorem emptyTables_image : AutopilotImage (OrderedMap.empty : Controllers).get? .empty := by
  have hempty : ∀ rowsOf : AutopilotController → Rows,
      TableImage rowsOf (OrderedMap.empty : Controllers).get? .empty := by
    intro rowsOf key
    cases key with
    | nil => trivial
    | cons unit rest => trivial
  exact ⟨hempty _, hempty _, hempty _, hempty _⟩

def patrolling : AutopilotController :=
  { AutopilotController.new with
    state := .Executing
    revision := 3
    nextOrderId := 3
    active := some ⟨2, .Patrol [⟨7, 1, 2⟩, ⟨7, 3, 4⟩], .Running, ⟨1, 0, 5, none, none⟩⟩
    queue := [⟨1, .Attack 9 (some ⟨2, 6⟩), .Queued, ⟨0, 0, 0, none, none⟩⟩]
    feedback := [⟨1, 40, some 2, .OrderStarted, none⟩]
    nextFeedbackSequence := 2 }

-- The patrol is over, and the attack that was queued goes on.
def attacking : AutopilotController :=
  { patrolling with
    revision := 4
    active := some ⟨1, .Attack 9 (some ⟨2, 6⟩), .Running, ⟨0, 3, 0, none, none⟩⟩
    queue := []
    feedback := [⟨2, 60, some 2, .OrderSucceeded, none⟩]
    nextFeedbackSequence := 3 }

def roster (c : AutopilotController) : Controllers := OrderedMap.empty.insert 5 c

theorem get?_roster {c d : AutopilotController} {unit : ObjectId} (h : (roster c).get? unit = some d) :
    unit = 5 ∧ d = c := by
  unfold roster at h
  rw [OrderedMap.get?_insert] at h
  split at h
  case isTrue heq => exact ⟨heq, (Option.some.inj h).symm⟩
  case isFalse => contradiction

theorem save_then_load_patrolling :
    ∃ w w' loaded, saveControllers .empty (roster patrolling) (.none _ _) .empty = .ok w ∧
      saveControllers (roster patrolling) (roster attacking) (.none _ _) w.1 = .ok w' ∧
      AutopilotImage (roster attacking).get? w'.1 ∧ loadControllers w'.1 = .ok loaded ∧
      ∀ unit, loaded.get? unit = ((roster attacking).get? unit).map withoutSightings := by
  obtain ⟨w, -, hfirst, himage, -, -⟩ := save_then_load .empty (roster patrolling) (.none _ _) .empty
    emptyTables_image (fun unit c hget => (get?_roster hget).2 ▸ rfl)
    (fun unit c hget => (get?_roster hget).2 ▸ ⟨by decide, by decide, by decide, by decide⟩)
  obtain ⟨w', loaded, hsecond, hafter, hloaded, hsame⟩ :=
    save_then_load (roster patrolling) (roster attacking) (.none _ _) w.1 himage
      (fun unit c hget => (get?_roster hget).2 ▸ rfl)
      (fun unit c hget => (get?_roster hget).2 ▸ ⟨by decide, by decide, by decide, by decide⟩)
  exact ⟨w, w', loaded, hfirst, hsecond, hafter, hloaded, hsame⟩

-- A counter that a signed integer cannot hold is valid, and refused when it is saved.
def revised : AutopilotController := { AutopilotController.new with revision := 2 ^ 63 }

theorem save_refuses_counter :
    revised.validate = .ok () ∧ AutopilotImage (OrderedMap.empty : Controllers).get? .empty ∧
      saveControllers .empty (OrderedMap.empty.insert 5 revised) (.none _ _) .empty =
        .error ["Autopilot counter exceeds storage range",
          "out of range integral type conversion attempted"] :=
  ⟨rfl, emptyTables_image, rfl⟩

end StompyMux.Persistence
