import StompyMux.Persistence.AutopilotSave

namespace StompyMux.Persistence

open Library Library.Fallible
open StompyMux.Autopilot
open StompyMux.World (ObjectId)

section Ordered

variable {A : Type} (t : KeyedTable)

def storedRow (key : List Int) : List Int × Row := (key, (t.get? key).getD (fun _ => .Null))

-- Rows come in the order of what they were written from.
theorem ordered_eq (order : List Int × Row → List Int) {items : List A} (key rank : A → List Int)
    (hrows : ∀ k row, t.get? k = some row → ∃ a ∈ items, key a = k)
    (hstored : ∀ a ∈ items, ∃ row, t.get? (key a) = some row)
    (hrank : ∀ a ∈ items, order (storedRow t (key a)) = rank a)
    (hsorted : items.Pairwise (fun a b => rank a < rank b)) :
    ordered order t = items.map (fun a => storedRow t (key a)) := by
  have hstrict : (items.map (fun a => storedRow t (key a))).Pairwise
      (fun x y => order x < order y) := by
    refine List.pairwise_map.mpr (List.Pairwise.imp_of_mem (fun {a b} ha hb hlt => ?_) hsorted)
    rw [hrank a ha, hrank b hb]
    exact hlt
  have hnodup : (items.map (fun a => storedRow t (key a))).Nodup :=
    hstrict.imp (fun {x y} hlt heq => absurd (congrArg order heq) (ne_of_lt hlt))
  have hmem : ∀ x, x ∈ t.rows ↔ x ∈ items.map (fun a => storedRow t (key a)) := by
    rintro ⟨k, row⟩
    rw [← t.get?_eq_some_iff, List.mem_map]
    refine ⟨fun hget => ?_, fun ⟨a, ha, heq⟩ => ?_⟩
    · obtain ⟨a, ha, rfl⟩ := hrows k row hget
      refine ⟨a, ha, ?_⟩
      rw [storedRow, hget]
      rfl
    · obtain ⟨row', hget⟩ := hstored a ha
      rw [storedRow, hget] at heq
      injection heq with hk hrow
      rw [← hk, hget, ← hrow]
      rfl
  have hperm : (ordered order t).Perm (items.map (fun a => storedRow t (key a))) :=
    (List.perm_insertionSort _ _).trans
      ((List.perm_ext_iff_of_nodup (List.Nodup.of_map _ t.unique) hnodup).mpr hmem)
  have horders : ((items.map (fun a => storedRow t (key a))).map order).Nodup :=
    List.pairwise_map.mpr (hstrict.imp ne_of_lt)
  refine hperm.eq_of_pairwise (fun x y hx hy hxy hyx => ?_) (List.pairwise_insertionSort _ _)
    (hstrict.imp le_of_lt)
  exact List.inj_on_of_nodup_map horders (hperm.subset hx) hy (le_antisymm hxy hyx)

theorem storedRow_of_image {image : Option Fields} {key : List Int} (h : Stores image (t.get? key))
    {fields : Fields} (hfields : image = some fields) :
    t.get? key = some (storedRow t key).2 ∧ Holds fields (storedRow t key).2 := by
  rw [hfields] at h
  unfold storedRow
  cases hget : t.get? key with
  | none =>
      rw [hget] at h
      contradiction
  | some row =>
      rw [hget] at h
      exact ⟨rfl, h⟩

end Ordered

section Expected

variable (after : Controllers)

def orderItems : List (ObjectId × (AutopilotOrderRecord × Option Nat)) :=
  grouped (after.entries.map (fun entry => (entry.1, orderRecords entry.2)))

def orderKey (item : ObjectId × (AutopilotOrderRecord × Option Nat)) : List Int :=
  [item.1, (item.2.1.id : Int)]

def orderRank (item : ObjectId × (AutopilotOrderRecord × Option Nat)) : List Int :=
  item.1 :: item.2.2.toList.map Int.ofNat

-- Waypoints are read by order id, not by the place of the order in the queue.
def recordsById (c : AutopilotController) : List (AutopilotOrderRecord × Option Nat) :=
  (orderRecords c).insertionSort (fun a b => a.1.id ≤ b.1.id)

def patrolOf (item : ObjectId × (AutopilotOrderRecord × Option Nat)) :
    (Int × Int) × List Position := ((item.1, (item.2.1.id : Int)), orderPoints item.2.1.order)

def patrols : List ((Int × Int) × List Position) :=
  (grouped (after.entries.map (fun entry => (entry.1, recordsById entry.2)))).map patrolOf

def pointItems : List ((Int × Int) × (Position × Nat)) :=
  grouped ((patrols after).map (fun patrol => (patrol.1, patrol.2.zipIdx)))

def pointKey (item : (Int × Int) × (Position × Nat)) : List Int :=
  [item.1.1, item.1.2, (item.2.2 : Int)]

def feedbackItems : List (ObjectId × AutopilotFeedback) :=
  grouped (after.entries.map (fun entry => (entry.1, entry.2.feedback)))

def feedbackKey (item : ObjectId × AutopilotFeedback) : List Int :=
  [item.1, (item.2.sequence : Int)]

def controllerKey (item : ObjectId × AutopilotController) : List Int := [item.1]

theorem mem_groups {A : Type} (part : AutopilotController → List A) (unit : ObjectId) (a : A) :
    (unit, a) ∈ grouped (after.entries.map (fun entry => (entry.1, part entry.2))) ↔
      ∃ c, after.get? unit = some c ∧ a ∈ part c := by
  rw [mem_grouped]
  refine ⟨fun ⟨items, hgroup, ha⟩ => ?_, fun ⟨c, hget, ha⟩ => ?_⟩
  · obtain ⟨⟨other, c⟩, hentry, heq⟩ := List.mem_map.mp hgroup
    injection heq with hunit hitems
    subst hunit hitems
    exact ⟨c, (after.get?_eq_some_iff other c).mpr hentry, ha⟩
  · exact ⟨part c, List.mem_map.mpr ⟨(unit, c), (after.get?_eq_some_iff unit c).mp hget, rfl⟩, ha⟩

theorem groups_keys {A : Type} (part : AutopilotController → List A) :
    (after.entries.map (fun entry => (entry.1, part entry.2))).map Prod.fst = after.keys := by
  rw [List.map_map]
  rfl

theorem pairwise_groups {A : Type} (part : AutopilotController → List A)
    (rest : A → List Int) (hwithin : ∀ entry ∈ after.entries,
      (part entry.2).Pairwise (fun a b => rest a < rest b)) :
    (grouped (after.entries.map (fun entry => (entry.1, part entry.2)))).Pairwise
      (fun x y => x.1 :: rest x.2 < y.1 :: rest y.2) := by
  refine pairwise_grouped _ _ (fun group hgroup => ?_) ?_
  · obtain ⟨entry, hentry, rfl⟩ := List.mem_map.mp hgroup
    exact (hwithin entry hentry).imp fun h => List.cons_lt_cons_iff.mpr (Or.inr ⟨rfl, h⟩)
  · refine List.pairwise_map.mpr (after.sorted.imp fun {x y} hlt a b => ?_)
    exact List.cons_lt_cons_iff.mpr (Or.inl hlt)

theorem zipIdx_increasing {A : Type} (items : List A) :
    items.zipIdx.Pairwise (fun a b => a.2 < b.2) := by
  refine List.pairwise_map.mp ?_
  rw [List.zipIdx_map_snd]
  exact List.pairwise_lt_range'

theorem orderRecords_increasing (c : AutopilotController) :
    (orderRecords c).Pairwise
      (fun a b => a.2.toList.map Int.ofNat < b.2.toList.map Int.ofNat) := by
  unfold orderRecords
  refine List.pairwise_append.mpr ⟨?_, ?_, fun a ha b hb => ?_⟩
  · cases c.active with
    | none => exact List.Pairwise.nil
    | some record => exact List.pairwise_singleton _ _
  · refine List.pairwise_map.mpr ((zipIdx_increasing c.queue).imp fun {a b} hlt => ?_)
    exact List.cons_lt_cons_iff.mpr (Or.inl (Int.ofNat_lt.mpr hlt))
  · obtain ⟨record, -, rfl⟩ := List.mem_map.mp ha
    obtain ⟨record, -, rfl⟩ := List.mem_map.mp hb
    exact List.nil_lt_cons _ _

theorem mem_recordsById (c : AutopilotController) (record : AutopilotOrderRecord × Option Nat) :
    record ∈ recordsById c ↔ record ∈ orderRecords c := List.mem_insertionSort _

theorem recordsById_increasing (c : AutopilotController) (hv : c.Valid) :
    (recordsById c).Pairwise (fun a b => a.1.id < b.1.id) := by
  have hids := hv.ids
  rw [← records_of_orderRecords, List.map_map] at hids
  have hperm := (List.perm_insertionSort (fun a b => a.1.id ≤ b.1.id) (orderRecords c)).map
    ((·.id) ∘ Prod.fst)
  have hnodup := List.pairwise_map.mp (hperm.nodup_iff.mpr hids)
  refine ((List.pairwise_insertionSort (fun a b => a.1.id ≤ b.1.id) (orderRecords c)).and
    hnodup).imp fun {a b} h => ?_
  exact Nat.lt_of_le_of_ne h.1 h.2

theorem image_of_row {rowsOf : AutopilotController → Rows} {t : KeyedTable}
    (h : TableImage rowsOf after.get? t) {key : List Int} {row : Row} (hrow : t.get? key = some row) :
    ∃ unit rest c fields, key = unit :: rest ∧ after.get? unit = some c ∧
      (rowsOf c).get? rest = some fields := by
  have hstores := h key
  rw [hrow] at hstores
  cases key with
  | nil => contradiction
  | cons unit rest =>
      cases himage : imageAt rowsOf after.get? (unit :: rest) with
      | none =>
          rw [himage] at hstores
          contradiction
      | some fields =>
          obtain ⟨c, hget, hfields⟩ := Option.bind_eq_some_iff.mp himage
          exact ⟨unit, rest, c, fields, rfl, hget, hfields⟩

theorem row_of_image {rowsOf : AutopilotController → Rows} {t : KeyedTable}
    (h : TableImage rowsOf after.get? t) {unit : ObjectId} {c : AutopilotController}
    (hget : after.get? unit = some c) {rest : List Int} {fields : Fields}
    (hfields : (rowsOf c).get? rest = some fields) :
    t.get? (unit :: rest) = some (storedRow t (unit :: rest)).2 ∧
      Holds fields (storedRow t (unit :: rest)).2 := by
  refine storedRow_of_image t (h (unit :: rest)) ?_
  rw [imageAt_cons, hget]
  exact hfields

variable (t : AutopilotTables) (h : AutopilotImage after.get? t)
  (hv : ∀ unit c, after.get? unit = some c → c.Valid)

include h hv

theorem order_row {unit : ObjectId} {record : AutopilotOrderRecord × Option Nat}
    (hmem : (unit, record) ∈ orderItems after) :
    ∃ row, t.orders.get? (orderKey (unit, record)) = some row ∧
      storedRow t.orders (orderKey (unit, record)) = (orderKey (unit, record), row) ∧
      Holds (encodeOrder record.1 record.2) row := by
  obtain ⟨c, hget, hrecord⟩ := (mem_groups after orderRecords unit record).mp hmem
  obtain ⟨hrow, hholds⟩ := row_of_image after h.orders hget
    ((get?_orderImage c (hv unit c hget) _ _).mpr ⟨record, hrecord, rfl, rfl⟩)
  exact ⟨_, hrow, rfl, hholds⟩

theorem ordered_orders :
    ordered queueOrder t.orders =
      (orderItems after).map (fun item => storedRow t.orders (orderKey item)) := by
  refine ordered_eq t.orders queueOrder orderKey orderRank ?_ ?_ ?_ ?_
  · intro key row hrow
    obtain ⟨unit, rest, c, fields, rfl, hget, hfields⟩ :=
      image_of_row after h.orders hrow
    obtain ⟨record, hrecord, rfl, -⟩ := (get?_orderImage c (hv unit c hget) _ _).mp hfields
    exact ⟨(unit, record), (mem_groups after orderRecords unit record).mpr ⟨c, hget, hrecord⟩, rfl⟩
  · rintro ⟨unit, record⟩ hmem
    obtain ⟨row, hrow, -⟩ := order_row after t h hv hmem
    exact ⟨row, hrow⟩
  · rintro ⟨unit, record⟩ hmem
    obtain ⟨row, -, hstored, hholds⟩ := order_row after t h hv hmem
    have hposition := value_of_holds _ _ "queue_position" _ hholds rfl
    rw [hstored, queueOrder, orderRank]
    simp only [hposition]
    cases record.2 <;> rfl
  · exact pairwise_groups after orderRecords _ (fun entry _ => orderRecords_increasing entry.2)

theorem feedback_row {unit : ObjectId} {record : AutopilotFeedback}
    (hmem : (unit, record) ∈ feedbackItems after) :
    ∃ row, t.feedback.get? (feedbackKey (unit, record)) = some row ∧
      storedRow t.feedback (feedbackKey (unit, record)) = (feedbackKey (unit, record), row) ∧
      Holds (feedbackFields record) row := by
  obtain ⟨c, hget, hrecord⟩ := (mem_groups after (·.feedback) unit record).mp hmem
  obtain ⟨hrow, hholds⟩ := row_of_image after h.feedback hget
    ((get?_feedbackImage c (hv unit c hget) _ _).mpr ⟨record, hrecord, rfl, rfl⟩)
  exact ⟨_, hrow, rfl, hholds⟩

theorem ordered_feedback :
    ordered primary t.feedback =
      (feedbackItems after).map (fun item => storedRow t.feedback (feedbackKey item)) := by
  refine ordered_eq t.feedback primary feedbackKey feedbackKey ?_ ?_ ?_ ?_
  · intro key row hrow
    obtain ⟨unit, rest, c, fields, rfl, hget, hfields⟩ :=
      image_of_row after h.feedback hrow
    obtain ⟨record, hrecord, rfl, -⟩ := (get?_feedbackImage c (hv unit c hget) _ _).mp hfields
    exact ⟨(unit, record), (mem_groups after (·.feedback) unit record).mpr ⟨c, hget, hrecord⟩, rfl⟩
  · rintro ⟨unit, record⟩ hmem
    obtain ⟨row, hrow, -⟩ := feedback_row after t h hv hmem
    exact ⟨row, hrow⟩
  · exact fun item _ => rfl
  · refine pairwise_groups after (·.feedback) (fun record => [(record.sequence : Int)]) ?_
    rintro ⟨unit, c⟩ hentry
    have hsequences := (hv unit c ((after.get?_eq_some_iff unit c).mpr hentry)).sequences
    have hsorted := (List.pairwise_append.mp (List.pairwise_cons.mp hsequences).2).1
    refine (List.pairwise_map.mp hsorted).imp fun {a b} hlt => ?_
    exact List.cons_lt_cons_iff.mpr (Or.inl (Int.ofNat_lt.mpr hlt))

omit hv in
theorem controller_row {unit : ObjectId} {c : AutopilotController}
    (hget : after.get? unit = some c) :
    ∃ row, t.controllers.get? [unit] = some row ∧
      storedRow t.controllers [unit] = ([unit], row) ∧ Holds (controllerFields c) row := by
  obtain ⟨hrow, hholds⟩ := row_of_image after h.controllers
    hget ((get?_controllerImage c _ _).mpr ⟨rfl, rfl⟩)
  exact ⟨_, hrow, rfl, hholds⟩

omit hv in
theorem ordered_controllers :
    ordered primary t.controllers =
      after.entries.map (fun item => storedRow t.controllers (controllerKey item)) := by
  refine ordered_eq t.controllers primary controllerKey controllerKey ?_ ?_ ?_ ?_
  · intro key row hrow
    obtain ⟨unit, rest, c, fields, rfl, hget, hfields⟩ :=
      image_of_row after h.controllers hrow
    obtain ⟨rfl, -⟩ := (get?_controllerImage c _ _).mp hfields
    exact ⟨(unit, c), (after.get?_eq_some_iff unit c).mp hget, rfl⟩
  · rintro ⟨unit, c⟩ hentry
    obtain ⟨row, hrow, -⟩ :=
      controller_row after t h ((after.get?_eq_some_iff unit c).mpr hentry)
    exact ⟨row, hrow⟩
  · exact fun item _ => rfl
  · exact after.sorted.imp fun {a b} hlt => List.cons_lt_cons_iff.mpr (Or.inl hlt)

omit h hv in
theorem mem_patrols (unit order : Int) (points : List Position) :
    ((unit, order), points) ∈ patrols after ↔ ∃ c, after.get? unit = some c ∧
      ∃ record ∈ orderRecords c, order = record.1.id ∧ points = orderPoints record.1.order := by
  unfold patrols
  rw [List.mem_map]
  refine ⟨fun ⟨⟨other, record⟩, hmem, heq⟩ => ?_, fun ⟨c, hget, record, hrecord, horder, hpoints⟩ => ?_⟩
  · obtain ⟨c, hget, hrecord⟩ := (mem_groups after recordsById other record).mp hmem
    injection heq with hkey hpoints
    injection hkey with hunit horder
    subst hunit
    exact ⟨c, hget, record, (mem_recordsById c record).mp hrecord, horder.symm, hpoints.symm⟩
  · refine ⟨(unit, record), (mem_groups after recordsById unit record).mpr
      ⟨c, hget, (mem_recordsById c record).mpr hrecord⟩, ?_⟩
    rw [patrolOf, horder, hpoints]

omit h in
theorem patrols_increasing :
    (patrols after).Pairwise (fun a b => [a.1.1, a.1.2] < [b.1.1, b.1.2]) := by
  refine List.pairwise_map.mpr ?_
  refine pairwise_groups after recordsById (fun record => [(record.1.id : Int)]) ?_
  rintro ⟨unit, c⟩ hentry
  have hvalid := hv unit c ((after.get?_eq_some_iff unit c).mpr hentry)
  refine (recordsById_increasing c hvalid).imp fun {a b} hlt => ?_
  exact List.cons_lt_cons_iff.mpr (Or.inl (Int.ofNat_lt.mpr hlt))

omit h hv in
theorem mem_pointItems (unit order : Int) (point : Position) (i : Nat) :
    ((unit, order), (point, i)) ∈ pointItems after ↔ ∃ c, after.get? unit = some c ∧
      ∃ record ∈ orderRecords c, order = record.1.id ∧
        (orderPoints record.1.order)[i]? = some point := by
  unfold pointItems
  rw [mem_grouped]
  refine ⟨fun ⟨items, hgroup, hmem⟩ => ?_, fun ⟨c, hget, record, hrecord, horder, hpoint⟩ => ?_⟩
  · obtain ⟨⟨⟨other, id⟩, points⟩, hpatrol, heq⟩ := List.mem_map.mp hgroup
    injection heq with hkey hitems
    injection hkey with hunit hid
    subst hunit hid hitems
    obtain ⟨c, hget, record, hrecord, horder, rfl⟩ := (mem_patrols after _ _ _).mp hpatrol
    exact ⟨c, hget, record, hrecord, horder, List.mem_zipIdx_iff_getElem?.mp hmem⟩
  · refine ⟨(orderPoints record.1.order).zipIdx, List.mem_map.mpr
      ⟨((unit, order), orderPoints record.1.order), ?_, rfl⟩,
      List.mem_zipIdx_iff_getElem?.mpr hpoint⟩
    exact (mem_patrols after _ _ _).mpr ⟨c, hget, record, hrecord, horder, rfl⟩

theorem point_row {item : (Int × Int) × (Position × Nat)} (hmem : item ∈ pointItems after) :
    ∃ row, t.waypoints.get? (pointKey item) = some row ∧
      storedRow t.waypoints (pointKey item) = (pointKey item, row) ∧
      Holds (encodeWaypoint item.2.1) row := by
  obtain ⟨⟨unit, order⟩, point, i⟩ := item
  obtain ⟨c, hget, record, hrecord, rfl, hpoint⟩ := (mem_pointItems after _ _ _ _).mp hmem
  obtain ⟨hrow, hholds⟩ := row_of_image after h.waypoints hget
    ((get?_waypointImage c (hv unit c hget) _ _).mpr ⟨record, hrecord, i, point, hpoint, rfl, rfl⟩)
  exact ⟨_, hrow, rfl, hholds⟩

theorem ordered_waypoints :
    ordered primary t.waypoints =
      (pointItems after).map (fun item => storedRow t.waypoints (pointKey item)) := by
  refine ordered_eq t.waypoints primary pointKey pointKey ?_ ?_ ?_ ?_
  · intro key row hrow
    obtain ⟨unit, rest, c, fields, rfl, hget, hfields⟩ :=
      image_of_row after h.waypoints hrow
    obtain ⟨record, hrecord, i, point, hpoint, rfl, -⟩ :=
      (get?_waypointImage c (hv unit c hget) _ _).mp hfields
    refine ⟨((unit, (record.1.id : Int)), (point, i)), ?_, rfl⟩
    exact (mem_pointItems after _ _ _ _).mpr ⟨c, hget, record, hrecord, rfl, hpoint⟩
  · intro item hmem
    obtain ⟨row, hrow, -⟩ := point_row after t h hv hmem
    exact ⟨row, hrow⟩
  · exact fun item _ => rfl
  · refine pairwise_grouped _ _ (fun group hgroup => ?_) (List.pairwise_map.mpr ?_)
    · obtain ⟨patrol, -, rfl⟩ := List.mem_map.mp hgroup
      refine (zipIdx_increasing patrol.2).imp fun {a b} hlt => ?_
      refine List.cons_lt_cons_iff.mpr (Or.inr ⟨rfl, List.cons_lt_cons_iff.mpr (Or.inr ⟨rfl, ?_⟩)⟩)
      exact List.cons_lt_cons_iff.mpr (Or.inl (Int.ofNat_lt.mpr hlt))
    · refine (patrols_increasing after hv).imp fun {g k} hlt a b => ?_
      -- The order of the keys before the position already decides.
      rcases List.cons_lt_cons_iff.mp hlt with hunit | ⟨hunit, hlt⟩
      · exact List.cons_lt_cons_iff.mpr (Or.inl hunit)
      · refine List.cons_lt_cons_iff.mpr (Or.inr ⟨hunit, ?_⟩)
        rcases List.cons_lt_cons_iff.mp hlt with horder | ⟨-, hlt⟩
        · exact List.cons_lt_cons_iff.mpr (Or.inl horder)
        · exact absurd hlt (List.not_lt_nil _)

end Expected

end StompyMux.Persistence
