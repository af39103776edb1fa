import StompyMux.Persistence.Autopilot

namespace StompyMux.Persistence

open Library Library.Fallible
open StompyMux.Autopilot
open StompyMux.World (ObjectId)

section Getters

variable (stored : Row) (column : String)

theorem getInteger_ok {value : Int} (h : stored column = .Integer value) :
    getInteger stored column = .ok value := by
  rw [getInteger, h]

theorem getNullable_ok {value : Option Int} (h : stored column = optional value) :
    getNullable stored column = .ok value := by
  rw [getNullable, h]
  cases value <;> rfl

theorem narrow_ok {T : Type} {size : Nat} (ofNat : Nat → T) {value : Nat} (h : value < size) :
    narrow size ofNat column (value : Int) = .ok (ofNat value) := by
  refine bind_ok (ensure_ok (decide_eq_true ⟨Int.natCast_nonneg _, ?_⟩)) rfl
  exact Int.ofNat_lt.mpr h

theorem getU8_ok {value : UInt8} (h : stored column = .Integer value.toNat) :
    getU8 stored column = .ok value := by
  have hnarrow := narrow_ok column UInt8.ofNat value.toNat_lt_size
  rw [UInt8.ofNat_toNat] at hnarrow
  exact bind_ok (getInteger_ok stored column h) hnarrow

theorem narrow_u16 (value : UInt16) :
    narrow UInt16.size UInt16.ofNat column (value.toNat : Int) = .ok value := by
  have hnarrow := narrow_ok column UInt16.ofNat value.toNat_lt_size
  rwa [UInt16.ofNat_toNat] at hnarrow

theorem getU16_ok {value : UInt16} (h : stored column = .Integer value.toNat) :
    getU16 stored column = .ok value :=
  bind_ok (getInteger_ok stored column h) (narrow_u16 column value)

theorem lt_u64 {value : Nat} (h : value ≤ I64_MAX) : value < U64_SIZE :=
  Nat.lt_of_le_of_lt h (by decide)

theorem getU64_ok {value : Nat} (hvalue : value ≤ I64_MAX) (h : stored column = .Integer value) :
    getU64 stored column = .ok value :=
  bind_ok (getInteger_ok stored column h)
    (narrow_ok column id (lt_u64 hvalue))

theorem getOptionalU16_ok (value : Option UInt16)
    (h : stored column = optional (value.map (·.toNat))) :
    getOptionalU16 stored column = .ok value := by
  refine bind_ok (getNullable_ok stored column h) ?_
  cases value with
  | none => rfl
  | some value =>
      show (narrow UInt16.size UInt16.ofNat column (value.toNat : Int)).map some = _
      rw [narrow_u16]
      rfl

theorem getOptionalU64_ok (value : Option Nat) (hvalue : ∀ n ∈ value, n ≤ I64_MAX)
    (h : stored column = optional (value.map Int.ofNat)) :
    getOptionalU64 stored column = .ok value := by
  refine bind_ok (getNullable_ok stored column h) ?_
  cases value with
  | none => rfl
  | some value =>
      show (narrow U64_SIZE id column (value : Int)).map some = _
      rw [narrow_ok column id (lt_u64 (hvalue value rfl))]
      rfl

theorem getReason_ok {reason : Option AutopilotReason}
    (h : stored column = optional (reason.map reasonCode)) :
    getReason stored column = .ok reason := by
  refine bind_ok (getNullable_ok stored column h) ?_
  cases reason with
  | none => rfl
  | some reason =>
      show (reasonFromCode (reasonCode reason)).map some = _
      rw [reasonFromCode_code]
      rfl

theorem getRange_ok {band : Option AutopilotRangeBand}
    (hmin : stored "range_minimum" = optional (band.map (·.minimum.toNat)))
    (hmax : stored "range_maximum" = optional (band.map (·.maximum.toNat))) :
    getRange stored = .ok band := by
  have hminimum := getOptionalU16_ok stored "range_minimum" (band.map (·.minimum))
    (by rw [hmin]; cases band <;> rfl)
  have hmaximum := getOptionalU16_ok stored "range_maximum" (band.map (·.maximum))
    (by rw [hmax]; cases band <;> rfl)
  refine bind_ok hminimum (bind_ok hmaximum ?_)
  cases band <;> rfl

theorem getPosition_ok (name : String) (position : Option Position)
    (hmap : stored (name ++ "_map") = optional (position.map (·.map)))
    (hx : stored (name ++ "_x") = optional (position.map (·.x.toNat)))
    (hy : stored (name ++ "_y") = optional (position.map (·.y.toNat))) :
    getPosition stored name = .ok position := by
  refine bind_ok (getNullable_ok stored _ hmap) ?_
  cases position with
  | none => rfl
  | some position =>
      exact bind_ok (getU16_ok stored _ hx)
        (bind_ok (getU16_ok stored _ hy) rfl)

end Getters

section Rows

variable (stored : Row)

theorem decodeWaypoint_ok (point : Position) (h : Holds (encodeWaypoint point) stored) :
    decodeWaypoint stored = .ok point := by
  have hmap := value_of_holds _ _ "map_dbref" _ h rfl
  have hx := value_of_holds _ _ "x" _ h rfl
  have hy := value_of_holds _ _ "y" _ h rfl
  exact bind_ok (getInteger_ok stored _ hmap)
    (bind_ok (getU16_ok stored _ hx) (bind_ok (getU16_ok stored _ hy) rfl))

theorem decodeFeedback_ok {record : AutopilotFeedback} (hsequence : record.sequence ≤ I64_MAX)
    (hid : ∀ id ∈ record.orderId, id ≤ I64_MAX) (h : Holds (feedbackFields record) stored) :
    decodeFeedback stored record.sequence = .ok record := by
  have htime := value_of_holds _ _ "simulation_time" _ h rfl
  have horder := value_of_holds _ _ "order_id" _ h rfl
  have hevent := value_of_holds _ _ "event" _ h rfl
  have hreason := value_of_holds _ _ "reason" _ h rfl
  refine bind_ok (narrow_ok _ id (lt_u64 hsequence)) ?_
  refine bind_ok (getInteger_ok stored _ htime) ?_
  refine bind_ok (getOptionalU64_ok stored _ _ hid horder) ?_
  refine bind_ok (getInteger_ok stored _ hevent) ?_
  refine bind_ok (eventFromCode_code _) ?_
  exact bind_ok (getReason_ok stored _ hreason) rfl

variable (record : AutopilotOrderRecord) (position : Option Nat)

-- One case for each kind of order: its columns alone are read.
theorem decodeKind_ok (h : Holds (encodeOrder record position) stored) :
    decodeKind stored (orderPoints record.order) record.order.kindCode = .ok record.order := by
  have hmap := value_of_holds _ _ "destination_map" _ h rfl
  have hx := value_of_holds _ _ "destination_x" _ h rfl
  have hy := value_of_holds _ _ "destination_y" _ h rfl
  have hradius := value_of_holds _ _ "arrival_radius" _ h rfl
  have htarget := value_of_holds _ _ "target_dbref" _ h rfl
  have hseparation := value_of_holds _ _ "separation" _ h rfl
  have hmin := value_of_holds _ _ "range_minimum" _ h rfl
  have hmax := value_of_holds _ _ "range_maximum" _ h rfl
  have hdestination := getPosition_ok stored "destination" (orderParts record.order).destination
    hmap hx hy
  have htarget := getNullable_ok stored "target_dbref" htarget
  cases horder : record.order with
  | Move destination radius =>
      rw [horder] at hdestination hradius
      have hradius := getOptionalU16_ok stored "arrival_radius" (some radius) hradius
      exact bind_ok (bind_ok hdestination rfl)
        (bind_ok (bind_ok hradius rfl) rfl)
  | Hold => rfl
  | Follow target separation =>
      rw [horder] at htarget hseparation
      have hseparation := getOptionalU16_ok stored "separation" (some separation) hseparation
      exact bind_ok (bind_ok htarget rfl)
        (bind_ok (bind_ok hseparation rfl) rfl)
  | Patrol waypoints => rfl
  | Attack target range =>
      rw [horder] at htarget hmin hmax
      exact bind_ok (bind_ok htarget rfl)
        (bind_ok (getRange_ok stored hmin hmax) rfl)
  | AttackMove destination radius =>
      rw [horder] at hdestination hradius
      have hradius := getOptionalU16_ok stored "arrival_radius" (some radius) hradius
      exact bind_ok (bind_ok hdestination rfl)
        (bind_ok (bind_ok hradius rfl) rfl)

theorem decodeProgress_ok
    (h : Holds (encodeOrder record position) stored) : decodeProgress stored = .ok record.progress := by
  have hwaypoint := value_of_holds _ _ "waypoint_index" _ h rfl
  have hrecovery := value_of_holds _ _ "recovery_attempts" _ h rfl
  have hstagnant := value_of_holds _ _ "stagnant_ticks" _ h rfl
  have horigin := getPosition_ok stored "origin" record.progress.attackMoveOrigin
    (value_of_holds _ _ "origin_map" _ h rfl) (value_of_holds _ _ "origin_x" _ h rfl)
    (value_of_holds _ _ "origin_y" _ h rfl)
  have hsuppressed := value_of_holds _ _ "suppressed_target" _ h rfl
  refine bind_ok (getU16_ok stored _ hwaypoint) ?_
  refine bind_ok (getU8_ok stored _ hrecovery) ?_
  refine bind_ok (getU16_ok stored _ hstagnant) ?_
  refine bind_ok horigin ?_
  exact bind_ok (getNullable_ok stored _ hsuppressed) rfl

theorem decodeOrder_ok
    (hid : record.id ≤ I64_MAX) (h : Holds (encodeOrder record position) stored) :
    decodeOrder stored record.id (orderPoints record.order) = .ok record := by
  have hkind := value_of_holds _ _ "kind" _ h rfl
  have hstate := value_of_holds _ _ "state" _ h rfl
  have hpatrol : (decide ((record.order.kindCode : Int) = 3 ∨
      (orderPoints record.order).isEmpty)) = true := by
    cases record.order <;> rfl
  refine bind_ok (getInteger_ok stored _ hkind) ?_
  refine bind_ok (ensure_ok hpatrol) ?_
  refine bind_ok (decodeKind_ok stored record position h) ?_
  refine bind_ok (narrow_ok _ id (lt_u64 hid)) ?_
  refine bind_ok (getInteger_ok stored _ hstate) ?_
  refine bind_ok (orderStateFromCode_code _) ?_
  exact bind_ok (decodeProgress_ok stored record position h) rfl

-- What is loaded of a controller.
def withoutSightings (c : AutopilotController) : AutopilotController := { c with sightings := .empty }

theorem decodeController_ok (c : AutopilotController) (hs : Storable c)
    (h : Holds (controllerFields c) stored) :
    decodeController stored c.active c.queue c.feedback = .ok (withoutSightings c) := by
  have hspeed := value_of_holds _ _ "speed_percent" _ h rfl
  have hfire := value_of_holds _ _ "fire_mode" _ h rfl
  have hheat := value_of_holds _ _ "heat_ceiling" _ h rfl
  have hmin := value_of_holds _ _ "range_minimum" _ h rfl
  have hmax := value_of_holds _ _ "range_maximum" _ h rfl
  have hstate := value_of_holds _ _ "state" _ h rfl
  have hreason := value_of_holds _ _ "blocking_reason" _ h rfl
  have hrevision := value_of_holds _ _ "revision" _ h rfl
  have horder := value_of_holds _ _ "next_order_id" _ h rfl
  have hfeedback := value_of_holds _ _ "next_feedback_sequence" _ h rfl
  refine bind_ok (getU8_ok stored _ hspeed) ?_
  refine bind_ok (getInteger_ok stored _ hfire) ?_
  refine bind_ok (fireModeFromCode_code _) ?_
  refine bind_ok (getU16_ok stored _ hheat) ?_
  refine bind_ok (getRange_ok stored hmin hmax) ?_
  refine bind_ok (getInteger_ok stored _ hstate) ?_
  refine bind_ok (stateFromCode_code _) ?_
  refine bind_ok (getReason_ok stored _ hreason) ?_
  refine bind_ok (getU64_ok stored _ hs.revision hrevision) ?_
  refine bind_ok (getU64_ok stored _ hs.nextOrderId horder) ?_
  exact bind_ok (getU64_ok stored _ hs.nextFeedbackSequence hfeedback) rfl

end Rows

end StompyMux.Persistence

namespace StompyMux.Persistence

open Library Library.Fallible
open StompyMux.Autopilot
open StompyMux.World (ObjectId)

theorem checks_cons {b : Bool} {rest : List Bool} (hb : b = true) (h : checks rest = true) :
    checks (b :: rest) = true := by
  rw [hb]
  exact h

section Cells

theorem within_integer (low high value : Int) (hl : low ≤ value) (hh : value ≤ high) :
    within low high (.Integer value) = true := decide_eq_true ⟨hl, hh⟩

theorem atLeast_integer (low value : Int) (h : low ≤ value) : atLeast low (.Integer value) = true :=
  decide_eq_true h

theorem within_optional (low high : Int) (value : Option Int)
    (h : ∀ v ∈ value, low ≤ v ∧ v ≤ high) : within low high (optional value) = true := by
  cases value with
  | none => rfl
  | some v => exact decide_eq_true (h v rfl)

theorem within_u16 {A : Type} (value : Option A) (f : A → UInt16) :
    within 0 65535 (optional (value.map (fun a => ((f a).toNat : Int)))) = true := by
  refine within_optional _ _ _ fun v hv => ?_
  obtain ⟨a, -, rfl⟩ := Option.mem_map.mp hv
  have := (f a).toNat_lt
  omega

theorem atLeast_optional (low : Int) (value : Option Int) (h : ∀ v ∈ value, low ≤ v) :
    atLeast low (optional value) = true := by
  cases value with
  | none => rfl
  | some v => exact decide_eq_true (h v rfl)

theorem isNull_optional_map {A : Type} (value : Option A) (f : A → Int) :
    isNull (optional (value.map f)) = value.isNone := by
  cases value <;> rfl

theorem validate_band_ok (band : AutopilotRangeBand) (h : band.validate = .ok ()) :
    (band.minimum.toNat : Int) ≤ band.maximum.toNat := by
  have hle : band.minimum ≤ band.maximum := of_decide_eq_true ((ensure_ok_iff).mp h)
  exact Int.ofNat_le.mpr (UInt16.le_iff_toNat_le.mp hle)

theorem atMost_band (band : Option AutopilotRangeBand) (h : ∀ b ∈ band, b.validate = .ok ()) :
    atMost (optional (band.map (fun b => (b.minimum.toNat : Int))))
      (optional (band.map (fun b => (b.maximum.toNat : Int)))) = true := by
  cases band with
  | none => rfl
  | some b => exact decide_eq_true (validate_band_ok b (h b rfl))

end Cells

section Controller

variable (c : AutopilotController) (hv : c.Valid)

theorem config_limits {config : AutopilotConfig} (h : config.validate = .ok ()) :
    config.speedPercent.toNat ≤ 100 ∧ config.heatCeiling.toNat ≤ 1000 ∧
      ∀ band ∈ config.preferredRange, band.validate = .ok () := by
  obtain ⟨hspeed, h⟩ := ok_of_ensure h
  obtain ⟨hheat, h⟩ := ok_of_ensure h
  refine ⟨UInt8.le_iff_toNat_le.mp (of_decide_eq_true hspeed),
    UInt16.le_iff_toNat_le.mp (of_decide_eq_true hheat), fun band hband => ?_⟩
  cases hrange : config.preferredRange with
  | none =>
      rw [hrange] at hband
      contradiction
  | some range =>
      rw [hrange] at hband h
      exact Option.some.inj hband ▸ h

include hv

theorem controllersCheck_ok (unit : Int) (base : Row) :
    controllersCheck [unit] (assign (controllerFields c) base) = true := by
  obtain ⟨hspeed, hheat, hband⟩ := config_limits hv.config
  have hmode : within 0 2 (.Integer (fireModeCode c.config.fireMode)) = true := by
    cases c.config.fireMode <;> rfl
  have hstate : within 0 3 (.Integer (stateCode c.state)) = true := by cases c.state <;> rfl
  have hreason : within 0 11 (optional (c.blockingReason.map reasonCode)) = true := by
    cases c.blockingReason with
    | none => rfl
    | some reason => cases reason <;> rfl
  have hblocked : (decide (Cell.Integer (stateCode c.state) ≠ .Integer 3) ||
      !isNull (optional (c.blockingReason.map reasonCode))) = true := by
    rw [isNull_optional_map]
    rcases hv.blocked with h | h
    · cases hs : c.state with
      | Blocked => exact absurd hs h
      | _ => rfl
    · cases hr : c.blockingReason with
      | none =>
          rw [hr] at h
          contradiction
      | some reason => simp
  have hspeed := within_integer 0 100 c.config.speedPercent.toNat (by omega) (by omega)
  have hheat := within_integer 0 1000 c.config.heatCeiling.toNat (by omega) (by omega)
  have hrevision := atLeast_integer 0 c.revision (Int.natCast_nonneg _)
  have horder := atLeast_integer 1 c.nextOrderId (Int.ofNat_le.mpr hv.nextOrderId)
  have hfeedback := atLeast_integer 1 c.nextFeedbackSequence (Int.ofNat_le.mpr hv.history.2)
  have hmin := within_u16 c.config.preferredRange (fun b => b.minimum)
  have hmax := within_u16 c.config.preferredRange (fun b => b.maximum)
  have hpair : (isNull (optional (c.config.preferredRange.map (fun b => (b.minimum.toNat : Int)))) ==
      isNull (optional (c.config.preferredRange.map (fun b => (b.maximum.toNat : Int))))) = true := by
    rw [isNull_optional_map, isNull_optional_map]
    exact beq_self_eq_true _
  have hmost := atMost_band c.config.preferredRange hband
  exact checks_cons rfl <| checks_cons hspeed <| checks_cons hmode <|
    checks_cons hheat <| checks_cons hmin <| checks_cons hmax <|
    checks_cons hstate <| checks_cons hreason <| checks_cons hrevision <|
    checks_cons horder <| checks_cons hfeedback <| checks_cons hpair <|
    checks_cons hmost <| checks_cons hblocked rfl

end Controller

section Order

variable (order : AutopilotOrder) (h : order.validate = .ok ())

include h

theorem destination_map_nonneg : ∀ map ∈ (orderParts order).destination.map (·.map), 0 ≤ map := by
  intro map hmap
  cases order with
  | Move destination radius =>
      rw [← Option.some.inj hmap]
      exact of_decide_eq_true ((ensure_ok_iff).mp h)
  | AttackMove destination radius =>
      rw [← Option.some.inj hmap]
      exact of_decide_eq_true ((ensure_ok_iff).mp h)
  | _ => contradiction

theorem target_nonneg : ∀ target ∈ (orderParts order).target, 0 ≤ target := by
  intro target htarget
  cases order with
  | Follow unit separation =>
      rw [← Option.some.inj htarget]
      exact of_decide_eq_true (ok_of_ensure h).1
  | Attack unit range =>
      rw [← Option.some.inj htarget]
      exact of_decide_eq_true (ok_of_ensure h).1
  | _ => contradiction

theorem separation_bounds : ∀ v ∈ (orderParts order).separation, 1 ≤ v ∧ v ≤ 65535 := by
  intro v hv
  cases order with
  | Follow unit separation =>
      have hpos : 0 < separation := of_decide_eq_true ((ensure_ok_iff).mp (ok_of_ensure h).2)
      have hpos := UInt16.lt_iff_toNat_lt.mp hpos
      have hlt := separation.toNat_lt
      rw [← Option.some.inj hv]
      omega
  | _ => contradiction

theorem range_valid : ∀ band ∈ (orderParts order).range, band.validate = .ok () := by
  intro band hband
  cases order with
  | Attack unit range =>
      obtain ⟨-, h⟩ := ok_of_ensure h
      cases range with
      | none => contradiction
      | some range =>
          rw [← Option.some.inj hband]
          exact h
  | _ => contradiction

omit h in
theorem arrivalRadius_bounds : ∀ v ∈ (orderParts order).arrivalRadius, 0 ≤ v ∧ v ≤ 65535 := by
  intro v hv
  cases order with
  | Move destination radius =>
      have := radius.toNat_lt
      rw [← Option.some.inj hv]
      omega
  | AttackMove destination radius =>
      have := radius.toNat_lt
      rw [← Option.some.inj hv]
      omega
  | _ => contradiction

-- The row check of the table asks of an order what its encoding writes.
theorem ordersCheck_ok {record : AutopilotOrderRecord} (hrecord : record.order = order)
    (hid : 0 < record.id) (position : Option Nat) (hp : ∀ p ∈ position, p ≤ 63) (unit : Int)
    (base : Row) : ordersCheck [unit, (record.id : Int)] (assign (encodeOrder record position) base) = true := by
  subst hrecord
  have hkey : decide (0 < (record.id : Int)) = true := decide_eq_true (Int.natCast_pos.mpr hid)
  have hposition := within_optional 0 63 (position.map Int.ofNat) (by
    intro v hv
    obtain ⟨p, hmem, rfl⟩ := Option.mem_map.mp hv
    have := hp p hmem
    exact ⟨Int.natCast_nonneg p, Int.ofNat_le.mpr this⟩)
  have hkind : within 0 5 (.Integer record.order.kindCode) = true := by cases record.order <;> rfl
  have hstate : within 0 4 (.Integer (orderStateCode record.state)) = true := by
    cases record.state <;> rfl
  have hmap := atLeast_optional 0 _ (destination_map_nonneg record.order h)
  have hx := within_u16 (orderParts record.order).destination (fun to' => to'.x)
  have hy := within_u16 (orderParts record.order).destination (fun to' => to'.y)
  have hradius := within_optional 0 65535 _ (arrivalRadius_bounds record.order)
  have htarget := atLeast_optional 0 _ (target_nonneg record.order h)
  have hseparation := within_optional 1 65535 _ (separation_bounds record.order h)
  have hmin := within_u16 (orderParts record.order).range (fun band => band.minimum)
  have hmax := within_u16 (orderParts record.order).range (fun band => band.maximum)
  have hwaypoint := within_integer 0 65535 record.progress.waypointIndex.toNat (by omega)
    (by have := record.progress.waypointIndex.toNat_lt; omega)
  have hrecovery := within_integer 0 255 record.progress.recoveryAttempts.toNat (by omega)
    (by have := record.progress.recoveryAttempts.toNat_lt; omega)
  have hstagnant := within_integer 0 65535 record.progress.stagnantTicks.toNat (by omega)
    (by have := record.progress.stagnantTicks.toNat_lt; omega)
  have hox := within_u16 record.progress.attackMoveOrigin (fun at' => at'.x)
  have hoy := within_u16 record.progress.attackMoveOrigin (fun at' => at'.y)
  have hmost := atMost_band (orderParts record.order).range (range_valid record.order h)
  have horigin : ∀ f g : Position → Int, (isNull (optional (record.progress.attackMoveOrigin.map f)) ==
      isNull (optional (record.progress.attackMoveOrigin.map g))) = true := by
    intro f g
    rw [isNull_optional_map, isNull_optional_map]
    exact beq_self_eq_true _
  have hrange : ∀ f g : AutopilotRangeBand → Int, (isNull (optional ((orderParts record.order).range.map f)) ==
      isNull (optional ((orderParts record.order).range.map g))) = true := by
    intro f g
    rw [isNull_optional_map, isNull_optional_map]
    exact beq_self_eq_true _
  refine checks_cons hkey <| checks_cons rfl <| checks_cons hposition <|
    checks_cons hkind <| checks_cons hstate <| checks_cons hmap <|
    checks_cons hx <| checks_cons hy <| checks_cons hradius <|
    checks_cons htarget <| checks_cons hseparation <| checks_cons hmin <|
    checks_cons hmax <| checks_cons hwaypoint <| checks_cons hrecovery <|
    checks_cons hstagnant <| checks_cons hox <| checks_cons hoy <|
    checks_cons ?_ <| checks_cons ?_ <| checks_cons ?_ <| checks_cons ?_ <|
    checks_cons ?_ <| checks_cons ?_ <| checks_cons ?_ <|
    checks_cons (hrange _ _) <| checks_cons hmost <| checks_cons (horigin _ _) <|
    checks_cons (horigin _ _) rfl
  all_goals
    obtain ⟨id, order, state, progress⟩ := record
    cases order <;> rfl

end Order

section Children

theorem waypointsCheck_ok {point : Position} (hpoint : 0 ≤ point.map) (unit order : Int) {i : Nat}
    (hi : i ≤ 63) (base : Row) :
    waypointsCheck [unit, order, (i : Int)] (assign (encodeWaypoint point) base) = true := by
  have hkey : decide (0 ≤ (i : Int) ∧ (i : Int) ≤ 63) = true := decide_eq_true (by omega)
  have hmap := atLeast_integer 0 point.map hpoint
  have hx := within_integer 0 65535 point.x.toNat (by omega) (by have := point.x.toNat_lt; omega)
  have hy := within_integer 0 65535 point.y.toNat (by omega) (by have := point.y.toNat_lt; omega)
  exact checks_cons hkey <| checks_cons rfl <| checks_cons hmap <|
    checks_cons hx <| checks_cons hy rfl

theorem feedbackCheck_ok {record : AutopilotFeedback} (h : 0 < record.sequence) (unit : Int)
    (base : Row) :
    feedbackCheck [unit, (record.sequence : Int)] (assign (feedbackFields record) base) = true := by
  have hkey : decide (0 < (record.sequence : Int)) = true := decide_eq_true (Int.natCast_pos.mpr h)
  have horder := atLeast_optional 0 (record.orderId.map Int.ofNat) (by
    intro v hv
    obtain ⟨id, -, rfl⟩ := Option.mem_map.mp hv
    exact Int.natCast_nonneg id)
  have hevent : within 0 9 (.Integer (eventCode record.event)) = true := by cases record.event <;> rfl
  have hreason : within 0 11 (optional (record.reason.map reasonCode)) = true := by
    cases record.reason with
    | none => rfl
    | some reason => cases reason <;> rfl
  exact checks_cons hkey <| checks_cons rfl <| checks_cons horder <|
    checks_cons hevent <| checks_cons hreason rfl

end Children

end StompyMux.Persistence
