import StompyMux.Autopilot.Controller
import StompyMux.Library.Tickets

namespace StompyMux.Autopilot

open Library Library.Fallible

-- A feedback record before it gets its number.
structure Outcome where
  simulationTime : Int
  orderId : Option Nat
  event : AutopilotFeedbackEvent
  reason : Option AutopilotReason
  deriving DecidableEq

def Outcome.numbered (outcome : Outcome) (sequence : Nat) : AutopilotFeedback :=
  ⟨sequence, outcome.simulationTime, outcome.orderId, outcome.event, outcome.reason⟩

-- Outcomes as they are recorded when the first of them gets the given number.
def numbered : Nat → List Outcome → List AutopilotFeedback
  | _, [] => []
  | sequence, outcome :: outcomes =>
      outcome.numbered sequence :: numbered (sequence + 1) outcomes

theorem sequences_numbered (sequence : Nat) (outcomes : List Outcome) :
    (numbered sequence outcomes).map AutopilotFeedback.sequence =
      List.range' sequence outcomes.length := by
  induction outcomes generalizing sequence with
  | nil => rfl
  | cons outcome outcomes ih =>
      rw [numbered, List.map_cons, ih, List.length_cons, List.range'_succ]
      rfl

theorem length_numbered (sequence : Nat) (outcomes : List Outcome) :
    (numbered sequence outcomes).length = outcomes.length := by
  have h := congrArg List.length (sequences_numbered sequence outcomes)
  simpa using h

namespace AutopilotController

variable (c : AutopilotController)

def recordOutcome (outcome : Outcome) : AutopilotController :=
  (c.recordFeedback outcome.simulationTime outcome.orderId outcome.event outcome.reason).2

def recordOutcomes (outcomes : List Outcome) : AutopilotController :=
  outcomes.foldl recordOutcome c

theorem recordOutcomes_eq (outcomes : List Outcome) :
    c.recordOutcomes outcomes =
      { c with
        feedback := (c.recordOutcomes outcomes).feedback
        nextFeedbackSequence := (c.recordOutcomes outcomes).nextFeedbackSequence } := by
  induction outcomes generalizing c with
  | nil => rfl
  | cons outcome outcomes ih =>
      have h := ih (c.recordOutcome outcome)
      rw [recordOutcomes, List.foldl_cons]
      exact h

theorem recordOutcomes_append (outcomes later : List Outcome) :
    c.recordOutcomes (outcomes ++ later) = (c.recordOutcomes outcomes).recordOutcomes later := by
  rw [recordOutcomes, List.foldl_append]
  rfl

theorem nextFeedbackSequence_recordOutcomes (outcomes : List Outcome)
    (h : c.nextFeedbackSequence ≤ U64_MAX) :
    (c.recordOutcomes outcomes).nextFeedbackSequence =
      min (c.nextFeedbackSequence + outcomes.length) U64_MAX := by
  induction outcomes generalizing c with
  | nil => simp [recordOutcomes, h]
  | cons outcome outcomes ih =>
      have hnext : (c.recordOutcome outcome).nextFeedbackSequence =
          max (min (c.nextFeedbackSequence + 1) U64_MAX) 1 := rfl
      have hmax : 1 ≤ U64_MAX := by decide
      have hrest := ih (c.recordOutcome outcome) (by omega)
      rw [recordOutcomes, List.foldl_cons]
      rw [recordOutcomes] at hrest
      rw [hrest, hnext, List.length_cons]
      omega

theorem feedback_recordOutcomes {outcomes : List Outcome}
    (h : c.nextFeedbackSequence + outcomes.length ≤ U64_MAX) :
    (c.recordOutcomes outcomes).feedback =
      (numbered c.nextFeedbackSequence outcomes).foldl (Window.push MAX_FEEDBACK) c.feedback := by
  induction outcomes generalizing c with
  | nil => rfl
  | cons outcome outcomes ih =>
      rw [List.length_cons] at h
      have hnext : (c.recordOutcome outcome).nextFeedbackSequence = c.nextFeedbackSequence + 1 := by
        show max (min (c.nextFeedbackSequence + 1) U64_MAX) 1 = c.nextFeedbackSequence + 1
        omega
      have hrest := ih (c.recordOutcome outcome) (by omega)
      rw [recordOutcomes, List.foldl_cons]
      rw [recordOutcomes, hnext] at hrest
      rw [hrest]
      rfl

-- The retained records carry the last numbers given out.
structure Consecutive : Prop where
  length_le : c.feedback.length ≤ MAX_FEEDBACK
  numbers : ∃ first, 0 < first ∧ c.nextFeedbackSequence = first + c.feedback.length ∧
    c.feedback.map AutopilotFeedback.sequence = List.range' first c.feedback.length

theorem consecutive_new : new.Consecutive := ⟨Nat.zero_le _, 1, Nat.one_pos, rfl, rfl⟩

variable {c}

theorem Consecutive.nextFeedbackSequence_pos (h : c.Consecutive) : 0 < c.nextFeedbackSequence := by
  obtain ⟨first, hf, hn, -⟩ := h.numbers
  omega

theorem Consecutive.sequence_lt (h : c.Consecutive) :
    ∀ f ∈ c.feedback, f.sequence < c.nextFeedbackSequence := by
  obtain ⟨first, -, hn, hs⟩ := h.numbers
  intro f hf
  have hm : f.sequence ∈ List.range' first c.feedback.length := hs ▸ List.mem_map_of_mem hf
  rw [List.mem_range'_1] at hm
  omega

theorem Consecutive.recordOutcomes (h : c.Consecutive) (outcomes : List Outcome)
    (hroom : c.nextFeedbackSequence + outcomes.length ≤ U64_MAX) :
    (c.recordOutcomes outcomes).Consecutive := by
  obtain ⟨first, hf, hn, hs⟩ := h.numbers
  have hnext := c.nextFeedbackSequence_recordOutcomes outcomes (by omega)
  rw [Nat.min_eq_left hroom] at hnext
  have hfeedback := c.feedback_recordOutcomes hroom
  rw [Window.foldl_push MAX_FEEDBACK _ _ h.length_le] at hfeedback
  have hlength := congrArg List.length hfeedback
  simp only [List.rtake, List.length_drop, List.length_append, length_numbered] at hlength
  have hall : (c.feedback ++ numbered c.nextFeedbackSequence outcomes).map
      AutopilotFeedback.sequence = List.range' first (c.feedback.length + outcomes.length) := by
    rw [List.map_append, hs, sequences_numbered, hn, List.range'_append_1]
  have hle : (c.recordOutcomes outcomes).feedback.length ≤ MAX_FEEDBACK := by omega
  refine ⟨hle, first + (c.feedback.length + outcomes.length - MAX_FEEDBACK), ?_, ?_, ?_⟩
  · exact Nat.add_pos_left hf _
  · omega
  · rw [hlength, hfeedback, List.rtake, List.map_drop, hall, List.length_append, length_numbered,
      List.drop_range', Nat.mul_one]

-- A director that asks after every call misses nothing: what it gets is what the call recorded.
theorem Consecutive.feedbackSince (h : c.Consecutive) (outcomes : List Outcome)
    (hroom : c.nextFeedbackSequence + outcomes.length ≤ U64_MAX)
    (hlen : outcomes.length ≤ MAX_FEEDBACK) :
    (c.recordOutcomes outcomes).feedbackSince (some (c.nextFeedbackSequence - 1)) =
      ⟨numbered c.nextFeedbackSequence outcomes, false⟩ := by
  obtain ⟨first, hf, hn, hs⟩ := h.numbers
  have hlast := h.sequence_lt
  have hfeedback := c.feedback_recordOutcomes hroom
  rw [Window.foldl_push MAX_FEEDBACK _ _ h.length_le, List.rtake, List.length_append,
    length_numbered, List.drop_append_of_le_length (by omega)] at hfeedback
  have hold : ∀ f ∈ c.feedback, ¬ c.nextFeedbackSequence - 1 < f.sequence := by
    intro f hm
    have := hlast f hm
    omega
  have hnew : ∀ f ∈ numbered c.nextFeedbackSequence outcomes,
      c.nextFeedbackSequence - 1 < f.sequence := by
    intro f hm
    have hr : f.sequence ∈ List.range' c.nextFeedbackSequence outcomes.length :=
      sequences_numbered c.nextFeedbackSequence outcomes ▸ List.mem_map_of_mem hm
    rw [List.mem_range'_1] at hr
    omega
  have hfirst : ∀ f ∈ (c.recordOutcomes outcomes).feedback.head?,
      f.sequence ≤ c.nextFeedbackSequence := by
    intro f hm
    rw [hfeedback, List.head?_append] at hm
    rcases Option.or_eq_some_iff.mp (Option.mem_def.mp hm) with hm | ⟨-, hm⟩
    · exact Nat.le_of_lt (hlast f (List.mem_of_mem_drop (List.mem_of_mem_head? hm)))
    · cases outcomes with
      | nil => exact absurd hm (by simp [numbered])
      | cons outcome outcomes =>
          rw [numbered, List.head?_cons, Option.some.injEq] at hm
          subst hm
          exact Nat.le_refl _
  rw [AutopilotController.feedbackSince, AutopilotFeedbackPage.mk.injEq]
  constructor
  · rw [hfeedback, List.filter_append]
    rw [List.filter_eq_nil_iff.mpr (fun f hm => by simpa using hold f (List.mem_of_mem_drop hm))]
    rw [List.filter_eq_self.mpr (fun f hm => by simpa using hnew f hm), List.nil_append]
  · cases hh : (c.recordOutcomes outcomes).feedback.head? with
    | none => rfl
    | some f =>
        have hle := hfirst f hh
        simp only [Option.any_some, decide_eq_false_iff_not]
        omega

end AutopilotController

namespace AutopilotController

theorem insertIds_ok_iff (ids added result : List Nat) :
    added.foldlM insertId ids = .ok result ↔
      added.Nodup ∧ (∀ id ∈ added, id ∉ ids) ∧ result = added.reverse ++ ids := by
  induction added generalizing ids with
  | nil =>
      constructor
      · intro h
        injection h with h
        exact ⟨List.Pairwise.nil, by simp, h.symm⟩
      · rintro ⟨-, -, rfl⟩
        rfl
  | cons id added ih =>
      have hstep : (id :: added).foldlM insertId ids = .ok result ↔
          id ∉ ids ∧ added.foldlM insertId (id :: ids) = .ok result := by
        refine ⟨fun h => ?_, fun ⟨hid, h⟩ => ?_⟩
        · obtain ⟨next, hn, h⟩ := ok_of_bind h
          obtain ⟨hid, hn⟩ := ok_of_ensure hn
          injection hn with hn
          exact ⟨of_decide_eq_true hid, hn ▸ h⟩
        · refine bind_ok (a := id :: ids) ?_ h
          exact bind_ok (ensure_ok (decide_eq_true hid)) rfl
      rw [hstep, ih, List.nodup_cons, List.forall_mem_cons, List.reverse_cons]
      simp only [List.mem_cons, not_or, List.append_assoc, List.singleton_append]
      refine ⟨fun ⟨hid, hn, ha, hr⟩ => ?_, fun ⟨⟨hid, hn⟩, ⟨hi, ha⟩, hr⟩ => ?_⟩
      · exact ⟨⟨fun hm => (ha id hm).1 rfl, hn⟩, ⟨hid, fun i hi => (ha i hi).2⟩, hr⟩
      · exact ⟨hi, hn, fun i hm => ⟨fun he => hid (he ▸ hm), ha i hm⟩, hr⟩

theorem validateQueue_ok_iff (queue : List AutopilotOrderRecord) (ids result : List Nat) :
    queue.foldlM validateQueued ids = .ok result ↔
      (∀ queued ∈ queue, queued.validate false = .ok ()) ∧
        (queue.map (·.id)).foldlM insertId ids = .ok result := by
  induction queue generalizing ids with
  | nil => simp
  | cons queued queue ih =>
      rw [List.forall_mem_cons]
      refine ⟨fun h => ?_, fun ⟨⟨hq, hqueue⟩, h⟩ => ?_⟩
      · obtain ⟨next, hn, h⟩ := ok_of_bind h
        obtain ⟨⟨⟩, hq, hi⟩ := ok_of_bind hn
        obtain ⟨hqueue, h⟩ := (ih next).mp h
        exact ⟨⟨hq, hqueue⟩, bind_ok hi h⟩
      · obtain ⟨next, hi, h⟩ := ok_of_bind h
        refine bind_ok (a := next) ?_ ((ih next).mpr ⟨hqueue, h⟩)
        exact bind_ok hq hi

theorem followSequences_ok_iff (history : List AutopilotFeedback) (previous next : Nat) :
    (∃ last, history.foldlM followSequence previous = .ok last ∧ last < next) ↔
      (previous :: (history.map AutopilotFeedback.sequence ++ [next])).Pairwise (· < ·) := by
  induction history generalizing previous with
  | nil =>
      refine ⟨fun ⟨last, hl, h⟩ => ?_, fun h => ⟨previous, rfl, List.rel_of_pairwise_cons h (by simp)⟩⟩
      injection hl with hl
      simpa [hl] using h
  | cons feedback history ih =>
      have hstep : ∀ last, (feedback :: history).foldlM followSequence previous = .ok last ↔
          previous < feedback.sequence ∧
            history.foldlM followSequence feedback.sequence = .ok last := by
        intro last
        refine ⟨fun h => ?_, fun ⟨hp, h⟩ => ?_⟩
        · obtain ⟨sequence, hs, h⟩ := ok_of_bind h
          obtain ⟨hp, hs⟩ := ok_of_ensure hs
          injection hs with hs
          exact ⟨of_decide_eq_true hp, hs ▸ h⟩
        · refine bind_ok (a := feedback.sequence) ?_ h
          exact bind_ok (ensure_ok (decide_eq_true hp)) rfl
      have hrest := ih feedback.sequence
      simp only [hstep, List.map_cons, List.cons_append]
      rw [List.pairwise_cons]
      refine ⟨fun ⟨last, ⟨hp, hl⟩, hn⟩ => ?_, fun ⟨hp, h⟩ => ?_⟩
      · have h := hrest.mp ⟨last, hl, hn⟩
        refine ⟨fun s hs => ?_, h⟩
        rcases List.mem_cons.mp hs with rfl | hs
        · exact hp
        · exact Nat.lt_trans hp (List.rel_of_pairwise_cons h hs)
      · obtain ⟨last, hl, hn⟩ := hrest.mpr h
        exact ⟨last, ⟨hp _ List.mem_cons_self, hl⟩, hn⟩

variable (c : AutopilotController)

def orders : List AutopilotOrderRecord := c.active.toList ++ c.queue

theorem length_orders : c.orders.length = c.orderCount := by
  unfold orders orderCount
  cases c.active <;> simp

-- What a controller must satisfy to be saved and loaded.
structure Valid : Prop where
  config : c.config.validate = .ok ()
  nextOrderId : 0 < c.nextOrderId
  blocked : c.state ≠ .Blocked ∨ c.blockingReason.isSome
  count : c.orderCount ≤ MAX_QUEUED_ORDERS
  idle : c.state ≠ .Idle ∨ c.orderCount = 0
  executing : c.state ≠ .Executing ∨ 0 < c.orderCount
  active : ∀ active ∈ c.active.toList, active.validate true = .ok ()
  queued : ∀ queued ∈ c.queue, queued.validate false = .ok ()
  ids : (c.orders.map (·.id)).Nodup
  below : ∀ record ∈ c.orders, record.id < c.nextOrderId
  history : c.feedback.length ≤ MAX_FEEDBACK ∧ 0 < c.nextFeedbackSequence
  sequences : (0 :: (c.feedback.map AutopilotFeedback.sequence ++
    [c.nextFeedbackSequence])).Pairwise (· < ·)
  sightings : ∀ sighting ∈ c.sightings.values, 0 ≤ sighting.position.map

theorem collectIds_ok_iff (ids : List Nat) :
    (∃ first, (c.active.toList.map (·.id)).foldlM insertId [] = .ok first ∧
        (c.queue.map (·.id)).foldlM insertId first = .ok ids) ↔
      (c.orders.map (·.id)).Nodup ∧ ids = (c.orders.map (·.id)).reverse := by
  have hall := insertIds_ok_iff [] (c.orders.map (·.id)) ids
  simp only [List.not_mem_nil, not_false_iff, implies_true, true_and, List.append_nil] at hall
  rw [← hall, orders, List.map_append, List.foldlM_append]
  refine ⟨fun ⟨first, hf, h⟩ => bind_ok hf h, fun h => ok_of_bind h⟩

theorem validate_ok_iff : c.validate = .ok () ↔ c.Valid := by
  constructor
  · intro h
    obtain ⟨⟨⟩, hconfig, h⟩ := ok_of_bind h
    obtain ⟨hnext, h⟩ := ok_of_ensure h
    obtain ⟨hblocked, h⟩ := ok_of_ensure h
    obtain ⟨hcount, h⟩ := ok_of_ensure h
    obtain ⟨hidle, h⟩ := ok_of_ensure h
    obtain ⟨hexecuting, h⟩ := ok_of_ensure h
    obtain ⟨⟨⟩, hactive, h⟩ := ok_of_bind h
    obtain ⟨first, hfirst, h⟩ := ok_of_bind h
    obtain ⟨ids, hids, h⟩ := ok_of_bind h
    obtain ⟨hqueued, hids⟩ := (validateQueue_ok_iff _ _ _).mp hids
    obtain ⟨hnodup, hids⟩ := (c.collectIds_ok_iff ids).mp ⟨first, hfirst, hids⟩
    obtain ⟨hbelow, h⟩ := ok_of_ensure h
    obtain ⟨hhistory, h⟩ := ok_of_ensure h
    obtain ⟨last, hlast, h⟩ := ok_of_bind h
    obtain ⟨hmonotonic, h⟩ := ok_of_ensure h
    have hsightings := (ensure_ok_iff).mp h
    have hsequences := (followSequences_ok_iff _ _ _).mp ⟨last, hlast, of_decide_eq_true hmonotonic⟩
    simp only [decide_eq_true_eq, List.all_eq_true, hids, List.mem_reverse,
      List.forall_mem_map] at *
    exact ⟨hconfig, hnext, hblocked, hcount, hidle, hexecuting, ok_of_forM hactive, hqueued,
      hnodup, hbelow, hhistory, hsequences, hsightings⟩
  · intro h
    obtain ⟨first, hfirst, hids⟩ := (c.collectIds_ok_iff _).mpr ⟨h.ids, rfl⟩
    obtain ⟨last, hlast, hmonotonic⟩ := (followSequences_ok_iff _ _ _).mpr h.sequences
    refine bind_ok h.config ?_
    refine bind_ok (ensure_ok (decide_eq_true h.nextOrderId)) ?_
    refine bind_ok (ensure_ok (decide_eq_true h.blocked)) ?_
    refine bind_ok (ensure_ok (decide_eq_true h.count)) ?_
    refine bind_ok (ensure_ok (decide_eq_true h.idle)) ?_
    refine bind_ok (ensure_ok (decide_eq_true h.executing)) ?_
    refine bind_ok (forM_ok h.active) ?_
    refine bind_ok hfirst ?_
    refine bind_ok ((validateQueue_ok_iff _ _ _).mpr ⟨h.queued, hids⟩) ?_
    have hbelow : (c.orders.map (·.id)).reverse.all (· < c.nextOrderId) = true := by
      simpa [List.all_eq_true] using h.below
    have hsightings : c.sightings.values.all (fun s => 0 ≤ s.position.map) = true := by
      simpa [List.all_eq_true] using h.sightings
    refine bind_ok (ensure_ok hbelow) ?_
    refine bind_ok (ensure_ok (decide_eq_true h.history)) ?_
    refine bind_ok hlast ?_
    refine bind_ok (ensure_ok (decide_eq_true hmonotonic)) ?_
    exact ensure_ok hsightings

end AutopilotController

end StompyMux.Autopilot

namespace StompyMux.Autopilot

open Library Library.Fallible

namespace AutopilotController

-- The orders of a controller as tickets: the active one is served, the queue waits.
def counter (c : AutopilotController) : Tickets.Counter :=
  ⟨c.nextOrderId, c.active.map (·.id), c.queue.map (·.id)⟩

theorem held_counter (c : AutopilotController) : c.counter.held = c.orders.map (·.id) := by
  unfold Tickets.Counter.held counter orders
  cases c.active <;> simp

-- How state, reason, active order and queue hang together.
structure Coherent (c : AutopilotController) : Prop where
  config : c.config.validate = .ok ()
  orders : ∀ record ∈ c.orders, 0 < record.id ∧ record.order.validate = .ok ()
  queued : ∀ record ∈ c.queue, record.state = .Queued
  running : ∀ record ∈ c.active,
    record.state = if c.blockingReason.isSome then .Failed else .Running
  reason : c.blockingReason.isSome → c.active.isSome
  count : c.orderCount ≤ MAX_QUEUED_ORDERS
  idle : c.state = .Idle → c.active = none ∧ c.queue = []
  executing : c.state = .Executing → c.blockingReason = none ∧ (c.active.isSome ∨ c.queue ≠ [])
  blocked : c.state = .Blocked → c.blockingReason.isSome
  nextOrderId : 0 < c.nextOrderId
  sightings : ∀ sighting ∈ c.sightings.values, 0 ≤ sighting.position.map

theorem validate_default : AutopilotConfig.default.validate = .ok () := rfl

theorem coherent_new : new.Coherent := by
  constructor <;> simp [new, AutopilotController.orders, orderCount, MAX_QUEUED_ORDERS,
    OrderedMap.values, OrderedMap.empty, validate_default]

variable {c : AutopilotController}

theorem Coherent.reason_iff (h : c.Coherent) :
    c.blockingReason.isSome ↔ ∃ record ∈ c.active, record.state = .Failed := by
  constructor
  · intro hr
    obtain ⟨record, hrecord⟩ := Option.isSome_iff_exists.mp (h.reason hr)
    refine ⟨record, hrecord, ?_⟩
    rw [h.running record hrecord, if_pos hr]
  · rintro ⟨record, hrecord, hfailed⟩
    by_cases hr : c.blockingReason.isSome
    · exact hr
    · have hrunning := h.running record hrecord
      rw [if_neg hr, hfailed] at hrunning
      contradiction

theorem Coherent.valid (h : c.Coherent) (hordered : c.counter.Ordered) (hhistory : c.Consecutive) :
    c.Valid where
  config := h.config
  nextOrderId := h.nextOrderId
  blocked := not_or_of_imp h.blocked
  count := h.count
  idle := not_or_of_imp fun hi => by
    obtain ⟨ha, hq⟩ := h.idle hi
    simp [orderCount, ha, hq]
  executing := not_or_of_imp fun he => by
    rw [← length_orders, AutopilotController.orders, List.length_pos_iff]
    rcases (h.executing he).2 with ha | hq
    · obtain ⟨record, hrecord⟩ := Option.isSome_iff_exists.mp ha
      simp [hrecord]
    · simp [hq]
  active := fun record hr => by
    obtain ⟨hid, horder⟩ := h.orders record (List.mem_append_left _ hr)
    refine (record.validate_ok_iff true).mpr ⟨hid, horder, ?_⟩
    have hrunning := h.running record (Option.mem_toList.mp hr)
    split at hrunning
    · exact Or.inr hrunning
    · exact Or.inl hrunning
  queued := fun record hr => by
    obtain ⟨hid, horder⟩ := h.orders record (List.mem_append_right _ hr)
    exact (record.validate_ok_iff false).mpr ⟨hid, horder, h.queued record hr⟩
  ids := by
    rw [← held_counter]
    exact hordered.sorted.imp fun hlt => Nat.ne_of_lt hlt
  below := fun record hr =>
    hordered.below record.id (held_counter c ▸ List.mem_map_of_mem hr)
  history := ⟨hhistory.length_le, hhistory.nextFeedbackSequence_pos⟩
  sequences := by
    obtain ⟨first, hf, hn, hs⟩ := hhistory.numbers
    rw [hs, hn, ← List.range'_1_concat, List.pairwise_cons]
    refine ⟨fun n hn => ?_, List.pairwise_lt_range'⟩
    rw [List.mem_range'_1] at hn
    omega
  sightings := h.sightings

end AutopilotController

end StompyMux.Autopilot
