import StompyMux.Autopilot.Lifecycle

namespace StompyMux.Autopilot

open Library Library.Fallible

namespace AutopilotController

variable {c : AutopilotController}

theorem of_enroll (nextId final : Nat) (orders : List AutopilotOrder)
    (records : List AutopilotOrderRecord) (he : enroll nextId orders = .ok (records, final)) :
    records.map (·.id) = List.range' nextId records.length ∧
      records.map (·.order) = orders ∧ (∀ record ∈ records, record.state = .Queued) ∧
      final = nextId + records.length := by
  induction orders generalizing nextId records with
  | nil =>
      injection he with he
      injection he with hr hf
      subst hr hf
      simp
  | cons order orders ih =>
      obtain ⟨-, he⟩ := ok_of_ensure he
      obtain ⟨later, hlater, he⟩ := ok_of_bind he
      have hlater := ok_of_ofOption hlater
      rw [checkedAdd, Option.ite_none_right_eq_some] at hlater
      obtain ⟨-, hlater⟩ := hlater
      injection hlater with hlater
      subst hlater
      obtain ⟨⟨rest, last⟩, hrest, he⟩ := ok_of_bind he
      injection he with he
      injection he with hr hf
      subst hr hf
      obtain ⟨hids, horders, hstates, hfinal⟩ := ih _ rest hrest
      rw [List.map_cons, List.map_cons, List.length_cons, List.range'_succ, hids, horders]
      refine ⟨rfl, rfl, List.forall_mem_cons.mpr ⟨rfl, hstates⟩, ?_⟩
      omega

-- What the checks before a submission establish.
structure Admitted (c : AutopilotController) (mode : AutopilotSubmissionMode)
    (records : List AutopilotOrderRecord) (final : Nat) : Prop where
  ids : records.map (·.id) = List.range' c.nextOrderId records.length
  valid : ∀ record ∈ records, record.order.validate = .ok ()
  queued : ∀ record ∈ records, record.state = .Queued
  final : final = c.nextOrderId + records.length
  batch : records.length ≤ MAX_QUEUED_ORDERS
  room : mode = .Append → c.orderCount + records.length ≤ MAX_QUEUED_ORDERS
  work : mode = .Append → records ≠ []

theorem of_checkSubmission {orders : List AutopilotOrder} {mode : AutopilotSubmissionMode}
    {revision : Option Nat} {records : List AutopilotOrderRecord} {final : Nat}
    (ha : c.checkSubmission orders mode revision = .ok (records, final)) : Admitted c mode records final := by
  obtain ⟨⟨⟩, -, ha⟩ := ok_of_bind ha
  obtain ⟨hwork, ha⟩ := ok_of_ensure ha
  obtain ⟨hbatch, ha⟩ := ok_of_ensure ha
  obtain ⟨⟨⟩, hvalid, ha⟩ := ok_of_bind ha
  obtain ⟨hroom, ha⟩ := ok_of_ensure ha
  obtain ⟨hids, horders, hstates, hfinal⟩ := of_enroll _ _ _ _ ha
  have hlength : records.length = orders.length := by rw [← horders, List.length_map]
  refine ⟨hids, ?_, hstates, hfinal, ?_, ?_, ?_⟩
  · intro record hr
    exact ok_of_forM hvalid _ (horders ▸ List.mem_map_of_mem hr)
  · rw [hlength]
    exact of_decide_eq_true hbatch
  · rintro rfl
    rw [hlength]
    exact of_decide_eq_true hroom
  · rintro rfl hempty
    rw [hempty, List.length_nil] at hlength
    rcases of_decide_eq_true hwork with hmode | horders
    · exact hmode rfl
    · exact horders (List.length_eq_zero_iff.mp hlength.symm)

def canceledOutcome (record : AutopilotOrderRecord) : Outcome :=
  ⟨0, some record.id, .OrderCanceled, none⟩

def queuedOutcome (record : AutopilotOrderRecord) : Outcome :=
  ⟨0, some record.id, .OrderQueued, none⟩

theorem recordAll_eq (event : AutopilotFeedbackEvent) (records : List AutopilotOrderRecord) :
    c.recordAll event records =
      c.recordOutcomes (records.map (fun record => ⟨0, some record.id, event, none⟩)) := by
  rw [recordAll, AutopilotController.recordOutcomes, List.foldl_map]
  rfl

variable (mode : AutopilotSubmissionMode) (records : List AutopilotOrderRecord) (final : Nat)

theorem events_canceled : Outcome.ticketEvents (records.map canceledOutcome) =
      (records.map (·.id)).map Tickets.Event.closed := by
  simp only [Outcome.ticketEvents, List.filterMap_map, List.map_map]
  exact congrFun (List.filterMap_eq_map) records

theorem events_queued : Outcome.ticketEvents (records.map queuedOutcome) =
      (records.map (·.id)).map Tickets.Event.issued := by
  simp only [Outcome.ticketEvents, List.filterMap_map, List.map_map]
  exact congrFun (List.filterMap_eq_map) records

-- The controller a batch joins, and the orders that left it for the batch.
def base (c : AutopilotController) : AutopilotSubmissionMode → AutopilotController
  | .Append => c
  | .Replace => { c with blockingReason := none, active := none, queue := [] }

def replaced (c : AutopilotController) : AutopilotSubmissionMode → List AutopilotOrderRecord
  | .Append => []
  | .Replace => c.orders

theorem base_history : (c.base mode).feedback = c.feedback ∧
      (c.base mode).nextFeedbackSequence = c.nextFeedbackSequence ∧
      (c.base mode).revision = c.revision ∧ (c.base mode).nextOrderId = c.nextOrderId := by
  cases mode <;> exact ⟨rfl, rfl, rfl, rfl⟩

-- The controller after the submission, before anything is recorded.
def joined (c : AutopilotController) (mode : AutopilotSubmissionMode)
    (records : List AutopilotOrderRecord) (final : Nat) : AutopilotController :=
  let c := { c.base mode with queue := (c.base mode).queue ++ records, nextOrderId := final }
  { c with state := c.submittedState mode, revision := c.revision + 1 }

theorem run_replaced :
    Tickets.run c.counter (Outcome.ticketEvents ((c.replaced mode).map canceledOutcome)) =
      some (c.base mode).counter := by
  rw [events_canceled]
  cases mode with
  | Append => rfl
  | Replace =>
      rw [replaced, ← held_counter, Tickets.run_close]
      rfl

theorem run_joined (ha : Admitted c mode records final) :
    Tickets.run (c.base mode).counter (Outcome.ticketEvents (records.map queuedOutcome)) =
      some (c.joined mode records final).counter := by
  have hnext := (base_history (c := c) mode).2.2.2
  rw [events_queued, ha.ids, counter, hnext, Tickets.run_issue]
  rw [joined, counter, ha.final, List.map_append, ha.ids]

theorem Admitted.orders {mode : AutopilotSubmissionMode} {records : List AutopilotOrderRecord}
    {final : Nat} (ha : Admitted c mode records final) (hn : 0 < c.nextOrderId) :
    ∀ record ∈ records, 0 < record.id ∧ record.order.validate = .ok () := by
  intro record hr
  have hid : record.id ∈ List.range' c.nextOrderId records.length :=
    ha.ids ▸ List.mem_map_of_mem hr
  rw [List.mem_range'_1] at hid
  exact ⟨by omega, ha.valid record hr⟩

theorem Coherent.reason_of_idle (h : c.Coherent) (hi : c.state = .Idle) :
    c.blockingReason = none := by
  by_contra hr
  have ha := h.reason (Option.isSome_iff_ne_none.mpr hr)
  rw [(h.idle hi).1] at ha
  contradiction

theorem submittedState_append (hwork : records ≠ []) :
    ({ c with queue := c.queue ++ records, nextOrderId := final } :
      AutopilotController).submittedState .Append =
      if c.state = .Idle then .Executing else c.state := by
  have hqueue : c.queue ++ records ≠ [] := fun he => hwork (List.append_eq_nil_iff.mp he).2
  simp only [submittedState, hqueue, ne_eq, not_false_iff, true_and, and_true, false_and, if_false]
  cases c.state <;> simp

theorem submittedState_replace : ({ c.base .Replace with
        queue := (c.base .Replace).queue ++ records, nextOrderId := final } :
      AutopilotController).submittedState .Replace =
      if c.state = .Paused then .Paused else if records = [] then .Idle else .Executing := by
  simp only [submittedState, base, List.nil_append, and_true, reduceCtorEq, and_false,
    not_false_iff]
  by_cases hpaused : c.state = .Paused <;> by_cases hempty : records = [] <;>
    simp [hpaused, hempty]

theorem Coherent.joined (h : c.Coherent) (mode : AutopilotSubmissionMode)
    (records : List AutopilotOrderRecord) (final : Nat) (ha : Admitted c mode records final) :
    (c.joined mode records final).Coherent := by
  have horders := ha.orders h.nextOrderId
  have hfinal : 0 < final := by
    have hn := h.nextOrderId
    rw [ha.final]
    omega
  cases mode with
  | Append =>
      have hwork := ha.work rfl
      have hqueue : c.queue ++ records ≠ [] := fun he => hwork (List.append_eq_nil_iff.mp he).2
      have hstate : (c.joined .Append records final).state =
          if c.state = .Idle then .Executing else c.state :=
        submittedState_append records final hwork
      exact { h with
        orders := by
          intro record hr
          rcases List.mem_append.mp hr with hr | hr
          · exact h.orders record (List.mem_append_left _ hr)
          · rcases List.mem_append.mp hr with hr | hr
            · exact h.orders record (List.mem_append_right _ hr)
            · exact horders record hr
        queued := by
          intro record hr
          rcases List.mem_append.mp hr with hr | hr
          · exact h.queued record hr
          · exact ha.queued record hr
        count := by
          have hroom := ha.room rfl
          rw [orderCount] at hroom ⊢
          have hlength : (c.joined .Append records final).queue.length =
              c.queue.length + records.length := List.length_append
          have hactive : (c.joined .Append records final).active = c.active := rfl
          rw [hlength, hactive]
          omega
        idle := by
          intro hi
          rw [hstate] at hi
          split at hi
          · contradiction
          · contradiction
        executing := by
          intro he
          rw [hstate] at he
          split at he
          · next hi => exact ⟨h.reason_of_idle hi, Or.inr hqueue⟩
          · exact ⟨(h.executing he).1, Or.inr hqueue⟩
        blocked := by
          intro hb
          rw [hstate] at hb
          split at hb
          · contradiction
          · exact h.blocked hb
        nextOrderId := hfinal }
  | Replace =>
      have hstate : (c.joined .Replace records final).state =
          if c.state = .Paused then .Paused else if records = [] then .Idle else .Executing :=
        submittedState_replace records final
      exact { h with
        orders := horders
        queued := ha.queued
        running := fun record hr => by contradiction
        reason := fun hr => by contradiction
        count := ha.batch
        idle := by
          intro hi
          rw [hstate] at hi
          by_cases hempty : records = []
          · exact ⟨rfl, hempty⟩
          · rw [if_neg hempty] at hi
            split at hi <;> contradiction
        executing := by
          intro he
          rw [hstate] at he
          refine ⟨rfl, Or.inr fun hempty => ?_⟩
          have hempty : records = [] := hempty
          rw [if_pos hempty] at he
          split at he <;> contradiction
        blocked := by
          intro hb
          rw [hstate] at hb
          split at hb
          · contradiction
          · split at hb <;> contradiction
        nextOrderId := hfinal }

-- What the batch joins, with the cancellations recorded.
def cleared (c : AutopilotController) (mode : AutopilotSubmissionMode) : AutopilotController :=
  { c.base mode with
    feedback := (c.recordOutcomes ((c.replaced mode).map canceledOutcome)).feedback
    nextFeedbackSequence :=
      (c.recordOutcomes ((c.replaced mode).map canceledOutcome)).nextFeedbackSequence }

theorem makeRoom_eq : c.makeRoom mode = c.cleared mode := by
  cases mode with
  | Append => rfl
  | Replace =>
      have hcongr := recordOutcomes_congr (c := c) (c.base .Replace)
        ((c.replaced .Replace).map canceledOutcome) rfl rfl
      have hcancel : c.makeRoom .Replace = (c.base .Replace).recordOutcomes
        ((c.replaced .Replace).map canceledOutcome) := recordAll_eq _ _
      rw [hcancel, recordOutcomes_eq, hcongr.1, hcongr.2]
      rfl

theorem length_replaced (h : c.Coherent) (mode : AutopilotSubmissionMode) :
    (c.replaced mode).length ≤ MAX_QUEUED_ORDERS := by
  cases mode with
  | Append => exact Nat.zero_le _
  | Replace =>
      rw [replaced, length_orders]
      exact h.count

theorem account_submit (h : c.Coherent) (hrevision : c.revision < U64_MAX)
    (orders : List AutopilotOrder) (mode : AutopilotSubmissionMode) (revision : Option Nat) :
    Account c (c.perform (.submit orders mode revision)) := by
  refine account_attempt h _ _ _ (fun _ => rfl) fun ⟨records, final⟩ hchecked => ?_
  have ha := of_checkSubmission hchecked
  have hd := h.joined mode records final ha
  simp only [makeRoom_eq]
  refine account_bump _ ((base_history (c := c) mode).2.2.1 ▸ hrevision) ?_
  let cancels := (c.replaced mode).map canceledOutcome
  let next : AutopilotController := { c.joined mode records final with
    feedback := (c.recordOutcomes cancels).feedback
    nextFeedbackSequence := (c.recordOutcomes cancels).nextFeedbackSequence }
  have hnext : next.Coherent := { hd with }
  have hhistory := recordOutcomes_congr (c := c.recordOutcomes cancels) next
    (records.map queuedOutcome) rfl rfl
  rw [← recordOutcomes_append] at hhistory
  show Account c (next.recordAll .OrderQueued records, .submitted (.ok (records.map (·.id))))
  rw [recordAll_eq]
  refine ⟨cancels ++ records.map queuedOutcome, ?_⟩
  have hevents : Outcome.ticketEvents (cancels ++ records.map queuedOutcome) =
      ((c.replaced mode).map (·.id)).map .closed ++ (records.map (·.id)).map .issued := by
    rw [← events_canceled, ← events_queued]
    exact List.filterMap_append
  exact {
    coherent := hnext.recordOutcomes _
    feedback := hhistory.1
    sequence := hhistory.2
    length_le := by
      have hold := length_replaced h mode
      have hnew := ha.batch
      have hmax : MAX_FEEDBACK = MAX_QUEUED_ORDERS + MAX_QUEUED_ORDERS := rfl
      simp only [cancels, List.length_append, List.length_map]
      omega
    tickets := by
      rw [counter_recordOutcomes, hevents, ← events_canceled, ← events_queued, Tickets.run,
        Transition.run_append]
      have hfirst := c.run_replaced mode
      rw [Tickets.run] at hfirst
      rw [hfirst]
      exact run_joined mode records final ha
    accepted := by
      rw [hevents]
      simp [Tickets.issued, List.filterMap_map, Function.comp_def, Answer.accepted]
    failed := fun he => by contradiction
    starts := by
      simp [cancels, canceledOutcome, queuedOutcome] }

end AutopilotController

end StompyMux.Autopilot
