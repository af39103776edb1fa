import StompyMux.Autopilot.Submission

namespace StompyMux.Autopilot

open Library Library.Fallible

namespace Call

-- The heartbeat settles the active order only while the controller executes.
def settles : Call → Bool
  | completeActive _ | failActive _ _ => true
  | _ => false

def isResume : Call → Bool
  | resume _ => true
  | _ => false

end Call

-- One call of a run, with what it found, answered and left.
structure Exchange where
  before : AutopilotController
  call : Call
  answer : Answer
  after : AutopilotController

namespace AutopilotController

variable (c : AutopilotController)

def exchange (call : Call) : Exchange := ⟨c, call, (c.perform call).2, (c.perform call).1⟩

-- A run of calls, one after another.
def trace : AutopilotController → List Call → List Exchange
  | _, [] => []
  | c, call :: calls => c.exchange call :: trace (c.perform call).1 calls

structure CountersBelow : Prop where
  revision : c.revision < U64_MAX
  nextOrderId : c.nextOrderId < U64_MAX
  nextFeedbackSequence : c.nextFeedbackSequence < U64_MAX

instance : Decidable c.CountersBelow :=
  decidable_of_iff
    (c.revision < U64_MAX ∧ c.nextOrderId < U64_MAX ∧ c.nextFeedbackSequence < U64_MAX)
    ⟨fun ⟨hr, hn, hf⟩ => ⟨hr, hn, hf⟩, fun ⟨hr, hn, hf⟩ => ⟨hr, hn, hf⟩⟩

end AutopilotController

namespace Exchange

variable (x : Exchange)

structure Regular : Prop where
  executing : x.call.settles → x.before.state = .Executing
  before : x.before.CountersBelow
  after : x.after.CountersBelow

instance : Decidable x.Regular :=
  decidable_of_iff ((x.call.settles → x.before.state = .Executing) ∧ x.before.CountersBelow ∧
      x.after.CountersBelow)
    ⟨fun ⟨he, hb, ha⟩ => ⟨he, hb, ha⟩, fun ⟨he, hb, ha⟩ => ⟨he, hb, ha⟩⟩

-- What a director reads that asks for everything since the call.
def page : AutopilotFeedbackPage :=
  x.after.feedbackSince (some (x.before.nextFeedbackSequence - 1))

-- A resume that was accepted.
def resumes : Bool := x.call.isResume && !x.answer.isError

end Exchange

-- The outcomes of a run in the order in which they were recorded.
def history (exchanges : List Exchange) : List AutopilotFeedback :=
  exchanges.flatMap fun x => x.page.records

def accepted (exchanges : List Exchange) : List Nat :=
  exchanges.flatMap fun x => x.answer.accepted

namespace AutopilotFeedback

def names (event : AutopilotFeedbackEvent) (id : Nat) (f : AutopilotFeedback) : Bool :=
  f.event = event && f.orderId = some id

def settles (id : Nat) (f : AutopilotFeedback) : Bool :=
  f.names .OrderSucceeded id || f.names .OrderCanceled id

end AutopilotFeedback

def feedbackEvents (records : List AutopilotFeedback) : List Tickets.Event :=
  records.filterMap fun f => ticketEvent f.event f.orderId

theorem history_cons (x : Exchange) (exchanges : List Exchange) :
    history (x :: exchanges) = x.page.records ++ history exchanges := rfl

theorem feedbackEvents_append (records later : List AutopilotFeedback) :
    feedbackEvents (records ++ later) = feedbackEvents records ++ feedbackEvents later :=
  List.filterMap_append

theorem feedbackEvents_numbered (sequence : Nat) (outcomes : List Outcome) :
    feedbackEvents (numbered sequence outcomes) = Outcome.ticketEvents outcomes := by
  induction outcomes generalizing sequence with
  | nil => rfl
  | cons outcome outcomes ih =>
      have hlater := ih (sequence + 1)
      simp only [feedbackEvents, Outcome.ticketEvents] at hlater ⊢
      rw [numbered, List.filterMap_cons, List.filterMap_cons, hlater]
      rfl

theorem events_of_numbered (sequence : Nat) (outcomes : List Outcome) :
    (numbered sequence outcomes).map AutopilotFeedback.event = outcomes.map Outcome.event := by
  induction outcomes generalizing sequence with
  | nil => rfl
  | cons outcome outcomes ih =>
      rw [numbered, List.map_cons, List.map_cons, ih]
      rfl

theorem ticketEvent_of_some (event : AutopilotFeedbackEvent) (id : Nat) :
    ∃ e, ticketEvent event (some id) = some e ∧ e.ticket = id := by
  cases event <;> exact ⟨_, rfl, rfl⟩

section Counting

variable (records : List AutopilotFeedback) (id : Nat)

theorem count_events (p : AutopilotFeedback → Bool) (kind : Tickets.Event → Option Nat)
    (hp : ∀ f, p f = decide ((ticketEvent f.event f.orderId).bind kind = some id)) :
    records.countP p = ((feedbackEvents records).filterMap kind).count id := by
  rw [feedbackEvents, List.filterMap_filterMap, List.count, List.countP_filterMap]
  refine List.countP_congr fun f _ => ?_
  rw [hp]
  cases (ticketEvent f.event f.orderId).bind kind <;> simp

theorem count_queued :
    records.countP (·.names .OrderQueued id) = (Tickets.issued (feedbackEvents records)).count id := by
  refine count_events records id _ _ fun f => ?_
  rcases f with ⟨sequence, time, orderId, event, reason⟩
  cases orderId <;> cases event <;> simp [AutopilotFeedback.names, ticketEvent]

theorem count_started :
    records.countP (·.names .OrderStarted id) =
      (Tickets.started (feedbackEvents records)).count id := by
  refine count_events records id _ _ fun f => ?_
  rcases f with ⟨sequence, time, orderId, event, reason⟩
  cases orderId <;> cases event <;> simp [AutopilotFeedback.names, ticketEvent]

theorem count_settled :
    records.countP (·.settles id) = (Tickets.closed (feedbackEvents records)).count id := by
  refine count_events records id _ _ fun f => ?_
  rcases f with ⟨sequence, time, orderId, event, reason⟩
  cases orderId <;> cases event <;>
    simp [AutopilotFeedback.settles, AutopilotFeedback.names, ticketEvent]

end Counting

def startedOrders (records : List AutopilotFeedback) : List Nat :=
  (records.filter fun f => f.event = .OrderStarted).filterMap AutopilotFeedback.orderId

theorem startedOrders_eq (records : List AutopilotFeedback) :
    startedOrders records = Tickets.started (feedbackEvents records) := by
  rw [startedOrders, feedbackEvents, Tickets.started, List.filterMap_filterMap,
    ← List.filterMap_eq_filter, List.filterMap_filterMap]
  refine List.filterMap_congr fun f _ => ?_
  rcases f with ⟨sequence, time, orderId, event, reason⟩
  cases orderId <;> cases event <;> rfl

namespace AutopilotController

-- What every reachable controller satisfies.
structure Sound (c : AutopilotController) : Prop where
  coherent : c.Coherent
  tickets : c.counter.Ordered
  history : c.Consecutive

theorem sound_new : new.Sound where
  coherent := coherent_new
  tickets := ⟨List.Pairwise.nil, fun _ ht => absurd ht List.not_mem_nil⟩
  history := consecutive_new

variable {c : AutopilotController}

theorem account_perform (h : c.Coherent) {call : Call} (hx : (c.exchange call).Regular) :
    Account c (c.perform call) := by
  have hrevision := hx.before.revision
  cases call with
  | configure patch revision => exact account_configure h hrevision patch revision
  | submit orders mode revision => exact account_submit h hrevision orders mode revision
  | cancel orderId revision => exact account_cancel h hrevision orderId revision
  | pause revision => exact account_pause h hrevision revision
  | resume revision => exact account_resume h hrevision revision
  | startNext time => exact account_start h time
  | completeActive time => exact account_complete h time (hx.executing rfl)
  | failActive time reason => exact account_fail h time reason
  | manualTakeover time => exact account_takeover h time

-- What one call of a run does and what a director sees of it.
structure Observed (x : Exchange) : Prop where
  sound : x.after.Sound
  complete : x.page.historyGap = false
  tickets : Tickets.run x.before.counter (feedbackEvents x.page.records) = some x.after.counter
  accepted : Tickets.issued (feedbackEvents x.page.records) = x.answer.accepted
  failed : x.answer.isError → x.after = x.before
  starts : (∃ f ∈ x.page.records, f.event = .OrderStarted) → x.before.state = .Executing

theorem observed_exchange (h : c.Sound) {call : Call} (hx : (c.exchange call).Regular) :
    Observed (c.exchange call) := by
  obtain ⟨outcomes, ha⟩ := account_perform h.coherent hx
  have hbelow := hx.before.nextFeedbackSequence
  have hroom : c.nextFeedbackSequence + outcomes.length ≤ U64_MAX := by
    have hnext := c.nextFeedbackSequence_recordOutcomes outcomes (Nat.le_of_lt hbelow)
    have hafter := hx.after.nextFeedbackSequence
    have hseq : (c.exchange call).after.nextFeedbackSequence =
        (c.recordOutcomes outcomes).nextFeedbackSequence := ha.sequence
    omega
  have hpage : (c.exchange call).page = ⟨numbered c.nextFeedbackSequence outcomes, false⟩ := by
    rw [← h.history.feedbackSince outcomes hroom ha.length_le]
    have hf : (c.exchange call).after.feedback = (c.recordOutcomes outcomes).feedback := ha.feedback
    simp only [Exchange.page, AutopilotController.feedbackSince, hf]
    rfl
  have hconsecutive := h.history.recordOutcomes outcomes hroom
  exact {
    sound := {
      coherent := ha.coherent
      tickets := Tickets.ordered_of_run h.tickets ha.tickets
      history := by
        obtain ⟨hlen, hnumbers⟩ := hconsecutive
        rw [← ha.feedback] at hlen hnumbers
        rw [← ha.sequence] at hnumbers
        exact ⟨hlen, hnumbers⟩ }
    complete := by rw [hpage]
    tickets := by
      rw [hpage, feedbackEvents_numbered]
      exact ha.tickets
    accepted := by
      rw [hpage, feedbackEvents_numbered]
      exact ha.accepted
    failed := ha.failed
    starts := by
      rintro ⟨f, hf, hevent⟩
      rw [hpage] at hf
      refine ha.starts ?_
      rw [← events_of_numbered c.nextFeedbackSequence, ← hevent]
      exact List.mem_map_of_mem hf }

section Trace

variable (calls : List Call)

theorem observed_trace (h : c.Sound) (hregular : ∀ x ∈ c.trace calls, x.Regular) :
    (∀ x ∈ c.trace calls, Observed x ∧ x.before.Sound) ∧
      ∃ final : AutopilotController,
        Tickets.run c.counter (feedbackEvents (history (c.trace calls))) = some final.counter := by
  induction calls generalizing c with
  | nil => exact ⟨by simp [trace], c, rfl⟩
  | cons call calls ih =>
      obtain ⟨hfirst, hlater⟩ := List.forall_mem_cons.mp hregular
      have hobserved := observed_exchange h hfirst
      obtain ⟨hrest, final, hrun⟩ := ih hobserved.sound hlater
      refine ⟨List.forall_mem_cons.mpr ⟨⟨hobserved, h⟩, hrest⟩, final, ?_⟩
      have hsplit : feedbackEvents (history (c.trace (call :: calls))) =
          feedbackEvents (c.exchange call).page.records ++
            feedbackEvents (history ((c.perform call).1.trace calls)) := by
        rw [trace, history_cons, feedbackEvents_append]
      have htickets := hobserved.tickets
      rw [Tickets.run] at htickets hrun ⊢
      rw [hsplit, Transition.run_append]
      have hbefore : (c.exchange call).before.counter = c.counter := rfl
      rw [← hbefore, htickets]
      exact hrun

theorem accepted_eq (exchanges : List Exchange) (hall : ∀ x ∈ exchanges, Observed x) :
    accepted exchanges = Tickets.issued (feedbackEvents (history exchanges)) := by
  induction exchanges with
  | nil => rfl
  | cons x exchanges ih =>
      obtain ⟨hx, hrest⟩ := List.forall_mem_cons.mp hall
      have hlater := ih hrest
      rw [accepted] at hlater
      rw [accepted, List.flatMap_cons, ← hx.accepted, hlater, history_cons, feedbackEvents_append,
        Tickets.issued, Tickets.issued, Tickets.issued, List.filterMap_append]

theorem trace_suffix {earlier later : List Exchange} (h : c.Sound)
    (hregular : ∀ x ∈ c.trace calls, x.Regular) (ht : c.trace calls = earlier ++ later) :
    ∃ (d : AutopilotController) (rest : List Call), d.Sound ∧ later = d.trace rest := by
  induction earlier generalizing c calls with
  | nil => exact ⟨c, calls, h, ht.symm⟩
  | cons x earlier ih =>
      cases calls with
      | nil => contradiction
      | cons call calls =>
          obtain ⟨hfirst, hlater⟩ := List.forall_mem_cons.mp hregular
          injection ht with hx ht
          exact ih calls (observed_exchange h hfirst).sound hlater ht

end Trace

section Paused

theorem attempt_keeps {α β : Type} (P : AutopilotController → Prop) (hc : P c)
    (x : Except Error α) (rest : α → AutopilotController × Except Error β)
    (hr : ∀ a, x = .ok a → P (rest a).1) : P (c.attempt x rest).1 := by
  cases x with
  | ok a => exact hr a rfl
  | error e => exact hc

theorem bump_keeps {β : Type} (P : AutopilotController → Prop)
    (hc : ∀ revision, P { c with revision := revision })
    (rest : AutopilotController → AutopilotController × Except Error β)
    (hr : ∀ revision, P (rest { c with revision := revision }).1) :
    P (c.attempt c.bumpRevision rest).1 := by
  refine attempt_keeps P (hc c.revision) _ _ fun d hd => ?_
  obtain ⟨revision, -, hd⟩ := ok_of_bind hd
  injection hd with hd
  exact hd ▸ hr revision

variable (hpaused : c.state = .Paused)

include hpaused

theorem paused_submit (orders : List AutopilotOrder) (mode : AutopilotSubmissionMode)
    (revision : Option Nat) : (c.submit orders mode revision).1.state = .Paused := by
  refine attempt_keeps (·.state = .Paused) hpaused _ _ fun ⟨records, final⟩ _ => ?_
  simp only [makeRoom_eq]
  have hstate : ∀ d : AutopilotController, d.state = .Paused →
      d.submittedState mode = .Paused := by
    intro d hd
    simp only [submittedState, hd, ne_eq, not_true_eq_false, false_and, and_false, if_false,
      if_true, ite_self]
  have hcleared : (c.cleared mode).state = .Paused := by cases mode <;> exact hpaused
  have hjoined := hstate { c.cleared mode with
    queue := (c.cleared mode).queue ++ records, nextOrderId := final } hcleared
  refine bump_keeps (·.state = .Paused) (fun _ => hjoined) _ fun _ => ?_
  show (recordAll _ _ _).state = _
  rw [recordAll_eq, state_recordOutcomes]
  exact hjoined

theorem paused_cancel (orderId : Nat) (revision : Option Nat) :
    (c.cancel orderId revision).1.state = .Paused := by
  refine attempt_keeps (·.state = .Paused) hpaused _ _ fun _ _ => ?_
  cases htake : c.takeOrder orderId with
  | none => exact hpaused
  | some taken =>
      have hstate : taken.state = .Paused := by
        obtain ⟨-, rfl | ⟨queue, -, rfl⟩⟩ := counter_takeOrder orderId htake <;> exact hpaused
      refine bump_keeps (·.state = .Paused) ?_ _ ?_
      · exact fun _ => hstate
      · intro _
        show (released _).state = _
        unfold released
        split
        · exact (if_pos hstate).trans hstate
        · exact hstate

-- Only an accepted resume leaves the paused state.
theorem paused_perform (h : c.Coherent) {call : Call} (hx : (c.exchange call).Regular)
    (hr : (c.exchange call).resumes = false) : (c.perform call).1.state = .Paused := by
  cases call with
  | configure patch revision =>
      refine attempt_keeps (·.state = .Paused) hpaused _ _ fun _ _ => ?_
      refine attempt_keeps (·.state = .Paused) hpaused _ _ fun _ _ => ?_
      by_cases hsame : patch.applyTo c.config = c.config
      · rw [if_pos hsame]
        exact hpaused
      · rw [if_neg hsame]
        refine bump_keeps (·.state = .Paused) ?_ _ ?_ <;> exact fun _ => hpaused
  | submit orders mode revision => exact paused_submit hpaused orders mode revision
  | cancel orderId revision => exact paused_cancel hpaused orderId revision
  | pause revision =>
      refine attempt_keeps (·.state = .Paused) hpaused _ _ fun _ _ => ?_
      rw [if_pos hpaused]
      exact hpaused
  | resume revision =>
      obtain ⟨outcomes, ha⟩ := account_perform h hx
      have herror : (c.perform (.resume revision)).2.isError = true := by
        simpa [Exchange.resumes, exchange, Call.isResume] using hr
      rw [ha.failed herror]
      exact hpaused
  | startNext time =>
      have hidle : c.state ≠ .Executing ∨ c.active.isSome := Or.inl (by rw [hpaused]; decide)
      show (c.startNext time).1.state = .Paused
      rw [startNext, if_pos hidle]
      exact hpaused
  | completeActive time | failActive time reason =>
      have hexecuting : c.state = .Executing := hx.executing rfl
      rw [hpaused] at hexecuting
      contradiction
  | manualTakeover time =>
      have hstate : ¬ (c.state = .Executing ∨ c.state = .Idle) := by rw [hpaused]; decide
      show (c.manualTakeover time).1.state = .Paused
      rw [manualTakeover, if_neg hstate]
      exact hpaused

theorem paused_trace (h : c.Sound) (calls : List Call) (ys zs : List Exchange)
    (hregular : ∀ x ∈ c.trace calls, x.Regular) (ht : c.trace calls = ys ++ zs)
    (hr : ∀ y ∈ ys, y.resumes = false) : ∀ f ∈ history ys, f.event ≠ .OrderStarted := by
  induction ys generalizing c calls with
  | nil => simp [history]
  | cons y ys ih =>
      cases calls with
      | nil => contradiction
      | cons call calls =>
          obtain ⟨hfirst, hlater⟩ := List.forall_mem_cons.mp hregular
          obtain ⟨hy, hys⟩ := List.forall_mem_cons.mp hr
          injection ht with hx ht
          subst hx
          have hobserved := observed_exchange h hfirst
          have hstill := paused_perform hpaused h.coherent hfirst hy
          intro f hf
          rcases List.mem_append.mp hf with hf | hf
          · intro hevent
            have hexecuting : c.state = .Executing := hobserved.starts ⟨f, hf, hevent⟩
            rw [hpaused] at hexecuting
            contradiction
          · exact ih hstill hobserved.sound calls hlater ht hys f hf

end Paused

section Settled

variable (calls : List Call) (h : c.Sound) (hregular : ∀ x ∈ c.trace calls, x.Regular)

include h hregular

theorem accepted_sorted : (accepted (c.trace calls)).Pairwise (· < ·) := by
  obtain ⟨hall, final, hrun⟩ := observed_trace calls h hregular
  rw [accepted_eq _ fun x hx => (hall x hx).1, (Tickets.issued_of_run _ _ _ hrun).1]
  exact List.pairwise_lt_range'

theorem records_of_accepted (id : Nat) (hid : id ∈ accepted (c.trace calls)) :
    (history (c.trace calls)).countP (·.names .OrderQueued id) = 1 ∧
      (history (c.trace calls)).countP (·.names .OrderStarted id) ≤ 1 ∧
      (history (c.trace calls)).countP (·.settles id) ≤ 1 := by
  obtain ⟨hall, final, hrun⟩ := observed_trace calls h hregular
  have haccepted := accepted_eq _ fun x hx => (hall x hx).1
  have hsorted := accepted_sorted calls h hregular
  rw [count_queued, count_started, count_settled, ← haccepted]
  refine ⟨?_, ?_, ?_⟩
  · exact List.count_eq_one_of_mem (hsorted.imp fun hlt => Nat.ne_of_lt hlt) hid
  · have hstarted := Tickets.started_sorted _ _ _ h.tickets hrun
    exact List.nodup_iff_count_le_one.mp (hstarted.imp fun hlt => Nat.ne_of_lt hlt) id
  · exact List.nodup_iff_count_le_one.mp (Tickets.closed_nodup _ _ _ h.tickets hrun) id

theorem settled_last (earlier later : List AutopilotFeedback) (f : AutopilotFeedback) (id : Nat)
    (hsplit : history (c.trace calls) = earlier ++ f :: later) (hf : f.settles id) :
    ∀ g ∈ later, g.orderId ≠ some id := by
  obtain ⟨-, final, hrun⟩ := observed_trace calls h hregular
  have hclosed : ticketEvent f.event f.orderId = some (.closed id) := by
    rcases f with ⟨sequence, time, orderId, event, reason⟩
    cases orderId <;> cases event <;>
      simp_all [AutopilotFeedback.settles, AutopilotFeedback.names, ticketEvent]
  have hevents : feedbackEvents (history (c.trace calls)) =
      feedbackEvents earlier ++ .closed id :: feedbackEvents later := by
    rw [hsplit, feedbackEvents_append]
    simp only [feedbackEvents, List.filterMap_cons, hclosed]
  rw [hevents] at hrun
  intro g hg hid
  obtain ⟨e, he, hticket⟩ := ticketEvent_of_some g.event id
  refine Tickets.closed_last _ _ _ _ _ h.tickets hrun e ?_ hticket
  exact List.mem_filterMap.mpr ⟨g, hg, hid ▸ he⟩

theorem started_in_order : (startedOrders (history (c.trace calls))).Pairwise (· < ·) := by
  obtain ⟨-, final, hrun⟩ := observed_trace calls h hregular
  rw [startedOrders_eq]
  exact Tickets.started_sorted _ _ _ h.tickets hrun

end Settled

-- The life of the controller and of its orders over every regular run of calls. The history is
-- what a director reads who asks after each call, and it is complete.
theorem controller_lifecycle (calls : List Call)
    (hregular : ∀ x ∈ new.trace calls, x.Regular) :
    (∀ x ∈ new.trace calls, x.after.validate = .ok ()) ∧
    (∀ x ∈ new.trace calls, x.answer.isError → x.after = x.before) ∧
    (∀ x ∈ new.trace calls, x.page.historyGap = false) ∧
    (accepted (new.trace calls)).Pairwise (· < ·) ∧
    (∀ id ∈ accepted (new.trace calls),
      (history (new.trace calls)).countP (·.names .OrderQueued id) = 1 ∧
        (history (new.trace calls)).countP (·.names .OrderStarted id) ≤ 1 ∧
        (history (new.trace calls)).countP (·.settles id) ≤ 1) ∧
    (∀ earlier f later id, history (new.trace calls) = earlier ++ f :: later → f.settles id →
      ∀ g ∈ later, g.orderId ≠ some id) ∧
    (startedOrders (history (new.trace calls))).Pairwise (· < ·) ∧
    (∀ earlier y run later, new.trace calls = earlier ++ (y :: run ++ later) →
      y.before.state = .Paused → (∀ z ∈ y :: run, z.resumes = false) →
      ∀ f ∈ history (y :: run), f.event ≠ .OrderStarted) ∧
    (∀ x ∈ new.trace calls,
      x.after.blockingReason.isSome ↔ ∃ record ∈ x.after.active, record.state = .Failed) := by
  have hall := (observed_trace calls sound_new hregular).1
  refine ⟨fun x hx => ?_, fun x hx => (hall x hx).1.failed, fun x hx => (hall x hx).1.complete,
    accepted_sorted calls sound_new hregular, records_of_accepted calls sound_new hregular,
    fun earlier f later id => settled_last calls sound_new hregular earlier later f id,
    started_in_order calls sound_new hregular, ?_, fun x hx => ?_⟩
  · have hsound := (hall x hx).1.sound
    exact (validate_ok_iff _).mpr (hsound.coherent.valid hsound.tickets hsound.history)
  · intro earlier y run later ht hpaused hr
    obtain ⟨d, rest, hd, hrest⟩ := trace_suffix calls sound_new hregular ht
    cases rest with
    | nil => contradiction
    | cons call rest =>
        have hbefore : d.state = .Paused := by
          injection hrest with hy _
          rw [hy] at hpaused
          exact hpaused
        refine paused_trace hbefore hd (call :: rest) (y :: run) later ?_ hrest.symm hr
        intro x hx
        exact hregular x (ht ▸ List.mem_append_right _ (hrest ▸ hx))
  · exact (hall x hx).1.sound.coherent.reason_iff

-- The first order fails and is canceled, the second one waits for the end of a pause.
def pausedBetween : List Call :=
  [.resume none, .submit [.Hold, .Hold] .Append none, .startNext 5, .failActive 6 .Stuck,
    .cancel 1 none, .pause none, .startNext 7, .resume none, .startNext 8, .completeActive 9]

theorem controller_lifecycle_pausedBetween :
    accepted (new.trace pausedBetween) = [1, 2] ∧
      startedOrders (history (new.trace pausedBetween)) = [1, 2] ∧
      ∀ x ∈ new.trace pausedBetween, x.after.validate = .ok () :=
  ⟨by decide +kernel, by decide +kernel, (controller_lifecycle pausedBetween (by decide +kernel)).1⟩

end AutopilotController

end StompyMux.Autopilot
