import StompyMux.Autopilot.Validity

namespace StompyMux.Autopilot

open Library Library.Fallible

-- What an event says of the order it names.
def ticketEvent : AutopilotFeedbackEvent → Option Nat → Option Tickets.Event
  | .OrderQueued, some id => some (.issued id)
  | .OrderStarted, some id => some (.started id)
  | .OrderSucceeded, some id => some (.closed id)
  | .OrderCanceled, some id => some (.closed id)
  | _, some id => some (.noted id)
  | _, none => none

def Outcome.ticketEvents (outcomes : List Outcome) : List Tickets.Event :=
  outcomes.filterMap fun outcome => ticketEvent outcome.event outcome.orderId

inductive Call
  | configure (patch : AutopilotConfigPatch) (expectedRevision : Option Nat)
  | submit (orders : List AutopilotOrder) (mode : AutopilotSubmissionMode)
      (expectedRevision : Option Nat)
  | cancel (orderId : Nat) (expectedRevision : Option Nat)
  | pause (expectedRevision : Option Nat)
  | resume (expectedRevision : Option Nat)
  | startNext (simulationTime : Int)
  | completeActive (simulationTime : Int)
  | failActive (simulationTime : Int) (reason : AutopilotReason)
  | manualTakeover (simulationTime : Int)
  deriving DecidableEq

inductive Answer
  | done (result : Except Error Unit)
  | submitted (result : Except Error (List Nat))
  | canceled (result : Except Error Bool)
  | order (id : Option Nat)
  | takeover (paused : Bool)

namespace Answer

def isError : Answer → Bool
  | done (.error _) | submitted (.error _) | canceled (.error _) => true
  | _ => false

-- The ids of the orders a call accepted.
def accepted : Answer → List Nat
  | submitted (.ok ids) => ids
  | _ => []

end Answer

namespace AutopilotController

variable (c : AutopilotController)

def perform : Call → AutopilotController × Answer
  | .configure patch revision => (c.configure patch revision).map id .done
  | .submit orders mode revision => (c.submit orders mode revision).map id .submitted
  | .cancel orderId revision => (c.cancel orderId revision).map id .canceled
  | .pause revision => (c.pause revision).map id .done
  | .resume revision => (c.resume revision).map id .done
  | .startNext time => (c.startNext time).map id .order
  | .completeActive time => (c.completeActive time).map id .order
  | .failActive time reason => (c.failActive time reason).map id .order
  | .manualTakeover time => (c.manualTakeover time).map id .takeover

-- What a call did: the outcomes it recorded are the account of its change of the orders.
structure Accounted (c next : AutopilotController) (answer : Answer) (outcomes : List Outcome) :
    Prop where
  coherent : next.Coherent
  feedback : next.feedback = (c.recordOutcomes outcomes).feedback
  sequence : next.nextFeedbackSequence = (c.recordOutcomes outcomes).nextFeedbackSequence
  length_le : outcomes.length ≤ MAX_FEEDBACK
  tickets : Tickets.run c.counter (Outcome.ticketEvents outcomes) = some next.counter
  accepted : Tickets.issued (Outcome.ticketEvents outcomes) = answer.accepted
  failed : answer.isError → next = c
  starts : .OrderStarted ∈ outcomes.map Outcome.event → c.state = .Executing

variable {c}

theorem Accounted.unchanged (h : c.Coherent) (answer : Answer) (ha : answer.accepted = []) :
    Accounted c c answer [] where
  coherent := h
  feedback := rfl
  sequence := rfl
  length_le := Nat.zero_le _
  tickets := rfl
  accepted := ha.symm
  failed := fun _ => rfl
  starts := fun hn => absurd hn List.not_mem_nil

theorem recordOutcomes_congr (d : AutopilotController) (outcomes : List Outcome)
    (hf : d.feedback = c.feedback) (hs : d.nextFeedbackSequence = c.nextFeedbackSequence) :
    (d.recordOutcomes outcomes).feedback = (c.recordOutcomes outcomes).feedback ∧
      (d.recordOutcomes outcomes).nextFeedbackSequence =
        (c.recordOutcomes outcomes).nextFeedbackSequence := by
  induction outcomes generalizing c d with
  | nil => exact ⟨hf, hs⟩
  | cons outcome outcomes ih =>
      refine ih (d.recordOutcome outcome) ?_ ?_
      · simp only [recordOutcome, recordFeedback, hf, hs]
      · simp only [recordOutcome, recordFeedback, hs]

section Fields

variable (outcomes : List Outcome)

@[simp] theorem state_recordOutcomes : (c.recordOutcomes outcomes).state = c.state := by
  rw [recordOutcomes_eq]

end Fields

theorem Coherent.recordOutcomes (h : c.Coherent) (outcomes : List Outcome) :
    (c.recordOutcomes outcomes).Coherent := by
  rw [recordOutcomes_eq]
  exact { h with }

theorem counter_recordOutcomes (outcomes : List Outcome) :
    (c.recordOutcomes outcomes).counter = c.counter := by
  rw [recordOutcomes_eq]
  rfl

theorem Accounted.recorded (d : AutopilotController) (answer : Answer) (outcomes : List Outcome)
    (hd : d.Coherent) (hf : d.feedback = c.feedback)
    (hs : d.nextFeedbackSequence = c.nextFeedbackSequence) (hlen : outcomes.length ≤ MAX_FEEDBACK)
    (htickets : Tickets.run c.counter (Outcome.ticketEvents outcomes) = some d.counter)
    (haccepted : Tickets.issued (Outcome.ticketEvents outcomes) = answer.accepted)
    (hok : answer.isError = false)
    (hstarts : .OrderStarted ∈ outcomes.map Outcome.event → c.state = .Executing) :
    Accounted c (d.recordOutcomes outcomes) answer outcomes where
  coherent := hd.recordOutcomes outcomes
  feedback := (recordOutcomes_congr d outcomes hf hs).1
  sequence := (recordOutcomes_congr d outcomes hf hs).2
  length_le := hlen
  tickets := by rw [counter_recordOutcomes, htickets]
  accepted := haccepted
  failed := fun he => by simp [hok] at he
  starts := hstarts

theorem bumpRevision_ok (h : c.revision < U64_MAX) :
    c.bumpRevision = .ok { c with revision := c.revision + 1 } := by
  have hfits : c.revision + 1 < 2 ^ 64 := by
    have hmax : U64_MAX = 2 ^ 64 - 1 := rfl
    omega
  rw [bumpRevision, checkedAdd, if_pos hfits]
  rfl

-- Some outcomes account for what a call left and answered.
def Account (c : AutopilotController) (result : AutopilotController × Answer) : Prop :=
  ∃ outcomes, Accounted c result.1 result.2 outcomes

-- A guard that refuses leaves the controller as it was.
theorem account_attempt {α β : Type} (h : c.Coherent) (x : Except Error α)
    (rest : α → AutopilotController × Except Error β) (answer : Except Error β → Answer)
    (hnone : ∀ e, (answer (.error e)).accepted = [])
    (hrest : ∀ a, x = .ok a → Account c ((rest a).map id answer)) :
    Account c ((c.attempt x rest).map id answer) := by
  cases x with
  | ok a => exact hrest a rfl
  | error e => exact ⟨[], .unchanged h _ (hnone e)⟩

theorem account_bump {β : Type} {d : AutopilotController}
    (rest : AutopilotController → AutopilotController × Except Error β)
    {answer : Except Error β → Answer} (hd : d.revision < U64_MAX)
    (hrest : Account c ((rest { d with revision := d.revision + 1 }).map id answer)) :
    Account c ((d.attempt d.bumpRevision rest).map id answer) := by
  rw [bumpRevision_ok hd]
  exact hrest

theorem one_le_max_feedback : 1 ≤ MAX_FEEDBACK := by decide

theorem two_le_max_feedback : 2 ≤ MAX_FEEDBACK := by decide

theorem account_outcome (d : AutopilotController) (answer : Answer) (outcome : Outcome)
    (hd : d.Coherent) (hf : d.feedback = c.feedback)
    (hs : d.nextFeedbackSequence = c.nextFeedbackSequence)
    (htickets : Tickets.run c.counter (Outcome.ticketEvents [outcome]) = some d.counter)
    (haccepted : Tickets.issued (Outcome.ticketEvents [outcome]) = answer.accepted)
    (hok : answer.isError = false)
    (hstarts : outcome.event = .OrderStarted → c.state = .Executing) :
    Account c (d.recordOutcome outcome, answer) :=
  ⟨[outcome], Accounted.recorded d answer [outcome] hd hf hs one_le_max_feedback htickets haccepted
    hok (fun hm => hstarts (List.mem_singleton.mp hm).symm)⟩

theorem account_note (d : AutopilotController) (answer : Answer) (outcome : Outcome)
    (hnone : outcome.orderId = none) (hevent : outcome.event ≠ .OrderStarted) (hd : d.Coherent)
    (hf : d.feedback = c.feedback)
    (hs : d.nextFeedbackSequence = c.nextFeedbackSequence) (hcounter : d.counter = c.counter)
    (haccepted : answer.accepted = []) (hok : answer.isError = false) :
    Account c (d.recordOutcome outcome, answer) := by
  have hquiet : Outcome.ticketEvents [outcome] = [] := by
    unfold Outcome.ticketEvents
    rw [List.filterMap_cons_none, List.filterMap_nil]
    rw [hnone]
    unfold ticketEvent
    split <;> first | contradiction | rfl
  refine account_outcome d answer outcome hd hf hs ?_ ?_ hok ?_
  · rw [hquiet, hcounter]
    rfl
  · rw [hquiet, haccepted]
    rfl
  · exact fun he => absurd he hevent

theorem counter_eq {d : AutopilotController} (hn : d.nextOrderId = c.nextOrderId)
    (ha : d.active.map (·.id) = c.active.map (·.id)) (hq : d.queue = c.queue) :
    d.counter = c.counter := by
  rw [counter, counter, hn, ha, hq]

variable (h : c.Coherent) (hrevision : c.revision < U64_MAX)

include h

theorem account_unchanged {answer : Answer} (ha : answer.accepted = []) : Account c (c, answer) :=
  ⟨[], .unchanged h answer ha⟩

include hrevision

theorem account_configure (patch : AutopilotConfigPatch) (revision : Option Nat) :
    Account c (c.perform (.configure patch revision)) := by
  refine account_attempt h _ _ _ (fun _ => rfl) fun _ _ => ?_
  refine account_attempt h _ _ _ (fun _ => rfl) fun _ hvalid => ?_
  by_cases hsame : patch.applyTo c.config = c.config
  · rw [if_pos hsame]
    exact account_unchanged h rfl
  · rw [if_neg hsame]
    refine account_bump _ hrevision ?_
    refine account_note _ _ ⟨0, none, .Configured, none⟩ rfl (by decide) ?_ rfl rfl rfl rfl rfl
    exact { h with config := hvalid }

variable (time : Int) (orderId : Nat) (revision : Option Nat)

theorem account_pause : Account c (c.perform (.pause revision)) := by
  refine account_attempt h _ _ _ (fun _ => rfl) fun _ _ => ?_
  by_cases hpaused : c.state = .Paused
  · rw [if_pos hpaused]
    exact account_unchanged h rfl
  · rw [if_neg hpaused]
    refine account_bump _ hrevision ?_
    refine account_note _ _ ⟨0, none, .Paused, none⟩ rfl (by decide) ?_ rfl rfl rfl rfl rfl
    exact { h with
      idle := fun hi => by contradiction
      executing := fun he => by contradiction
      blocked := fun hb => by contradiction }

theorem account_resume : Account c (c.perform (.resume revision)) := by
  refine account_attempt h _ _ _ (fun _ => rfl) fun _ _ => ?_
  by_cases hstopped : c.state = .Paused ∨ c.state = .Blocked
  · rw [if_pos hstopped]
    refine account_bump _ hrevision ?_
    refine account_note _ _ ⟨0, none, .Resumed, none⟩ rfl (by decide) ?_ rfl rfl ?_ rfl rfl
    · exact { h with
        orders := by
          intro record hr
          rcases List.mem_append.mp hr with ha | hq
          · obtain ⟨old, ho, rfl⟩ := Option.mem_map.mp (Option.mem_toList.mp ha)
            exact h.orders old (List.mem_append_left _ (Option.mem_toList.mpr ho))
          · exact h.orders record (List.mem_append_right _ hq)
        running := by
          intro record hr
          obtain ⟨old, -, rfl⟩ := Option.mem_map.mp hr
          rfl
        reason := fun hr => by contradiction
        count := by
          have hc := h.count
          rw [orderCount] at hc ⊢
          rw [Option.isSome_map]
          exact hc
        idle := by
          intro hi
          rw [Option.isSome_map] at hi
          by_cases hwork : c.active.isSome ∨ c.queue ≠ []
          · rw [if_pos hwork] at hi
            contradiction
          · rw [not_or, not_not, Option.not_isSome_iff_eq_none] at hwork
            rw [hwork.1]
            exact ⟨rfl, hwork.2⟩
        executing := by
          intro he
          rw [Option.isSome_map] at he ⊢
          by_cases hwork : c.active.isSome ∨ c.queue ≠ []
          · exact ⟨rfl, hwork⟩
          · rw [if_neg hwork] at he
            contradiction
        blocked := by
          intro hb
          split at hb <;> contradiction }
    · refine counter_eq rfl ?_ rfl
      cases c.active <;> rfl
  · rw [if_neg hstopped]
    exact account_unchanged h rfl

omit hrevision

theorem account_takeover : Account c (c.perform (.manualTakeover time)) := by
  show Account c ((c.manualTakeover time).map id .takeover)
  by_cases hstate : c.state = .Executing ∨ c.state = .Idle
  · have hreason : c.blockingReason = none := by
      rcases hstate with he | hi
      · exact (h.executing he).1
      · by_contra hr
        have ha := h.reason (Option.isSome_iff_ne_none.mpr hr)
        rw [(h.idle hi).1] at ha
        contradiction
    have hd : { c with state := .Paused, blockingReason := none }.Coherent := by
      exact { h with
        running := fun record hr => by
          have hrunning := h.running record hr
          rw [hreason] at hrunning
          exact hrunning
        reason := fun hr => by contradiction
        idle := fun hi => by contradiction
        executing := fun he => by contradiction
        blocked := fun hb => by contradiction }
    rw [manualTakeover, if_pos hstate]
    refine account_outcome _ (.takeover true)
      ⟨time, c.active.map (·.id), .ManualTakeover, some .ManualTakeover⟩ hd ?_ ?_ ?_ ?_ rfl ?_
    · rfl
    · rfl
    · have hnext : ({ c with state := .Paused, blockingReason := none } :
          AutopilotController).counter = c.counter := counter_eq rfl rfl rfl
      rw [hnext]
      cases hactive : c.active with
      | none => rfl
      | some record =>
          have hcounter : c.counter = ⟨c.nextOrderId, some record.id, c.queue.map (·.id)⟩ := by
            rw [counter, hactive, Option.map_some]
          rw [hcounter]
          simp [Outcome.ticketEvents, ticketEvent, Transition.run, Tickets.step]
    · cases c.active <;> rfl
    · exact fun he => by contradiction
  · rw [manualTakeover, if_neg hstate]
    exact account_unchanged h rfl

theorem account_start : Account c (c.perform (.startNext time)) := by
  show Account c ((c.startNext time).map id .order)
  unfold startNext
  by_cases hidle : c.state ≠ .Executing ∨ c.active.isSome
  · rw [if_pos hidle]
    exact account_unchanged h rfl
  · rw [if_neg hidle]
    rw [not_or, not_not, Bool.not_eq_true, Option.isSome_eq_false_iff, Option.isNone_iff_eq_none]
      at hidle
    obtain ⟨hexecuting, hactive⟩ := hidle
    cases hqueue : c.queue with
    | nil => exact account_unchanged h rfl
    | cons record queue =>
        have hreason := (h.executing hexecuting).1
        have hmem : ∀ r ∈ record :: queue, r ∈ c.orders := fun r hr =>
          List.mem_append_right _ (hqueue ▸ hr)
        have hcount : c.orderCount = queue.length + 1 := by
          simp [orderCount, hactive, hqueue]
        refine account_outcome
          { c with active := some (record.withState .Running), queue := queue } _
          ⟨time, some record.id, .OrderStarted, none⟩ ?_ rfl rfl ?_ rfl rfl (fun _ => hexecuting)
        · exact { h with
            orders := by
              intro r hr
              rcases List.mem_cons.mp hr with rfl | hr
              · exact h.orders record (hmem record List.mem_cons_self)
              · exact h.orders r (hmem r (List.mem_cons_of_mem _ hr))
            queued := fun r hr => h.queued r (hqueue ▸ List.mem_cons_of_mem _ hr)
            running := by
              rintro r ⟨⟩
              rw [hreason]
              rfl
            reason := fun _ => rfl
            count := by
              have hc := h.count
              rw [hcount] at hc
              exact hc
            idle := fun hi => by
              rw [hexecuting] at hi
              contradiction
            executing := fun _ => ⟨hreason, Or.inl rfl⟩ }
        · have hcounter : c.counter = ⟨c.nextOrderId, none, record.id :: queue.map (·.id)⟩ := by
            rw [counter, hactive, hqueue]
            rfl
          rw [hcounter]
          simp [Outcome.ticketEvents, ticketEvent, Transition.run, Tickets.step, counter,
            AutopilotOrderRecord.withState]

theorem account_fail (reason : AutopilotReason) :
    Account c (c.perform (.failActive time reason)) := by
  show Account c ((c.failActive time reason).map id .order)
  unfold failActive
  cases hactive : c.active with
  | none => exact account_unchanged h rfl
  | some record =>
      let failed : AutopilotController := { c with
        active := some (record.withState .Failed)
        state := .Blocked
        blockingReason := some reason }
      let outcomes : List Outcome := [⟨time, some record.id, .OrderFailed, some reason⟩,
        ⟨time, some record.id, .Blocked, some reason⟩]
      show Account c (failed.recordOutcomes outcomes, .order (some record.id))
      refine ⟨outcomes, Accounted.recorded failed _ outcomes ?_ rfl rfl two_le_max_feedback ?_ rfl
        rfl (fun he => by simp [outcomes] at he)⟩
      · have hold : ∀ r ∈ c.orders, 0 < r.id ∧ r.order.validate = .ok () := h.orders
        rw [AutopilotController.orders, hactive] at hold
        exact { h with
          orders := by
            intro r hr
            rcases List.mem_cons.mp hr with rfl | hr
            · exact hold record List.mem_cons_self
            · exact hold r (List.mem_cons_of_mem _ hr)
          running := by
            rintro r ⟨⟩
            rfl
          reason := fun _ => rfl
          count := by
            have hc := h.count
            rw [orderCount, hactive] at hc
            exact hc
          idle := fun hi => by contradiction
          executing := fun he => by contradiction
          blocked := fun _ => rfl }
      · have hcounter : c.counter = ⟨c.nextOrderId, some record.id, c.queue.map (·.id)⟩ := by
          rw [counter, hactive, Option.map_some]
        rw [hcounter]
        simp [outcomes, failed, Outcome.ticketEvents, ticketEvent, Transition.run, Tickets.step,
          counter, AutopilotOrderRecord.withState]

theorem Coherent.idle_or_executing (queue : List AutopilotOrderRecord)
    (hqueue : queue.Sublist c.queue) (state : AutopilotState)
    (hstate : state = if c.state = .Paused then c.state else if queue.isEmpty then .Idle else .Executing) :
    { c with active := none, queue := queue, blockingReason := none, state := state }.Coherent := by
  subst hstate
  exact { h with
    orders := fun r hr => h.orders r (List.mem_append_right _ (hqueue.subset hr))
    queued := fun r hr => h.queued r (hqueue.subset hr)
    running := fun r hr => by contradiction
    reason := fun hr => by contradiction
    count := by
      have hc := h.count
      have hl := hqueue.length_le
      rw [orderCount] at hc
      simp only [orderCount, Option.isSome_none, Bool.false_eq_true, if_false]
      omega
    idle := by
      intro hi
      by_cases hpaused : c.state = .Paused
      · rw [if_pos hpaused, hpaused] at hi
        contradiction
      · rw [if_neg hpaused] at hi
        split at hi
        · next hempty => exact ⟨rfl, List.isEmpty_iff.mp hempty⟩
        · contradiction
    executing := by
      intro he
      by_cases hpaused : c.state = .Paused
      · rw [if_pos hpaused, hpaused] at he
        contradiction
      · rw [if_neg hpaused] at he
        split at he
        · contradiction
        · next hfull => exact ⟨rfl, Or.inr fun hq => hfull (List.isEmpty_iff.mpr hq)⟩
    blocked := by
      intro hb
      by_cases hpaused : c.state = .Paused
      · rw [if_pos hpaused, hpaused] at hb
        contradiction
      · rw [if_neg hpaused] at hb
        split at hb <;> contradiction }

theorem account_complete (hexecuting : c.state = .Executing) :
    Account c (c.perform (.completeActive time)) := by
  show Account c ((c.completeActive time).map id .order)
  unfold completeActive
  cases hactive : c.active with
  | none => exact account_unchanged h rfl
  | some record =>
      have hd := h.idle_or_executing c.queue (List.Sublist.refl _)
        (if c.queue.isEmpty then .Idle else .Executing) (by simp [hexecuting])
      have hreason := (h.executing hexecuting).1
      rw [hreason.symm] at hd
      refine account_outcome { c with
        active := none, state := if c.queue.isEmpty then .Idle else .Executing } _
        ⟨time, some record.id, .OrderSucceeded, none⟩ hd rfl rfl ?_ rfl rfl
        (fun he => by contradiction)
      have hcounter : c.counter = ⟨c.nextOrderId, some record.id, c.queue.map (·.id)⟩ := by
        rw [counter, hactive, Option.map_some]
      rw [hcounter]
      simp [Outcome.ticketEvents, ticketEvent, Transition.run, Tickets.step, counter]

omit h in
theorem map_eraseIdx (queue : List AutopilotOrderRecord) (index : Nat)
    (hi : queue.findIdx? (fun record => record.id = orderId) = some index) :
    orderId ∈ queue.map (·.id) ∧
      (queue.eraseIdx index).map (·.id) = (queue.map (·.id)).erase orderId := by
  induction queue generalizing index with
  | nil => simp at hi
  | cons record queue ih =>
      rw [List.findIdx?_cons] at hi
      by_cases hid : record.id = orderId
      · rw [if_pos (decide_eq_true hid), Option.some.injEq] at hi
        subst hi
        simp [hid]
      · rw [if_neg (by simpa using hid), Option.map_eq_some_iff] at hi
        obtain ⟨later, hl, rfl⟩ := hi
        obtain ⟨hm, he⟩ := ih later hl
        rw [List.eraseIdx_cons_succ, List.map_cons, List.map_cons, he,
          List.erase_cons_tail (by simpa using hid)]
        exact ⟨List.mem_cons_of_mem _ hm, rfl⟩

omit h in
theorem released_recordOutcome (d : AutopilotController) (revision : Nat) (outcome : Outcome) :
    { d.recordOutcome outcome with revision := revision }.released =
      ({ d with revision := revision }.released).recordOutcome outcome := by
  obtain ⟨_, _, _, _, _, _ | _, _, _, _, _⟩ := d <;> rfl

omit h in
theorem counter_takeOrder {taken : AutopilotController} (ht : c.takeOrder orderId = some taken) :
    Tickets.step c.counter (.closed orderId) = some taken.counter ∧
      ((taken = { c with active := none }) ∨
        ∃ queue : List AutopilotOrderRecord, queue.Sublist c.queue ∧
          taken = { c with queue := queue }) := by
  unfold takeOrder at ht
  by_cases hactive : c.active.any (fun record => record.id = orderId)
  · rw [if_pos hactive] at ht
    injection ht with ht
    subst ht
    refine ⟨?_, Or.inl rfl⟩
    have hserving : c.counter.serving = some orderId := by
      rw [counter]
      cases hrecord : c.active with
      | none =>
          rw [hrecord] at hactive
          contradiction
      | some record =>
          rw [hrecord] at hactive
          exact congrArg some (of_decide_eq_true hactive)
    rw [Tickets.step, if_pos hserving]
    rfl
  · rw [if_neg hactive, Option.map_eq_some_iff] at ht
    obtain ⟨index, hindex, rfl⟩ := ht
    obtain ⟨hmem, herase⟩ := map_eraseIdx orderId c.queue index hindex
    refine ⟨?_, Or.inr ⟨_, List.eraseIdx_sublist _ _, rfl⟩⟩
    have hserving : c.counter.serving ≠ some orderId := by
      intro hs
      obtain ⟨record, hrecord, hid⟩ := Option.map_eq_some_iff.mp hs
      exact hactive (by simp [hrecord, hid])
    have hwaiting : orderId ∈ c.counter.waiting := hmem
    rw [Tickets.step, if_neg hserving, if_pos hwaiting, counter, counter, herase]

theorem Coherent.released (taken : AutopilotController) (revision : Nat)
    (ht : (taken = { c with active := none }) ∨
      ∃ queue : List AutopilotOrderRecord, queue.Sublist c.queue ∧
        taken = { c with queue := queue }) :
    ({ taken with revision := revision }.released).Coherent := by
  have hrelease : ∀ queue : List AutopilotOrderRecord, queue.Sublist c.queue →
      ({ c with active := none, queue := queue, revision := revision }.released).Coherent := by
    intro queue hqueue
    have hd := h.idle_or_executing queue hqueue _ rfl
    exact { hd with }
  rcases ht with rfl | ⟨queue, hqueue, rfl⟩
  · exact hrelease c.queue (List.Sublist.refl _)
  · by_cases hsome : c.active.isSome
    · have hkept : ({ c with queue := queue, revision := revision } :
          AutopilotController).released = { c with queue := queue, revision := revision } := by
        rw [AutopilotController.released, if_neg]
        rw [Option.isNone_iff_eq_none]
        exact Option.isSome_iff_ne_none.mp hsome
      rw [hkept]
      exact { h with
        orders := fun r hr =>
          h.orders r (((List.Sublist.refl _).append hqueue).subset hr)
        queued := fun r hr => h.queued r (hqueue.subset hr)
        count := by
          have hc := h.count
          have hl := hqueue.length_le
          rw [orderCount] at hc
          simp only [orderCount]
          omega
        idle := fun hi => by
          rw [(h.idle hi).1] at hsome
          contradiction
        executing := fun he => ⟨(h.executing he).1, Or.inl hsome⟩ }
    · have hactive : c.active = none := by simpa using hsome
      have hnone : ({ c with queue := queue, revision := revision } : AutopilotController) =
          { c with active := none, queue := queue, revision := revision } := by
        simp only [hactive]
      rw [hnone]
      exact hrelease queue hqueue

omit h in
theorem counter_released (d : AutopilotController) : d.released.counter = d.counter := by
  unfold released
  split <;> rfl

include hrevision in
theorem account_cancel : Account c (c.perform (.cancel orderId revision)) := by
  refine account_attempt h _ _ _ (fun _ => rfl) fun _ _ => ?_
  cases htake : c.takeOrder orderId with
  | none => exact account_unchanged h rfl
  | some taken =>
      obtain ⟨hstep, hshape⟩ := counter_takeOrder orderId htake
      have hkept : taken.revision = c.revision ∧ taken.feedback = c.feedback ∧
          taken.nextFeedbackSequence = c.nextFeedbackSequence := by
        obtain rfl | ⟨queue, -, rfl⟩ := hshape <;> exact ⟨rfl, rfl, rfl⟩
      obtain ⟨hr, hf, hs⟩ := hkept
      refine account_bump _ (hr ▸ hrevision) ?_
      let outcome : Outcome := ⟨0, some orderId, .OrderCanceled, none⟩
      show Account c ({ taken.recordOutcome outcome with revision := taken.revision + 1 }.released,
        .canceled (.ok true))
      rw [released_recordOutcome]
      refine account_outcome _ _ outcome (h.released taken _ hshape) ?_ ?_ ?_ rfl rfl
        (fun he => by contradiction)
      · rw [← hf, AutopilotController.released]
        split <;> rfl
      · rw [← hs, AutopilotController.released]
        split <;> rfl
      · rw [counter_released]
        exact (Transition.run_cons_eq_some _ _ _ _ _).mpr ⟨_, hstep, rfl⟩

end AutopilotController

end StompyMux.Autopilot
