import StompyMux.Autopilot.Congestion

-- What the retries of a controller keep over any sequence of calls.
namespace StompyMux.Autopilot

open Library

namespace Watch

structure Held (w : Watch) : Prop where
  early : w.congestion.early = w.early ∧ w.early ≤ RETRIES
  timed : w.congestion.timed = w.timed.length ∧ w.timed.length ≤ RETRIES
  left : w.congestion.waiting = true → w.timed.length < RETRIES
  cells : w.congestion.cells = Smallest.smallest WATCH_LIMIT w.seen
  deadline : 0 ≤ w.congestion.deadline ∧ w.congestion.deadline ≤ I64_MAX
  unset : w.congestion.deadline = 0 →
    w.congestion.waiting = false ∧ w.congestion.lastStart ≠ some .Early ∧ w.timed = []
  clock : 0 ≤ w.clock
  times : ∀ t ∈ w.timed, t ≤ w.clock
  checks : w.checks.Pairwise (fun a b => a.1 + POLL_SECONDS ≤ b.1)
  before : ∀ check ∈ w.checks, check.1 < check.2
  checked : ∀ check ∈ w.checks,
    check.1 ≤ w.clock ∧ saturatingAdd check.1 POLL_SECONDS ≤ w.congestion.pollAt

theorem held_new : Held new where
  early := ⟨rfl, by decide⟩
  timed := ⟨rfl, by decide⟩
  left := fun h => by cases h
  cells := (Smallest.smallest_nil _).symm
  deadline := by decide
  unset := fun _ => ⟨rfl, by decide, rfl⟩
  clock := by decide
  times := fun t ht => by cases ht
  checks := .nil
  before := fun check hcheck => by cases hcheck
  checked := fun check hcheck => by cases hcheck

variable (w : Watch) (h : Held w) (now : Int) (hclock : w.clock ≤ now)

include h

theorem Held.drop : Held { w with searching := false } := { h with }

theorem Held.remember (cell : Cell) :
    Held { w with
      congestion := { w.congestion with cells := Autopilot.remember w.congestion.cells cell },
      seen := w.seen ++ [cell] } := by
  have hcells : Smallest.keep WATCH_LIMIT w.congestion.cells cell =
      Smallest.smallest WATCH_LIMIT (w.seen ++ [cell]) := by rw [h.cells, Smallest.keep_smallest]
  exact { h with cells := hcells }

include hclock

theorem Held.later : Held { w with clock := now } :=
  { h with
    clock := Int.le_trans h.clock hclock
    times := fun t ht => Int.le_trans (h.times t ht) hclock
    checked := fun check hcheck =>
      ⟨Int.le_trans (h.checked check hcheck).1 hclock, (h.checked check hcheck).2⟩ }

-- A check comes no earlier than the poll time that the last one set, and before the deadline.
theorem Held.poll (cleared : Bool) (hpoll : w.congestion.shouldPoll now = true) :
    Held { w with
      congestion := w.congestion.polled now cleared, clock := now,
      checks := w.checks ++ [(now, w.congestion.deadline)] } := by
  simp only [Congestion.shouldPoll, Bool.and_eq_true, decide_eq_true_eq] at hpoll
  obtain ⟨⟨⟨⟨-, hdeadline⟩, -⟩, -⟩, hat⟩ := hpoll
  have hlater := h.later w now hclock
  have hapart : ∀ check ∈ w.checks, check.1 + POLL_SECONDS ≤ now := by
    intro check hcheck
    have hset := (h.checked check hcheck).2
    have hbound := h.deadline.2
    unfold saturatingAdd at hset
    omega
  exact { hlater with
    checks := List.pairwise_append.mpr ⟨h.checks, List.pairwise_singleton _ _, fun check hcheck other hother => by
      rw [List.mem_singleton.mp hother]
      exact hapart check hcheck⟩
    before := fun check hcheck => by
      rcases List.mem_append.mp hcheck with hold | hnew
      · exact h.before check hold
      · rw [List.mem_singleton.mp hnew]
        exact hdeadline
    checked := fun check hcheck => by
      rcases List.mem_append.mp hcheck with hold | hnew
      · have hcheck := hapart check hold
        refine ⟨(hlater.checked check hold).1, ?_⟩
        show saturatingAdd check.1 POLL_SECONDS ≤ saturatingAdd now POLL_SECONDS
        unfold saturatingAdd POLL_SECONDS at *
        omega
      · rw [List.mem_singleton.mp hnew]
        exact ⟨Int.le_refl _, Int.le_refl _⟩ }

theorem Held.fail (hpos : 0 < now) (hmax : now ≤ I64_MAX) : Held { w with
    congestion := (w.congestion.failed now).2, searching := false, clock := now } := by
  have hlater := h.later w now hclock
  unfold Congestion.failed
  split
  · exact { hlater with }
  · rename_i hopen
    simp only [Bool.or_eq_true, decide_eq_true_eq, not_or, not_le] at hopen
    have hdeadline : 0 < (if w.congestion.deadline = 0 ∨ w.congestion.lastStart = some .Timed then
        saturatingAdd now RETRY_SECONDS else w.congestion.deadline) ∧
        (if w.congestion.deadline = 0 ∨ w.congestion.lastStart = some .Timed then
        saturatingAdd now RETRY_SECONDS else w.congestion.deadline) ≤ I64_MAX := by
      have hbound := h.deadline
      unfold saturatingAdd RETRY_SECONDS I64_MAX at *
      split <;> omega
    exact { hlater with
      left := fun _ => h.timed.1 ▸ hopen.2
      deadline := ⟨Int.le_of_lt hdeadline.1, hdeadline.2⟩
      unset := fun hzero => absurd hzero (Int.ne_of_gt hdeadline.1)
      checked := fun check hcheck => by
        have hle := (hlater.checked check hcheck).1
        refine ⟨hle, ?_⟩
        show saturatingAdd check.1 POLL_SECONDS ≤ saturatingAdd now POLL_SECONDS
        unfold saturatingAdd POLL_SECONDS at *
        have hle : check.1 ≤ now := hle
        omega }

omit h hclock in
theorem eligible_cases :
    (w.congestion.eligible now = none) ∨
      (w.congestion.eligible now = some .Early ∧ w.congestion.waiting = true ∧
        w.congestion.early < RETRIES) ∨
      (w.congestion.eligible now = some .Timed ∧ w.congestion.waiting = true ∧
        w.congestion.deadline ≤ now) := by
  unfold Congestion.eligible
  cases hwait : w.congestion.waiting with
  | false => exact .inl rfl
  | true =>
      by_cases hdeadline : w.congestion.deadline ≤ now
      · exact .inr (.inr ⟨by simp [hdeadline], rfl, hdeadline⟩)
      · by_cases hcleared : w.congestion.cleared && w.congestion.early < RETRIES
        · have hearly : w.congestion.early < RETRIES :=
            of_decide_eq_true (Bool.and_eq_true _ _ ▸ hcleared).2
          exact .inr (.inl ⟨by simp [hdeadline, hcleared], rfl, hearly⟩)
        · exact .inl (by simp [hdeadline, hcleared])

theorem Held.start : Held { w.begin now with clock := now } := by
  have hlater := h.later w now hclock
  have hwaiting : w.congestion.waiting = true → w.congestion.deadline ≠ 0 :=
    fun hwait hzero => by simp [(h.unset hzero).1] at hwait
  unfold begin
  rcases w.eligible_cases now with hnone | ⟨hretry, hwait, hless⟩ | ⟨hretry, hwait, hdue⟩
  · rw [hnone]
    exact { hlater with
      left := fun hwait => by cases hwait
      cells := (Smallest.smallest_nil _).symm
      unset := fun hzero => ⟨rfl, (fun hlast => by cases hlast), (h.unset hzero).2.2⟩ }
  · rw [hretry]
    exact { hlater with
      early := ⟨congrArg (· + 1) h.early.1, h.early.1 ▸ hless⟩
      left := fun hwait => by cases hwait
      cells := (Smallest.smallest_nil _).symm
      unset := fun hzero => absurd hzero (hwaiting hwait) }
  · rw [hretry]
    have hleft := h.left hwait
    exact { hlater with
      timed := by
        have hcount := h.timed.1
        constructor
        · show w.congestion.timed + 1 = (w.timed ++ [now]).length
          rw [hcount, List.length_append, List.length_singleton]
        · show (w.timed ++ [now]).length ≤ RETRIES
          rw [List.length_append, List.length_singleton]
          exact hleft
      left := fun hwait => by cases hwait
      cells := (Smallest.smallest_nil _).symm
      unset := fun hzero => absurd hzero (hwaiting hwait)
      times := fun t ht => by
        rcases List.mem_append.mp ht with hold | hnew
        · exact hlater.times t hold
        · exact Int.le_of_eq (List.mem_singleton.mp hnew) }

omit h hclock in
theorem step_cases (call : CongestionCall) (next : Watch) (hstep : w.step call = some next) :
    w.permits call = true ∧
      (∀ now, call.time = some now → 0 < now ∧ w.clock ≤ now ∧ now ≤ I64_MAX) ∧
      next = { w.apply call with clock := call.time.getD w.clock } := by
  unfold step at hstep
  split at hstep
  · rename_i henabled
    rw [Bool.and_eq_true] at henabled
    refine ⟨henabled.1, fun now hnow => ?_, (Option.some.inj hstep).symm⟩
    have htime := henabled.2
    rw [onTime, hnow] at htime
    simpa [and_assoc] using htime
  · cases hstep

omit hclock in
theorem Held.step (call : CongestionCall) (next : Watch) (hstep : w.step call = some next) :
    Held next := by
  obtain ⟨hpermits, htime, rfl⟩ := w.step_cases call next hstep
  cases call with
  | poll now cleared => exact h.poll w now (htime now rfl).2.1 cleared hpermits
  | start now => exact h.start w now (htime now rfl).2.1
  | remember cell => exact h.remember w cell
  | fail now =>
      obtain ⟨hpos, hclock, hmax⟩ := htime now rfl
      exact h.fail w now hclock hpos hmax
  | drop => exact h.drop w

end Watch

-- A failure that starts a wait leaves the next timed start at least thirty seconds after the last
-- one: the failure comes that late, or the deadline it keeps or sets does.
def Watch.Patient (w : Watch) : CongestionCall → Prop
  | .fail now => w.congestion.cells ≠ [] → w.congestion.timed < RETRIES → ∀ t ∈ w.timed,
      t + RETRY_SECONDS ≤ now ∨
      (w.congestion.lastStart = some .Timed ∧ t + RETRY_SECONDS ≤ I64_MAX) ∨
      (w.congestion.lastStart ≠ some .Timed ∧ t + RETRY_SECONDS ≤ w.congestion.deadline)
  | _ => True

def Watch.Patiently (w : Watch) : List CongestionCall → Prop
  | [] => True
  | call :: calls => w.Patient call ∧ ∀ next ∈ w.step call, next.Patiently calls

instance Watch.decidablePatient (w : Watch) : (call : CongestionCall) → Decidable (w.Patient call)
  | .fail now => inferInstanceAs (Decidable (w.congestion.cells ≠ [] →
      w.congestion.timed < RETRIES → ∀ t ∈ w.timed, t + RETRY_SECONDS ≤ now ∨
      (w.congestion.lastStart = some .Timed ∧ t + RETRY_SECONDS ≤ I64_MAX) ∨
      (w.congestion.lastStart ≠ some .Timed ∧ t + RETRY_SECONDS ≤ w.congestion.deadline)))
  | .poll .. | .start .. | .remember .. | .drop => isTrue trivial

instance Watch.decidablePatiently :
    (calls : List CongestionCall) → (w : Watch) → Decidable (w.Patiently calls)
  | [], _ => isTrue trivial
  | call :: calls, w =>
      have (next : Watch) : Decidable (next.Patiently calls) := decidablePatiently calls next
      inferInstanceAs (Decidable (w.Patient call ∧ ∀ next ∈ w.step call, next.Patiently calls))

namespace Watch

structure Paced (w : Watch) : Prop where
  apart : w.timed.Pairwise (fun a b => a + RETRY_SECONDS ≤ b)
  next : w.congestion.waiting = true →
    ∀ t ∈ w.timed, t + RETRY_SECONDS ≤ max w.congestion.deadline w.clock

variable (w : Watch) (h : Held w) (hpaced : Paced w)

include hpaced

theorem Paced.later (now : Int) (hclock : w.clock ≤ now) (hwait : w.congestion.waiting = true) :
    ∀ t ∈ w.timed, t + RETRY_SECONDS ≤ max w.congestion.deadline now := by
  intro t ht
  have hnext := hpaced.next hwait t ht
  omega

theorem Paced.start (now : Int) (hclock : w.clock ≤ now) :
    Paced { w.begin now with clock := now } := by
  unfold begin
  rcases w.eligible_cases now with hnone | ⟨hretry, -, -⟩ | ⟨hretry, hwait, hdue⟩
  · rw [hnone]
    exact ⟨hpaced.apart, fun hwait => by cases hwait⟩
  · rw [hretry]
    exact ⟨hpaced.apart, fun hwait => by cases hwait⟩
  · rw [hretry]
    refine ⟨List.pairwise_append.mpr ⟨hpaced.apart, List.pairwise_singleton _ _, ?_⟩,
      fun hwait => by cases hwait⟩
    intro t ht other hother
    have hnext := hpaced.later w now hclock hwait t ht
    rw [List.mem_singleton.mp hother]
    omega

include h

-- Whether the deadline is kept or moved, the next timed start is far enough from the last one.
theorem Paced.fail (now : Int) (hclock : w.clock ≤ now) (hpatient : w.Patient (.fail now)) :
    Paced { w with congestion := (w.congestion.failed now).2, searching := false, clock := now } := by
  unfold Congestion.failed
  split
  · exact ⟨hpaced.apart, hpaced.later w now hclock⟩
  · rename_i hopen
    simp only [Bool.or_eq_true, List.isEmpty_iff, decide_eq_true_eq, not_or, not_le] at hopen
    refine ⟨hpaced.apart, fun _ t ht => ?_⟩
    have hpast := Int.le_trans (h.times t ht) hclock
    show t + RETRY_SECONDS ≤ max (if w.congestion.deadline = 0 ∨ w.congestion.lastStart = some .Timed
      then saturatingAdd now RETRY_SECONDS else w.congestion.deadline) now
    rcases hpatient hopen.1 hopen.2 t ht with hlate | ⟨hlast, hfits⟩ | ⟨hlast, hkept⟩
    · omega
    · rw [if_pos (.inr hlast)]
      unfold saturatingAdd
      omega
    · have hset : w.congestion.deadline ≠ 0 := fun hzero => by
        rw [(h.unset hzero).2.2] at ht
        cases ht
      rw [if_neg (by simp [hset, hlast])]
      omega

theorem Paced.step (call : CongestionCall) (next : Watch) (hpatient : w.Patient call)
    (hstep : w.step call = some next) : Paced next := by
  obtain ⟨-, htime, rfl⟩ := w.step_cases call next hstep
  cases call with
  | poll now cleared => exact ⟨hpaced.apart, hpaced.later w now (htime now rfl).2.1⟩
  | start now => exact hpaced.start w now (htime now rfl).2.1
  | remember cell => exact ⟨hpaced.apart, hpaced.next⟩
  | fail now => exact hpaced.fail w h now (htime now rfl).2.1 hpatient
  | drop => exact ⟨hpaced.apart, hpaced.next⟩

omit h hpaced

theorem held_run {calls : List CongestionCall} (hrun : Transition.run step new calls = some w) :
    Held w :=
  Transition.run_invariant step Held (fun state call next hstate => hstate.step state call next)
    calls new w held_new hrun

theorem Paced.run (calls : List CongestionCall) (final : Watch) (h : Held w) (hpaced : Paced w)
    (hpatient : w.Patiently calls) (hrun : Transition.run Watch.step w calls = some final) :
    Paced final := by
  induction calls generalizing w with
  | nil =>
      cases hrun
      exact hpaced
  | cons call calls ih =>
      obtain ⟨next, hstep, hrest⟩ := (Transition.run_cons_eq_some Watch.step w call calls final).mp hrun
      exact ih next (h.step w call next hstep) (hpaced.step w h call next hpatient.1 hstep)
        (hpatient.2 next hstep) hrest

-- The deadline that a failure leaves when it starts a wait.
theorem step_fail {now : Int} {next : Watch} (hcells : w.congestion.cells ≠ [])
    (hleft : w.congestion.timed < RETRIES) (hstep : w.step (.fail now) = some next) :
    next.searching = false ∧ next.clock = now ∧ next.timed = w.timed ∧
      next.congestion.waiting = true ∧
      next.congestion.deadline = (if w.congestion.deadline = 0 ∨ w.congestion.lastStart = some .Timed
        then saturatingAdd now RETRY_SECONDS else w.congestion.deadline) := by
  obtain ⟨-, -, rfl⟩ := w.step_cases _ next hstep
  have hopen : ¬ (w.congestion.cells.isEmpty || RETRIES ≤ w.congestion.timed) = true := by
    simp [hcells, hleft]
  refine ⟨rfl, rfl, rfl, ?_, ?_⟩
  · show (w.congestion.failed now).2.waiting = true
    rw [Congestion.failed, if_neg hopen]
  · show (w.congestion.failed now).2.deadline = _
    rw [Congestion.failed, if_neg hopen]

-- A waiting controller may start a timed retry at its deadline and after it.
theorem step_timed (now : Int) (hidle : w.searching = false) (hwait : w.congestion.waiting = true)
    (hdue : w.congestion.deadline ≤ now) (hpos : 0 < now) (hclock : w.clock ≤ now)
    (hmax : now ≤ I64_MAX) :
    ∃ after, w.step (.start now) = some after ∧ after.timed = w.timed ++ [now] := by
  have hretry : w.congestion.eligible now = some .Timed := by
    simp [Congestion.eligible, hwait, hdue]
  refine ⟨{ w.begin now with clock := now }, ?_, ?_⟩
  · unfold step
    rw [if_pos (by simp [permits, onTime, CongestionCall.time, hidle, hretry, hpos, hclock, hmax])]
    rfl
  · simp [begin, hretry]

-- After a failure that is not patient a timed start may follow too early.
theorem impatient (h : Held w) (now : Int) (hpatient : ¬ w.Patient (.fail now)) (next : Watch)
    (hstep : w.step (.fail now) = some next) :
    ∃ later after, next.step (.start later) = some after ∧
      ¬ after.timed.Pairwise (fun a b => a + RETRY_SECONDS ≤ b) := by
  simp only [Patient, not_forall, not_or, not_and] at hpatient
  obtain ⟨hcells, hleft, t, ht, hearly, hrenewed, hkept⟩ := hpatient
  obtain ⟨-, htime, -⟩ := w.step_cases _ next hstep
  obtain ⟨hpos, -, hmax⟩ := htime now rfl
  obtain ⟨hidle, hclock, htimed, hwait, hdeadline⟩ := w.step_fail hcells hleft hstep
  have hbound := (h.step w _ next hstep).deadline.2
  have hsoon : next.congestion.deadline < t + RETRY_SECONDS := by
    have hset : w.congestion.deadline ≠ 0 := fun hzero => by
      rw [(h.unset hzero).2.2] at ht
      cases ht
    by_cases hlast : w.congestion.lastStart = some .Timed
    · have hover := hrenewed hlast
      omega
    · have hshort := hkept hlast
      rw [hdeadline, if_neg (by simp [hset, hlast])]
      omega
  obtain ⟨after, hafter, hstarts⟩ := next.step_timed (max now next.congestion.deadline) hidle hwait
    (by omega) (by omega) (by omega) (by omega)
  refine ⟨_, after, hafter, fun hapart => ?_⟩
  rw [hstarts, htimed] at hapart
  have hfar := (List.pairwise_append.mp hapart).2.2 t ht _ List.mem_cons_self
  omega

-- At most three early and three timed starts; timed starts stand thirty seconds apart while no
-- failure is impatient; an early failure keeps the deadline; checks stand five seconds apart, before
-- the deadline; and the watched cells are the smallest of those remembered.
theorem congestion_retries (calls : List CongestionCall)
    (hrun : Transition.run step new calls = some w) :
    (w.early ≤ RETRIES ∧ w.timed.length ≤ RETRIES) ∧
    (new.Patiently calls → w.timed.Pairwise (fun a b => a + RETRY_SECONDS ≤ b)) ∧
    (w.congestion.lastStart = some .Early → ∀ now,
      (w.congestion.failed now).2.deadline = w.congestion.deadline) ∧
    (w.checks.Pairwise (fun a b => a.1 + POLL_SECONDS ≤ b.1) ∧
      ∀ check ∈ w.checks, check.1 < check.2) ∧
    w.congestion.cells = Smallest.smallest WATCH_LIMIT w.seen := by
  have hheld := held_run w hrun
  refine ⟨⟨hheld.early.2, hheld.timed.2⟩, fun hpatient => ?_, fun hlast now => ?_,
    ⟨hheld.checks, hheld.before⟩, hheld.cells⟩
  · have hpaced : Paced new := ⟨.nil, fun hwait => by cases hwait⟩
    exact (hpaced.run new calls w held_new hpatient hrun).apart
  · have hset : w.congestion.deadline ≠ 0 := fun hzero => (hheld.unset hzero).2.1 hlast
    unfold Congestion.failed
    split
    · rfl
    · simp [hset, hlast]

end Watch

namespace Watch.Reading

-- A search fails in a crowd, as do an early retry and the timed one at the deadline.
def crowded : List CongestionCall :=
  [.start 1, .remember (1, 1), .fail 1, .poll 6 true, .start 6, .remember (1, 1), .fail 6,
    .start 31, .remember (1, 1), .fail 31, .start 61]

theorem congestion_retries_crowded : ∃ w, Transition.run Watch.step new crowded = some w ∧
    w.early = 1 ∧ w.timed = [31, 61] ∧ w.checks = [(6, 31)] ∧
    (w.timed.Pairwise fun a b => a + RETRY_SECONDS ≤ b) := by
  have hrun : (Transition.run Watch.step new crowded).map
      (fun w => (w.early, w.timed, w.checks)) = some (1, [31, 61], [(6, 31)]) := by decide +kernel
  obtain ⟨w, hw, hview⟩ := Option.map_eq_some_iff.mp hrun
  simp only [Prod.mk.injEq] at hview
  exact ⟨w, hw, hview.1, hview.2.1, hview.2.2,
    (congestion_retries w crowded hw).2.1 (by decide +kernel)⟩

-- The search of a timed retry is given up. The next one fails a second later, and the deadline
-- that has passed lets a timed retry start at once.
def dropped : List CongestionCall :=
  [.start 1, .remember (1, 1), .fail 1, .start 31, .drop, .start 32, .remember (1, 1), .fail 32,
    .start 32]

theorem timed_retry_hurries : ∃ w, Transition.run Watch.step new dropped = some w ∧
    w.timed = [31, 32] ∧ ¬ w.timed.Pairwise (fun a b => a + RETRY_SECONDS ≤ b) := by
  have hrun : (Transition.run Watch.step new dropped).map (·.timed) = some [31, 32] := by
    decide +kernel
  obtain ⟨w, hw, htimed⟩ := Option.map_eq_some_iff.mp hrun
  exact ⟨w, hw, htimed, htimed ▸ by decide⟩

end Watch.Reading

end StompyMux.Autopilot
