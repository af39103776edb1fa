import Mathlib.Algebra.Order.Ring.Nat
import Mathlib.Data.List.Basic
import Mathlib.Data.List.Induction
import StompyMux.Library.Machine

-- Damage windows of staggering: at most one check in each turn of thirty seconds.
namespace StompyMux.Btech

open Library

-- The phase counts the seconds of a turn of the unit.
structure Stagger where
  turnDamage : Nat
  phase : Nat
  checkedPhase : Option Nat
  deriving DecidableEq

-- A unit that is down takes its check without a roll.
inductive StaggerSecond
  | Waited
  | Expired
  | Passed
  | Rolled
  deriving DecidableEq

def StaggerSecond.checked : StaggerSecond → Bool
  | .Waited | .Expired => false
  | .Passed | .Rolled => true

namespace Stagger

def default : Stagger := ⟨0, 0, none⟩

variable (s : Stagger)

def record (damage : UInt16) : Stagger :=
  { s with turnDamage := min (s.turnDamage + damage.toNat) U32_MAX }

-- A completed fall ends the accounting and leaves the phase.
def clearDamage : Stagger := { s with turnDamage := 0 }

-- One second of a unit that is down (prone or airborne) or not.
def advance (down : Bool) : Stagger × StaggerSecond :=
  let phase := (s.phase + 1) % 30
  if s.turnDamage < 20 ∨ s.checkedPhase.any (· ≠ phase) then
    if s.checkedPhase = some phase ∨ (s.checkedPhase = none ∧ phase = 0) then
      (⟨0, phase, none⟩, .Expired)
    else (⟨s.turnDamage, phase, s.checkedPhase⟩, .Waited)
  else (⟨0, phase, some phase⟩, if down then .Passed else .Rolled)

end Stagger

inductive StaggerEvent
  | hit (damage : UInt16)
  | fall
  | second (down : Bool)
  deriving DecidableEq

-- What an observer of the counter writes down.
inductive StaggerMark
  | points (n : Nat)
  | reset
  | second (down : Bool) (outcome : StaggerSecond)
  deriving DecidableEq

namespace StaggerMark

-- The points recorded after the last reset.
def pointsSinceReset (history : List StaggerMark) : Nat :=
  history.foldl (fun n mark =>
    match mark with
    | .points d => n + d
    | .reset => 0
    | .second .. => n) 0

def seconds (history : List StaggerMark) : List Bool :=
  history.filterMap fun mark =>
    match mark with
    | .second _ outcome => some outcome.checked
    | _ => none

-- Some check was among the last seconds.
def checkedWithin (n : Nat) (history : List StaggerMark) : Prop :=
  true ∈ (seconds history).reverse.take n

variable (history : List StaggerMark) (mark : StaggerMark)

theorem seconds_append (other : List StaggerMark) :
    seconds (history ++ other) = seconds history ++ seconds other := List.filterMap_append ..

theorem pointsSinceReset_points (d : Nat) :
    pointsSinceReset (history ++ [.points d]) = pointsSinceReset history + d := by
  unfold pointsSinceReset
  rw [List.foldl_append]
  rfl

theorem pointsSinceReset_reset : pointsSinceReset (history ++ [.reset]) = 0 := by
  unfold pointsSinceReset
  rw [List.foldl_append]
  rfl

theorem pointsSinceReset_second (down : Bool) (outcome : StaggerSecond) :
    pointsSinceReset (history ++ [.second down outcome]) = pointsSinceReset history := by
  unfold pointsSinceReset
  rw [List.foldl_append]
  rfl

theorem true_mem_take (k n : Nat) (older : List Bool) :
    true ∈ (List.replicate k false ++ true :: older).take n ↔ k < n := by
  rw [List.take_append, List.take_replicate, List.length_replicate, List.mem_append]
  have hnone : true ∉ List.replicate (min n k) false := fun hmem =>
    Bool.noConfusion (List.eq_of_mem_replicate hmem)
  refine ⟨fun hmem => ?_, fun hlt => Or.inr ?_⟩
  · have hmem := hmem.resolve_left hnone
    by_contra hge
    rw [Nat.sub_eq_zero_of_le (by omega), List.take_zero] at hmem
    contradiction
  · obtain ⟨m, hm⟩ := Nat.exists_eq_succ_of_ne_zero (Nat.sub_ne_zero_of_lt hlt)
    rw [hm, List.take_succ_cons]
    exact List.mem_cons_self

end StaggerMark

open StaggerMark

namespace Stagger

variable (s : Stagger)

def secondMarks (down : Bool) : StaggerSecond → List StaggerMark
  | .Waited => [.second down .Waited]
  | outcome => [.second down outcome, .reset]

def step : StaggerEvent → Stagger × List StaggerMark
  | .hit damage => (s.record damage, [.points damage.toNat])
  | .fall => (s.clearDamage, [.reset])
  | .second down => ((s.advance down).1, secondMarks down (s.advance down).2)

-- The counter and its history after some events.
def run (events : List StaggerEvent) : Stagger × List StaggerMark :=
  events.foldl (fun r event => ((r.1.step event).1, r.2 ++ (r.1.step event).2)) (default, [])

theorem run_concat (events : List StaggerEvent) (event : StaggerEvent) :
    run (events ++ [event]) =
      (((run events).1.step event).1, (run events).2 ++ ((run events).1.step event).2) := by
  unfold run
  rw [List.foldl_append]
  rfl

-- The checked phase says how many seconds ago the last check was.
def Cadence (history : List StaggerMark) : Option Nat → Prop
  | none => ¬ checkedWithin 29 history
  | some p => p < 30 ∧ ∃ k < 30, ∃ older, s.phase = (p + k) % 30 ∧
      (seconds history).reverse = List.replicate k false ++ true :: older

structure Tracks (history : List StaggerMark) : Prop where
  phase : s.phase < 30
  damage : s.turnDamage = min (pointsSinceReset history) U32_MAX
  cadence : Cadence s history s.checkedPhase

theorem tracks_default : Tracks default [] where
  phase := by decide
  damage := by decide
  cadence := by simp [default, Cadence, checkedWithin, seconds]

variable {s} {history : List StaggerMark} (h : Tracks s history)

include h

theorem Tracks.twenty_le_iff : 20 ≤ s.turnDamage ↔ 20 ≤ pointsSinceReset history := by
  rw [h.damage, U32_MAX]
  omega

-- The next second returns to the checked phase exactly when a full turn has passed.
theorem Tracks.allowed_iff :
    s.checkedPhase.any (· ≠ (s.phase + 1) % 30) = false ↔ ¬ checkedWithin 29 history := by
  have hcadence := h.cadence
  cases hchecked : s.checkedPhase with
  | none =>
      rw [hchecked] at hcadence
      exact iff_of_true rfl hcadence
  | some p =>
      rw [hchecked] at hcadence
      obtain ⟨hp, k, hk, older, hphase, hseconds⟩ := hcadence
      have hwithin : checkedWithin 29 history ↔ k < 29 := by
        unfold checkedWithin
        rw [hseconds]
        exact true_mem_take k 29 older
      rw [hwithin, Option.any_some, decide_eq_false_iff_not, not_not, hphase]
      omega

theorem Tracks.checked_iff (down : Bool) : (s.advance down).2.checked = true ↔
    20 ≤ pointsSinceReset history ∧ ¬ checkedWithin 29 history := by
  rw [← h.twenty_le_iff, ← h.allowed_iff]
  unfold advance
  by_cases hwait : s.turnDamage < 20 ∨ s.checkedPhase.any (· ≠ (s.phase + 1) % 30)
  · rw [if_pos hwait]
    refine iff_of_false ?_ ?_
    · split <;> simp [StaggerSecond.checked]
    · rintro ⟨hdamage, hallowed⟩
      rcases hwait with hlow | hblocked
      · omega
      · rw [hallowed] at hblocked
        contradiction
  · rw [if_neg hwait]
    obtain ⟨hdamage, hallowed⟩ := not_or.mp hwait
    refine iff_of_true ?_ ⟨Nat.le_of_not_lt hdamage, Bool.eq_false_iff.mpr hallowed⟩
    cases down <;> rfl

theorem Tracks.hit (damage : UInt16) :
    Tracks (s.record damage) (history ++ [.points damage.toNat]) where
  phase := h.phase
  damage := by
    show min (s.turnDamage + damage.toNat) U32_MAX = _
    rw [pointsSinceReset_points, h.damage]
    omega
  cadence := by
    have hcadence := h.cadence
    have hseconds : seconds (history ++ [.points damage.toNat]) = seconds history := by
      rw [seconds_append]
      exact List.append_nil _
    show Cadence (s.record damage) _ s.checkedPhase
    unfold Cadence checkedWithin
    rw [hseconds]
    exact hcadence

theorem Tracks.clear : Tracks s.clearDamage (history ++ [.reset]) where
  phase := h.phase
  damage := by
    rw [pointsSinceReset_reset]
    rfl
  cadence := by
    have hcadence := h.cadence
    have hseconds : seconds (history ++ [.reset]) = seconds history := by
      rw [seconds_append]
      exact List.append_nil _
    show Cadence s.clearDamage _ s.checkedPhase
    unfold Cadence checkedWithin
    rw [hseconds]
    exact hcadence

omit h in
theorem seconds_second (history : List StaggerMark) (down : Bool) (outcome : StaggerSecond) :
    (seconds (history ++ secondMarks down outcome)).reverse =
      outcome.checked :: (seconds history).reverse := by
  rw [seconds_append, List.reverse_append]
  cases outcome <;> rfl

omit h in
theorem pointsSinceReset_seconds (history : List StaggerMark) (down : Bool)
    (outcome : StaggerSecond) : pointsSinceReset (history ++ secondMarks down outcome) =
      if outcome = .Waited then pointsSinceReset history else 0 := by
  have hreset : ∀ outcome', pointsSinceReset (history ++ [.second down outcome', .reset]) = 0 :=
    fun outcome' => by
      rw [List.append_cons]
      exact pointsSinceReset_reset _
  cases outcome with
  | Waited => exact pointsSinceReset_second history down .Waited
  | Expired => exact hreset .Expired
  | Passed => exact hreset .Passed
  | Rolled => exact hreset .Rolled

-- What one second does to the counter.
omit h in
theorem advance_cases (s : Stagger) (down : Bool) :
    (s.advance down = (⟨s.turnDamage, (s.phase + 1) % 30, s.checkedPhase⟩, .Waited) ∧
      s.checkedPhase ≠ some ((s.phase + 1) % 30)) ∨
    (s.advance down = (⟨0, (s.phase + 1) % 30, none⟩, .Expired) ∧
      (s.checkedPhase = none ∨ s.checkedPhase = some ((s.phase + 1) % 30))) ∨
    s.advance down = (⟨0, (s.phase + 1) % 30, some ((s.phase + 1) % 30)⟩,
      if down then .Passed else .Rolled) := by
  unfold advance
  by_cases hwait : s.turnDamage < 20 ∨ s.checkedPhase.any (· ≠ (s.phase + 1) % 30)
  · by_cases hexpired : s.checkedPhase = some ((s.phase + 1) % 30) ∨
        (s.checkedPhase = none ∧ (s.phase + 1) % 30 = 0)
    · refine Or.inr (Or.inl ⟨?_, hexpired.symm.imp_left And.left⟩)
      rw [if_pos hwait, if_pos hexpired]
    · refine Or.inl ⟨?_, fun hsame => hexpired (Or.inl hsame)⟩
      rw [if_pos hwait, if_neg hexpired]
  · exact Or.inr (Or.inr (if_neg hwait))

theorem Tracks.waited (hphase : s.checkedPhase ≠ some ((s.phase + 1) % 30)) (down : Bool) :
    Tracks ⟨s.turnDamage, (s.phase + 1) % 30, s.checkedPhase⟩
      (history ++ secondMarks down .Waited) where
  phase := Nat.mod_lt _ (by decide)
  damage := by
    rw [pointsSinceReset_seconds, if_pos rfl]
    exact h.damage
  cadence := by
    have hcadence := h.cadence
    show Cadence ⟨s.turnDamage, (s.phase + 1) % 30, s.checkedPhase⟩ _ s.checkedPhase
    cases hchecked : s.checkedPhase with
    | none =>
        rw [hchecked] at hcadence
        show true ∉ (seconds _).reverse.take 29
        rw [seconds_second, List.take_succ_cons, List.mem_cons, not_or]
        refine ⟨Bool.noConfusion, fun hmem => hcadence ?_⟩
        exact (List.take_prefix_take_left (by decide)).subset hmem
    | some p =>
        rw [hchecked] at hcadence hphase
        obtain ⟨hp, k, hk, older, hat, hseconds⟩ := hcadence
        rw [Ne, Option.some_inj] at hphase
        refine ⟨hp, k + 1, by omega, older, ?_, ?_⟩
        · show (s.phase + 1) % 30 = _
          omega
        · rw [seconds_second, hseconds, List.replicate_succ, List.cons_append]
          rfl

theorem Tracks.expired (down : Bool)
    (hphase : s.checkedPhase = none ∨ s.checkedPhase = some ((s.phase + 1) % 30)) :
    Tracks ⟨0, (s.phase + 1) % 30, none⟩ (history ++ secondMarks down .Expired) where
  phase := Nat.mod_lt _ (by decide)
  damage := by
    rw [pointsSinceReset_seconds, if_neg nofun]
    rfl
  cadence := by
    have hcadence := h.cadence
    show true ∉ (seconds _).reverse.take 29
    rcases hphase with hnone | hsome
    · rw [hnone] at hcadence
      rw [seconds_second, List.take_succ_cons, List.mem_cons, not_or]
      refine ⟨Bool.noConfusion, fun hmem => hcadence ?_⟩
      exact (List.take_prefix_take_left (by decide)).subset hmem
    · rw [hsome] at hcadence
      obtain ⟨hp, k, hk, older, hat, hseconds⟩ := hcadence
      have hturn : k = 29 := by omega
      rw [seconds_second, hseconds, hturn]
      intro hmem
      have hnear := (true_mem_take 30 29 older).mp hmem
      omega

omit h in
theorem Tracks.checked (down : Bool) :
    Tracks ⟨0, (s.phase + 1) % 30, some ((s.phase + 1) % 30)⟩
      (history ++ secondMarks down (if down then .Passed else .Rolled)) where
  phase := Nat.mod_lt _ (by decide)
  damage := by
    rw [pointsSinceReset_seconds, if_neg (by cases down <;> exact nofun)]
    rfl
  cadence := by
    refine ⟨Nat.mod_lt _ (by decide), 0, by decide, (seconds history).reverse, ?_, ?_⟩
    · show (s.phase + 1) % 30 = _
      omega
    · rw [seconds_second]
      cases down <;> rfl

theorem Tracks.second (down : Bool) : Tracks (s.advance down).1
    (history ++ secondMarks down (s.advance down).2) := by
  rcases advance_cases s down with ⟨hadvance, hphase⟩ | ⟨hadvance, hphase⟩ | hadvance
  · rw [hadvance]
    exact h.waited hphase down
  · rw [hadvance]
    exact h.expired down hphase
  · rw [hadvance]
    exact Tracks.checked down

theorem Tracks.step (event : StaggerEvent) :
    Tracks (s.step event).1 (history ++ (s.step event).2) := by
  cases event with
  | hit damage => exact h.hit damage
  | fall => exact h.clear
  | second down => exact h.second down

omit h in
theorem run_tracks (events : List StaggerEvent) : Tracks (run events).1 (run events).2 := by
  induction events using List.reverseRecOn with
  | nil => exact tracks_default
  | append_singleton events event ih =>
      rw [run_concat]
      exact ih.step event

end Stagger

namespace StaggerMark

def IsCheck : StaggerMark → Prop
  | .second _ outcome => outcome.checked = true
  | _ => False

-- What the seconds of a history were, by what came before each.
def Exact (history : List StaggerMark) : Prop :=
  ∀ before down outcome, before ++ [.second down outcome] <+: history →
    (outcome.checked = true ↔ 20 ≤ pointsSinceReset before ∧ ¬ checkedWithin 29 before) ∧
    (outcome = .Rolled ↔ outcome.checked = true ∧ down = false)

-- The checks are at least a turn apart.
def Spaced (history : List StaggerMark) : Prop :=
  ∀ i j, (seconds history)[i]? = some true → (seconds history)[j]? = some true →
    i < j → i + 30 ≤ j

def Closed (history : List StaggerMark) : Prop :=
  ∀ i mark, history[i]? = some mark → mark.IsCheck → history[i + 1]? = some .reset

-- The points recorded at i still count in the check at j.
def Contributes (history : List StaggerMark) (i j : Nat) : Prop :=
  i < j ∧ (∃ n, history[i]? = some (.points n)) ∧
    (∃ mark, history[j]? = some mark ∧ mark.IsCheck) ∧
    ∀ k, i < k → k < j → history[k]? ≠ some .reset

variable {history : List StaggerMark}

theorem Closed.contributes_unique (h : Closed history) {i j k : Nat}
    (hj : Contributes history i j) (hk : Contributes history i k) : j = k := by
  have hle : ∀ {a b}, Contributes history i a → Contributes history i b → b ≤ a := by
    intro a b ⟨hia, _, ⟨mark, hmark, hcheck⟩, _⟩ ⟨_, _, ⟨other, hother, hothercheck⟩, hkept⟩
    by_contra hlt
    have hreset := h a mark hmark hcheck
    rcases Nat.lt_or_ge (a + 1) b with hbefore | hat
    · exact hkept (a + 1) (by omega) hbefore hreset
    · have hsame : b = a + 1 := by omega
      rw [hsame, hreset, Option.some_inj] at hother
      rw [← hother] at hothercheck
      exact hothercheck
  exact Nat.le_antisymm (hle hk hj) (hle hj hk)

theorem Exact.concat (h : Exact history) (mark : StaggerMark)
    (hmark : ∀ down outcome, mark = .second down outcome →
      (outcome.checked = true ↔ 20 ≤ pointsSinceReset history ∧ ¬ checkedWithin 29 history) ∧
      (outcome = .Rolled ↔ outcome.checked = true ∧ down = false)) :
    Exact (history ++ [mark]) := by
  intro before down outcome hprefix
  rcases List.prefix_concat_iff.mp hprefix with heq | hprefix
  · obtain ⟨rfl, hlast⟩ := List.append_inj' heq rfl
    exact hmark down outcome (List.singleton_inj.mp hlast).symm
  · exact h before down outcome hprefix

theorem Spaced.append_false (h : Spaced history) {other : List StaggerMark}
    (hother : ∀ b ∈ seconds other, b = false) : Spaced (history ++ other) := by
  have hold : ∀ i : Nat, (seconds (history ++ other))[i]? = some true →
      (seconds history)[i]? = some true := by
    intro i hi
    rw [seconds_append] at hi
    rcases Nat.lt_or_ge i (seconds history).length with hlt | hge
    · rwa [List.getElem?_append_left hlt] at hi
    · rw [List.getElem?_append_right hge] at hi
      exact Bool.noConfusion (hother true (List.mem_of_getElem? hi))
  exact fun i j hi hj => h i j (hold i hi) (hold j hj)

-- A check that comes with none in the last 29 seconds keeps the distance.
theorem Spaced.append_check (h : Spaced history) {other : List StaggerMark}
    (hother : seconds other = [true]) (hfree : ¬ checkedWithin 29 history) :
    Spaced (history ++ other) := by
  intro i j hi hj hlt
  rw [seconds_append, hother] at hi hj
  have hjle : j < (seconds history ++ [true]).length := (List.getElem?_eq_some_iff.mp hj).1
  rw [List.length_append, List.length_singleton] at hjle
  have hilt : i < (seconds history).length := by omega
  rw [List.getElem?_append_left hilt] at hi
  rcases Nat.lt_or_ge j (seconds history).length with hjlt | hjge
  · rw [List.getElem?_append_left hjlt] at hj
    exact h i j hi hj hlt
  · by_contra hnear
    refine hfree (List.mem_take_iff_getElem.mpr ⟨(seconds history).length - 1 - i, ?_, ?_⟩)
    · rw [List.length_reverse]
      omega
    · rw [List.getElem_reverse]
      have hat : (seconds history).length - 1 - ((seconds history).length - 1 - i) = i := by omega
      simp only [hat]
      exact (List.getElem?_eq_some_iff.mp hi).2

theorem Closed.append (h : Closed history) {other : List StaggerMark} (hother : Closed other) :
    Closed (history ++ other) := by
  intro i mark hmark hcheck
  rcases Nat.lt_or_ge i history.length with hlt | hge
  · rw [List.getElem?_append_left hlt] at hmark
    have hreset := h i mark hmark hcheck
    rwa [List.getElem?_append_left (List.getElem?_eq_some_iff.mp hreset).1]
  · rw [List.getElem?_append_right hge] at hmark
    rw [List.getElem?_append_right (by omega), Nat.sub_add_comm hge]
    exact hother _ mark hmark hcheck

theorem closed_of_forall (hfree : ∀ mark ∈ history, ¬ mark.IsCheck) : Closed history :=
  fun _ mark hmark hcheck => (hfree mark (List.mem_of_getElem? hmark) hcheck).elim

theorem closed_second (mark : StaggerMark) : Closed [mark, .reset] := by
  intro i other hother hcheck
  match i with
  | 0 => rfl
  | 1 =>
      rw [← Option.some_inj.mp hother] at hcheck
      exact hcheck.elim
  | n + 2 =>
      rw [List.getElem?_eq_none (by simp)] at hother
      contradiction

end StaggerMark

namespace Stagger

variable {s : Stagger} {history : List StaggerMark}

structure Observed (history : List StaggerMark) : Prop where
  due : Exact history
  spaced : Spaced history
  closed : Closed history

theorem Observed.quiet (h : Observed history) (mark : StaggerMark)
    (hmark : ∀ down outcome, mark ≠ .second down outcome) : Observed (history ++ [mark]) where
  due := h.due.concat mark fun down outcome heq => (hmark down outcome heq).elim
  spaced := by
    refine h.spaced.append_false ?_
    cases mark with
    | points n => exact nofun
    | reset => exact nofun
    | second down outcome => exact (hmark down outcome rfl).elim
  closed := by
    refine h.closed.append (closed_of_forall fun other hother => ?_)
    rw [List.mem_singleton.mp hother]
    cases mark with
    | points n => exact id
    | reset => exact id
    | second down outcome => exact (hmark down outcome rfl).elim

theorem rolled_iff (s : Stagger) (down : Bool) :
    (s.advance down).2 = .Rolled ↔ (s.advance down).2.checked = true ∧ down = false := by
  rcases advance_cases s down with ⟨hadvance, _⟩ | ⟨hadvance, _⟩ | hadvance <;> rw [hadvance]
  · exact iff_of_false nofun fun hboth => Bool.noConfusion hboth.1
  · exact iff_of_false nofun fun hboth => Bool.noConfusion hboth.1
  · cases down with
    | true => exact iff_of_false nofun fun hboth => Bool.noConfusion hboth.2
    | false => exact iff_of_true rfl ⟨rfl, rfl⟩

theorem Observed.second (h : Observed history) (htracks : Tracks s history) (down : Bool) :
    Observed (history ++ secondMarks down (s.advance down).2) := by
  have hdue := htracks.checked_iff down
  have hexact : Exact (history ++ [.second down (s.advance down).2]) := by
    refine h.due.concat _ ?_
    rintro down' outcome' heq
    obtain ⟨rfl, rfl⟩ := StaggerMark.second.inj heq
    exact ⟨hdue, rolled_iff s down⟩
  have hreset := hexact.concat .reset nofun
  rw [List.append_assoc] at hreset
  cases houtcome : (s.advance down).2 with
  | Waited =>
      rw [houtcome] at hexact
      refine ⟨hexact, h.spaced.append_false ?_, ?_⟩
      · simp [secondMarks, seconds, StaggerSecond.checked]
      · exact h.closed.append (closed_of_forall (by simp [secondMarks, IsCheck, StaggerSecond.checked]))
  | Expired =>
      rw [houtcome] at hreset
      exact ⟨hreset, h.spaced.append_false (by simp [secondMarks, seconds, StaggerSecond.checked]),
        h.closed.append (closed_second _)⟩
  | Passed =>
      rw [houtcome] at hreset hdue
      exact ⟨hreset, h.spaced.append_check rfl (hdue.mp rfl).2, h.closed.append (closed_second _)⟩
  | Rolled =>
      rw [houtcome] at hreset hdue
      exact ⟨hreset, h.spaced.append_check rfl (hdue.mp rfl).2, h.closed.append (closed_second _)⟩

theorem Observed.step (h : Observed history) (htracks : Tracks s history) (event : StaggerEvent) :
    Observed (history ++ (s.step event).2) := by
  cases event with
  | hit damage => exact h.quiet (.points damage.toNat) nofun
  | fall => exact h.quiet .reset nofun
  | second down => exact h.second htracks down

theorem run_observed (events : List StaggerEvent) : Observed (run events).2 := by
  induction events using List.reverseRecOn with
  | nil =>
      refine ⟨fun before down outcome hprefix => ?_, nofun, nofun⟩
      exact (List.concat_ne_nil _ before (List.prefix_nil.mp hprefix)).elim
  | append_singleton events event ih =>
      rw [run_concat]
      exact ih.step (run_tracks events) event

-- Damage waits for one check a turn, and is spent by it.
theorem staggering_windows (events : List StaggerEvent) :
    (run events).1.phase < 30 ∧
    (∀ i j, (seconds (run events).2)[i]? = some true → (seconds (run events).2)[j]? = some true →
      i < j → i + 30 ≤ j) ∧
    (∀ before down outcome, before ++ [.second down outcome] <+: (run events).2 →
      (outcome.checked = true ↔ 20 ≤ pointsSinceReset before ∧ ¬ checkedWithin 29 before) ∧
      (outcome = .Rolled ↔ outcome.checked = true ∧ down = false)) ∧
    ∀ i j k, Contributes (run events).2 i j → Contributes (run events).2 i k → j = k := by
  have hobserved := run_observed events
  refine ⟨(run_tracks events).phase, hobserved.spaced, hobserved.due, ?_⟩
  intro i j k hj hk
  exact hobserved.closed.contributes_unique hj hk

-- Twenty points are checked at once, and twenty more a turn later.
example : seconds (run (.hit 20 :: .second false :: .hit 25 ::
    List.replicate 31 (.second false))).2 =
      true :: List.replicate 29 false ++ [true] ++ [false] := by decide

end Stagger

end StompyMux.Btech
