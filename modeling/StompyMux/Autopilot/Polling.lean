import StompyMux.Autopilot.Validity

-- A reader that asks for feedback now and then.
namespace StompyMux.Autopilot

open Library

inductive Move
  | Record (outcome : Outcome)
  | Poll
  deriving DecidableEq

-- The controller and everything that it ever recorded, the last number the reader saw and the pages
-- that it got.
structure Reading where
  controller : AutopilotController
  log : List AutopilotFeedback
  cursor : Nat
  pages : List AutopilotFeedbackPage

namespace Reading

def start : Reading := ⟨.new, [], 0, []⟩

variable (r : Reading)

def page : AutopilotFeedbackPage := r.controller.feedbackSince (some r.cursor)

def got : List AutopilotFeedback := r.pages.flatMap AutopilotFeedbackPage.records

def step : Move → Reading
  | .Record outcome =>
      let recorded := r.controller.recordFeedback outcome.simulationTime outcome.orderId outcome.event
        outcome.reason
      { r with controller := recorded.2, log := r.log ++ [outcome.numbered recorded.1] }
  | .Poll =>
      { r with
        cursor := (r.page.records.getLast?.map AutopilotFeedback.sequence).getD r.cursor
        pages := r.pages ++ [r.page] }

def run (moves : List Move) : Reading := moves.foldl step start

theorem run_append (moves : List Move) (move : Move) : run (moves ++ [move]) = (run moves).step move := by
  unfold run
  rw [List.foldl_append]
  rfl

-- The reader gets what is retained when it asks, in order and once, and is told of a gap when
-- something that it has not seen is gone.
def Delivers (moves : List Move) : Prop :=
  (run moves).got.Sublist (run moves).log ∧ (run moves).got.Nodup ∧
  (∀ feedback, feedback ∈ (run moves).got ↔
    ∃ before after, moves = before ++ .Poll :: after ∧ feedback ∈ (run before).controller.feedback) ∧
  ∀ before after, moves = before ++ .Poll :: after →
    ((run before).page.historyGap = true ↔
      ∃ feedback ∈ (run before).log, (run before).cursor < feedback.sequence ∧
        feedback ∉ (run before).controller.feedback)

-- While numbers last, the log carries them from one on and its end is retained.
structure Tracks : Prop where
  room : r.log.length ≤ U64_MAX
  numbers : r.log.map AutopilotFeedback.sequence = List.range' 1 r.log.length
  next : r.controller.nextFeedbackSequence = min (r.log.length + 1) U64_MAX
  retained : r.controller.feedback = r.log.rtake MAX_FEEDBACK
  cursor_le : r.cursor ≤ r.log.length
  ordered : r.got.Sublist (r.log.take r.cursor)
  seen : ∀ feedback ∈ r.controller.feedback, feedback.sequence ≤ r.cursor → feedback ∈ r.got

variable {r}

theorem Tracks.feedback_eq (h : r.Tracks) : r.controller.feedback =
    r.log.filter (fun feedback => r.log.length - MAX_FEEDBACK < feedback.sequence) := by
  rw [h.retained, List.rtake, Window.drop_eq_filter _ _ h.numbers]

theorem Tracks.mem_feedback (h : r.Tracks) (feedback : AutopilotFeedback) :
    feedback ∈ r.controller.feedback ↔
      feedback ∈ r.log ∧ r.log.length - MAX_FEEDBACK < feedback.sequence := by
  rw [h.feedback_eq, List.mem_filter, decide_eq_true_iff]

theorem Tracks.records_eq (h : r.Tracks) : r.page.records =
    (r.log.drop r.cursor).filter
      (fun feedback => r.log.length - MAX_FEEDBACK < feedback.sequence) := by
  rw [Window.drop_eq_filter _ _ h.numbers]
  unfold page AutopilotController.feedbackSince
  dsimp only
  rw [h.feedback_eq, List.filter_filter, List.filter_filter]
  exact List.filter_congr (fun feedback _ => Bool.and_comm _ _)

theorem Tracks.cursor_poll (h : r.Tracks) : (r.step .Poll).cursor = r.log.length := by
  have hcursor := h.cursor_le
  show (r.page.records.getLast?.map AutopilotFeedback.sequence).getD r.cursor = r.log.length
  rw [h.records_eq]
  by_cases hseen : r.cursor = r.log.length
  · rw [hseen, List.drop_length]
    rfl
  · obtain ⟨older, last, hlog⟩ := (List.eq_nil_or_concat r.log).resolve_left (by
      intro hempty
      rw [hempty, List.length_nil] at hcursor hseen
      omega)
    rw [List.concat_eq_append] at hlog
    have hlength : r.log.length = older.length + 1 := by
      rw [hlog, List.length_append, List.length_singleton]
    have hin : older.length < r.log.length := by omega
    have hget : r.log[older.length] = last := by
      simp [hlog]
    have hlast := Window.number_getElem _ _ h.numbers hin
    rw [hget] at hlast
    have hmax : 0 < MAX_FEEDBACK := by decide
    have hdrop : r.log.drop r.cursor = older.drop r.cursor ++ [last] := by
      rw [hlog, List.drop_append_of_le_length (by omega)]
    rw [hdrop, List.filter_append,
      List.filter_cons_of_pos (by rw [decide_eq_true_iff]; omega), List.filter_nil, List.getLast?_concat,
      Option.map_some, Option.getD_some]
    omega

theorem tracks_start : start.Tracks := by
  refine ⟨Nat.zero_le _, rfl, by decide, rfl, Nat.le_refl _, List.Sublist.refl _, ?_⟩
  intro feedback hfeedback
  contradiction

theorem Tracks.record (h : r.Tracks) (outcome : Outcome) (hroom : r.log.length < U64_MAX) :
    (r.step (.Record outcome)).Tracks := by
  have hnext : r.controller.nextFeedbackSequence = r.log.length + 1 := by
    rw [h.next]
    omega
  have hsize : (r.step (.Record outcome)).log.length = r.log.length + 1 := by
    unfold step
    rw [List.length_append, List.length_singleton]
  have hnumbers : (r.step (.Record outcome)).log.map AutopilotFeedback.sequence =
      List.range' 1 (r.step (.Record outcome)).log.length :=
    Window.numbered_append _ _ _ h.numbers hnext
  have hretained : (r.step (.Record outcome)).controller.feedback =
      (r.step (.Record outcome)).log.rtake MAX_FEEDBACK := by
    show Window.push MAX_FEEDBACK r.controller.feedback _ = _
    have hpush := Window.foldl_push MAX_FEEDBACK [] (r.log ++ [outcome.numbered
      r.controller.nextFeedbackSequence]) (Nat.zero_le _)
    rw [List.foldl_append, Window.foldl_push MAX_FEEDBACK [] r.log (Nat.zero_le _), List.nil_append,
      List.nil_append, ← h.retained] at hpush
    exact hpush
  refine ⟨by omega, hnumbers, ?_, hretained, ?_, ?_, ?_⟩
  · rw [hsize]
    show max (min (r.controller.nextFeedbackSequence + 1) U64_MAX) 1 = _
    omega
  · rw [hsize]
    exact Nat.le_succ_of_le h.cursor_le
  · show r.got.Sublist ((r.log ++ _).take r.cursor)
    rw [List.take_append_of_le_length h.cursor_le]
    exact h.ordered
  · intro feedback hfeedback hseen
    rw [hretained, List.rtake, Window.drop_eq_filter _ _ hnumbers, hsize, List.mem_filter,
      decide_eq_true_iff] at hfeedback
    rcases List.mem_append.mp hfeedback.1 with hold | hnew
    · exact h.seen feedback ((h.mem_feedback feedback).mpr ⟨hold, by omega⟩) hseen
    · rw [List.mem_singleton.mp hnew] at hseen
      have hnumber : r.controller.nextFeedbackSequence ≤ r.cursor := hseen
      have hcursor := h.cursor_le
      omega

theorem Tracks.poll (h : r.Tracks) : (r.step .Poll).Tracks := by
  have hcursor := h.cursor_poll
  have hgot : (r.step .Poll).got = r.got ++ r.page.records := by
    show (r.pages ++ [r.page]).flatMap AutopilotFeedbackPage.records = _
    rw [List.flatMap_append, List.flatMap_singleton]
    rfl
  refine ⟨h.room, h.numbers, h.next, h.retained, Nat.le_of_eq hcursor, ?_, ?_⟩
  · rw [hgot, hcursor, h.records_eq]
    show List.Sublist _ (r.log.take r.log.length)
    rw [List.take_length]
    have hrest := List.filter_sublist (l := r.log.drop r.cursor)
      (p := fun feedback => r.log.length - MAX_FEEDBACK < feedback.sequence)
    have hwhole := h.ordered.append hrest
    rwa [List.take_append_drop] at hwhole
  · intro feedback hfeedback _
    rw [hgot, List.mem_append]
    by_cases hseen : feedback.sequence ≤ r.cursor
    · exact .inl (h.seen feedback hfeedback hseen)
    · refine .inr (List.mem_filter.mpr ⟨hfeedback, ?_⟩)
      rw [decide_eq_true_iff]
      exact Nat.lt_of_not_le hseen

-- A gap is told exactly when an event that the reader has not seen is no longer retained.
theorem Tracks.gap (h : r.Tracks) : r.page.historyGap = true ↔
    ∃ feedback ∈ r.log, r.cursor < feedback.sequence ∧ feedback ∉ r.controller.feedback := by
  have hroom := h.room
  have hmax : 0 < MAX_FEEDBACK := by decide
  have hhead : r.controller.feedback.head? = r.log[r.log.length - MAX_FEEDBACK]? := by
    rw [h.retained, List.rtake, List.head?_drop]
  have hgap : r.page.historyGap = true ↔ r.cursor < r.log.length - MAX_FEEDBACK := by
    unfold page AutopilotController.feedbackSince
    dsimp only
    rw [hhead]
    by_cases hempty : r.log.length - MAX_FEEDBACK < r.log.length
    · have hnumber := Window.number_getElem _ _ h.numbers hempty
      rw [List.getElem?_eq_getElem hempty, Option.any_some, decide_eq_true_iff]
      omega
    · rw [List.getElem?_eq_none (by omega), Option.any_none]
      constructor
      · intro hfalse
        exact absurd hfalse Bool.false_ne_true
      · intro hlt
        omega
  rw [hgap]
  constructor
  · intro hlt
    have hlost : r.cursor < r.log.length := Nat.lt_of_lt_of_le hlt (Nat.sub_le _ _)
    have hnumber := Window.number_getElem _ _ h.numbers hlost
    refine ⟨r.log[r.cursor], List.getElem_mem hlost, by omega, ?_⟩
    rw [h.mem_feedback]
    rintro ⟨-, hkept⟩
    omega
  · rintro ⟨feedback, hlog, hunseen, hgone⟩
    rw [h.mem_feedback] at hgone
    have hlost := not_and.mp hgone hlog
    omega

-- How many events a run records.
def events (moves : List Move) : Nat := moves.countP (fun move => move ≠ .Poll)

variable (moves : List Move) (feedback : AutopilotFeedback)

theorem events_append (move : Move) : events (moves ++ [move]) = events moves + events [move] := by
  unfold events
  rw [List.countP_append]

theorem length_log : (run moves).log.length = events moves := by
  induction moves using List.reverseRecOn with
  | nil => rfl
  | append_singleton moves move ih =>
      rw [run_append, events_append, ← ih]
      cases move with
      | Record outcome => exact List.length_append
      | Poll => rfl

theorem tracks_run (h : events moves ≤ U64_MAX) : (run moves).Tracks := by
  induction moves using List.reverseRecOn with
  | nil => exact tracks_start
  | append_singleton moves move ih =>
      rw [events_append] at h
      have hbefore := ih (by omega)
      rw [run_append]
      cases move with
      | Record outcome =>
          have hone : events [.Record outcome] = 1 := rfl
          exact hbefore.record outcome (by rw [length_log]; omega)
      | Poll => exact hbefore.poll

theorem mem_got_poll : feedback ∈ (run (moves ++ [.Poll])).got ↔
      feedback ∈ (run moves).got ∨ feedback ∈ (run moves).page.records := by
  rw [run_append]
  show feedback ∈ ((run moves).pages ++ [(run moves).page]).flatMap _ ↔ _
  rw [List.flatMap_append, List.flatMap_singleton, List.mem_append]
  rfl

-- The moments at which a longer run was asked.
theorem polled_append (move : Move) (P : List Move → Prop) :
    (∃ before after, moves ++ [move] = before ++ .Poll :: after ∧ P before) ↔
      (∃ before after, moves = before ++ .Poll :: after ∧ P before) ∨ (move = .Poll ∧ P moves) := by
  constructor
  · rintro ⟨before, after, hsplit, hP⟩
    rcases List.eq_nil_or_concat after with rfl | ⟨init, last, rfl⟩
    · obtain ⟨rfl, hlast⟩ := List.append_inj' hsplit rfl
      exact .inr ⟨List.singleton_inj.mp hlast, hP⟩
    · rw [List.concat_eq_append, ← List.cons_append, ← List.append_assoc] at hsplit
      exact .inl ⟨before, init, (List.append_inj' hsplit rfl).1, hP⟩
  · rintro (⟨before, after, rfl, hP⟩ | ⟨rfl, hP⟩)
    · exact ⟨before, after ++ [move], by rw [List.append_assoc, List.cons_append], hP⟩
    · exact ⟨moves, [], rfl, hP⟩

theorem mem_got_iff (h : events moves ≤ U64_MAX) (feedback : AutopilotFeedback) :
    feedback ∈ (run moves).got ↔ ∃ before after, moves = before ++ .Poll :: after ∧
      feedback ∈ (run before).controller.feedback := by
  induction moves using List.reverseRecOn with
  | nil =>
      constructor
      · intro hgot
        contradiction
      · rintro ⟨before, after, hsplit, -⟩
        simp at hsplit
  | append_singleton moves move ih =>
      rw [events_append] at h
      rw [polled_append moves move (fun before => feedback ∈ (run before).controller.feedback),
        ← ih (by omega)]
      cases move with
      | Record outcome =>
          have hgot : (run (moves ++ [.Record outcome])).got = (run moves).got := by
            rw [run_append]
            rfl
          rw [hgot]
          exact ⟨.inl, fun hor => hor.resolve_right (fun hpoll => nomatch hpoll.1)⟩
      | Poll =>
          have htracks := tracks_run moves (by omega)
          have hpage : feedback ∈ (run moves).page.records ↔
              feedback ∈ (run moves).controller.feedback ∧ (run moves).cursor < feedback.sequence := by
            unfold page AutopilotController.feedbackSince
            rw [List.mem_filter, decide_eq_true_iff]
          rw [mem_got_poll, hpage]
          constructor
          · rintro (hgot | ⟨hretained, -⟩)
            · exact .inl hgot
            · exact .inr ⟨rfl, hretained⟩
          · rintro (hgot | ⟨-, hretained⟩)
            · exact .inl hgot
            · by_cases hseen : feedback.sequence ≤ (run moves).cursor
              · exact .inl (htracks.seen feedback hretained hseen)
              · exact .inr ⟨hretained, Nat.lt_of_not_le hseen⟩

theorem events_before (before after : List Move) :
    events before ≤ events (before ++ .Poll :: after) := by
  unfold events
  rw [List.countP_append]
  exact Nat.le_add_right _ _

-- As long as the numbers last, a reader misses nothing that it could still have got.
theorem delivers (moves : List Move) (h : events moves ≤ U64_MAX) : Delivers moves := by
  have htracks := tracks_run moves h
  have hsublist := htracks.ordered.trans (List.take_sublist _ _)
  refine ⟨hsublist, hsublist.nodup (Window.nodup_of_numbered _ _ htracks.numbers),
    mem_got_iff moves h, ?_⟩
  rintro before after rfl
  exact (tracks_run before (Nat.le_trans (events_before before after) h)).gap

theorem delivers_evicted : Delivers
    (List.replicate 130 (.Record ⟨0, none, .Configured, none⟩) ++ [.Poll, .Poll]) :=
  delivers _ (by decide +kernel)

-- Once the last number is given out, it is given out again: what then gets it is never seen.
theorem misses (h : events moves = U64_MAX) (outcome : Outcome)
    (hnew : outcome.numbered U64_MAX ∉ (run moves).log) :
    ¬ Delivers (moves ++ [.Poll] ++ [.Record outcome] ++ [.Poll]) := by
  have htracks := tracks_run moves (Nat.le_of_eq h)
  have hpolled := htracks.poll
  have hcursor := htracks.cursor_poll
  rw [length_log, h] at hcursor
  rw [← run_append] at hpolled hcursor
  have hlog : (run (moves ++ [.Poll])).log = (run moves).log := by
    rw [run_append]
    rfl
  have hlength : (run (moves ++ [.Poll])).log.length = U64_MAX := by rw [hlog, length_log, h]
  have hnumber : (run (moves ++ [.Poll])).controller.nextFeedbackSequence = U64_MAX := by
    rw [hpolled.next, hlength]
    omega
  have hrecorded := run_append (moves ++ [.Poll]) (.Record outcome)
  have hfeedback : (run (moves ++ [.Poll] ++ [.Record outcome])).controller.feedback =
      ((run (moves ++ [.Poll])).controller.feedback ++ [outcome.numbered U64_MAX]).rtake
        MAX_FEEDBACK := by
    rw [hrecorded, ← hnumber, ← Window.push_eq_rtake]
    · rfl
    · rw [hpolled.retained, List.rtake, List.length_drop]
      omega
  have hretained : outcome.numbered U64_MAX ∈
      (run (moves ++ [.Poll] ++ [.Record outcome])).controller.feedback := by
    rw [hfeedback, List.rtake, List.drop_append_of_le_length]
    · exact List.mem_append_right _ (List.mem_singleton.mpr rfl)
    · rw [List.length_append, List.length_singleton]
      have hbound : 1 ≤ MAX_FEEDBACK := by decide
      omega
  have hempty : (run (moves ++ [.Poll] ++ [.Record outcome])).page.records = [] := by
    have hsame : (run (moves ++ [.Poll] ++ [.Record outcome])).cursor = U64_MAX := by
      rw [hrecorded]
      exact hcursor
    unfold page AutopilotController.feedbackSince
    rw [hsame, List.filter_eq_nil_iff]
    intro feedback hmem
    rw [decide_eq_true_iff, Nat.not_lt]
    rw [hfeedback] at hmem
    rcases List.mem_append.mp (List.mem_of_mem_drop hmem) with hold | hlast
    · have hin := ((hpolled.mem_feedback feedback).mp hold).1
      rw [← hlength]
      exact (Window.number_le _ _ hpolled.numbers hin).2
    · rw [List.mem_singleton.mp hlast]
      exact Nat.le_refl _
  rintro ⟨-, -, hgot, -⟩
  have hseen := (hgot (outcome.numbered U64_MAX)).mpr ⟨_, [], rfl, hretained⟩
  rw [mem_got_poll, hempty] at hseen
  have hbefore := hseen.resolve_right (fun hnone => nomatch hnone)
  have hsame : (run (moves ++ [.Poll] ++ [.Record outcome])).got = (run (moves ++ [.Poll])).got := by
    rw [hrecorded]
    rfl
  rw [hsame] at hbefore
  have hin := hpolled.ordered.mem hbefore
  rw [hlog] at hin
  exact hnew (List.mem_of_mem_take hin)

theorem mem_log (h : feedback ∈ (run moves).log) :
    ∃ outcome, .Record outcome ∈ moves ∧ feedback.event = outcome.event := by
  induction moves using List.reverseRecOn with
  | nil => contradiction
  | append_singleton moves move ih =>
      rw [run_append] at h
      cases move with
      | Poll =>
          obtain ⟨outcome, hmem, hevent⟩ := ih h
          exact ⟨outcome, List.mem_append_left _ hmem, hevent⟩
      | Record outcome =>
          rcases List.mem_append.mp h with hold | hlast
          · obtain ⟨older, hmem, hevent⟩ := ih hold
            exact ⟨older, List.mem_append_left _ hmem, hevent⟩
          · rw [List.mem_singleton.mp hlast]
            exact ⟨outcome, List.mem_append_right _ (List.mem_singleton.mpr rfl), rfl⟩

theorem numbers_run_out : ¬ Delivers
    (List.replicate (2 ^ 64 - 1) (.Record ⟨0, none, .Configured, none⟩) ++ [.Poll] ++
      [.Record ⟨0, none, .Paused, none⟩] ++ [.Poll]) := by
  apply misses
  · unfold events
    rw [List.countP_replicate]
    rfl
  · intro hmem
    obtain ⟨outcome, hrecorded, hevent⟩ := mem_log _ _ hmem
    rw [Move.Record.inj (List.eq_of_mem_replicate hrecorded)] at hevent
    exact absurd hevent (by decide)

end Reading

end StompyMux.Autopilot
