import Mathlib.Data.List.Nodup
import StompyMux.Library.Transition

-- Numbered tickets served in order by one counter, and what the record of a day says of them.
namespace StompyMux.Library.Tickets

structure Counter where
  next : Nat
  serving : Option Nat
  waiting : List Nat
  deriving DecidableEq

inductive Event
  | issued (ticket : Nat)
  | started (ticket : Nat)
  | noted (ticket : Nat)
  | closed (ticket : Nat)
  deriving DecidableEq

def Event.ticket : Event → Nat
  | .issued t | .started t | .noted t | .closed t => t

-- A ticket may be closed while it is served or while it still waits.
def step (c : Counter) : Event → Option Counter
  | .issued t => if t = c.next then some ⟨c.next + 1, c.serving, c.waiting ++ [t]⟩ else none
  | .started t =>
      if c.serving = none ∧ c.waiting.head? = some t then some ⟨c.next, some t, c.waiting.tail⟩
      else none
  | .noted t => if c.serving = some t then some c else none
  | .closed t =>
      if c.serving = some t then some { c with serving := none }
      else if t ∈ c.waiting then some { c with waiting := c.waiting.erase t }
      else none

abbrev run : Counter → List Event → Option Counter := Transition.run step

def Counter.held (c : Counter) : List Nat := c.serving.toList ++ c.waiting

-- The tickets held were handed out in the order in which they stand.
structure Counter.Ordered (c : Counter) : Prop where
  sorted : c.held.Pairwise (· < ·)
  below : ∀ t ∈ c.held, t < c.next

def issued (events : List Event) : List Nat :=
  events.filterMap fun | .issued t => some t | _ => none

def started (events : List Event) : List Nat :=
  events.filterMap fun | .started t => some t | _ => none

def closed (events : List Event) : List Nat :=
  events.filterMap fun | .closed t => some t | _ => none

section Step

variable (c next : Counter)

-- What an event can do to the counter, with the guard it passed.
theorem step_issued {t : Nat} (h : step c (.issued t) = some next) :
    t = c.next ∧ next = ⟨c.next + 1, c.serving, c.waiting ++ [t]⟩ := by
  simp only [step, Option.ite_none_right_eq_some, Option.some.injEq] at h
  exact ⟨h.1, h.2.symm⟩

theorem step_started {t : Nat} (h : step c (.started t) = some next) :
    c.serving = none ∧ c.waiting = t :: c.waiting.tail ∧ next = ⟨c.next, some t, c.waiting.tail⟩ := by
  simp only [step, Option.ite_none_right_eq_some, Option.some.injEq] at h
  obtain ⟨⟨hs, hw⟩, hn⟩ := h
  exact ⟨hs, (List.cons_head?_tail hw).symm, hn.symm⟩

theorem step_noted {t : Nat} (h : step c (.noted t) = some next) :
    c.serving = some t ∧ next = c := by
  simp only [step, Option.ite_none_right_eq_some, Option.some.injEq] at h
  exact ⟨h.1, h.2.symm⟩

theorem step_closed {t : Nat} (h : step c (.closed t) = some next) :
    (c.serving = some t ∧ next = { c with serving := none }) ∨
      (c.serving ≠ some t ∧ t ∈ c.waiting ∧ next = { c with waiting := c.waiting.erase t }) := by
  simp only [step] at h
  by_cases hs : c.serving = some t
  · rw [if_pos hs] at h
    injection h with h
    exact Or.inl ⟨hs, h.symm⟩
  · rw [if_neg hs, Option.ite_none_right_eq_some] at h
    obtain ⟨ht, hn⟩ := h
    injection hn with hn
    exact Or.inr ⟨hs, ht, hn.symm⟩

-- Nothing is taken back: a ticket held afterwards was held before or is the next one.
theorem held_of_step (e : Event) (h : step c e = some next) :
    ∀ t ∈ next.held, t ∈ c.held ∨ c.next ≤ t := by
  intro t ht
  cases e with
  | issued u =>
      obtain ⟨rfl, rfl⟩ := step_issued c next h
      simp only [Counter.held, List.mem_append, List.mem_singleton] at ht ⊢
      rcases ht with hs | hw | rfl
      · exact Or.inl (Or.inl hs)
      · exact Or.inl (Or.inr hw)
      · exact Or.inr (Nat.le_refl _)
  | started u =>
      obtain ⟨hs, hw, rfl⟩ := step_started c next h
      left
      rw [Counter.held, hs, hw]
      simpa [Counter.held] using ht
  | noted u =>
      obtain ⟨-, rfl⟩ := step_noted c next h
      exact Or.inl ht
  | closed u =>
      left
      obtain ⟨-, rfl⟩ | ⟨-, -, rfl⟩ := step_closed c next h
      · exact List.mem_append_right _ (by simpa [Counter.held] using ht)
      · simp only [Counter.held, List.mem_append] at ht ⊢
        exact ht.imp id List.mem_of_mem_erase

theorem next_le_of_step {e : Event} (h : step c e = some next) : c.next ≤ next.next := by
  cases e with
  | issued t =>
      rw [(step_issued c next h).2]
      exact Nat.le_succ _
  | started t =>
      obtain ⟨-, -, rfl⟩ := step_started c next h
      exact Nat.le_refl _
  | noted t =>
      obtain ⟨-, rfl⟩ := step_noted c next h
      exact Nat.le_refl _
  | closed t => obtain ⟨-, rfl⟩ | ⟨-, -, rfl⟩ := step_closed c next h <;> exact Nat.le_refl _

theorem ordered_of_step {e : Event} (ho : c.Ordered) (h : step c e = some next) : next.Ordered := by
  cases e with
  | issued t =>
      obtain ⟨rfl, rfl⟩ := step_issued c next h
      have hheld : Counter.held ⟨c.next + 1, c.serving, c.waiting ++ [c.next]⟩ =
          c.held ++ [c.next] := by simp [Counter.held]
      constructor
      · rw [hheld, List.pairwise_append]
        refine ⟨ho.sorted, List.pairwise_singleton _ _, fun u hu w hw => ?_⟩
        rw [List.mem_singleton.mp hw]
        exact ho.below u hu
      · intro u hu
        rw [hheld, List.mem_append, List.mem_singleton] at hu
        rcases hu with hu | rfl
        · exact Nat.lt_succ_of_lt (ho.below u hu)
        · exact Nat.lt_succ_self _
  | started t =>
      obtain ⟨hs, hw, rfl⟩ := step_started c next h
      have hheld : Counter.held ⟨c.next, some t, c.waiting.tail⟩ = c.held := by
        rw [Counter.held, Counter.held, hs, hw]
        rfl
      exact ⟨hheld ▸ ho.sorted, hheld ▸ ho.below⟩
  | noted t =>
      rw [(step_noted c next h).2]
      exact ho
  | closed t =>
      have hsub : next.held.Sublist c.held ∧ next.next = c.next := by
        obtain ⟨-, rfl⟩ | ⟨-, -, rfl⟩ := step_closed c next h
        · exact ⟨by simp [Counter.held], rfl⟩
        · exact ⟨(List.erase_sublist).append_left _, rfl⟩
      exact ⟨ho.sorted.sublist hsub.1, fun u hu => hsub.2 ▸ ho.below u (hsub.1.subset hu)⟩

-- A closed ticket is gone, and it was handed out before.
theorem not_held_of_closed (t : Nat) (ho : c.Ordered) (h : step c (.closed t) = some next) :
    t ∉ next.held ∧ t < next.next := by
  have hnodup : c.held.Nodup := ho.sorted.imp fun hlt => Nat.ne_of_lt hlt
  rw [Counter.held, List.nodup_append] at hnodup
  obtain ⟨-, hwaiting, hapart⟩ := hnodup
  obtain ⟨hs, rfl⟩ | ⟨hs, ht, rfl⟩ := step_closed c next h
  · refine ⟨fun hm => ?_, ho.below t (by simp [Counter.held, hs])⟩
    have hw : t ∈ c.waiting := by simpa [Counter.held] using hm
    exact hapart t (by simp [hs]) t hw rfl
  · refine ⟨fun hm => ?_, ho.below t (List.mem_append_right _ ht)⟩
    rcases List.mem_append.mp hm with hm | hm
    · exact hs (Option.mem_toList.mp hm)
    · exact hwaiting.not_mem_erase hm

end Step

section Run

theorem ordered_of_run {c final : Counter} {events : List Event} (ho : c.Ordered)
    (h : run c events = some final) : final.Ordered :=
  Transition.run_invariant step Counter.Ordered (fun c _ next => ordered_of_step c next) events c
    final ho h

-- Every ticket of the record was held at the beginning or handed out since.
theorem ticket_of_run (c final : Counter) (events : List Event) (h : run c events = some final) :
    ∀ e ∈ events, e.ticket ∈ c.held ∨ c.next ≤ e.ticket := by
  induction events generalizing c with
  | nil => simp
  | cons first events ih =>
      obtain ⟨next, hn, hr⟩ := (Transition.run_cons_eq_some step c first events final).mp h
      intro e he
      rcases List.mem_cons.mp he with rfl | he
      · cases e with
        | issued t => exact Or.inr (Nat.le_of_eq (step_issued c next hn).1.symm)
        | started t =>
            obtain ⟨-, hw, -⟩ := step_started c next hn
            exact Or.inl (List.mem_append_right _ (hw ▸ List.mem_cons_self))
        | noted t =>
            obtain ⟨hs, -⟩ := step_noted c next hn
            exact Or.inl (List.mem_append_left _ (by simp [hs, Event.ticket]))
        | closed t =>
            obtain ⟨hs, -⟩ | ⟨-, ht, -⟩ := step_closed c next hn
            · exact Or.inl (List.mem_append_left _ (by simp [hs, Event.ticket]))
            · exact Or.inl (List.mem_append_right _ ht)
      · rcases ih next hr e he with hheld | hlater
        · exact held_of_step c next first hn _ hheld
        · exact Or.inr (Nat.le_trans (next_le_of_step c next hn) hlater)

-- The numbers handed out are the next ones, without a gap and without repetition.
theorem issued_of_run (c final : Counter) (events : List Event) (h : run c events = some final) :
    issued events = List.range' c.next (issued events).length ∧
      final.next = c.next + (issued events).length := by
  induction events generalizing c with
  | nil =>
      cases h
      exact ⟨rfl, rfl⟩
  | cons first events ih =>
      obtain ⟨next, hn, hr⟩ := (Transition.run_cons_eq_some step c first events final).mp h
      obtain ⟨hrange, hnext⟩ := ih next hr
      cases first with
      | issued t =>
          obtain ⟨rfl, rfl⟩ := step_issued c next hn
          have hcons : issued (.issued c.next :: events) = c.next :: issued events := rfl
          rw [hcons, List.length_cons, List.range'_succ]
          refine ⟨congrArg _ hrange, ?_⟩
          simp only at hnext
          omega
      | started t =>
          obtain ⟨-, -, rfl⟩ := step_started c next hn
          exact ⟨hrange, hnext⟩
      | noted t =>
          obtain ⟨-, rfl⟩ := step_noted c next hn
          exact ⟨hrange, hnext⟩
      | closed t =>
          obtain ⟨-, rfl⟩ | ⟨-, -, rfl⟩ := step_closed c next hn <;> exact ⟨hrange, hnext⟩

-- What starts waited at the beginning or was handed out since.
theorem started_of_run (c final : Counter) (events : List Event) (h : run c events = some final) :
    ∀ t ∈ started events, t ∈ c.waiting ∨ c.next ≤ t := by
  induction events generalizing c with
  | nil => simp [started]
  | cons first events ih =>
      obtain ⟨next, hn, hr⟩ := (Transition.run_cons_eq_some step c first events final).mp h
      intro t ht
      cases first with
      | issued u =>
          obtain ⟨rfl, rfl⟩ := step_issued c next hn
          rcases ih _ hr t ht with hw | hlater
          · rcases List.mem_append.mp hw with hw | hw
            · exact Or.inl hw
            · exact Or.inr (Nat.le_of_eq (List.mem_singleton.mp hw).symm)
          · exact Or.inr (Nat.le_of_succ_le hlater)
      | started u =>
          obtain ⟨-, hw, rfl⟩ := step_started c next hn
          rcases List.mem_cons.mp ht with rfl | ht
          · exact Or.inl (hw ▸ List.mem_cons_self)
          · exact (ih _ hr t ht).imp List.mem_of_mem_tail id
      | noted u =>
          obtain ⟨-, rfl⟩ := step_noted c next hn
          exact ih _ hr t ht
      | closed u =>
          obtain ⟨-, rfl⟩ | ⟨-, -, rfl⟩ := step_closed c next hn
          · exact ih _ hr t ht
          · exact (ih _ hr t ht).imp List.mem_of_mem_erase id

-- Tickets start in the order of their numbers, so none starts twice.
theorem started_sorted (c final : Counter) (events : List Event) (ho : c.Ordered)
    (h : run c events = some final) : (started events).Pairwise (· < ·) := by
  induction events generalizing c with
  | nil => exact List.Pairwise.nil
  | cons first events ih =>
      obtain ⟨next, hn, hr⟩ := (Transition.run_cons_eq_some step c first events final).mp h
      have hrest := ih next (ordered_of_step c next ho hn) hr
      cases first with
      | issued t | noted t | closed t => exact hrest
      | started t =>
          refine List.pairwise_cons.mpr ⟨fun u hu => ?_, hrest⟩
          obtain ⟨hs, hw, rfl⟩ := step_started c next hn
          have hheld : c.held = t :: c.waiting.tail := by rw [Counter.held, hs, hw]; rfl
          rcases started_of_run _ final events hr u hu with hu | hu
          · exact List.rel_of_pairwise_cons (hheld ▸ ho.sorted) hu
          · exact Nat.lt_of_lt_of_le (ho.below t (hheld ▸ List.mem_cons_self)) hu

theorem closed_last (c final : Counter) (earlier later : List Event) (t : Nat) (ho : c.Ordered)
    (h : run c (earlier ++ .closed t :: later) = some final) : ∀ e ∈ later, e.ticket ≠ t := by
  rw [run, Transition.run_append, Option.bind_eq_some_iff] at h
  obtain ⟨middle, hm, hr⟩ := h
  obtain ⟨next, hn, hr⟩ := (Transition.run_cons_eq_some step middle _ later final).mp hr
  have hgone := not_held_of_closed middle next t (ordered_of_run ho hm) hn
  intro e he heq
  rcases ticket_of_run next final later hr e he with hheld | hlater
  · exact hgone.1 (heq ▸ hheld)
  · omega

theorem closed_nodup (c final : Counter) (events : List Event) (ho : c.Ordered)
    (h : run c events = some final) : (closed events).Nodup := by
  induction events generalizing c with
  | nil => exact List.Pairwise.nil
  | cons first events ih =>
      obtain ⟨next, hn, hr⟩ := (Transition.run_cons_eq_some step c first events final).mp h
      have hrest := ih next (ordered_of_step c next ho hn) hr
      cases first with
      | issued t | noted t | started t => exact hrest
      | closed t =>
          refine List.nodup_cons.mpr ⟨fun ht => ?_, hrest⟩
          obtain ⟨e, he, heq⟩ := List.mem_filterMap.mp ht
          have hlast := closed_last c final [] events t ho h e he
          cases e with
          | closed u =>
              injection heq with heq
              exact hlast heq
          | issued u | noted u | started u => contradiction

theorem run_issue (n count : Nat) (serving : Option Nat) (waiting : List Nat) :
    run ⟨n, serving, waiting⟩ ((List.range' n count).map .issued) =
      some ⟨n + count, serving, waiting ++ List.range' n count⟩ := by
  induction count generalizing n waiting with
  | zero => simp [Transition.run]
  | succ count ih =>
      rw [List.range'_succ, List.map_cons, run, Transition.run_cons_eq_some]
      refine ⟨⟨n + 1, serving, waiting ++ [n]⟩, by simp [step], ?_⟩
      have hlater := ih (n + 1) (waiting ++ [n])
      rw [List.append_assoc, List.singleton_append, Nat.succ_add_eq_add_succ] at hlater
      exact hlater

theorem run_close (c : Counter) :
    run c (c.held.map .closed) = some ⟨c.next, none, []⟩ := by
  have hwaiting : ∀ waiting, run ⟨c.next, none, waiting⟩ (waiting.map .closed) =
      some ⟨c.next, none, []⟩ := by
    intro waiting
    induction waiting with
    | nil => rfl
    | cons t waiting ih =>
        rw [List.map_cons, run, Transition.run_cons_eq_some]
        exact ⟨⟨c.next, none, waiting⟩, by simp [step], ih⟩
  rcases c with ⟨next, serving, waiting⟩
  cases serving with
  | none => exact hwaiting waiting
  | some t =>
      rw [Counter.held, Option.toList_some, List.singleton_append, List.map_cons, run,
        Transition.run_cons_eq_some]
      exact ⟨⟨next, none, waiting⟩, by simp [step], hwaiting waiting⟩

end Run

end StompyMux.Library.Tickets
