import StompyMux.Commands.Order

-- How executors take turns.
namespace StompyMux.Commands

open Library
open StompyMux.World

-- In the rotation, the second executor comes before the first.
def Ahead (p q : ObjectId) (rotation : List ObjectId) : Prop :=
  ∃ before after, rotation = before ++ q :: after ∧ p ∉ before

section

variable (p q : ObjectId) (rotation : List ObjectId)

theorem Ahead.filter (h : Ahead p q rotation) (keeps : ObjectId → Bool) (hq : keeps q = true) :
    Ahead p q (rotation.filter keeps) := by
  obtain ⟨before, after, rfl, hp⟩ := h
  refine ⟨before.filter keeps, after.filter keeps, ?_, fun hin => hp (List.mem_filter.mp hin).1⟩
  rw [List.filter_append, List.filter_cons_of_pos hq]

theorem Ahead.extend (h : Ahead p q rotation) (more : List ObjectId) :
    Ahead p q (rotation ++ more) := by
  obtain ⟨before, after, rfl, hp⟩ := h
  exact ⟨before, after ++ more, by rw [List.append_assoc, List.cons_append], hp⟩

theorem Ahead.rotate (h : Ahead p q rotation) {ready : List Queue.Ready} {r : Queue.Ready}
    (hr : r ∈ ready) (hq : r.executor = q) : Ahead p q (Queue.rotate rotation ready) := by
  obtain ⟨more, hmore⟩ := Queue.joinAll_front rotation ready
  have hjoined := h.extend p q rotation more
  rw [hmore] at hjoined
  exact hjoined.filter p q _ _ (List.any_eq_true.mpr ⟨r, hr, by simpa using hq⟩)

theorem Ahead.tail (x : ObjectId) (h : Ahead p q (x :: rotation)) (hx : x ≠ q) :
    x ≠ p ∧ Ahead p q rotation := by
  obtain ⟨before, after, hsplit, hp⟩ := h
  cases before with
  | nil =>
      injection hsplit with hfirst _
      exact absurd hfirst hx
  | cons y before =>
      injection hsplit with hfirst hrest
      subst hfirst
      exact ⟨fun heq => hp (heq ▸ List.mem_cons_self),
        before, after, hrest, fun hin => hp (List.mem_cons_of_mem _ hin)⟩

theorem ahead_of_mem (hq : q ∈ rotation) (hp : p ∉ rotation) : Ahead p q rotation := by
  obtain ⟨before, after, rfl⟩ := List.append_of_mem hq
  exact ⟨before, after, rfl, fun hin => hp (List.mem_append_left _ hin)⟩

end

namespace Queue

variable (s : Queue) (p : ObjectId) (g : Nat) (now : Instant)

def HasReady : Prop :=
  ∃ id e, (id, e) ∈ s.entries.entries ∧ e.executor = p ∧ e.generation = g ∧ e.due ≤ now

theorem HasReady.later (later : Instant) (h : s.HasReady p g now) (hn : now ≤ later) :
    s.HasReady p g later := by
  obtain ⟨id, e, he, hp, hg, hdue⟩ := h
  exact ⟨id, e, he, hp, hg, hdue.trans hn⟩

theorem HasReady.holds (h : s.HasReady p g now) : s.holds p = true := by
  obtain ⟨id, e, he, hp, -, -⟩ := h
  exact (s.holds_iff p).mpr ⟨id, e, he, hp⟩

theorem HasReady.reconcile (world : World) (hup : Up p g world) (h : s.HasReady p g now) :
    (s.reconcile world).HasReady p g now := by
  obtain ⟨id, e, he, hp, hg, hdue⟩ := h
  exact ⟨id, e, (s.mem_reconcile world id e).mpr ⟨he, hup.lives p g world e hp hg⟩, hp, hg, hdue⟩

theorem HasReady.ready (h : s.HasReady p g now) : ∃ r ∈ s.readyAt now, r.executor = p := by
  obtain ⟨id, e, he, hp, -, hdue⟩ := h
  exact ⟨readyOf id e, (s.mem_readyAt now _).mpr ⟨id, e, he, hdue, rfl⟩, hp⟩

theorem HasReady.turn (world : World) (compress : Bool) (x : ObjectId) (rotation : List ObjectId)
    (id : Nat) (e : Entry) (object : Object) (hup : Up p g world) (hx : x ≠ p)
    (ht : s.Turn world now x rotation id e object) (h : s.HasReady p g now) :
    (s.outcome world now compress x rotation id e object).2.HasReady p g now := by
  obtain ⟨j, f, hf, hp, hg, hdue⟩ := h
  have hlives := hup.lives p g world f hp hg
  have hj : j ≠ id := by
    rintro rfl
    have hsame := s.entries.entry_unique j ht.held hf
    exact hx (ht.executor.symm.trans (hsame ▸ hp))
  refine ⟨j, f, ?_, hp, hg, hdue⟩
  by_cases hflags : flagged object
  · unfold outcome
    rw [if_pos hflags]
    exact (OrderedMap.mem_remove _ _ _).mpr ⟨(s.mem_reconcile world j f).mpr ⟨hf, hlives⟩, hj⟩
  · exact (s.mem_outcome world now compress ht hflags j f).mpr
      (Or.inl ⟨hj, hf, hlives⟩)

theorem outcome_rotation (world : World) (compress : Bool) (x : ObjectId)
    (rotation : List ObjectId) (id : Nat) (e : Entry) (object : Object) :
    ∃ more, (s.outcome world now compress x rotation id e object).2.rotation =
      (rotation ++ more).filter (s.outcome world now compress x rotation id e object).2.holds := by
  unfold outcome
  split
  · exact ⟨[], by rw [List.append_nil]; rfl⟩
  · unfold consume recount
    dsimp only
    split
    · split
      · exact ⟨[x], rfl⟩
      · exact ⟨[], by rw [List.append_nil]; rfl⟩
    · split
      · exact ⟨[x], rfl⟩
      · exact ⟨[], by rw [List.append_nil]; rfl⟩

end Queue

namespace Record

-- The commands an executor ran.
def runsOf (s : Record) (p : ObjectId) : List Queue.Taken :=
  s.runs.filter (fun r => r.entry.executor = p)

-- The second executor has its turn before the first.
structure Waits (p q : ObjectId) (g : Nat) (now : Instant) (s : Record) : Prop where
  ahead : Ahead p q s.queue.rotation
  ready : s.queue.HasReady q g now

section

variable (s : Record) (call : Call)

theorem runsOf_append (q : Queue) (r : Queue.Taken) (p : ObjectId) :
    runsOf { s with queue := q, runs := s.runs ++ [r] } p =
      s.runsOf p ++ if r.entry.executor = p then [r] else [] := by
  unfold runsOf
  rw [List.filter_append, List.filter_singleton, Bool.cond_decide]

variable (hs : s.Sound)

include hs

theorem step_runs : (s.step call).runs = s.runs ∨ ∃ r, (s.step call).runs = s.runs ++ [r] := by
  rcases s.step_cases hs call with ⟨later, -, -, heq⟩ | ⟨e, object, -, heq⟩ |
    ⟨compress, p, rotation, id, e, object, -, -, heq⟩
  · exact Or.inl (by rw [heq])
  · exact Or.inl (by rw [heq])
  · exact Or.inr ⟨Queue.taken id e compress, by rw [heq]⟩

theorem runsOf_step_le (p : ObjectId) :
    (s.runsOf p).length ≤ ((s.step call).runsOf p).length := by
  unfold runsOf
  rcases s.step_runs call hs with heq | ⟨r, heq⟩
  · rw [heq]
  · rw [heq, List.filter_append, List.length_append]
    exact Nat.le_add_right _ _

theorem runsOf_step_other {p q : ObjectId} (hpq : p ≠ q)
    (hp : (s.runsOf p).length < ((s.step call).runsOf p).length) :
    ((s.step call).runsOf q).length = (s.runsOf q).length := by
  unfold runsOf at hp ⊢
  rcases s.step_runs call hs with heq | ⟨r, heq⟩
  · rw [heq]
  · rw [heq, List.filter_append, List.length_append, List.filter_singleton] at hp ⊢
    by_cases hr : r.entry.executor = p
    · have hq : r.entry.executor ≠ q := fun hrq => hpq (hr.symm.trans hrq)
      simp [hq]
    · simp [hr] at hp

variable (p : ObjectId) (g : Nat) (now : Instant) (hn : now ≤ call.now)
  (hplain : call.plain = true) (hup : Up p g call.world) (hafter : Up p g (s.worldAfter call))
  (hready : s.queue.HasReady p g now)

include hn hplain hup hafter hready

theorem ready_step (hruns : ((s.step call).runsOf p).length = (s.runsOf p).length) :
    (s.step call).queue.HasReady p g call.now := by
  have heffect := s.step_effect hs.below call
  generalize s.step call = later at heffect hruns ⊢
  have hnow := hready.later s.queue p g now call.now hn
  cases heffect with
  | idle => exact hnow
  | cancelled target h =>
      rw [hplain] at h
      contradiction
  | reconciled h =>
      rw [hplain] at h
      contradiction
  | overrun executor object present halted =>
      rw [halted] at hafter
      have hne := hafter.halted p g _ executor
      obtain ⟨id, e, he, hp, hg, hdue⟩ := hnow
      refine ⟨id, e, (OrderedMap.mem_retain _ _ _).mpr ⟨he, ?_⟩, hp, hg, hdue⟩
      simpa [hp] using Ne.symm hne
  | admits e object h =>
      obtain ⟨id, f, hf, hp, hg, hdue⟩ := hnow
      refine ⟨id, f, ?_, hp, hg, hdue⟩
      show (id, f) ∈ (s.queue.push e).entries.entries
      rw [s.queue.push_entries e hs.below]
      exact List.mem_append_left _ hf
  | nobody h => exact hnow.reconcile s.queue p g call.now call.world hup
  | turn compress x rotation id e object ht =>
      by_cases hx : x = p
      · have hflags := hup.runs p g call.world object (hx ▸ ht.present)
        unfold Queue.outcome at hruns
        rw [if_neg hflags, Option.toList_some, runsOf_append] at hruns
        have hexecutor : (Queue.taken id e compress).entry.executor = p := ht.executor.trans hx
        rw [if_pos hexecutor, List.length_append, List.length_singleton] at hruns
        omega
      · exact hnow.turn s.queue p g call.now call.world compress x rotation id e object hup hx ht

end

theorem waits_turn (s : Record) (p q : ObjectId) (g : Nat) (world : World) (now : Instant)
    (compress : Bool) (x : ObjectId) (rotation : List ObjectId) (id : Nat) (e : Entry)
    (object : Object) (runs : List Queue.Taken) (hahead : Ahead p q rotation)
    (hready : (s.queue.outcome world now compress x rotation id e object).2.HasReady q g now) :
    Waits p q g now { s with
      queue := (s.queue.outcome world now compress x rotation id e object).2
      runs := runs } := by
  obtain ⟨more, hmore⟩ := s.queue.outcome_rotation now world compress x rotation id e object
  refine ⟨?_, hready⟩
  show Ahead p q (s.queue.outcome world now compress x rotation id e object).2.rotation
  rw [hmore]
  exact (hahead.extend p q rotation more).filter p q _ _ (hready.holds _ q g now)

section

variable (s : Record) (call : Call) (hs : s.Sound) (p q : ObjectId) (hpq : p ≠ q) (g : Nat)
  (now : Instant) (hn : now ≤ call.now) (hplain : call.plain = true) (hup : Up q g call.world)
  (hafter : Up q g (s.worldAfter call))

include hs hpq hn hplain hup hafter

theorem waits_step (h : Waits p q g now s) :
    ((s.step call).runsOf p).length = (s.runsOf p).length ∧
    (Waits p q g call.now (s.step call) ∧
        ((s.step call).runsOf q).length = (s.runsOf q).length ∨
      ((s.step call).runsOf q).length = (s.runsOf q).length + 1 ∧
        ∀ generation, Up p generation call.world → s.queue.HasReady p generation now →
          Waits q p generation call.now (s.step call)) := by
  have hstays := s.ready_step call hs q g now hn hplain hup hafter h.ready
  have heffect := s.step_effect hs.below call
  generalize s.step call = later at heffect hstays ⊢
  have hnow := h.ready.later s.queue q g now call.now hn
  cases heffect with
  | idle => exact ⟨rfl, Or.inl ⟨⟨h.ahead, hnow⟩, rfl⟩⟩
  | cancelled target h =>
      rw [hplain] at h
      contradiction
  | reconciled h =>
      rw [hplain] at h
      contradiction
  | overrun executor object present halted =>
      have hready := hstays rfl
      exact ⟨rfl, Or.inl ⟨⟨h.ahead.filter p q _ _ (hready.holds _ q g call.now), hready⟩, rfl⟩⟩
  | admits e object hadmits => exact ⟨rfl, Or.inl ⟨⟨h.ahead, hstays rfl⟩, rfl⟩⟩
  | nobody hnobody =>
      obtain ⟨r, hr, hq⟩ :=
        ((hnow.reconcile s.queue q g call.now call.world hup).ready _ q g call.now)
      have hjoins := Queue.rotate_joins (s.queue.reconcile call.world).rotation _ hr
      rw [hnobody] at hjoins
      contradiction
  | turn compress x rotation id e object ht =>
      have hreconciled := hnow.reconcile s.queue q g call.now call.world hup
      obtain ⟨r, hr, hq⟩ := hreconciled.ready _ q g call.now
      have hahead : Ahead p q (x :: rotation) := by
        rw [← ht.first]
        exact (h.ahead.filter p q _ _ (hreconciled.holds _ q g call.now)).rotate p q _ hr hq
      by_cases hx : x = q
      · have hflags := hup.runs q g call.world object (hx ▸ ht.present)
        have houtcome : (s.queue.outcome call.world call.now compress x rotation id e object).1 =
            some (Queue.taken id e compress) := by
          unfold Queue.outcome
          rw [if_neg hflags]
        rw [houtcome, Option.toList_some]
        have hexecutor : (Queue.taken id e compress).entry.executor = q := ht.executor.trans hx
        refine ⟨?_, Or.inr ⟨?_, ?_⟩⟩
        · rw [runsOf_append, if_neg (fun hp => hpq (hp.symm.trans hexecutor)), List.append_nil]
        · rw [runsOf_append, if_pos hexecutor, List.length_append, List.length_singleton]
        · intro generation hupp hreadyp
          have hlaterp := hreadyp.later s.queue p generation now call.now hn
          have hxp : x ≠ p := fun hp => hpq (hp.symm.trans hx)
          have hturned := hlaterp.turn s.queue p generation call.now call.world compress x rotation
            id e object hupp hxp ht
          obtain ⟨rp, hrp, hp⟩ :=
            (hlaterp.reconcile s.queue p generation call.now call.world hupp).ready _ p generation
              call.now
          have hjoins := Queue.rotate_joins (s.queue.reconcile call.world).rotation _ hrp
          rw [ht.first, hp] at hjoins
          have hin : p ∈ rotation := (List.mem_cons.mp hjoins).resolve_left (Ne.symm hxp)
          have hnodup := Queue.rotate_nodup _ ((s.queue.reconcile call.world).readyAt call.now)
            (s.queue.tallied_reconcile hs.tallied call.world).nodup
          rw [ht.first] at hnodup
          have hout : q ∉ rotation := hx ▸ (List.nodup_cons.mp hnodup).1
          exact s.waits_turn q p generation call.world call.now compress x rotation id e object _
            (ahead_of_mem q p rotation hin hout) hturned
      · obtain ⟨hxp, hrest⟩ := hahead.tail p q rotation x hx
        have hturned := hnow.turn s.queue q g call.now call.world compress x rotation id e object
          hup hx ht
        have hsame : ∀ y, x ≠ y → runsOf { s with
            queue := (s.queue.outcome call.world call.now compress x rotation id e object).2
            runs := s.runs ++
              (s.queue.outcome call.world call.now compress x rotation id e object).1.toList } y =
            s.runsOf y := by
          intro y hy
          by_cases hflags : flagged object
          · unfold Queue.outcome
            rw [if_pos hflags, Option.toList_none, List.append_nil]
            rfl
          · unfold Queue.outcome
            have hother : (Queue.taken id e compress).entry.executor ≠ y :=
              fun hey => hy (ht.executor.symm.trans hey)
            rw [if_neg hflags, Option.toList_some, runsOf_append, if_neg hother, List.append_nil]
        refine ⟨by rw [hsame p hxp], Or.inl ⟨?_, by rw [hsame q hx]⟩⟩
        exact s.waits_turn p q g call.world call.now compress x rotation id e object _ hrest hturned

end

section

variable (p q : ObjectId) (hpq : p ≠ q) (g generation : Nat)

theorem runsOf_run_le (s : Record) (calls : List Call) (hs : s.Sound) :
    (s.runsOf p).length ≤ ((calls.foldl step s).runsOf p).length := by
  induction calls generalizing s with
  | nil => exact Nat.le_refl _
  | cons call calls ih =>
      exact (s.runsOf_step_le call hs p).trans (ih (s.step call) (s.sound_step hs call))

include hpq

-- On the calls: the first executor has no turn before the second.
theorem waits_run (s : Record) (now : Instant) (calls : List Call) (hs : s.Sound)
    (hplain : ∀ call ∈ calls, call.plain = true) (ht : Timed now calls) (hq : Stays q g s calls)
    (h : Waits p q g now s) :
    ((calls.foldl step s).runsOf p).length = (s.runsOf p).length ∨
      (s.runsOf q).length < ((calls.foldl step s).runsOf q).length := by
  induction calls generalizing s now with
  | nil => exact Or.inl rfl
  | cons call calls ih =>
      obtain ⟨hn, hrest⟩ := ht.tail now call calls
      obtain ⟨hup, hafter, hstays⟩ := hq
      have hlater := s.sound_step hs call
      obtain ⟨hp, hwaits | hturn⟩ := s.waits_step call hs p q hpq g now hn
        (hplain call List.mem_cons_self) hup hafter h
      · have hrun := ih (s.step call) call.now hlater
          (fun later hmem => hplain later (List.mem_cons_of_mem _ hmem)) hrest hstays hwaits.1
        rw [hp, hwaits.2] at hrun
        exact hrun
      · have hle := runsOf_run_le q (s.step call) calls hlater
        refine Or.inr ?_
        show _ < ((calls.foldl step (s.step call)).runsOf q).length
        omega

-- While both are up and the first has no turn, the second has at most one.
theorem alternates (s : Record) (now : Instant) (calls : List Call) (hs : s.Sound)
    (hplain : ∀ call ∈ calls, call.plain = true) (ht : Timed now calls) (hq : Stays q g s calls)
    (hp : Stays p generation s calls) (h : Waits p q g now s)
    (hready : s.queue.HasReady p generation now)
    (hruns : ((calls.foldl step s).runsOf p).length = (s.runsOf p).length) :
    ((calls.foldl step s).runsOf q).length ≤ (s.runsOf q).length + 1 := by
  induction calls generalizing s now with
  | nil => exact Nat.le_succ _
  | cons call calls ih =>
      obtain ⟨hn, hrest⟩ := ht.tail now call calls
      obtain ⟨hup, hafter, hstays⟩ := hq
      obtain ⟨hupp, hafterp, hstaysp⟩ := hp
      have hcall := hplain call List.mem_cons_self
      have hothers : ∀ later ∈ calls, later.plain = true :=
        fun later hmem => hplain later (List.mem_cons_of_mem _ hmem)
      have hlater := s.sound_step hs call
      obtain ⟨hsame, hwaits | ⟨hturn, hswap⟩⟩ := s.waits_step call hs p q hpq g now hn hcall hup
        hafter h
      · have hreadyLater := s.ready_step call hs p generation now hn hcall hupp hafterp hready hsame
        have hrun := ih (s.step call) call.now hlater hothers hrest hstays hstaysp hwaits.1
          hreadyLater (hruns.trans hsame.symm)
        rw [hwaits.2] at hrun
        exact hrun
      · have hwaits := hswap generation hupp hready
        have hrun := waits_run q p (Ne.symm hpq) generation (s.step call) call.now calls hlater
          hothers hrest hstaysp hwaits
        show ((calls.foldl step (s.step call)).runsOf q).length ≤ _
        rcases hrun with hrun | hrun
        · omega
        · have hnone : ((calls.foldl step (s.step call)).runsOf p).length = (s.runsOf p).length :=
            hruns
          omega

end

-- After its turn an executor waits for all others that are ready.
theorem waits_first (s : Record) (call : Call) (hs : s.Sound) (p q : ObjectId) (hpq : p ≠ q)
    (g : Nat) (hup : Up q g call.world)
    (hready : s.queue.HasReady q g call.now)
    (hruns : (s.runsOf p).length < ((s.step call).runsOf p).length) :
    Waits p q g call.now (s.step call) := by
  have heffect := s.step_effect hs.below call
  generalize s.step call = later at heffect hruns ⊢
  cases heffect with
  | idle => exact absurd hruns (Nat.lt_irrefl _)
  | cancelled target h => exact absurd hruns (Nat.lt_irrefl _)
  | reconciled h => exact absurd hruns (Nat.lt_irrefl _)
  | overrun executor object present halted => exact absurd hruns (Nat.lt_irrefl _)
  | admits e object hadmits => exact absurd hruns (Nat.lt_irrefl _)
  | nobody h => exact absurd hruns (Nat.lt_irrefl _)
  | turn compress x rotation id e object ht =>
      have hx : x = p := by
        by_contra hne
        apply Nat.lt_irrefl (s.runsOf p).length
        by_cases hflags : flagged object
        · unfold Queue.outcome at hruns
          rw [if_pos hflags, Option.toList_none, List.append_nil] at hruns
          exact hruns
        · have hother : (Queue.taken id e compress).entry.executor ≠ p :=
            fun hep => hne (ht.executor.symm.trans hep)
          unfold Queue.outcome at hruns
          rw [if_neg hflags, Option.toList_some, runsOf_append, if_neg hother,
            List.append_nil] at hruns
          exact hruns
      have hxq : x ≠ q := hx ▸ hpq
      have hturned := hready.turn s.queue q g call.now call.world compress x rotation id e object
        hup hxq ht
      obtain ⟨r, hr, hq⟩ :=
        (hready.reconcile s.queue q g call.now call.world hup).ready _ q g call.now
      have hjoins := Queue.rotate_joins (s.queue.reconcile call.world).rotation _ hr
      rw [ht.first, hq] at hjoins
      have hin : q ∈ rotation := (List.mem_cons.mp hjoins).resolve_left (Ne.symm hxq)
      have hnodup := Queue.rotate_nodup _ ((s.queue.reconcile call.world).readyAt call.now)
        (s.queue.tallied_reconcile hs.tallied call.world).nodup
      rw [ht.first] at hnodup
      have hout : p ∉ rotation := hx ▸ (List.nodup_cons.mp hnodup).1
      exact s.waits_turn p q g call.world call.now compress x rotation id e object _
        (ahead_of_mem p q rotation hin hout) hturned

end Record

end StompyMux.Commands
