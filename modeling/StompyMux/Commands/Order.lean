import StompyMux.Commands.History

-- The order in which an executor's commands run.
namespace StompyMux.Commands

open Library
open StompyMux.World

-- A list without its text, which never changes.
def Entry.header (e : Entry) : Entry := { e with text := [] }

theorem readyOf_header (id : Nat) {e f : Entry} (h : e.header = f.header) :
    Queue.readyOf id e = Queue.readyOf id f := by
  unfold Entry.header at h
  injection h with hexecutor _ _ hdue _
  unfold Queue.readyOf
  rw [hexecutor, hdue]

theorem executor_header {e f : Entry} (h : e.header = f.header) : e.executor = f.executor := by
  injection h

theorem readyOf_of_due (i j : Nat) {e f : Entry} (h : e.due < f.due) :
    Queue.readyOf i e ≤ Queue.readyOf j f :=
  (Prod.Lex.toLex_le_toLex).mpr (Or.inl h)

theorem readyOf_of_id {i j : Nat} {e f : Entry} (hd : e.due ≤ f.due) (h : i < j) :
    Queue.readyOf i e ≤ Queue.readyOf j f := by
  rcases Nat.lt_or_eq_of_le hd with hlt | heq
  · exact readyOf_of_due i j hlt
  · exact (Prod.Lex.toLex_le_toLex).mpr (Or.inr ⟨heq, (Prod.Lex.toLex_le_toLex).mpr (Or.inl h)⟩)

namespace Record

variable (s : Record)

def ranOf (id : Nat) : List Queue.Taken := s.runs.filter (fun r => r.id = id)

def Ran (id : Nat) (done : List (List Char)) : Prop :=
  List.Forall₂ (fun (r : Queue.Taken) command => ∃ compress, r.work.text = tidy compress command)
    (s.ranOf id) done

-- Lists start where they were admitted, and go on where they stopped.
structure Lined (now : Instant) : Prop where
  ids : ∀ a ∈ s.admissions, a.id ≤ s.queue.next
  distinct : (s.admissions.map Admission.id).Nodup
  held : ∀ id e, (id, e) ∈ s.queue.entries.entries → ∃ a ∈ s.admissions,
    a.id = id ∧ a.entry.header = e.header ∧
    ∃ done, commands a.entry.text = done ++ commands e.text ∧ s.Ran id done
  ran : ∀ a ∈ s.admissions, ∃ done rest, commands a.entry.text = done ++ rest ∧ s.Ran a.id done
  runs : ∀ r ∈ s.runs, r.entry.due ≤ now ∧ r.work.execution.executor = r.entry.executor ∧
    ∃ a ∈ s.admissions, a.id = r.id ∧ a.entry.header = r.entry.header
  -- what has run comes before what is left
  front : ∀ r ∈ s.runs, ∀ id e, (id, e) ∈ s.queue.entries.entries →
    e.executor = r.entry.executor → Queue.readyOf r.id r.entry ≤ Queue.readyOf id e
  order : s.runs.Pairwise (fun r r' => r.entry.executor = r'.entry.executor →
    Queue.readyOf r.id r.entry ≤ Queue.readyOf r'.id r'.entry)

theorem lined_empty (now : Instant) : Record.empty.Lined now where
  ids := fun a ha => by contradiction
  distinct := List.nodup_nil
  held := fun id e h => by contradiction
  ran := fun a ha => by contradiction
  runs := fun r hr => by contradiction
  front := fun r hr => by contradiction
  order := List.Pairwise.nil

variable (now later : Instant) (h : s.Lined now) (hn : now ≤ later)

include h

theorem Lined.idle : s.ranOf (s.queue.next + 1) = [] := by
  unfold ranOf
  rw [List.filter_eq_nil_iff]
  intro r hr hid
  obtain ⟨-, -, a, ha, haid, -⟩ := h.runs r hr
  have hle := h.ids a ha
  have hid' : r.id = s.queue.next + 1 := by simpa using hid
  omega

include hn

theorem lined_drop {q : Queue} (hdrops : s.queue.Drops q) :
    Lined { s with queue := q } later where
  ids := fun a ha => by
    show a.id ≤ q.next
    rw [hdrops.next]
    exact h.ids a ha
  distinct := h.distinct
  held := fun id e he => h.held id e (hdrops.entries.subset he)
  ran := h.ran
  runs := fun r hr => ⟨(h.runs r hr).1.trans hn, (h.runs r hr).2⟩
  front := fun r hr id e he => h.front r hr id e (hdrops.entries.subset he)
  order := h.order

theorem lined_push (e : Entry) (call : Call) (hb : ∀ x ∈ s.queue.entries.entries, x.1 ≤ s.queue.next)
    (hd : later ≤ e.due) :
    Lined { s with
      queue := s.queue.push e
      admissions := s.admissions ++ [⟨s.queue.next + 1, e, call⟩] } later := by
  have hfresh : ∀ a ∈ s.admissions, a.id ≠ s.queue.next + 1 := by
    intro a ha
    have hle := h.ids a ha
    omega
  have hstarts : s.Ran (s.queue.next + 1) [] := by
    unfold Ran
    rw [h.idle s now]
    exact List.Forall₂.nil
  refine ⟨?_, ?_, ?_, ?_, ?_, ?_, h.order⟩
  · intro a ha
    rcases List.mem_append.mp ha with ha | ha
    · exact Nat.le_succ_of_le (h.ids a ha)
    · rw [List.mem_singleton.mp ha]
      exact Nat.le_refl _
  · show ((s.admissions ++ [_]).map Admission.id).Nodup
    rw [List.map_append, List.map_singleton]
    refine List.nodup_append.mpr ⟨h.distinct, List.nodup_singleton _, fun i hi j hj => ?_⟩
    obtain ⟨a, ha, rfl⟩ := List.mem_map.mp hi
    rw [List.mem_singleton.mp hj]
    exact hfresh a ha
  · intro id f hf
    rw [s.queue.push_entries e hb] at hf
    rcases List.mem_append.mp hf with hf | hf
    · obtain ⟨a, ha, hrest⟩ := h.held id f hf
      exact ⟨a, List.mem_append_left _ ha, hrest⟩
    · have heq := List.mem_singleton.mp hf
      injection heq with hid he
      subst hid he
      exact ⟨_, List.mem_append_right _ List.mem_cons_self, rfl, rfl, [], rfl, hstarts⟩
  · intro a ha
    rcases List.mem_append.mp ha with ha | ha
    · exact h.ran a ha
    · rw [List.mem_singleton.mp ha]
      exact ⟨[], commands e.text, rfl, hstarts⟩
  · intro r hr
    obtain ⟨hdue, hexecutor, a, ha, hrest⟩ := h.runs r hr
    exact ⟨hdue.trans hn, hexecutor, a, List.mem_append_left _ ha, hrest⟩
  · intro r hr id f hf hexecutor
    rw [s.queue.push_entries e hb] at hf
    rcases List.mem_append.mp hf with hf | hf
    · exact h.front r hr id f hf hexecutor
    · have heq := List.mem_singleton.mp hf
      injection heq with hid he
      subst hid he
      obtain ⟨hdue, -, a, ha, haid, -⟩ := h.runs r hr
      have hle := h.ids a ha
      exact readyOf_of_id (hdue.trans (hn.trans hd)) (by omega)

omit h hn in
theorem ranOf_append (r : Queue.Taken) (q : Queue) (id : Nat) :
    ranOf { s with queue := q, runs := s.runs ++ [r] } id =
      s.ranOf id ++ if r.id = id then [r] else [] := by
  unfold ranOf
  rw [List.filter_append, List.filter_singleton, Bool.cond_decide]

omit h hn in
theorem ran_other {r : Queue.Taken} (q : Queue) {id : Nat} {done : List (List Char)}
    (hr : r.id ≠ id) (hd : s.Ran id done) :
    Ran { s with queue := q, runs := s.runs ++ [r] } id done := by
  unfold Ran
  rwa [ranOf_append, if_neg hr, List.append_nil]

omit h hn in
theorem ran_taken {id : Nat} (e : Entry) (compress : Bool) (q : Queue) {done : List (List Char)}
    (hd : s.Ran id done) :
    Ran { s with queue := q, runs := s.runs ++ [Queue.taken id e compress] } id
      (done ++ [(separate .start e.text).1]) := by
  unfold Ran
  rw [ranOf_append, if_pos (show (Queue.taken id e compress).id = id from rfl)]
  exact List.rel_append hd (List.Forall₂.cons ⟨compress, rfl⟩ List.Forall₂.nil)

omit h hn in
theorem commands_cons (source : List Char) : commands source =
    (separate .start source).1 :: ((separate .start source).2.map commands).getD [] := by
  cases hrest : (separate .start source).2 with
  | none => exact commands_last hrest
  | some rest => exact commands_more hrest

theorem lined_turn {world : World} (compress : Bool) {p : ObjectId} {rotation : List ObjectId}
    {id : Nat} {e : Entry} {object : Object}
    (ht : s.queue.Turn world later p rotation id e object) (hr : ¬ flagged object) :
    Lined { s with
      queue := (s.queue.outcome world later compress p rotation id e object).2
      runs := s.runs ++ [Queue.taken id e compress] } later := by
  have hmem := s.queue.mem_outcome world later compress ht hr
  have hnext : (s.queue.outcome world later compress p rotation id e object).2.next =
      s.queue.next := by
    unfold Queue.outcome
    rw [if_neg hr]
    rfl
  obtain ⟨own, hown, hownId, hownHeader, done, hdone, hran⟩ := h.held id e ht.held
  rw [commands_cons e.text] at hdone
  refine ⟨?_, h.distinct, ?_, ?_, ?_, ?_, ?_⟩
  · intro a ha
    rw [hnext]
    exact h.ids a ha
  · intro j f hf
    rcases (hmem j f).mp hf with ⟨hj, hf, -⟩ | ⟨rfl, rest, hrest, rfl⟩
    · obtain ⟨a, ha, haid, hheader, before, hbefore, hranBefore⟩ := h.held j f hf
      exact ⟨a, ha, haid, hheader, before, hbefore, s.ran_other _ (Ne.symm hj) hranBefore⟩
    · refine ⟨own, hown, hownId, hownHeader, done ++ [(separate .start e.text).1], ?_,
        s.ran_taken e compress _ hran⟩
      rw [hdone, hrest, List.append_assoc]
      rfl
  · intro a ha
    by_cases haid : a.id = id
    · have hsame : a = own := List.inj_on_of_nodup_map h.distinct ha hown (haid.trans hownId.symm)
      rw [haid, hsame]
      refine ⟨_, ((separate .start e.text).2.map commands).getD [], ?_,
        s.ran_taken e compress _ hran⟩
      rw [hdone, List.append_assoc]
      rfl
    · obtain ⟨before, rest, hbefore, hranBefore⟩ := h.ran a ha
      exact ⟨before, rest, hbefore, s.ran_other _ (Ne.symm haid) hranBefore⟩
  · intro r hr
    rcases List.mem_append.mp hr with hr | hr
    · exact ⟨(h.runs r hr).1.trans hn, (h.runs r hr).2⟩
    · rw [List.mem_singleton.mp hr]
      exact ⟨ht.due, rfl, own, hown, hownId, hownHeader⟩
  · intro r hmember j f hf hexecutor
    rcases List.mem_append.mp hmember with hearlier | hlast
    · rcases (hmem j f).mp hf with ⟨-, hf, -⟩ | ⟨rfl, rest, -, rfl⟩
      · exact h.front r hearlier j f hf hexecutor
      · exact h.front r hearlier j e ht.held hexecutor
    · rw [List.mem_singleton.mp hlast] at hexecutor ⊢
      rcases (hmem j f).mp hf with ⟨-, hf, hlives⟩ | ⟨rfl, rest, -, rfl⟩
      · by_cases hdue : f.due ≤ later
        · exact ht.least j f ((s.queue.mem_reconcile world j f).mpr ⟨hf, hlives⟩)
            (hexecutor.trans ht.executor) hdue
        · exact readyOf_of_due id j (Nat.lt_of_le_of_lt ht.due (Nat.lt_of_not_le hdue))
      · exact le_refl _
  · refine List.pairwise_append.mpr ⟨h.order, List.pairwise_singleton _ _, ?_⟩
    intro r hr r' hr' hexecutor
    rw [List.mem_singleton.mp hr'] at hexecutor ⊢
    exact h.front r hr id e ht.held hexecutor.symm

end Record

namespace Record

variable (s : Record)

theorem lined_step {now : Instant} (hs : s.Sound) (h : s.Lined now) {call : Call}
    (hn : now ≤ call.now) : (s.step call).Lined call.now := by
  rcases s.step_cases hs call with ⟨later, hdrops, -, heq⟩ | ⟨e, object, hadmits, heq⟩ |
    ⟨compress, p, rotation, id, e, object, ht, hflags, heq⟩
  · rw [heq]
    exact s.lined_drop now call.now h hn hdrops
  · rw [heq]
    exact s.lined_push now call.now h hn e call hs.below hadmits.due
  · rw [heq]
    exact s.lined_turn now call.now h hn compress ht hflags

-- Calls made one after another.
def Timed (now : Instant) (calls : List Call) : Prop :=
  (∀ call ∈ calls, now ≤ call.now) ∧ calls.Pairwise (fun a b => a.now ≤ b.now)

theorem Timed.tail (now : Instant) (call : Call) (calls : List Call)
    (h : Timed now (call :: calls)) : now ≤ call.now ∧ Timed call.now calls := by
  obtain ⟨hfirst, hrest⟩ := List.pairwise_cons.mp h.2
  exact ⟨h.1 call List.mem_cons_self, hfirst, hrest⟩

theorem lined_run (now : Instant) (calls : List Call) (hs : s.Sound) (h : s.Lined now)
    (ht : Timed now calls) : ∃ later, (calls.foldl step s).Lined later := by
  induction calls generalizing s now with
  | nil => exact ⟨now, h⟩
  | cons call calls ih =>
      obtain ⟨hn, hrest⟩ := ht.tail now call calls
      exact ih (s.step call) call.now (s.sound_step hs call) (s.lined_step hs h hn) hrest

end Record

end StompyMux.Commands

-- What an executor may rely on while others are served.
namespace StompyMux.Commands

open Library
open StompyMux.World

-- The executor is there, in this incarnation, and may run.
def Up (p : ObjectId) (g : Nat) (world : World) : Prop :=
  ∃ object, world.get? p = some object ∧ object.generation = g ∧ object.kind ≠ .Garbage ∧
    ¬ flagged object

section

variable (p : ObjectId) (g : Nat) (world : World) (h : Up p g world)

include h

theorem Up.lives (e : Entry) (hp : e.executor = p) (hg : e.generation = g) :
    Queue.lives world e = true := by
  obtain ⟨object, hobject, hgeneration, hkind, -⟩ := h
  refine (Queue.lives_iff world e).mpr ⟨object, ?_, hgeneration.trans hg.symm, hkind⟩
  rwa [hp]

theorem Up.runs (object : Object) (hobject : world.get? p = some object) : ¬ flagged object := by
  obtain ⟨present, hpresent, -, -, hruns⟩ := h
  rw [hpresent] at hobject
  injection hobject with hobject
  rwa [← hobject]

theorem Up.generation (object : Object) (hobject : world.get? p = some object) :
    object.generation = g := by
  obtain ⟨present, hpresent, hgeneration, -, -⟩ := h
  rw [hpresent] at hobject
  injection hobject with hobject
  rwa [← hobject]

end

instance (p : ObjectId) (g : Nat) (world : World) : Decidable (Up p g world) :=
  match h : world.get? p with
  | none => isFalse (fun ⟨_, hobject, _⟩ => by
      rw [h] at hobject
      contradiction)
  | some object =>
      decidable_of_iff (object.generation = g ∧ object.kind ≠ .Garbage ∧ ¬ flagged object)
        ⟨fun hup => ⟨object, h, hup⟩, fun ⟨present, hpresent, hup⟩ => by
          rw [h] at hpresent
          injection hpresent with hpresent
          rwa [hpresent]⟩

theorem Up.halted (p : ObjectId) (g : Nat) (world : World) (executor : ObjectId)
    (h : Up p g (world.modify executor (insertFlag .Halted))) : executor ≠ p := by
  rintro rfl
  obtain ⟨object, hobject, -, -, hruns⟩ := h
  rw [OrderedMap.get?_eq_some_iff, OrderedMap.mem_modify] at hobject
  rcases hobject with ⟨hne, -⟩ | ⟨-, before, -, rfl⟩
  · exact hne rfl
  · exact hruns (Or.inr (Finset.mem_insert_self _ _))

namespace Record

-- Neither halted nor going nor purged, at any of the calls.
def Stays (p : ObjectId) (g : Nat) : Record → List Call → Prop
  | _, [] => True
  | s, call :: calls =>
      Up p g call.world ∧ Up p g (s.worldAfter call) ∧ Stays p g (s.step call) calls

instance Stays.decidable (p : ObjectId) (g : Nat) (s : Record) (calls : List Call) :
    Decidable (Stays p g s calls) :=
  match calls with
  | [] => isTrue trivial
  | call :: calls =>
      have := Stays.decidable p g (s.step call) calls
      inferInstanceAs (Decidable (_ ∧ _ ∧ _))

section

variable (s : Record) (now : Instant) (p : ObjectId) (g : Nat)

-- While the executor is up, every list it was admitted is held or has run to its end.
structure Kept : Prop where
  generation : ∀ id e, (id, e) ∈ s.queue.entries.entries → e.executor = p → e.generation = g
  finished : ∀ a ∈ s.admissions, a.entry.executor = p →
    (∃ e, (a.id, e) ∈ s.queue.entries.entries) ∨ s.Ran a.id (commands a.entry.text)

theorem kept_empty : Record.empty.Kept p g where
  generation := fun id e h => by contradiction
  finished := fun a ha => by contradiction

theorem Lined.own (h : s.Lined now) {a : Admission} (ha : a ∈ s.admissions) {e : Entry}
    (he : (a.id, e) ∈ s.queue.entries.entries) : a.entry.header = e.header ∧
      ∃ done, commands a.entry.text = done ++ commands e.text ∧ s.Ran a.id done := by
  obtain ⟨b, hb, hid, hheader, hdone⟩ := h.held a.id e he
  rw [List.inj_on_of_nodup_map h.distinct hb ha hid] at hheader hdone
  exact ⟨hheader, hdone⟩

variable (hl : s.Lined now) (hk : s.Kept p g)

include hl hk

theorem kept_drop (q : Queue) (hsub : ∀ x ∈ q.entries.entries, x ∈ s.queue.entries.entries)
    (hkeeps : ∀ id e, (id, e) ∈ s.queue.entries.entries → e.executor = p → e.generation = g →
      (id, e) ∈ q.entries.entries) : Kept { s with queue := q } p g where
  generation := fun id e he => hk.generation id e (hsub _ he)
  finished := by
    intro a ha hp
    refine (hk.finished a ha hp).imp_left (fun ⟨e, he⟩ => ⟨e, ?_⟩)
    have hexecutor := (executor_header (hl.own s now ha he).1).symm.trans hp
    exact hkeeps a.id e he hexecutor (hk.generation a.id e he hexecutor)

theorem kept_turn {world : World} {later : Instant} (compress : Bool) {x : ObjectId}
    {rotation : List ObjectId} {id : Nat} {e : Entry} {object : Object} (hup : Up p g world)
    (ht : s.queue.Turn world later x rotation id e object) (hr : ¬ flagged object) :
    Kept { s with
      queue := (s.queue.outcome world later compress x rotation id e object).2
      runs := s.runs ++ [Queue.taken id e compress] } p g := by
  have hmem := s.queue.mem_outcome world later compress ht hr
  constructor
  · intro j f hf hp
    rcases (hmem j f).mp hf with ⟨-, hf, -⟩ | ⟨rfl, rest, -, rfl⟩
    · exact hk.generation j f hf hp
    · exact hk.generation j e ht.held hp
  · intro a ha hp
    by_cases hid : a.id = id
    · have hheld : (a.id, e) ∈ s.queue.entries.entries := hid ▸ ht.held
      obtain ⟨-, done, hdone, hran⟩ := hl.own s now ha hheld
      cases hrest : (separate .start e.text).2 with
      | some rest => exact Or.inl ⟨_, (hmem a.id _).mpr (Or.inr ⟨hid, rest, hrest, rfl⟩)⟩
      | none =>
          rw [commands_last hrest] at hdone
          rw [hid] at hran
          rw [hdone, hid]
          exact Or.inr (s.ran_taken e compress _ hran)
    · rcases hk.finished a ha hp with ⟨f, hf⟩ | hran
      · have hexecutor := (executor_header (hl.own s now ha hf).1).symm.trans hp
        have hlives := hup.lives p g world f hexecutor (hk.generation a.id f hf hexecutor)
        exact Or.inl ⟨f, (hmem a.id f).mpr (Or.inl ⟨hid, hf, hlives⟩)⟩
      · exact Or.inr (s.ran_other _ (Ne.symm hid) hran)

theorem kept_step (hs : s.Sound) {call : Call} (hplain : call.plain = true)
    (hup : Up p g call.world) (hafter : Up p g (s.worldAfter call)) : (s.step call).Kept p g := by
  have heffect := s.step_effect hs.below call
  generalize s.step call = later at heffect ⊢
  have hlives : ∀ id e, (id, e) ∈ s.queue.entries.entries → e.executor = p → e.generation = g →
      (id, e) ∈ (s.queue.reconcile call.world).entries.entries := fun id e he hp hg =>
    (s.queue.mem_reconcile call.world id e).mpr ⟨he, hup.lives p g _ e hp hg⟩
  have hsub := (s.queue.drops_reconcile call.world).entries.subset
  cases heffect with
  | idle => exact hk
  | cancelled target h =>
      rw [hplain] at h
      contradiction
  | reconciled h =>
      rw [hplain] at h
      contradiction
  | overrun executor object present halted =>
      rw [halted] at hafter
      have hne := hafter.halted p g _ executor
      refine s.kept_drop now p g hl hk _ (s.queue.drops_cancel _).entries.subset ?_
      intro id e he hp _
      refine (OrderedMap.mem_retain _ _ _).mpr ⟨he, ?_⟩
      simpa [hp] using Ne.symm hne
  | admits e object h =>
      have hentries := s.queue.push_entries e hs.below
      constructor
      · intro id f hf hp
        rw [hentries] at hf
        rcases List.mem_append.mp hf with hf | hf
        · exact hk.generation id f hf hp
        · have heq := List.mem_singleton.mp hf
          injection heq with _ hfe
          subst hfe
          rw [← h.generation]
          exact hup.generation p g _ object (hp ▸ h.present)
      · intro a ha hp
        rcases List.mem_append.mp ha with ha | ha
        · refine (hk.finished a ha hp).imp_left (fun ⟨f, hf⟩ => ⟨f, ?_⟩)
          rw [hentries]
          exact List.mem_append_left _ hf
        · rw [List.mem_singleton.mp ha]
          refine Or.inl ⟨e, ?_⟩
          rw [hentries]
          exact List.mem_append_right _ List.mem_cons_self
  | nobody h => exact s.kept_drop now p g hl hk _ hsub hlives
  | turn compress x rotation id e object ht =>
      by_cases hflags : flagged object
      · have hne : x ≠ p := by
          rintro rfl
          exact hup.runs x g _ object ht.present hflags
        unfold Queue.outcome
        rw [if_pos hflags, Option.toList_none, List.append_nil]
        refine s.kept_drop now p g hl hk _ (List.filter_sublist.trans List.filter_sublist).subset ?_
        intro j f hf hp hg
        refine (OrderedMap.mem_remove _ _ _).mpr ⟨hlives j f hf hp hg, ?_⟩
        rintro rfl
        have hsame := s.queue.entries.entry_unique j ht.held hf
        exact hne (ht.executor.symm.trans (hsame ▸ hp))
      · have hkept := s.kept_turn now p g hl hk compress
          hup ht hflags
        have houtcome : (s.queue.outcome call.world call.now compress x rotation id e object).1 =
            some (Queue.taken id e compress) := by
          unfold Queue.outcome
          rw [if_neg hflags]
        rw [houtcome]
        exact hkept

end

end Record

end StompyMux.Commands
