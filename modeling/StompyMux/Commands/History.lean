import StompyMux.Commands.Taking

-- Runs of the queue over any calls, with any world at each of them.
namespace StompyMux.Commands

open Library Library.Text
open StompyMux.World

inductive Action
  | Apply (request : Request) (limit lineLimit : Nat)
  | Cancel (target : Option ObjectId)
  | Reconcile
  | Take (compress : Bool)

structure Call where
  action : Action
  world : World
  now : Instant

def Action.limit : Action → Nat
  | .Apply _ limit _ => limit
  | _ => 0

-- An admitted list, as it was admitted, and the call that did it.
structure Admission where
  id : Nat
  entry : Entry
  call : Call

structure Record where
  queue : Queue
  admissions : List Admission
  -- the commands run, in order
  runs : List Queue.Taken

def Record.empty : Record := ⟨.empty, [], []⟩

def admitted (call : Call) (earlier later : Queue) : List Admission :=
  if later.next = earlier.next then []
  else ((later.entries.get? later.next).map (fun e => ⟨later.next, e, call⟩)).toList

def Record.step (s : Record) (call : Call) : Record :=
  match call.action with
  | .Apply request limit lineLimit =>
      let later := ((apply request limit lineLimit call.now).after ⟨s.queue, call.world⟩).queue
      { s with queue := later, admissions := s.admissions ++ admitted call s.queue later }
  | .Cancel target => { s with queue := (s.queue.cancel target).2 }
  | .Reconcile => { s with queue := s.queue.reconcile call.world }
  | .Take compress =>
      match s.queue.take call.now call.world compress with
      | .ok (taken, later) => { s with queue := later, runs := s.runs ++ taken.toList }
      | .error _ => s

def Record.run (calls : List Call) : Record := calls.foldl Record.step .empty

def Record.worldAfter (s : Record) (call : Call) : World :=
  match call.action with
  | .Apply request limit lineLimit =>
      ((apply request limit lineLimit call.now).after ⟨s.queue, call.world⟩).world
  | _ => call.world

def Call.plain (call : Call) : Bool :=
  match call.action with
  | .Apply (.Add _ _ _ _) _ _ | .Take _ => true
  | _ => false

def Record.lastAdmission (s : Record) (p : ObjectId) : Option Admission :=
  s.admissions.reverse.find? (fun a => a.entry.executor = p)

-- What an apply may do: nothing, a cancellation, or one admission.
section

variable (executor cause : ObjectId) (seconds : Int) (text : List Char) (limit lineLimit : Nat)
  (now : Instant) (q : Queue) (world : World)

-- The list an accepted request admits.
structure Accepts (object : Object) (due : Instant) : Prop where
  present : world.get? executor = some object
  kind : object.kind ≠ .Garbage
  runs : ¬ flagged object
  below : q.count executor < limit
  line : utf8Len text ≤ lineLimit
  room : q.bytes + utf8Len text ≤ MAX_QUEUE_BYTES
  due : checkedAdd now (max seconds 0).toNat = some due

def Queue.push (e : Entry) : Queue :=
  { q with
    next := q.next + 1
    bytes := q.bytes + utf8Len e.text
    entries := q.entries.insert (q.next + 1) e }

theorem add_cases :
    (∃ e, add executor cause seconds text limit lineLimit now ⟨q, world⟩ = .error e ⟨q, world⟩) ∨
    (add executor cause seconds text limit lineLimit now ⟨q, world⟩ = .ok none ⟨q, world⟩) ∨
    (∃ object, world.get? executor = some object ∧
      add executor cause seconds text limit lineLimit now ⟨q, world⟩ = .ok (some RUN_AWAY)
        ⟨(q.cancel (some executor)).2, world.modify executor (insertFlag .Halted)⟩) ∨
    ∃ object due, Accepts executor seconds text limit lineLimit now q world object due ∧
      add executor cause seconds text limit lineLimit now ⟨q, world⟩ =
        .ok none ⟨q.push ⟨executor, object.generation, cause, due, text⟩, world⟩ := by
  unfold add
  rw [Update.bind_ok (get : Update Candidate Error Candidate) _ ⟨q, world⟩ ⟨q, world⟩ ⟨q, world⟩ rfl]
  by_cases hline : utf8Len text ≤ lineLimit
  · rw [if_neg (not_not.mpr hline)]
    cases hobject : world.get? executor with
    | none => exact Or.inl ⟨_, rfl⟩
    | some object =>
        dsimp only
        split
        · exact Or.inl ⟨_, rfl⟩
        · rename_i hstands
          obtain ⟨hkind, hgoing⟩ := not_or.mp hstands
          split
          · exact Or.inr (Or.inl rfl)
          · rename_i hhalted
            split
            · exact Or.inr (Or.inr (Or.inl ⟨object, rfl, rfl⟩))
            · rename_i hbelow
              split
              · exact Or.inl ⟨_, rfl⟩
              · rename_i hroom
                cases hdue : checkedAdd now (max seconds 0).toNat with
                | none => exact Or.inl ⟨_, rfl⟩
                | some due =>
                    split
                    · exact Or.inl ⟨_, rfl⟩
                    · refine Or.inr (Or.inr (Or.inr ⟨object, due, ?_, rfl⟩))
                      have hfits : q.bytes + utf8Len text ≤ MAX_QUEUE_BYTES := by
                        unfold MAX_QUEUE_BYTES USIZE_MAX at *
                        omega
                      exact ⟨hobject, hkind, not_or.mpr ⟨hgoing, hhalted⟩, not_le.mp hbelow, hline,
                        hfits, hdue⟩
  · rw [if_pos hline]
    exact Or.inl ⟨_, rfl⟩

end

-- The counters agree with the lists held.
structure Queue.Tallied (q : Queue) : Prop where
  bytes : q.bytes = q.totalBytes
  nodup : q.rotation.Nodup
  named : ∀ p ∈ q.rotation, q.holds p = true

namespace Queue

variable (q : Queue) (e : Entry)

theorem tallied_recount (h : q.rotation.Nodup) : q.recount.Tallied where
  bytes := rfl
  nodup := h.filter _
  named := fun _ hp => (List.mem_filter.mp hp).2

theorem tallied_cancel (h : q.Tallied) (target : Option ObjectId) :
    (q.cancel target).2.Tallied := tallied_recount _ h.nodup

theorem tallied_reconcile (h : q.Tallied) (world : World) :
    (q.reconcile world).Tallied := tallied_recount _ h.nodup

theorem tallied_outcome (h : q.Tallied) {world : World} {now : Instant}
    (compress : Bool) {p : ObjectId} {rotation : List ObjectId} {id : Nat} {e : Entry}
    {object : Object} (ht : q.Turn world now p rotation id e object) :
    (q.outcome world now compress p rotation id e object).2.Tallied := by
  have hnodup := rotate_nodup _ ((q.reconcile world).readyAt now)
    (q.tallied_reconcile h world).nodup
  rw [ht.first] at hnodup
  obtain ⟨hp, hrotation⟩ := List.nodup_cons.mp hnodup
  unfold outcome
  split
  · exact tallied_recount _ hrotation
  · have hagain : ∀ again : Prop, [Decidable again] →
        (if again then rotation ++ [p] else rotation).Nodup := by
      intro again _
      split
      · exact List.nodup_append.mpr ⟨hrotation, List.nodup_singleton p, fun r hr s hs heq => by
          rw [List.mem_singleton.mp hs] at heq
          exact hp (heq ▸ hr)⟩
      · exact hrotation
    exact tallied_recount _ (hagain _)

theorem push_entries (h : ∀ x ∈ q.entries.entries, x.1 ≤ q.next) :
    (q.push e).entries.entries = q.entries.entries ++ [(q.next + 1, e)] :=
  q.entries.insert_last (q.next + 1) e (fun x hx => Nat.lt_succ_of_le (h x hx))

theorem push_values (h : ∀ x ∈ q.entries.entries, x.1 ≤ q.next) :
    (q.push e).entries.values = q.entries.values ++ [e] := by
  unfold OrderedMap.values
  rw [q.push_entries e h, List.map_append, List.map_singleton]

theorem push_totalBytes (h : ∀ x ∈ q.entries.entries, x.1 ≤ q.next) :
    (q.push e).totalBytes = q.totalBytes + utf8Len e.text := by
  unfold totalBytes
  rw [q.push_values e h]
  simp

theorem tallied_push (h : q.Tallied) (e : Entry)
    (hn : ∀ x ∈ q.entries.entries, x.1 ≤ q.next) : (q.push e).Tallied where
  bytes := by
    rw [q.push_totalBytes e hn, ← h.bytes]
    rfl
  nodup := h.nodup
  named := by
    intro p hp
    have hheld := h.named p hp
    unfold holds at hheld ⊢
    rw [q.push_values e hn, List.any_append, hheld, Bool.true_or]

end Queue

structure Admits (q : Queue) (call : Call) (e : Entry) (object : Object) : Prop where
  below : q.count e.executor < call.action.limit
  room : q.bytes + utf8Len e.text ≤ MAX_QUEUE_BYTES
  present : call.world.get? e.executor = some object
  generation : object.generation = e.generation
  kind : object.kind ≠ .Garbage
  runs : ¬ flagged object
  due : call.now ≤ e.due

theorem checkedAdd_le {now : Instant} {seconds : Nat} {due : Instant}
    (h : checkedAdd now seconds = some due) : now ≤ due := by
  unfold checkedAdd at h
  dsimp only at h
  split at h
  · injection h with h
    rw [← h]
    exact Nat.le_add_right _ _
  · contradiction

theorem admitted_push (call : Call) (q : Queue) (e : Entry)
    (h : ∀ x ∈ q.entries.entries, x.1 ≤ q.next) :
    admitted call q (q.push e) = [⟨q.next + 1, e, call⟩] := by
  have hget : (q.push e).entries.get? (q.next + 1) = some e := by
    rw [OrderedMap.get?_eq_some_iff, q.push_entries e h]
    exact List.mem_append_right _ List.mem_cons_self
  show (if q.next + 1 = q.next then _ else
    (((q.push e).entries.get? (q.next + 1)).map _).toList) = _
  rw [if_neg (Nat.succ_ne_self q.next), hget]
  rfl

inductive Record.Effect (s : Record) (call : Call) : Record → Prop
  | idle : Effect s call s
  | cancelled (target : Option ObjectId) (h : call.plain = false) :
      Effect s call { s with queue := (s.queue.cancel target).2 }
  | reconciled (h : call.plain = false) :
      Effect s call { s with queue := s.queue.reconcile call.world }
  -- a full executor loses its lists and is halted
  | overrun (executor : ObjectId) (object : Object)
      (present : call.world.get? executor = some object)
      (halted : s.worldAfter call = call.world.modify executor (insertFlag .Halted)) :
      Effect s call { s with queue := (s.queue.cancel (some executor)).2 }
  | admits (e : Entry) (object : Object) (h : Admits s.queue call e object) :
      Effect s call { s with
        queue := s.queue.push e
        admissions := s.admissions ++ [⟨s.queue.next + 1, e, call⟩] }
  | nobody (h : Queue.rotate (s.queue.reconcile call.world).rotation
      ((s.queue.reconcile call.world).readyAt call.now) = []) :
      Effect s call { s with queue := { s.queue.reconcile call.world with rotation := [] } }
  | turn (compress : Bool) (p : ObjectId) (rotation : List ObjectId) (id : Nat) (e : Entry)
      (object : Object) (h : s.queue.Turn call.world call.now p rotation id e object) :
      Effect s call { s with
        queue := (s.queue.outcome call.world call.now compress p rotation id e object).2
        runs := s.runs ++
          (s.queue.outcome call.world call.now compress p rotation id e object).1.toList }

-- What holds of the queue and its history after any calls.
structure Record.Sound (s : Record) : Prop where
  tallied : s.queue.Tallied
  bounded : s.queue.totalBytes ≤ MAX_QUEUE_BYTES
  below : ∀ x ∈ s.queue.entries.entries, x.1 ≤ s.queue.next
  -- executors that were admitted nothing hold nothing
  limited : ∀ p, s.queue.count p ≤ ((s.lastAdmission p).map (·.call.action.limit)).getD 0
  origin : ∀ id e, (id, e) ∈ s.queue.entries.entries → ∃ a ∈ s.admissions,
    a.id = id ∧ a.entry.executor = e.executor ∧ a.entry.generation = e.generation
  captured : ∀ a ∈ s.admissions, ∃ object, a.call.world.get? a.entry.executor = some object ∧
    object.generation = a.entry.generation

namespace Record

theorem sound_empty : Record.empty.Sound where
  tallied := ⟨rfl, List.nodup_nil, fun p hp => by contradiction⟩
  bounded := Nat.zero_le _
  below := fun x hx => by contradiction
  limited := fun _ => Nat.le_refl 0
  origin := fun id e h => by contradiction
  captured := fun a ha => by contradiction

variable (s : Record) (h : s.Sound)

include h

theorem sound_shrink {later : Queue} (runs : List Queue.Taken) (hs : s.queue.Shrinks later)
    (ht : later.Tallied) : Sound { s with queue := later, runs := runs } where
  tallied := ht
  bounded := (hs.totalBytes s.queue later).trans h.bounded
  below := by
    intro x hx
    obtain ⟨y, hy, hxy⟩ := remains_mem _ _ hs.entries hx
    rw [hxy.id, hs.next]
    exact h.below y hy
  limited := fun p => (hs.count s.queue later p).trans (h.limited p)
  origin := by
    intro id e he
    obtain ⟨y, hy, hxy⟩ := remains_mem _ _ hs.entries he
    obtain ⟨a, ha, hid, hexecutor, hgeneration⟩ := h.origin y.1 y.2 hy
    exact ⟨a, ha, hid.trans hxy.id.symm, hexecutor.trans (hxy.executor _ _).symm,
      hgeneration.trans (hxy.generation _ _).symm⟩
  captured := h.captured

theorem sound_push {e : Entry} {call : Call} {object : Object}
    (hc : s.queue.count e.executor < call.action.limit)
    (hroom : s.queue.bytes + utf8Len e.text ≤ MAX_QUEUE_BYTES)
    (hpresent : call.world.get? e.executor = some object)
    (hgeneration : object.generation = e.generation) :
    Sound { s with
      queue := s.queue.push e
      admissions := s.admissions ++ [⟨s.queue.next + 1, e, call⟩] } where
  tallied := s.queue.tallied_push h.tallied e h.below
  bounded := by
    show (s.queue.push e).totalBytes ≤ MAX_QUEUE_BYTES
    rw [s.queue.push_totalBytes e h.below, ← h.tallied.bytes]
    exact hroom
  below := by
    intro x hx
    rw [s.queue.push_entries e h.below] at hx
    rcases List.mem_append.mp hx with hx | hx
    · exact Nat.le_succ_of_le (h.below x hx)
    · rw [List.mem_singleton.mp hx]
      exact Nat.le_refl _
  limited := by
    intro p
    have hbefore := h.limited p
    have hcount : (s.queue.push e).count p =
        s.queue.count p + if e.executor = p then 1 else 0 := by
      unfold Queue.count
      rw [s.queue.push_values e h.below, List.filter_append, List.length_append]
      by_cases hp : e.executor = p
      · simp [hp]
      · simp [hp]
    show (s.queue.push e).count p ≤ _
    rw [hcount]
    unfold lastAdmission at hbefore ⊢
    rw [List.reverse_append, List.reverse_singleton, List.singleton_append, List.find?_cons]
    by_cases hp : e.executor = p
    · rw [if_pos hp]
      simp only [hp, decide_true, Option.map_some, Option.getD_some]
      rw [hp] at hc
      exact hc
    · simp only [hp, decide_false, if_false]
      exact hbefore
  origin := by
    intro id f hf
    rw [s.queue.push_entries e h.below] at hf
    rcases List.mem_append.mp hf with hf | hf
    · obtain ⟨a, ha, horigin⟩ := h.origin id f hf
      exact ⟨a, List.mem_append_left _ ha, horigin⟩
    · have heq := List.mem_singleton.mp hf
      injection heq with hid he
      subst hid he
      exact ⟨_, List.mem_append_right _ List.mem_cons_self, rfl, rfl, rfl⟩
  captured := by
    intro a ha
    rcases List.mem_append.mp ha with ha | ha
    · exact h.captured a ha
    · rw [List.mem_singleton.mp ha]
      exact ⟨object, hpresent, hgeneration⟩

omit h in
theorem step_effect (hb : ∀ x ∈ s.queue.entries.entries, x.1 ≤ s.queue.next) (call : Call) :
    Effect s call (s.step call) := by
  have hstill : ∀ later : Queue, later.next = s.queue.next →
      Effect s call { s with queue := later } →
      Effect s call
        { s with queue := later, admissions := s.admissions ++ admitted call s.queue later } := by
    intro later hnext heffect
    have hnone : admitted call s.queue later = [] := if_pos hnext
    rwa [hnone, List.append_nil]
  unfold step
  cases ha : call.action with
  | Cancel target => exact .cancelled target (by rw [Call.plain, ha])
  | Reconcile => exact .reconciled (by rw [Call.plain, ha])
  | Take compress =>
      dsimp only
      rcases s.queue.take_cases call.world call.now compress with
        ⟨hnobody, hnone⟩ | ⟨p, rotation, id, e, object, ht, hsome⟩
      · rw [hnone]
        dsimp only
        rw [Option.toList_none, List.append_nil]
        exact .nobody hnobody
      · rw [hsome]
        exact .turn compress p rotation id e object ht
  | Apply request limit lineLimit =>
      dsimp only
      cases request with
      | Halt target =>
          refine hstill (s.queue.cancel target).2 rfl (Effect.cancelled target ?_)
          rw [Call.plain, ha]
      | Add executor cause seconds text =>
          unfold apply
          rcases add_cases executor cause seconds text limit lineLimit call.now s.queue call.world with
            ⟨e, herror⟩ | hok | ⟨object, hobject, hhalt⟩ | ⟨object, due, haccepts, hpush⟩
          · rw [Update.after_error _ _ _ e herror]
            exact hstill s.queue rfl Effect.idle
          · rw [Update.after_ok _ _ hok]
            exact hstill s.queue rfl Effect.idle
          · rw [Update.after_ok _ _ hhalt]
            refine hstill (s.queue.cancel (some executor)).2 rfl
              (Effect.overrun executor object hobject ?_)
            unfold worldAfter
            rw [ha]
            dsimp only [apply]
            rw [Update.after_ok _ _ hhalt]
          · rw [Update.after_ok _ _ hpush]
            rw [admitted_push _ _ _ hb]
            refine .admits ⟨executor, object.generation, cause, due, text⟩ object ⟨?_, haccepts.room,
              haccepts.present, rfl, haccepts.kind, haccepts.runs, checkedAdd_le haccepts.due⟩
            rw [ha]
            exact haccepts.below

theorem step_cases (call : Call) :
    (∃ later, s.queue.Drops later ∧ later.Tallied ∧ s.step call = { s with queue := later }) ∨
    (∃ e object, Admits s.queue call e object ∧ s.step call =
      { s with
        queue := s.queue.push e
        admissions := s.admissions ++ [⟨s.queue.next + 1, e, call⟩] }) ∨
    ∃ compress p rotation id e object,
      s.queue.Turn call.world call.now p rotation id e object ∧ ¬ flagged object ∧
      s.step call =
        { s with
          queue := (s.queue.outcome call.world call.now compress p rotation id e object).2
          runs := s.runs ++ [Queue.taken id e compress] } := by
  have heffect := s.step_effect h.below call
  generalize s.step call = later at heffect ⊢
  have hreconcile := s.queue.drops_reconcile call.world
  have htallied := s.queue.tallied_reconcile h.tallied call.world
  cases heffect with
  | idle => exact Or.inl ⟨s.queue, ⟨List.Sublist.refl _, rfl⟩, h.tallied, rfl⟩
  | cancelled target =>
      exact Or.inl ⟨_, s.queue.drops_cancel target, s.queue.tallied_cancel h.tallied target, rfl⟩
  | overrun executor =>
      exact Or.inl ⟨_, s.queue.drops_cancel _, s.queue.tallied_cancel h.tallied _, rfl⟩
  | reconciled => exact Or.inl ⟨_, hreconcile, htallied, rfl⟩
  | admits e object hadmits => exact Or.inr (Or.inl ⟨e, object, hadmits, rfl⟩)
  | nobody =>
      exact Or.inl ⟨{ s.queue.reconcile call.world with rotation := [] },
        ⟨hreconcile.entries, hreconcile.next⟩,
        ⟨htallied.bytes, List.nodup_nil, fun p hp => by contradiction⟩, rfl⟩
  | turn compress p rotation id e object ht =>
      have hturn := s.queue.tallied_outcome h.tallied compress ht
      by_cases hflags : flagged object
      · refine Or.inl ⟨_, ?_, hturn, ?_⟩
        · unfold Queue.outcome
          rw [if_pos hflags]
          exact ⟨List.filter_sublist.trans List.filter_sublist, rfl⟩
        · unfold Queue.outcome
          rw [if_pos hflags]
          simp
      · refine Or.inr (Or.inr ⟨compress, p, rotation, id, e, object, ht, hflags, ?_⟩)
        unfold Queue.outcome
        rw [if_neg hflags]
        rfl

theorem sound_step (call : Call) : (s.step call).Sound := by
  rcases s.step_cases h call with ⟨later, hdrops, htallied, heq⟩ | ⟨e, object, hadmits, heq⟩ |
    ⟨compress, p, rotation, id, e, object, ht, hflags, heq⟩
  · rw [heq]
    exact s.sound_shrink h s.runs (hdrops.shrinks _ _) htallied
  · rw [heq]
    exact s.sound_push h hadmits.below hadmits.room hadmits.present
      hadmits.generation
  · rw [heq]
    have hreconcile := (s.queue.drops_reconcile call.world).shrinks _ _
    have hmem := (s.queue.mem_reconcile call.world id e).mpr ⟨ht.held, ht.lives⟩
    have hconsume := Queue.shrinks_consume { s.queue.reconcile call.world with rotation := rotation }
      p call.now hmem
    refine s.sound_shrink h _ ?_ (s.queue.tallied_outcome h.tallied compress ht)
    unfold Queue.outcome
    rw [if_neg hflags]
    exact ⟨IsTrans.trans _ _ _ hconsume.entries hreconcile.entries,
      hconsume.next.trans hreconcile.next⟩

omit h in
theorem sound_run (calls : List Call) (h : s.Sound) : (calls.foldl step s).Sound := by
  induction calls generalizing s with
  | nil => exact h
  | cons call calls ih => exact ih (s.step call) (s.sound_step h call)

end Record

theorem apply_unchanged {request : Request} {limit lineLimit : Nat} {now : Instant}
    {before after : Candidate} {e : Error}
    (h : apply request limit lineLimit now before = .error e after) : after = before := by
  obtain ⟨q, world⟩ := before
  cases request with
  | Halt target => contradiction
  | Add executor cause seconds text =>
      unfold apply at h
      dsimp only at h
      rcases add_cases executor cause seconds text limit lineLimit now q world with
        ⟨cause, herror⟩ | hok | ⟨object, -, hhalt⟩ | ⟨object, due, haccepts, hpush⟩
      · rw [herror] at h
        injection h with _ h
        exact h.symm
      · rw [hok] at h
        contradiction
      · rw [hhalt] at h
        contradiction
      · rw [hpush] at h
        contradiction

-- Work is for an executor of the generation it was admitted for, that is up.
def Record.Authorized (s : Record) (world : World) (taken : Queue.Taken) : Prop :=
  ∃ a ∈ s.admissions, a.id = taken.id ∧
    a.entry.executor = taken.work.execution.executor ∧
    (∃ object, a.call.world.get? a.entry.executor = some object ∧
      object.generation = a.entry.generation) ∧
    ∃ object, world.get? a.entry.executor = some object ∧
      object.generation = a.entry.generation ∧ object.kind ≠ .Garbage ∧
      .Going ∉ object.flags ∧ .Halted ∉ object.flags

theorem Record.take_authorized {s : Record} (h : s.Sound) {now : Instant} {world : World}
    {compress : Bool} {taken : Queue.Taken} {later : Queue}
    (htake : s.queue.take now world compress = .ok (some taken, later)) :
    s.Authorized world taken := by
  rcases s.queue.take_cases world now compress with
    ⟨-, hnone⟩ | ⟨p, rotation, id, e, object, ht, hsome⟩
  · rw [hnone] at htake
    injection htake with htake
    injection htake with htake _
    contradiction
  · rw [hsome] at htake
    injection htake with htake
    unfold Queue.outcome at htake
    split at htake
    · injection htake with htake _
      contradiction
    · rename_i hflags
      injection htake with htake _
      injection htake with htake
      subst htake
      obtain ⟨a, ha, hid, hexecutor, hgeneration⟩ := h.origin id e ht.held
      have hp : a.entry.executor = p := hexecutor.trans ht.executor
      obtain ⟨hgoing, hhalted⟩ := not_or.mp hflags
      refine ⟨a, ha, hid, hexecutor, h.captured a ha, object, ?_, ?_, ht.kind, hgoing, hhalted⟩
      · rw [hp]
        exact ht.present
      · rw [hgeneration]
        exact ht.generation

structure Record.Contract (s : Record) : Prop where
  bytes : s.queue.bytes = (s.queue.entries.values.map (fun e => utf8Len e.text)).sum
  bounded : s.queue.bytes ≤ MAX_QUEUE_BYTES
  nodup : s.queue.rotation.Nodup
  named : ∀ p ∈ s.queue.rotation, ∃ e ∈ s.queue.entries.values, e.executor = p
  limited : ∀ p a, s.lastAdmission p = some a → s.queue.count p ≤ a.call.action.limit
  unadmitted : ∀ p, s.lastAdmission p = none → s.queue.count p = 0
  unchanged : ∀ request limit lineLimit now world e after,
    apply request limit lineLimit now ⟨s.queue, world⟩ = .error e after → after = ⟨s.queue, world⟩
  takes : ∀ now world compress, ∃ result, s.queue.take now world compress = .ok result
  authorized : ∀ now world compress taken later,
    s.queue.take now world compress = .ok (some taken, later) → s.Authorized world taken

theorem Record.run_contract (calls : List Call) : (Record.run calls).Contract := by
  have hsound : (Record.run calls).Sound := Record.sound_run Record.empty calls Record.sound_empty
  refine ⟨hsound.tallied.bytes, ?_, hsound.tallied.nodup, ?_, ?_, ?_, ?_, ?_, ?_⟩
  · rw [hsound.tallied.bytes]
    exact hsound.bounded
  · intro p hp
    obtain ⟨id, e, he, hexecutor⟩ := (Queue.holds_iff _ p).mp (hsound.tallied.named p hp)
    exact ⟨e, List.mem_map.mpr ⟨(id, e), he, rfl⟩, hexecutor⟩
  · intro p a ha
    have hlimited := hsound.limited p
    rwa [ha] at hlimited
  · intro p hnone
    have hlimited := hsound.limited p
    rw [hnone] at hlimited
    exact Nat.le_zero.mp hlimited
  · exact fun request limit lineLimit now world e after herror =>
      apply_unchanged herror
  · exact fun now world compress => Queue.take_total _ world now compress
  · exact fun now world compress taken later htake =>
      Record.take_authorized hsound htake

end StompyMux.Commands
