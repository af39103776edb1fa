import StompyMux.Library.Transition
import StompyMux.Transaction.Effects

-- Runs of operations on the shared cells, with savepoints that are restored in any order.
namespace StompyMux.Transaction

open Library
open StompyMux.World (ObjectId)
open StompyMux.StyledText (Document)

inductive Operation
  | sessions (sessions : Sessions)
  | checkpoint
  -- the savepoint with this number
  | restore (savepoint : Nat)
  | commit
  | requestSave
  | rollback
  | insertFlow (session : Nat) (flow : ActiveFlow)
  | removeFlow (session : Nat)
  | cancel (session : Nat)
  | stageLog (request : FileRequest) (config : Config)
  | stageRecord (record : AuditRecord)
  | stageTrace (record : TraceRecord)
  | stageMapWrite (request : MapAssetWrite)
  | stageMaintenance (report : DbCheckReport)
  | drainRecords
  | drainTraces
  | drainMapWrites
  | drainMaintenance
  | drainLogs
  | drainPrivate
  | output (session : Nat) (document : Document)
  -- what the services leave in the outbox that they share
  | notify (normal : Outbox)
  | stop
  | inherit (previous : Effects)

-- The cells and the savepoints taken so far, the first one first.
structure System where
  store : Store
  savepoints : List EffectBatch

abbrev Action := Effects × Operation

namespace System

-- The owners of effects are new: their states are empty.
def start (outboxes : Nat → Outbox) : System := ⟨⟨fun _ => State.empty, outboxes⟩, []⟩

variable (system : System)

def apply : Action → Option System
  | (effects, .checkpoint) =>
      some { system with savepoints := system.savepoints ++ [effects.checkpoint system.store] }
  | (effects, .restore savepoint) =>
      (system.savepoints[savepoint]?).map
        (fun batch => { system with store := effects.restore system.store batch })
  | (effects, .inherit previous) =>
      (effects.inherit system.store previous).map (fun store => { system with store := store })
  | (effects, .sessions sessions) =>
      some { system with store := effects.sessions system.store sessions }
  | (effects, .commit) => some { system with store := effects.commit system.store }
  | (effects, .requestSave) => some { system with store := effects.requestSave system.store }
  | (effects, .rollback) => some { system with store := effects.rollback system.store }
  | (effects, .insertFlow session flow) =>
      some { system with store := effects.insertFlow system.store session flow }
  | (effects, .removeFlow session) =>
      some { system with store := (effects.removeFlow system.store session).2 }
  | (effects, .cancel session) => some { system with store := effects.cancel system.store session }
  | (effects, .stageLog request config) =>
      some { system with store := (effects.stageLog system.store request config).2 }
  | (effects, .stageRecord record) =>
      some { system with store := (effects.stageRecord system.store record).2 }
  | (effects, .stageTrace record) =>
      some { system with store := effects.stageTrace system.store record }
  | (effects, .stageMapWrite request) =>
      some { system with store := (effects.stageMapWrite system.store request).2 }
  | (effects, .stageMaintenance report) =>
      some { system with store := effects.stageMaintenance system.store report }
  | (effects, .drainRecords) => some { system with store := (effects.drainRecords system.store).2 }
  | (effects, .drainTraces) => some { system with store := (effects.drainTraces system.store).2 }
  | (effects, .drainMapWrites) =>
      some { system with store := (effects.drainMapWrites system.store).2 }
  | (effects, .drainMaintenance) =>
      some { system with store := (effects.drainMaintenance system.store).2 }
  | (effects, .drainLogs) => some { system with store := (effects.drainLogs system.store).2 }
  | (effects, .drainPrivate) => some { system with store := (effects.drainPrivate system.store).2 }
  | (effects, .output session document) =>
      some { system with store := (effects.output system.store session document).2 }
  | (effects, .notify normal) =>
      some { system with store := effects.writeOutbox system.store normal }
  | (effects, .stop) => some { system with store := effects.stop system.store }

-- A flow is inserted under the identity that its session has at the time.
def permits : Action → Bool
  | (effects, .insertFlow session flow) =>
      effects.session system.store session = some flow.identity
  | _ => true

def step (action : Action) : Option System :=
  if system.permits action then system.apply action else none

end System

def Anchored (sessions : Sessions) (flows : Flows) : Prop :=
  ∀ id flow, flows.get? id = some flow → sessions.get? id = some flow.identity

-- Every flow belongs to a live session and carries its identity.
structure State.Settled (state : State) : Prop where
  pending : Anchored state.sessions state.pending.flows
  durable : Anchored state.sessions state.durable

def Store.Settled (store : Store) : Prop := ∀ cell, (store.states cell).Settled

section

variable (sessions : Sessions) (flows : Flows)

theorem anchored_empty : Anchored sessions .empty := by
  intro id flow h
  contradiction

theorem anchored_retain : Anchored sessions (flows.retain (current sessions)) := by
  intro id flow h
  rw [OrderedMap.get?_retain, Option.filter_eq_some_iff] at h
  exact of_decide_eq_true h.2

variable (h : Anchored sessions flows)

include h

theorem Anchored.insert (session : Nat) (flow : ActiveFlow)
    (hsession : sessions.get? session = some flow.identity) :
    Anchored sessions (flows.insert session flow) := by
  intro id other hother
  rw [OrderedMap.get?_insert] at hother
  by_cases hid : id = session
  · rw [if_pos hid] at hother
    injection hother with hother
    rw [hid, ← hother, hsession]
  · rw [if_neg hid] at hother
    exact h id other hother

theorem Anchored.remove (session : Nat) : Anchored sessions (flows.remove session) := by
  intro id flow hflow
  rw [OrderedMap.get?_remove] at hflow
  by_cases hid : id = session
  · rw [if_pos hid] at hflow
    contradiction
  · rw [if_neg hid] at hflow
    exact h id flow hflow

-- What stays under later sessions are the flows whose session has kept its identity.
theorem Anchored.retain_current (later : Sessions) :
    flows.retain (current later) = flows.retain (fun id _ => later.get? id = sessions.get? id) := by
  refine OrderedMap.eq_of_get? _ _ (fun id => ?_)
  rw [OrderedMap.get?_retain, OrderedMap.get?_retain]
  cases hflow : flows.get? id with
  | none => rfl
  | some flow =>
      unfold current
      rw [Option.filter_some, Option.filter_some, h id flow hflow]

end

section

variable (effects : Effects) (store : Store)

@[simp] theorem held_write (state : State) : effects.held (effects.write store state) = state :=
  Function.update_self _ _ _

@[simp] theorem normal_writeOutbox (normal : Outbox) :
    effects.normal (effects.writeOutbox store normal) = normal := Function.update_self _ _ _

@[simp] theorem held_writeOutbox (normal : Outbox) :
    effects.held (effects.writeOutbox store normal) = effects.held store := rfl

@[simp] theorem normal_write (state : State) :
    effects.normal (effects.write store state) = effects.normal store := rfl

end

section

variable (effects : Effects) (store : Store) (hs : store.Settled)

include hs

theorem settled_write (state : State) (h : state.Settled) : (effects.write store state).Settled := by
  intro cell
  change (Function.update store.states effects.state state cell).Settled
  by_cases hcell : cell = effects.state
  · rw [hcell, Function.update_self]
    exact h
  · rw [Function.update_of_ne hcell]
    exact hs cell

theorem settled_writeOutbox (normal : Outbox) : (effects.writeOutbox store normal).Settled := hs

theorem settled_pending (next : Store) (pending : EffectBatch)
    (hnext : next.states = Function.update store.states effects.state
      { effects.held store with pending := pending })
    (hpending : Anchored (effects.held store).sessions pending.flows) : next.Settled := by
  intro cell
  rw [hnext]
  exact settled_write effects store hs { effects.held store with pending := pending }
    ⟨hpending, (hs effects.state).durable⟩ cell

theorem settled_sessions (sessions : Sessions) : (effects.sessions store sessions).Settled :=
  settled_write effects store hs _ ⟨anchored_retain _ _, anchored_retain _ _⟩

theorem settled_restore (batch : EffectBatch) : (effects.restore store batch).Settled :=
  settled_write effects _ (settled_writeOutbox effects store hs _) _
    ⟨anchored_retain _ _, (hs effects.state).durable⟩

theorem settled_commit : (effects.commit store).Settled :=
  settled_write effects store hs _ ⟨(hs effects.state).pending, (hs effects.state).pending⟩

theorem settled_rollback : (effects.rollback store).Settled :=
  settled_write effects _ (settled_writeOutbox effects store hs _) _
    ⟨(hs effects.state).durable, (hs effects.state).durable⟩

theorem settled_cancel (session : Nat) : (effects.cancel store session).Settled :=
  settled_write effects store hs _
    ⟨(hs effects.state).pending.remove _ _ session, (hs effects.state).durable.remove _ _ session⟩

theorem settled_stop : (effects.stop store).Settled :=
  settled_write effects _ (settled_writeOutbox effects store hs _) _
    ⟨anchored_empty _, anchored_empty _⟩

theorem settled_inherit {previous : Effects} {next : Store}
    (h : effects.inherit store previous = some next) : next.Settled := by
  unfold Effects.inherit at h
  split at h
  · contradiction
  · injection h with h
    rw [← h]
    exact settled_write effects store hs _
      ⟨(hs previous.state).durable, (hs previous.state).durable⟩

theorem settled_admitStaged (push : EffectBatch → EffectBatch)
    (hpush : Anchored (effects.held store).sessions (push (effects.held store).pending).flows) :
    (effects.admitStaged store push).2.Settled := by
  have hstaged := settled_pending effects store hs (effects.modifyPending store push) _ rfl hpush
  unfold Effects.admitStaged
  dsimp only
  split
  · exact settled_restore effects _ hstaged _
  · exact hstaged

theorem settled_stageLog (request : FileRequest) (config : Config) :
    (effects.stageLog store request config).2.Settled := by
  unfold Effects.stageLog
  dsimp only
  split
  · exact hs
  · exact settled_pending effects store hs _ _ rfl (hs effects.state).pending

theorem settled_output (session : Nat) (document : Document) :
    (effects.output store session document).2.Settled := by
  unfold Effects.output
  dsimp only
  split
  · exact hs
  · exact settled_pending effects store hs _ _ rfl (hs effects.state).pending

end

namespace System

section

variable (system : System) (action : Action) (next : System) (h : system.step action = some next)

include h

theorem settled_step (hs : system.store.Settled) : next.store.Settled := by
  unfold step at h
  split at h
  case isFalse => contradiction
  case isTrue hpermits =>
    obtain ⟨effects, operation⟩ := action
    have hkept := (hs effects.state).pending
    have hnext : ∀ store, some { system with store := store } = some next → store.Settled →
        next.store.Settled := by
      intro store hstore hsettled
      injection hstore with hstore
      rwa [← hstore]
    cases operation with
    | checkpoint =>
        injection h with h
        rwa [← h]
    | restore savepoint =>
        obtain ⟨batch, -, rfl⟩ := Option.map_eq_some_iff.mp h
        exact settled_restore effects _ hs batch
    | inherit previous =>
        obtain ⟨store, hstore, rfl⟩ := Option.map_eq_some_iff.mp h
        exact settled_inherit effects _ hs hstore
    | sessions sessions => exact hnext _ h (settled_sessions effects _ hs sessions)
    | commit => exact hnext _ h (settled_commit effects _ hs)
    | rollback => exact hnext _ h (settled_rollback effects _ hs)
    | cancel session => exact hnext _ h (settled_cancel effects _ hs session)
    | notify normal => exact hnext _ h (settled_writeOutbox effects _ hs normal)
    | stop => exact hnext _ h (settled_stop effects _ hs)
    | insertFlow session flow =>
        have hflows := hkept.insert _ _ session flow (of_decide_eq_true hpermits)
        exact hnext _ h (settled_pending effects _ hs _ _ rfl hflows)
    | removeFlow session =>
        exact hnext _ h (settled_pending effects _ hs _ _ rfl (hkept.remove _ _ session))
    | stageLog request config => exact hnext _ h (settled_stageLog effects _ hs request config)
    | output session document => exact hnext _ h (settled_output effects _ hs session document)
    | stageRecord _ | stageMapWrite _ => exact hnext _ h (settled_admitStaged effects _ hs _ hkept)
    | requestSave | stageTrace _ | stageMaintenance _ | drainRecords | drainTraces | drainMapWrites
    | drainMaintenance | drainLogs | drainPrivate =>
        exact hnext _ h (settled_pending effects _ hs _ _ rfl hkept)

theorem savepoints_step : system.savepoints <+: next.savepoints := by
  unfold step at h
  split at h
  case isFalse => contradiction
  case isTrue =>
    obtain ⟨effects, operation⟩ := action
    cases operation with
    | checkpoint =>
        injection h with h
        rw [← h]
        exact List.prefix_append _ _
    | restore savepoint =>
        obtain ⟨batch, -, rfl⟩ := Option.map_eq_some_iff.mp h
        exact List.prefix_rfl
    | inherit previous =>
        obtain ⟨store, -, rfl⟩ := Option.map_eq_some_iff.mp h
        exact List.prefix_rfl
    | _ =>
        injection h with h
        rw [← h]

end

section

variable (system final : System) (actions : List Action)
  (h : Transition.run step system actions = some final)

include h

theorem settled_run (hs : system.store.Settled) : final.store.Settled :=
  Transition.run_invariant step (fun s => s.store.Settled)
    (fun s action next hs hnext => settled_step s action next hnext hs) actions system final hs h

theorem savepoints_run : system.savepoints <+: final.savepoints :=
  Transition.run_invariant step (fun s => system.savepoints <+: s.savepoints)
    (fun s action next hs hnext => hs.trans (savepoints_step s action next hnext)) actions system
    final List.prefix_rfl h

end

theorem settled_start (outboxes : Nat → Outbox) : (start outboxes).store.Settled :=
  fun _ => ⟨anchored_empty _, anchored_empty _⟩

end System

-- What is left of a savepoint when the sessions `was` have become the sessions `now`.
def EffectBatch.since (batch : EffectBatch) (was now : Sessions) : EffectBatch :=
  { batch with
    flows := batch.flows.retain (fun id _ => now.get? id = was.get? id)
    privateOutputs := batch.privateOutputs.filter (fun o => (now.get? o.session).isSome) }

section

variable (effects : Effects) (store : Store)

theorem checkpoint_restore {batch : EffectBatch} {was : Sessions}
    (h : Anchored was batch.flows) : effects.checkpoint (effects.restore store batch) =
      batch.since was (effects.held store).sessions := by
  unfold Effects.checkpoint Effects.restore EffectBatch.since
  rw [held_write, normal_write, normal_writeOutbox, h.retain_current]
  rfl

theorem checkpoint_rollback : effects.checkpoint (effects.rollback store) =
    { EffectBatch.empty with flows := (effects.held store).durable } := by
  unfold Effects.checkpoint Effects.rollback
  rw [held_write, normal_write, normal_writeOutbox, held_writeOutbox]
  rfl

end

-- In every run the flows belong to live sessions. A savepoint, wherever it was taken, is restored
-- without the flows of the sessions that have ended or changed since, and without the private
-- output of the sessions that have ended. A rollback leaves the durable flows.
theorem effects_exact (outboxes : Nat → Outbox) (actions : List Action) (final : System)
    (h : Transition.run System.step (System.start outboxes) actions = some final) :
    final.store.Settled ∧
    (∀ before owner later saved, actions = before ++ (owner, .checkpoint) :: later →
      Transition.run System.step (System.start outboxes) before = some saved →
      ∀ effects : Effects, ∃ restored,
        final.step (effects, .restore saved.savepoints.length) = some restored ∧
        effects.checkpoint restored.store = (owner.checkpoint saved.store).since
          (owner.held saved.store).sessions (effects.held final.store).sessions ∧
        (effects.held restored.store).sessions = (effects.held final.store).sessions ∧
        (effects.held restored.store).durable = (effects.held final.store).durable) ∧
    (∀ effects : Effects, ∃ rolled, final.step (effects, .rollback) = some rolled ∧
      effects.checkpoint rolled.store =
        { EffectBatch.empty with flows := (effects.held final.store).durable } ∧
      (effects.held rolled.store).sessions = (effects.held final.store).sessions ∧
      (effects.held rolled.store).durable = (effects.held final.store).durable) := by
  refine ⟨System.settled_run _ final actions h (System.settled_start outboxes), ?_, ?_⟩
  · intro before owner later saved hactions hbefore effects
    have hsaved := System.settled_run _ saved before hbefore (System.settled_start outboxes)
    rw [hactions, Transition.run_append, hbefore, Option.bind_some] at h
    obtain ⟨taken, htaken, hlater⟩ := (Transition.run_cons_eq_some _ _ _ _ _).mp h
    injection htaken with htaken
    -- the savepoint is still found under its number
    have hfound : final.savepoints[saved.savepoints.length]? = some (owner.checkpoint saved.store) := by
      obtain ⟨more, hmore⟩ := System.savepoints_run taken final later hlater
      rw [← hmore, ← htaken, List.append_assoc, List.getElem?_append_right (Nat.le_refl _),
        Nat.sub_self]
      rfl
    refine ⟨{ final with store := effects.restore final.store (owner.checkpoint saved.store) },
      ?_, ?_, ?_, ?_⟩
    · change (final.savepoints[saved.savepoints.length]?).map _ = _
      rw [hfound]
      rfl
    · exact checkpoint_restore effects final.store (hsaved owner.state).pending
    · unfold Effects.restore
      rw [held_write]
    · unfold Effects.restore
      rw [held_write]
  · intro effects
    refine ⟨{ final with store := effects.rollback final.store }, rfl,
      checkpoint_rollback effects final.store, ?_, ?_⟩
    · unfold Effects.rollback
      rw [held_write, held_writeOutbox]
    · unfold Effects.rollback
      rw [held_write, held_writeOutbox]

namespace Reading

def owner : Effects := ⟨0, 0, 1024, 1048576, 65536⟩

def identity (generation : Nat) : FlowIdentity := ⟨1, generation⟩

def staged : List Action :=
  [(owner, .sessions (OrderedMap.empty.insert 7 (identity 4))),
    (owner, .insertFlow 7 ⟨identity 4, "probe.lua".toList, "start".toList, [], []⟩),
    (owner, .output 7 (.Literal "ready".toList))]

-- The session ends before the savepoint is restored.
theorem effects_exact_ended : ∃ saved final restored,
    Transition.run System.step (System.start (fun _ => [])) staged = some saved ∧
    Transition.run System.step (System.start (fun _ => []))
      (staged ++ [(owner, .checkpoint), (owner, .sessions .empty)]) = some final ∧
    final.step (owner, .restore 0) = some restored ∧
    owner.checkpoint restored.store = (owner.checkpoint saved.store).since
      (owner.held saved.store).sessions (owner.held final.store).sessions := by
  obtain ⟨restored, hrestored, hsince, -⟩ := (effects_exact (fun _ => [])
    (staged ++ [(owner, .checkpoint), (owner, .sessions .empty)]) _ rfl).2.1 staged owner _ _ rfl rfl
    owner
  exact ⟨_, _, restored, rfl, rfl, hrestored, hsince⟩

-- The session gets another identity instead. Its private output comes back with the savepoint.
theorem output_outlives_identity : ∃ saved final restored output,
    Transition.run System.step (System.start (fun _ => [])) staged = some saved ∧
    Transition.run System.step (System.start (fun _ => []))
      (staged ++ [(owner, .checkpoint),
        (owner, .sessions (OrderedMap.empty.insert 7 (identity 5)))]) = some final ∧
    final.step (owner, .restore saved.savepoints.length) = some restored ∧
    owner.session final.store 7 ≠ owner.session saved.store 7 ∧ output.session = 7 ∧
    output ∈ (owner.checkpoint restored.store).privateOutputs := by
  refine ⟨_, _, _, ⟨0, 7, .Literal "ready".toList⟩, rfl, rfl, rfl, ?_, rfl, ?_⟩
  · decide
  · exact List.mem_cons_self

end Reading

section

variable {World T : Type} (effects : Effects) (action : World → World × Store →
  Except Library.Fallible.Error T × World × Store) (world left : World)
  (system reached : System) (during : List Action) (error : Library.Fallible.Error)

-- An action that runs operations and fails leaves the world as it found it, and of the effects
-- what a savepoint from before it leaves.
theorem atomic_failed (hs : system.store.Settled)
    (hrun : Transition.run System.step system during = some reached)
    (haction : action world (world, system.store) = (.error error, left, reached.store)) :
    ∃ store, atomic effects action world system.store = (.error error, world, store) ∧
      store.Settled ∧ effects.checkpoint store = (effects.checkpoint system.store).since
        (effects.held system.store).sessions (effects.held reached.store).sessions := by
  refine ⟨effects.restore reached.store (effects.checkpoint system.store), ?_, ?_, ?_⟩
  · unfold atomic
    dsimp only
    rw [haction]
  · exact settled_restore effects _ (System.settled_run system reached during hrun hs) _
  · exact checkpoint_restore effects reached.store (hs effects.state).pending

end

-- The session has a flow when the action fails; afterwards there is none.
theorem atomic_failed_staged : ∃ reached store,
    Transition.run System.step (System.start (fun _ => [])) Reading.staged = some reached ∧
    atomic Reading.owner (fun (_ : Nat) _ => ((.error ["late"] : Except _ Unit), 1, reached.store)) 0
      (System.start (fun _ => [])).store = (.error ["late"], 0, store) ∧
    (Reading.owner.checkpoint store).flows.get? 7 = none := by
  obtain ⟨reached, hreached⟩ : ∃ reached,
      Transition.run System.step (System.start (fun _ => [])) Reading.staged = some reached := ⟨_, rfl⟩
  obtain ⟨store, hfailed, -, hsince⟩ := atomic_failed Reading.owner
    (fun (_ : Nat) _ => (.error ["late"], 1, reached.store)) 0 1 (System.start (fun _ => [])) reached
    Reading.staged ["late"] (System.settled_start _) hreached rfl
  exact ⟨reached, store, hreached, hfailed, by rw [hsince]; rfl⟩

end StompyMux.Transaction
