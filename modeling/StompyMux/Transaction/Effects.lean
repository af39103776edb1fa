import Mathlib.Logic.Function.Basic
import StompyMux.Library.Fallible
import StompyMux.Library.Machine
import StompyMux.StyledText.Document
import StompyMux.World.Links

-- The candidate effects of a world transaction, and the savepoints that they return to.
namespace StompyMux.Transaction

open Library Library.Text Library.Fallible
open StompyMux.World (ObjectId Links)
open StompyMux.StyledText (Document)

-- The incarnation of a player that a descriptor flow belongs to.
structure FlowIdentity where
  player : ObjectId
  generation : Nat
  deriving DecidableEq

structure ActiveFlow where
  identity : FlowIdentity
  module : List Char
  step : List Char
  scratch : List (List UInt8 × List UInt8)
  prompt : List Char
  deriving DecidableEq

structure PrivateOutput where
  -- the number of ordinary notifications that stand before it
  after : Nat
  session : Nat
  document : Document

structure FileRequest where
  filename : List Char
  message : List UInt8

structure AuditRecord where
  message : List Char

inductive TraceTopic
  | Experience | GunneryExperience | PilotingExperience | PilotingRolls | SelfDestruct | Economy
  | RadioFrequencies | RadioZeroFrequency | MapLoad

structure TraceRecord where
  topic : TraceTopic
  message : List Char

structure MapAssetWrite where
  actor : ObjectId
  name : List Char
  source : List Char

structure FieldRepair where
  object : ObjectId
  field : List Char

structure Relocation where
  object : ObjectId
  source : Option ObjectId
  destination : ObjectId

structure RepairPlan where
  fields : List FieldRepair
  relocations : List Relocation
  links : Links
  listChanges : List ObjectId
  purges : Finset ObjectId
  detachments : Finset ObjectId

structure DbCheckReport where
  findings : List (List Char)
  plan : RepairPlan

abbrev Sessions := OrderedMap Nat FlowIdentity

abbrev Flows := OrderedMap Nat ActiveFlow

abbrev Outbox := List (ObjectId × Document)

structure EffectBatch where
  saveRequested : Bool
  normal : Outbox
  flows : Flows
  privateOutputs : List PrivateOutput
  logs : List FileRequest
  records : List AuditRecord
  traces : List TraceRecord
  mapWrites : List MapAssetWrite
  maintenance : Option DbCheckReport

def EffectBatch.empty : EffectBatch where
  saveRequested := false
  normal := []
  flows := .empty
  privateOutputs := []
  logs := []
  records := []
  traces := []
  mapWrites := []
  maintenance := none

structure State where
  sessions : Sessions
  durable : Flows
  pending : EffectBatch

def State.empty : State := ⟨.empty, .empty, .empty⟩

structure Config where
  outputEntryLimit : Nat
  outputByteLimit : Nat
  outputMessageLimit : Nat

-- The shared cells. An owner of effects names the two that it works on.
structure Store where
  states : Nat → State
  outboxes : Nat → Outbox

structure Effects where
  state : Nat
  outbox : Nat
  config : Config

def saturatingAdd (a b : Nat) : Nat := min (a + b) USIZE_MAX

def PrivateOutput.len (output : PrivateOutput) : Nat := utf8Len output.document.source

def FileRequest.len (request : FileRequest) : Nat := utf8Len request.filename + request.message.length

def MapAssetWrite.bytes (request : MapAssetWrite) : Nat :=
  utf8Len request.name + utf8Len request.source

def normalBytes (normal : Outbox) : Nat := (normal.map (fun entry => utf8Len entry.2.source)).sum

-- Whether a flow belongs to a session and carries its identity.
def current (sessions : Sessions) (id : Nat) (flow : ActiveFlow) : Bool :=
  sessions.get? id = some flow.identity

def attached (sessions : Sessions) (output : PrivateOutput) : Bool :=
  (sessions.get? output.session).isSome

-- The findings that fit both limits. Those that do not are counted too.
def retainFindings (config : Config) (bytes entries : Nat) : List (List Char) → List (List Char)
  | [] => []
  | finding :: findings =>
      let bytes := saturatingAdd bytes (utf8Len finding)
      let rest := retainFindings config bytes (entries + 1) findings
      if entries + 1 ≤ config.outputEntryLimit ∧ bytes ≤ config.outputByteLimit then finding :: rest
      else rest

def DbCheckReport.merge (report old : DbCheckReport) : DbCheckReport where
  findings := old.findings ++ report.findings
  plan := { report.plan with
    purges := report.plan.purges ∪ old.plan.purges
    detachments := report.plan.detachments ∪ old.plan.detachments }

namespace Effects

-- An owner that works on the flows of a host and keeps its own output.
def hosted (effects host : Effects) : Effects := { effects with state := host.state }

variable (effects : Effects) (store : Store)

def held : State := store.states effects.state

def normal : Outbox := store.outboxes effects.outbox

def write (state : State) : Store :=
  { store with states := Function.update store.states effects.state state }

def writeOutbox (normal : Outbox) : Store :=
  { store with outboxes := Function.update store.outboxes effects.outbox normal }

def modifyPending (f : EffectBatch → EffectBatch) : Store :=
  let state := effects.held store
  effects.write store { state with pending := f state.pending }

def sessions (sessions : Sessions) : Store :=
  let state := effects.held store
  effects.write store {
    sessions := sessions
    durable := state.durable.retain (current sessions)
    pending := { state.pending with
      flows := state.pending.flows.retain (current sessions)
      privateOutputs := state.pending.privateOutputs.filter (attached sessions) } }

def checkpoint : EffectBatch :=
  { (effects.held store).pending with normal := effects.normal store }

def restore (batch : EffectBatch) : Store :=
  let state := effects.held store
  let store := effects.writeOutbox store batch.normal
  effects.write store { state with
    pending := { batch with
      normal := []
      flows := batch.flows.retain (current state.sessions)
      privateOutputs := batch.privateOutputs.filter (attached state.sessions) } }

def commit : Store :=
  let state := effects.held store
  effects.write store { state with
    durable := state.pending.flows
    pending := { state.pending with saveRequested := false } }

def requestSave : Store :=
  effects.modifyPending store (fun pending => { pending with saveRequested := true })

def rollback : Store :=
  let store := effects.writeOutbox store []
  let state := effects.held store
  effects.write store { state with pending := { EffectBatch.empty with flows := state.durable } }

def insertFlow (session : Nat) (flow : ActiveFlow) : Store :=
  effects.modifyPending store
    (fun pending => { pending with flows := pending.flows.insert session flow })

def removeFlow (session : Nat) : Option ActiveFlow × Store :=
  ((effects.held store).pending.flows.get? session,
    effects.modifyPending store
      (fun pending => { pending with flows := pending.flows.remove session }))

def session (session : Nat) : Option FlowIdentity := (effects.held store).sessions.get? session

def cancel (session : Nat) : Store :=
  let state := effects.held store
  effects.write store { state with
    durable := state.durable.remove session
    pending := { state.pending with
      flows := state.pending.flows.remove session
      privateOutputs := state.pending.privateOutputs.filter (fun o => o.session ≠ session) } }

def stageLog (request : FileRequest) (config : Config) : Bool × Store :=
  let pending := (effects.held store).pending.logs
  let bytes := (pending.map FileRequest.len).sum
  if config.outputEntryLimit ≤ pending.length ∨
      config.outputByteLimit < saturatingAdd bytes request.len then
    (false, store)
  else (true, effects.modifyPending store
    (fun pending => { pending with logs := pending.logs ++ [request] }))

def validate : Except Error Unit :=
  let normal := effects.normal store
  let pending := (effects.held store).pending
  let bytes := saturatingAdd
    (saturatingAdd (pending.mapWrites.map MapAssetWrite.bytes).sum
      (pending.records.map (fun record => utf8Len record.message)).sum)
    (saturatingAdd
      (saturatingAdd (normalBytes normal) (pending.privateOutputs.map PrivateOutput.len).sum)
      (pending.logs.map FileRequest.len).sum)
  let entries := saturatingAdd (saturatingAdd (saturatingAdd
    (saturatingAdd normal.length pending.privateOutputs.length) pending.logs.length)
    pending.records.length) pending.mapWrites.length
  if effects.config.outputEntryLimit < entries ∨ effects.config.outputByteLimit < bytes then
    .error ["Lua output limit exceeded"]
  else .ok ()

-- Stage an effect, and return to the state before it when the allowance is exceeded.
def admitStaged (push : EffectBatch → EffectBatch) : Except Error Unit × Store :=
  let before := effects.checkpoint store
  let store := effects.modifyPending store push
  match effects.validate store with
  | .error error => (.error error, effects.restore store before)
  | .ok () => (.ok (), store)

def stageRecord (record : AuditRecord) : Except Error Unit × Store :=
  effects.admitStaged store (fun pending => { pending with records := pending.records ++ [record] })

def stageMapWrite (request : MapAssetWrite) : Except Error Unit × Store :=
  effects.admitStaged store
    (fun pending => { pending with mapWrites := pending.mapWrites ++ [request] })

def stageTrace (record : TraceRecord) : Store :=
  effects.modifyPending store (fun pending => { pending with traces := pending.traces ++ [record] })

def stageMaintenance (report : DbCheckReport) : Store :=
  effects.modifyPending store (fun pending =>
    let report := match pending.maintenance with
      | some old => report.merge old
      | none => report
    let findings := retainFindings effects.config 0 0 report.findings
    { pending with maintenance := some { report with findings := findings } })

def drainRecords : List AuditRecord × Store :=
  ((effects.held store).pending.records,
    effects.modifyPending store (fun pending => { pending with records := [] }))

def drainTraces : List TraceRecord × Store :=
  ((effects.held store).pending.traces,
    effects.modifyPending store (fun pending => { pending with traces := [] }))

def drainMapWrites : List MapAssetWrite × Store :=
  ((effects.held store).pending.mapWrites,
    effects.modifyPending store (fun pending => { pending with mapWrites := [] }))

def drainMaintenance : Option DbCheckReport × Store :=
  ((effects.held store).pending.maintenance,
    effects.modifyPending store (fun pending => { pending with maintenance := none }))

def drainLogs : List FileRequest × Store :=
  ((effects.held store).pending.logs,
    effects.modifyPending store (fun pending => { pending with logs := [] }))

def drainPrivate : List PrivateOutput × Store :=
  ((effects.held store).pending.privateOutputs,
    effects.modifyPending store (fun pending => { pending with privateOutputs := [] }))

def output (session : Nat) (document : Document) : Except Error Unit × Store :=
  let normal := effects.normal store
  let pending := (effects.held store).pending
  let bytes := normalBytes normal + (pending.privateOutputs.map PrivateOutput.len).sum
  if effects.config.outputMessageLimit < utf8Len document.source ∨
      effects.config.outputEntryLimit ≤ normal.length + pending.privateOutputs.length ∨
      effects.config.outputByteLimit < saturatingAdd bytes (utf8Len document.source) then
    (.error ["Flow output limit exceeded"], store)
  else (.ok (), effects.modifyPending store (fun pending => { pending with
    privateOutputs := pending.privateOutputs ++ [⟨normal.length, session, document⟩] }))

def stop : Store :=
  effects.write (effects.writeOutbox store []) State.empty

-- The two states are borrowed at once, so an owner cannot inherit from one that shares its state.
def inherit (previous : Effects) : Option Store :=
  if effects.state = previous.state then none
  else
    let previous := previous.held store
    let state := effects.held store
    some <| effects.write store {
      sessions := previous.sessions
      durable := previous.durable
      pending := { EffectBatch.empty with
        flows := previous.durable
        logs := state.pending.logs
        records := state.pending.records
        traces := state.pending.traces
        mapWrites := state.pending.mapWrites
        maintenance := state.pending.maintenance } }

end Effects

-- Run an action on the world as it stood. If it fails, the world and the effects return to that.
def atomic {World T : Type} (effects : Effects)
    (action : World → World × Store → Except Error T × World × Store) (world : World)
    (store : Store) : Except Error T × World × Store :=
  let before := world
  let checkpoint := effects.checkpoint store
  match action before (world, store) with
  | (.error error, _, store) => (.error error, before, effects.restore store checkpoint)
  | (.ok value, world, store) => (.ok value, world, store)

end StompyMux.Transaction
