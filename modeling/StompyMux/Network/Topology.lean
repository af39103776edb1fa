import Mathlib.Data.List.Sort
import Mathlib.Data.Prod.Lex
import StompyMux.Btech.Unit
import StompyMux.Library.Update
import StompyMux.World.Object

-- Automatic formation of command networks.
namespace StompyMux.Network

open StompyMux.Btech (Error Power)
open Library
open StompyMux.World (ObjectId)

inductive CommandNetwork
  | C3
  | C3i
  deriving DecidableEq

def CommandNetwork.name : CommandNetwork → String
  | .C3 => "C3"
  | .C3i => "C3i"

-- Absolute network size.
def CommandNetwork.maximum : CommandNetwork → Nat
  | .C3 => 12
  | .C3i => 6

-- A pilot's opt-out from automatic linking.
structure NetworkAutomation where
  c3 : Bool
  c3i : Bool
  deriving DecidableEq

def NetworkAutomation.allows (automation : NetworkAutomation) : CommandNetwork → Bool
  | .C3 => automation.c3
  | .C3i => automation.c3i

-- Computer counts of one unit. An installed master may be incomplete.
structure C3Hardware where
  masters : Nat
  workingMasters : Nat
  masterInstalled : Bool
  slaveInstalled : Bool
  slaveOperational : Bool
  c3iInstalled : Bool
  c3iOperational : Bool
  deriving DecidableEq

-- Losing every installed master disables a unit's slaves.
def C3Hardware.operational (hardware : C3Hardware) : Bool :=
  if hardware.masterInstalled && hardware.workingMasters = 0 then false
  else 0 < hardware.workingMasters || hardware.slaveOperational

structure NetworkUnit where
  -- the map the unit is placed on
  map : Option ObjectId
  team : Int
  power : Power
  automation : NetworkAutomation
  c3Network : Option Nat
  c3iNetwork : Option Nat
  c3Hardware : Except Error C3Hardware

def CommandNetwork.link (kind : CommandNetwork) (unit : NetworkUnit) : Option Nat :=
  match kind with
  | .C3 => unit.c3Network
  | .C3i => unit.c3iNetwork

def CommandNetwork.installed (kind : CommandNetwork) (hardware : C3Hardware) : Bool :=
  match kind with
  | .C3 => 0 < hardware.masters || hardware.slaveInstalled
  | .C3i => hardware.c3iInstalled

def CommandNetwork.operational (kind : CommandNetwork) (hardware : C3Hardware) : Bool :=
  match kind with
  | .C3 => hardware.operational
  | .C3i => hardware.c3iOperational

-- The units, and what else of the world the pass reads.
structure Theater where
  units : OrderedMap ObjectId NetworkUnit
  -- the object is missing or flagged
  going : ObjectId → Bool
  -- how an observer is shown another unit
  displayId : ObjectId → ObjectId → Except Error String

def NetworkUnit.withLink (kind : CommandNetwork) (value : Option Nat) (unit : NetworkUnit) :
    NetworkUnit :=
  match kind with
  | .C3 => { unit with c3Network := value }
  | .C3i => { unit with c3iNetwork := value }

def setLink (w : Theater) (id : ObjectId) (kind : CommandNetwork) (value : Option Nat) : Theater :=
  { w with units := w.units.modify id (NetworkUnit.withLink kind value) }

structure Candidate where
  id : ObjectId
  map : ObjectId
  team : Int
  link : Option Nat
  -- physically able to take part
  eligible : Bool
  -- may be linked by the server
  joinable : Bool
  workingMasters : Nat
  deriving DecidableEq

structure Group where
  link : Nat
  members : List ObjectId
  workingMasters : Nat
  -- created by this pass
  fresh : Bool
  deriving DecidableEq

structure Notice where
  unit : ObjectId
  text : String
  deriving DecidableEq

-- Seats the family allows given the masters present.
def limit (kind : CommandNetwork) (workingMasters : Nat) : Nat :=
  match kind with
  | .C3 => min (1 + 3 * workingMasters) 12
  | .C3i => 6

def Group.admits (group : Group) (kind : CommandNetwork) (candidate : Candidate) : Bool :=
  group.members.length < limit kind (group.workingMasters + candidate.workingMasters)

-- Spare seats.
def Group.room (group : Group) (kind : CommandNetwork) : Nat :=
  limit kind group.workingMasters - group.members.length

-- A placed unit that carries this family's hardware.
def candidateOf (w : Theater) (kind : CommandNetwork) (entry : ObjectId × NetworkUnit) :
    Except Error (Option Candidate) :=
  match entry.2.map with
  | none => .ok none
  | some map =>
      match entry.2.c3Hardware with
      | .error e => .error e
      | .ok hardware =>
          if kind.installed hardware then
            let eligible := !w.going entry.1 && kind.operational hardware
            .ok (some {
              id := entry.1
              map := map
              team := entry.2.team
              link := kind.link entry.2
              eligible := eligible
              joinable := eligible && entry.2.power = .Running && entry.2.automation.allows kind
              workingMasters := hardware.workingMasters })
          else .ok none

def candidatesOf (w : Theater) (kind : CommandNetwork) :
    List (ObjectId × NetworkUnit) → Except Error (List Candidate)
  | [] => .ok []
  | entry :: entries =>
      match candidateOf w kind entry with
      | .error e => .error e
      | .ok candidate => (candidatesOf w kind entries).map (fun rest => candidate.toList ++ rest)

def candidates (w : Theater) (kind : CommandNetwork) : Except Error (List Candidate) :=
  candidatesOf w kind w.units.entries

-- Masters before slaves, then lower ids.
def seniority (candidate : Candidate) : Bool ×ₗ ObjectId :=
  toLex ((candidate.workingMasters = 0 : Bool), candidate.id)

def bySeniority (candidates : List Candidate) : List Candidate :=
  candidates.insertionSort (fun a b => seniority a ≤ seniority b)

def shares (map : ObjectId) (team : Int) (link : Nat) (candidate : Candidate) : Bool :=
  candidate.eligible && candidate.map = map && candidate.team = team && candidate.link = some link

-- Members beyond what the masters carry, or all of them when fewer than two would be left.
def staleMembers (kind : CommandNetwork) (group : List Candidate) : List Candidate :=
  let seats := limit kind (group.map Candidate.workingMasters).sum
  let kept := if 2 ≤ seats then seats else 0
  let ranked := bySeniority group
  ranked.drop kept ++ if min ranked.length kept < 2 then ranked.take kept else []

-- Ascending and without repetition, whatever the order of the groups.
def staleLinks (all : List Candidate) (kind : CommandNetwork) : List ObjectId :=
  let ineligible := all.filter (fun c => c.link.isSome && !c.eligible)
  let overflow := all.flatMap (fun c =>
    match c.link with
    | some link => staleMembers kind (all.filter (shares c.map c.team link))
    | none => [])
  (((ineligible ++ overflow).map Candidate.id).insertionSort (fun a b => a ≤ b)).dedup

def unlink (stale : List ObjectId) (candidate : Candidate) : Candidate :=
  if candidate.id ∈ stale then { candidate with link := none } else candidate

-- The network identities are 64 bits wide.
def nextIdentity (kind : CommandNetwork) (link : Nat) : Except Error Nat :=
  if link + 1 < 2 ^ 64 then .ok (link + 1)
  else .error (kind.name ++ " network identities exhausted")

-- One pool under formation.
structure Formation where
  groups : OrderedMap Nat Group
  nextLink : Nat
  joined : List (ObjectId × Nat)

def addMember (groups : OrderedMap Nat Group) (link : Nat) (candidate : Candidate) :
    OrderedMap Nat Group :=
  groups.modify link (fun group => { group with
    members := group.members ++ [candidate.id]
    workingMasters := group.workingMasters + candidate.workingMasters })

-- The networks that exist before the pass.
def addExisting (groups : OrderedMap Nat Group) (candidate : Candidate) : OrderedMap Nat Group :=
  match candidate.link with
  | none => groups
  | some link =>
      let opened := match groups.get? link with
        | some _ => groups
        | none => groups.insert link ⟨link, [], 0, false⟩
      addMember opened link candidate

-- The roomiest group, of equals the one with the lowest link.
def roomier (kind : CommandNetwork) (best : Option Group) (group : Group) : Option Group :=
  match best with
  | none => some group
  | some best =>
      if best.room kind < group.room kind ∨ (best.room kind = group.room kind ∧ group.link ≤ best.link)
      then some group else some best

def target (kind : CommandNetwork) (groups : OrderedMap Nat Group) (candidate : Candidate) :
    Option Nat :=
  ((groups.values.filter (fun group => group.admits kind candidate)).foldl (roomier kind) none).map
    Group.link

def Formation.join (formation : Formation) (link : Nat) (candidate : Candidate) : Formation :=
  { formation with
    groups := addMember formation.groups link candidate
    joined := formation.joined ++ [(candidate.id, link)] }

def seat (kind : CommandNetwork) (formation : Formation) (candidate : Candidate) :
    Except Error Formation :=
  match target kind formation.groups candidate with
  | some link => .ok (formation.join link candidate)
  | none =>
      -- a lone unit only seeds a network when the family lets it carry peers
      if kind = .C3 ∧ candidate.workingMasters = 0 then .ok formation
      else
        match nextIdentity kind formation.nextLink with
        | .error e => .error e
        | .ok next =>
            let opened := formation.groups.insert formation.nextLink ⟨formation.nextLink, [], 0, true⟩
            .ok ({ formation with groups := opened, nextLink := next }.join formation.nextLink candidate)

def seatAll (kind : CommandNetwork) : Formation → List Candidate → Except Error Formation
  | formation, [] => .ok formation
  | formation, candidate :: rest =>
      match seat kind formation candidate with
      | .error e => .error e
      | .ok seated => seatAll kind seated rest

def unlinked (pool : List Candidate) : List Candidate :=
  bySeniority (pool.filter (fun c => c.link.isNone && c.joinable))

def form (kind : CommandNetwork) (pool : List Candidate) (nextLink : Nat) : Except Error Formation :=
  seatAll kind ⟨pool.foldl addExisting OrderedMap.empty, nextLink, []⟩ (unlinked pool)

def newcomers (joined : List (ObjectId × Nat)) (group : Group) : List ObjectId :=
  (joined.filter (fun pair => pair.2 = group.link)).map Prod.fst

def connects (w : Theater) (kind : CommandNetwork) (member : ObjectId) :
    List ObjectId → Except Error (List Notice)
  | [] => .ok []
  | newcomer :: rest =>
      match w.displayId member newcomer with
      | .error e => .error e
      | .ok shown =>
          (connects w kind member rest).map (fun notices =>
            ⟨member, shown ++ " connects to your " ++ kind.name ++ " network."⟩ :: notices)

-- Newcomers learn the size, veterans learn who joined.
def announce (w : Theater) (kind : CommandNetwork) (group : Group) (joined : List ObjectId) :
    List ObjectId → Except Error (List Notice)
  | [] => .ok []
  | member :: rest =>
      let own : Except Error (List Notice) :=
        if group.fresh || member ∈ joined then
          .ok [⟨member, kind.name ++ " network established with " ++ toString group.members.length ++
            " units."⟩]
        else connects w kind member joined
      match own with
      | .error e => .error e
      | .ok notices => (announce w kind group joined rest).map (fun others => notices ++ others)

def linkAll (w : Theater) (kind : CommandNetwork) (link : Nat) (ids : List ObjectId) : Theater :=
  ids.foldl (fun w id => setLink w id kind (some link)) w

-- Run a computation that reads nothing of the state.
def lift {α : Type} : Except Error α → Update Theater Error α
  | .ok a => pure a
  | .error e => throw e

def establish (kind : CommandNetwork) (joined : List (ObjectId × Nat)) (group : Group) :
    Update Theater Error (List Notice) :=
  if group.members.length < 2 ∨ newcomers joined group = [] then pure []
  else do
    modify (fun w => linkAll w kind group.link (newcomers joined group))
    let w ← get
    lift (announce w kind group (newcomers joined group) group.members)

def establishAll (kind : CommandNetwork) (joined : List (ObjectId × Nat)) :
    List Group → Update Theater Error (List Notice)
  | [] => pure []
  | group :: groups => do
      let notices ← establish kind joined group
      let others ← establishAll kind joined groups
      pure (notices ++ others)

abbrev PoolKey := ObjectId ×ₗ Int

def poolKeys (all : List Candidate) : OrderedMap PoolKey Unit :=
  (all.filter Candidate.eligible).foldl (fun keys c => keys.insert (toLex (c.map, c.team)) ())
    OrderedMap.empty

def poolAt (all : List Candidate) (key : PoolKey) : List Candidate :=
  all.filter (fun c => c.eligible && toLex (c.map, c.team) = key)

def linkPools (kind : CommandNetwork) (all : List Candidate) :
    List PoolKey → Nat → Update Theater Error (List Notice)
  | [], _ => pure []
  | key :: keys, nextLink => do
      let formation ← lift (form kind (poolAt all key) nextLink)
      let notices ← establishAll kind formation.joined formation.groups.values
      let others ← linkPools kind all keys formation.nextLink
      pure (notices ++ others)

def validateGroup (kind : CommandNetwork) (group : List NetworkUnit) : Except Error Unit :=
  if kind.maximum < group.length then .error (kind.name ++ " network exceeds capacity")
  else
    match group with
    | [] => .ok ()
    | first :: _ =>
        if group.all (fun unit => unit.map = first.map && unit.team = first.team) then .ok ()
        else .error (kind.name ++ " network crosses maps or teams")

def validateKind (w : Theater) (kind : CommandNetwork) : Except Error Unit :=
  let links : OrderedMap Nat Unit :=
    (w.units.values.filterMap kind.link).foldl (fun links link => links.insert link ()) OrderedMap.empty
  links.keys.forM (fun link => validateGroup kind (w.units.values.filter (fun u => kind.link u = some link)))

def validate (w : Theater) : Except Error Unit := [CommandNetwork.C3, .C3i].forM (validateKind w)

-- Drop dead or singleton links, then link every joinable unit.
def reconcileFor (kind : CommandNetwork) : Update Theater Error (List Notice) := do
  let w ← get
  let all ← lift (candidates w kind)
  if all = [] then pure []
  else do
    let stale := staleLinks all kind
    modify (fun w => stale.foldl (fun w id => setLink w id kind none) w)
    let cleared := all.map (unlink stale)
    let nextLink ← lift (nextIdentity kind ((cleared.filterMap Candidate.link).max?.getD 0))
    let notices ← linkPools kind cleared (poolKeys cleared).keys nextLink
    let w ← get
    lift (validate w)
    pure notices

end StompyMux.Network
