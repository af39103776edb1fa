import Mathlib.Data.List.Sort
import Mathlib.Data.Prod.Lex
import StompyMux.Library.Machine
import StompyMux.Library.Text
import StompyMux.Library.Update
import StompyMux.World.Object

-- Command lists and the delimiters between their commands.
namespace StompyMux.Commands

open Library Library.Text
open StompyMux.World

-- Where a list is read: its open braces, the closers expected outside them, and whether the
-- last character was an escape.
structure Scan where
  braces : Nat
  stack : List Char
  escaped : Bool

def Scan.start : Scan := ⟨0, [], false⟩

-- An unprotected semicolon ends the command.
def Scan.next (s : Scan) (c : Char) : Option Scan :=
  if s.escaped then some { s with escaped := false }
  else if c = '\\' then some { s with escaped := true }
  else if c = '\x7b' then some { s with braces := s.braces + 1 }
  else if c = '\x7d' ∧ 0 < s.braces then some { s with braces := s.braces - 1 }
  else if (c = '(' ∨ c = '[') ∧ s.braces = 0 ∧ s.stack.length < 32 then
    some { s with stack := (if c = '(' then ')' else ']') :: s.stack }
  else if (c = ')' ∨ c = ']') ∧ s.braces = 0 ∧ s.stack.head? = some c then
    some { s with stack := s.stack.tail }
  else if c = ';' ∧ s.braces = 0 ∧ s.stack = [] then none
  else some s

-- The first command and what follows its semicolon.
def separate : Scan → List Char → List Char × Option (List Char)
  | _, [] => ([], none)
  | s, c :: source =>
      match s.next c with
      | none => ([], some source)
      | some s => (c :: (separate s source).1, (separate s source).2)

-- Blanks that repeat are dropped unless an escape keeps them.
def squeeze : Bool → List Char → List Char → List Char
  | _, output, [] => output
  | escaped, output, c :: input =>
      if ¬ escaped ∧ c = ' ' ∧ output.getLast? = some ' ' then squeeze escaped output input
      else squeeze (!escaped && c = '\\') (output ++ [c]) input

def tidy (compress : Bool) (input : List Char) : List Char :=
  if compress then squeeze false [] (trim input) else input

def splitCommand (source : List Char) (compress : Bool) : List Char × Option (List Char) :=
  (tidy compress (separate .start source).1, (separate .start source).2)

theorem Scan.next_none (s : Scan) (c : Char) (h : s.next c = none) : c = ';' := by
  unfold Scan.next at h
  repeat' split at h
  all_goals first
    | contradiction
    | rename_i hend
      exact hend.1

theorem separate_append (s : Scan) (source : List Char) :
    (separate s source).1 ++ (separate s source).2.elim [] (';' :: ·) = source := by
  induction source generalizing s with
  | nil => rfl
  | cons c source ih =>
      unfold separate
      cases hnext : s.next c with
      | none =>
          rw [s.next_none c hnext]
          rfl
      | some later =>
          show c :: ((separate later source).1 ++ _) = c :: source
          rw [ih later]

theorem separate_utf8Len {source rest : List Char} (h : (separate .start source).2 = some rest) :
    utf8Len rest < utf8Len source := by
  have happend := separate_append .start source
  rw [h] at happend
  have hsemicolon : (';' : Char).utf8Size = 1 := rfl
  rw [← happend, Option.elim_some, utf8Len_append, utf8Len_cons, hsemicolon]
  omega

theorem separate_length {source rest : List Char} (h : (separate .start source).2 = some rest) :
    rest.length < source.length := by
  have happend := separate_append .start source
  rw [h] at happend
  rw [← happend, Option.elim_some, List.length_append, List.length_cons]
  omega

def commands (source : List Char) : List (List Char) :=
  match h : (separate .start source).2 with
  | none => [(separate .start source).1]
  | some rest =>
      have := separate_length h
      (separate .start source).1 :: commands rest
termination_by source.length

theorem commands_last {source : List Char} (h : (separate .start source).2 = none) :
    commands source = [(separate .start source).1] := by
  rw [commands]
  split
  · rfl
  · rename_i rest hrest
    rw [h] at hrest
    contradiction

theorem commands_more {source rest : List Char} (h : (separate .start source).2 = some rest) :
    commands source = (separate .start source).1 :: commands rest := by
  rw [commands]
  split
  · rename_i hnone
    rw [h] at hnone
    contradiction
  · rename_i later hlater
    rw [h] at hlater
    injection hlater with hlater
    rw [hlater]

example : splitCommand "say \x7ba;b\x7d;say  c".toList true =
    ("say \x7ba;b\x7d".toList, some "say  c".toList) := by decide

-- Bounded command lists with deadlines and a rotation of their executors.

abbrev Error := String

abbrev Reply := String

-- Nanoseconds on the monotonic clock.
abbrev Instant := Nat

def NANOSECONDS : Nat := 1000000000

-- The clock's seconds are a signed 64-bit number.
def checkedAdd (now : Instant) (seconds : Nat) : Option Instant :=
  let due := now + seconds * NANOSECONDS
  if due / NANOSECONDS < 2 ^ 63 then some due else none

def MAX_QUEUE_BYTES : Nat := 16 * 1024 * 1024

inductive Request
  | Add (executor cause : ObjectId) (seconds : Int) (text : List Char)
  -- one executor, or all of them
  | Halt (target : Option ObjectId)

-- An admitted list with the incarnation of its executor.
structure Entry where
  executor : ObjectId
  generation : Nat
  cause : ObjectId
  due : Instant
  text : List Char
  deriving DecidableEq

inductive InputOrigin
  | Interactive
  | Queued
  deriving DecidableEq

structure ExecutionContext where
  executor : ObjectId
  cause : ObjectId
  session : Option Nat
  origin : InputOrigin
  deriving DecidableEq

-- One attempted command.
structure Work where
  execution : ExecutionContext
  text : List Char
  deriving DecidableEq

def flagged (object : Object) : Prop := .Going ∈ object.flags ∨ .Halted ∈ object.flags

instance (object : Object) : Decidable (flagged object) := inferInstanceAs (Decidable (_ ∨ _))

structure Queue where
  entries : OrderedMap Nat Entry
  rotation : List ObjectId
  next : Nat
  bytes : Nat
  deriving DecidableEq

namespace Queue

def empty : Queue := ⟨.empty, [], 0, 0⟩

variable (q : Queue)

def totalBytes : Nat := (q.entries.values.map (fun e => utf8Len e.text)).sum

def holds (p : ObjectId) : Bool := q.entries.values.any (fun e => e.executor = p)

def count (p : ObjectId) : Nat := (q.entries.values.filter (fun e => e.executor = p)).length

def recount : Queue :=
  { q with bytes := q.totalBytes, rotation := q.rotation.filter q.holds }

-- No target cancels every list. The lists removed are counted.
def cancel (target : Option ObjectId) : Nat × Queue :=
  let kept := { q with entries := q.entries.retain (fun _ e => target.any (e.executor ≠ ·)) }.recount
  (q.entries.entries.length - kept.entries.entries.length, kept)

-- Whether the object an entry was admitted for is still there.
def lives (world : World) (e : Entry) : Bool :=
  (world.get? e.executor).any (fun o => o.generation = e.generation && o.kind ≠ .Garbage)

def reconcile (world : World) : Queue :=
  { q with entries := q.entries.retain (fun _ e => lives world e) }.recount

-- The due time, sequence and executor of a list.
abbrev Ready := Instant ×ₗ Nat ×ₗ ObjectId

def readyOf (id : Nat) (e : Entry) : Ready := toLex (e.due, toLex (id, e.executor))

namespace Ready

variable (r : Ready)

def due : Instant := (ofLex r).1

def id : Nat := (ofLex (ofLex r).2).1

def executor : ObjectId := (ofLex (ofLex r).2).2

end Ready

def readyAt (now : Instant) : List Ready :=
  ((q.entries.entries.filter (fun entry => entry.2.due ≤ now)).map
    (fun entry => readyOf entry.1 entry.2)).insertionSort (· ≤ ·)

-- Executors that became ready go last; those without ready lists leave.
def rotate (rotation : List ObjectId) (ready : List Ready) : List ObjectId :=
  (ready.foldl (fun rotation r =>
    if r.executor ∈ rotation then rotation else rotation ++ [r.executor]) rotation).filter
    (fun p => ready.any (fun r => r.executor = p))

-- A command and the list it came from. The list is kept for the proofs.
structure Taken where
  id : Nat
  entry : Entry
  work : Work
  deriving DecidableEq

def taken (id : Nat) (e : Entry) (compress : Bool) : Taken :=
  ⟨id, e, ⟨⟨e.executor, e.cause, none, .Queued⟩, (splitCommand e.text compress).1⟩⟩

-- The list without its first command. Its executor goes last if it has more ready.
def consume (p : ObjectId) (id : Nat) (e : Entry) (now : Instant) : Queue :=
  let entries := match (separate .start e.text).2 with
    | some rest => q.entries.modify id (fun e => { e with text := rest })
    | none => q.entries.remove id
  let rotation := if entries.values.any (fun e => e.executor = p ∧ e.due ≤ now) then
      q.rotation ++ [p]
    else q.rotation
  { q with entries := entries, rotation := rotation }.recount

-- The executor's turn: its first ready list, which is dropped if the executor may not run.
def turn (world : World) (now : Instant) (compress : Bool) (p : ObjectId) (id : Nat) :
    Except Error (Option Taken × Queue) :=
  match world.get? p with
  | none => .error "no entry found for key"
  | some object =>
      if flagged object then
        .ok (none, { q with entries := q.entries.remove id }.recount)
      else
        match q.entries.get? id with
        | none => .error "called Option::unwrap() on a None value"
        | some e => .ok (some (taken id e compress), q.consume p id e now)

def take (now : Instant) (world : World) (compress : Bool) :
    Except Error (Option Taken × Queue) :=
  let q := q.reconcile world
  let ready := q.readyAt now
  match rotate q.rotation ready with
  | [] => .ok (none, { q with rotation := [] })
  | p :: rotation =>
      match ready.find? (fun r => r.executor = p) with
      | none => .ok (none, { q with rotation := rotation })
      | some r => { q with rotation := rotation }.turn world now compress p r.id

end Queue

-- A queue and a world to be published together.
structure Candidate where
  queue : Queue
  world : World

def RUN_AWAY : Reply := "Run away objects: too many commands queued.  Halted."

def haltExecutor (executor : ObjectId) : Update Candidate Error (Option Reply) := do
  modify (fun c => ⟨(c.queue.cancel (some executor)).2, c.world.modify executor (insertFlag .Halted)⟩)
  return some RUN_AWAY

def accept (entry : Entry) : Update Candidate Error (Option Reply) := do
  modify (fun c => { c with queue := { c.queue with
    next := c.queue.next + 1
    bytes := c.queue.bytes + utf8Len entry.text
    entries := c.queue.entries.insert (c.queue.next + 1) entry } })
  return none

def add (executor cause : ObjectId) (seconds : Int) (text : List Char) (limit lineLimit : Nat)
    (now : Instant) : Update Candidate Error (Option Reply) := do
  let c ← get
  if ¬ utf8Len text ≤ lineLimit then throw "Queued command exceeds the input limit."
  else
    match c.world.get? executor with
    | none => throw "No such object."
    | some object =>
        if object.kind = .Garbage ∨ .Going ∈ object.flags then throw "Object is being destroyed."
        else if .Halted ∈ object.flags then return none
        else if limit ≤ c.queue.count executor then haltExecutor executor
        else if ¬ min (c.queue.bytes + utf8Len text) USIZE_MAX ≤ MAX_QUEUE_BYTES then
          throw "Command queue text limit exceeded."
        else
          match checkedAdd now (max seconds 0).toNat with
          | none => throw "Wait time is out of range."
          | some due =>
              if c.queue.next = U64_MAX then throw "Command queue sequence exhausted."
              else accept ⟨executor, object.generation, cause, due, text⟩

def halt (target : Option ObjectId) : Update Candidate Error (Option Reply) := do
  let c ← get
  set { c with queue := (c.queue.cancel target).2 }
  return some (toString (c.queue.cancel target).1 ++ " queue entries removed.")

def apply (request : Request) (limit lineLimit : Nat) (now : Instant) :
    Update Candidate Error (Option Reply) :=
  match request with
  | .Halt target => halt target
  | .Add executor cause seconds text => add executor cause seconds text limit lineLimit now

end StompyMux.Commands
