import Mathlib.Data.Char
import Mathlib.Data.Fintype.Basic
import Mathlib.Data.List.Lex
import Mathlib.Data.List.Sort
import StompyMux.Library.Fallible
import StompyMux.Library.Positions
import StompyMux.Library.Text
import StompyMux.World.Object

-- Player-owned macro sets and the slots that attach them to players.
namespace StompyMux.Macros

open Library Library.Fallible Library.Text
open StompyMux.World (ObjectId World)

def TEXT_LIMIT : Nat := 8191

def SLOT_COUNT : Nat := 5

-- Never reused, independent of the catalog number: an atomic word of 64 bits, which repeats only after
-- 2^64 sets created in one process.
abbrev MacroSetId := Nat

-- The position a row was stored at, or a negative number for a row that was never stored.
abbrev RowOrigin := Int

def RowOrigin.default : RowOrigin := -1

structure MacroEntry where
  origin : RowOrigin
  alias' : List Char
  expansion : List Char
  deriving DecidableEq

structure MacroSet where
  id : MacroSetId
  origin : RowOrigin
  owner : ObjectId
  modes : Int
  description : List Char
  entries : List MacroEntry
  deriving DecidableEq

-- The editing selection and the attachments.
structure MacroSlots where
  current : Option Nat
  slots : Fin SLOT_COUNT → Option Nat
  deriving DecidableEq

def MacroSlots.default : MacroSlots := ⟨none, fun _ => none⟩

structure PlayerMacros where
  sets : List MacroSet
  players : OrderedMap ObjectId MacroSlots
  deriving DecidableEq

def setOrigins (m : PlayerMacros) : List Int := m.sets.map (·.origin)

def entryOrigins (set : MacroSet) : List Int := set.entries.map (·.origin)

-- The slot with a number, when there is one.
def MacroSlots.at? (player : MacroSlots) (slot : Nat) : Option Nat :=
  if h : slot < SLOT_COUNT then player.slots ⟨slot, h⟩ else none

-- A removed set frees its slots, and a freed slot is no selection. Later sets move down.
def MacroSlots.compact (index : Nat) (player : MacroSlots) : MacroSlots where
  current := player.current.filter (fun slot => player.at? slot ≠ some index)
  slots := fun slot => (player.slots slot).bind (Positions.shift index)

namespace PlayerMacros

variable (m : PlayerMacros)

def remove (index : Nat) : PlayerMacros where
  sets := m.sets.eraseIdx index
  players := m.players.mapEntries (fun _ player => player.compact index)

def purgeAt (purged : Finset ObjectId) (m : PlayerMacros) (index : Nat) : PlayerMacros :=
  if m.sets[index]?.any (fun set => set.owner ∈ purged) then m.remove index else m

-- From the last set to the first, then the players themselves.
def purge (purged : Finset ObjectId) : PlayerMacros :=
  let m := (List.range m.sets.length).reverse.foldl (purgeAt purged) m
  { m with players := m.players.retain (fun who _ => who ∉ purged) }

-- The positions become the stored ones once the transaction has committed.
def committed : PlayerMacros :=
  { m with sets := m.sets.mapIdx (fun index set =>
      { set with
        origin := index
        entries := set.entries.mapIdx (fun position entry => { entry with origin := position }) }) }

end PlayerMacros

def alias' (value : List Char) : Except Error Unit :=
  ensure (1 ≤ utf8Len value ∧ utf8Len value ≤ 4 ∧ value.all (fun c => 32 ≤ c.toNat && c.toNat ≤ 126))
    "Aliases must contain 1–4 printable ASCII bytes."

-- A text ends at a zero character where it is stored.
def text (value : List Char) : Except Error Unit :=
  ensure (utf8Len value ≤ TEXT_LIMIT ∧ Char.ofNat 0 ∉ value)
    s!"Text must contain at most {TEXT_LIMIT} bytes and no NUL."

-- A printable text between quotes, with quotes and backslashes escaped.
def quoted (value : List Char) : String :=
  let escaped := value.flatMap fun c =>
    if c.toNat = 34 ∨ c.toNat = 92 then [Char.ofNat 92, c] else [c]
  String.ofList ([Char.ofNat 34] ++ escaped ++ [Char.ofNat 34])

def debugOption : Option Nat → String
  | some n => "Some(" ++ toString n ++ ")"
  | none => "None"

-- The aliases met so far, in lowercase.
def validateEntry (context : Nat → String) (aliases : List (List Char))
    (numbered : MacroEntry × Nat) : Except Error (List (List Char)) := do
  let entry := numbered.1
  let context := context numbered.2
  withContext context (alias' entry.alias')
  withContext context (text entry.expansion)
  ensure (toAsciiLowercase entry.alias' ∉ aliases)
    (context ++ ": duplicate alias " ++ quoted entry.alias')
  .ok (toAsciiLowercase entry.alias' :: aliases)

def validateSet (objects : World) (numbered : MacroSet × Nat) : Except Error Unit := do
  let set := numbered.1
  let index := toString numbered.2
  ensure (objects.get? set.owner).isSome
    ("macro set " ++ index ++ ": invalid owner #" ++ toString set.owner)
  withContext ("macro set " ++ index ++ ": description") (text set.description)
  let _ ← set.entries.zipIdx.foldlM
    (validateEntry (fun position => "macro set " ++ index ++ ", entry " ++ toString position)) []
  .ok ()

def validateSlots (objects : World) (count : Nat) (player : ObjectId × MacroSlots) :
    Except Error Unit := do
  let who := toString player.1
  ensure (objects.get? player.1).isSome ("macro slots: missing owner #" ++ who)
  (List.finRange SLOT_COUNT).forM (fun slot =>
    ensure ((player.2.slots slot).all (· < count))
      ("macro slots #" ++ who ++ " slot " ++ toString slot.val ++ ": invalid set " ++
        debugOption (player.2.slots slot)))
  ensure (player.2.current.all (fun slot => (player.2.at? slot).isSome))
    ("macro slots #" ++ who ++ ": invalid current slot " ++ debugOption player.2.current)

def PlayerMacros.validate (m : PlayerMacros) (objects : World) : Except Error Unit := do
  m.sets.zipIdx.forM (validateSet objects)
  m.players.entries.forM (validateSlots objects m.sets.length)

end StompyMux.Macros

namespace StompyMux.Macros

open Library Library.Fallible Library.Text
open StompyMux.World (ObjectId World Object)

-- The part of the world that macros depend on, with the next identity to give out.
structure State where
  objects : World
  macros : PlayerMacros
  nextSetId : MacroSetId

-- The code of a failure and its diagnostic.
structure ServiceError where
  code : String
  message : String
  deriving DecidableEq

def invalid (message : String) : ServiceError := ⟨"mux.arg.invalid", message⟩

-- A failed check of an argument.
def argument (x : Except Error Unit) : Except ServiceError Unit :=
  x.mapError (fun e => invalid (": ".intercalate e))

namespace PlayerMacros

-- The position of a set, from its identity.
def index (m : PlayerMacros) (id : MacroSetId) : Except ServiceError Nat :=
  match m.sets.findIdx? (fun set => set.id = id) with
  | some i => .ok i
  | none => .error ⟨"mux.macro.invalid", "macro set no longer exists"⟩

def modifySet (m : PlayerMacros) (i : Nat) (f : MacroSet → MacroSet) : PlayerMacros :=
  { m with sets := m.sets.modify i f }

end PlayerMacros

def object (objects : World) (id : ObjectId) (player : Bool) : Except ServiceError Unit :=
  let message := if player then "expected a live player" else "expected a live object"
  match objects.get? id with
  | some o =>
      if o.kind ≠ .Garbage ∧ (player = false ∨ o.kind = .Player) then .ok ()
      else .error ⟨"mux.object.invalid", message⟩
  | none => .error ⟨"mux.object.invalid", message⟩

def findAlias (entries : List MacroEntry) (name : List Char) : Option Nat :=
  entries.findIdx? (fun entry => eqIgnoreAsciiCase entry.alias' name)

-- By lowercase alias; entries of one alias keep their order.
def sortEntries (entries : List MacroEntry) : List MacroEntry :=
  entries.insertionSort
    (fun a b => toAsciiLowercase a.alias' ≤ toAsciiLowercase b.alias')

def addEntry (name expansion : List Char) (set : MacroSet) : MacroSet :=
  { set with entries := sortEntries (set.entries ++ [⟨.default, name, expansion⟩]) }

def updateEntry (position : Nat) (expansion : List Char) (set : MacroSet) : MacroSet :=
  { set with entries := set.entries.modify position (fun e => { e with expansion := expansion }) }

def dropEntry (position : Nat) (set : MacroSet) : MacroSet :=
  { set with entries := set.entries.eraseIdx position }

namespace State

variable (s : State)

-- Every operation checks before it changes anything, and returns what it leaves.
def attempt {α β : Type} (x : Except ServiceError α) (rest : α → State × Except ServiceError β) :
    State × Except ServiceError β :=
  match x with
  | .ok a => rest a
  | .error e => (s, .error e)

-- Unattached, private and unlocked.
def create (owner : ObjectId) (description : List Char) : State × Except ServiceError MacroSetId :=
  s.attempt (object s.objects owner false) fun () =>
  s.attempt (argument (text description)) fun () =>
  let set : MacroSet := ⟨s.nextSetId, .default, owner, 0, description, []⟩
  ({ s with macros := { s.macros with sets := s.macros.sets ++ [set] }, nextSetId := s.nextSetId + 1 },
    .ok set.id)

def setOwner (id : MacroSetId) (owner : ObjectId) : State × Except ServiceError Unit :=
  s.attempt (object s.objects owner false) fun () =>
  s.attempt (s.macros.index id) fun i =>
  ({ s with macros := s.macros.modifySet i (fun set => { set with owner := owner }) }, .ok ())

-- An update keeps the spelling and the row of its entry.
def define (id : MacroSetId) (name expansion : List Char) (update : Bool) :
    State × Except ServiceError Unit :=
  s.attempt (s.macros.index id) fun i =>
  s.attempt (argument (alias' name)) fun () =>
  if name.any isAsciiWhitespace then (s, .error (invalid "alias cannot contain whitespace"))
  else
    s.attempt (argument (text expansion)) fun () =>
    if expansion = [] then (s, .error (invalid "expansion must not be empty"))
    else
      let found := s.macros.sets[i]?.bind (fun set => findAlias set.entries name)
      if update then
        match found with
        | some position =>
            ({ s with macros := s.macros.modifySet i (updateEntry position expansion) }, .ok ())
        | none => (s, .error ⟨"mux.macro.not_found", "macro alias does not exist"⟩)
      else if found.isSome then (s, .error ⟨"mux.macro.exists", "macro alias already exists"⟩)
      else ({ s with macros := s.macros.modifySet i (addEntry name expansion) }, .ok ())

def delete (id : MacroSetId) (name : List Char) : State × Except ServiceError Unit :=
  s.attempt (s.macros.index id) fun i =>
  match s.macros.sets[i]?.bind (fun set => findAlias set.entries name) with
  | some position => ({ s with macros := s.macros.modifySet i (dropEntry position) }, .ok ())
  | none => (s, .error ⟨"mux.macro.not_found", "macro alias does not exist"⟩)

def freeSlot (player : MacroSlots) : Option (Fin SLOT_COUNT) :=
  (List.finRange SLOT_COUNT).find? (fun slot => player.slots slot = none)

def attach (player : ObjectId) (id : MacroSetId) :
    State × Except ServiceError (Fin SLOT_COUNT) :=
  s.attempt (object s.objects player true) fun () =>
  s.attempt (s.macros.index id) fun i =>
  let slots := (s.macros.players.get? player).getD .default
  match freeSlot slots with
  | some slot =>
      let attached := { slots with slots := Function.update slots.slots slot (some i) }
      ({ s with macros := { s.macros with players := s.macros.players.insert player attached } },
        .ok slot)
  | none => (s, .error ⟨"mux.macro.slots_full", "player has no free macro slots"⟩)

def freed (slot : Fin SLOT_COUNT) (player : MacroSlots) : MacroSlots where
  current := if player.current = some slot.val then none else player.current
  slots := Function.update player.slots slot none

-- No other slot moves.
def detach (player : ObjectId) (slot : Nat) : State × Except ServiceError Bool :=
  s.attempt (object s.objects player true) fun () =>
  if h : slot < SLOT_COUNT then
    match s.macros.players.get? player with
    | none => (s, .ok false)
    | some slots =>
        ({ s with macros := { s.macros with
            players := s.macros.players.insert player (freed ⟨slot, h⟩ slots) } },
          .ok (slots.slots ⟨slot, h⟩).isSome)
  else (s, .error (invalid "slot must be between 0 and 4"))

def destroySet (id : MacroSetId) : State × Except ServiceError Unit :=
  s.attempt (s.macros.index id) fun i => ({ s with macros := s.macros.remove i }, .ok ())

def tombstone (o : Object) : Object :=
  { o with kind := .Garbage, location := none, flags := {.Going} }

-- The purged objects stay in the table as garbage.
def purge (purged : Finset ObjectId) : State :=
  { s with
    objects := s.objects.mapEntries (fun id o => if id ∈ purged then tombstone o else o)
    macros := s.macros.purge purged }

end State

end StompyMux.Macros
