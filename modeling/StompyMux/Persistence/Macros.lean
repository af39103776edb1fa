import StompyMux.Macros.Operations
import StompyMux.Persistence.Rows

-- Selective macro persistence, with explicit moves of rows that keep their unknown columns.
namespace StompyMux.Persistence

open Library Library.Fallible
open StompyMux.Macros
open StompyMux.World (ObjectId World)

-- A foreign key that some table declares, with the rows of that table.
structure Dependency where
  table : String
  target : String
  rows : Nat
  deriving DecidableEq

structure Database where
  macroSets : Table Int Row
  macroEntries : Table (Int × Int) Row
  commacEntries : Table ObjectId Row
  defaults : String → Row
  dependencies : List Dependency

namespace Database

variable (db : Database)

def setsSchema : Schema Int where
  name := "macro_sets"
  key := fun index => [("set_index", index)]
  defaults := db.defaults "macro_sets"
  check := fun _ => notNull ["owner", "status", "description"]

def entriesSchema : Schema (Int × Int) where
  name := "macro_entries"
  key := fun key => [("set_index", key.1), ("position", key.2)]
  defaults := db.defaults "macro_entries"
  check := fun _ => notNull ["alias", "expansion"]

def slotsSchema : Schema ObjectId where
  name := "commac_entries"
  key := fun who => [("who", who)]
  defaults := db.defaults "commac_entries"
  check := fun _ => notNull
    ["curmac", "macro_slot_0", "macro_slot_1", "macro_slot_2", "macro_slot_3", "macro_slot_4"]

end Database

def setFields (set : MacroSet) : Fields :=
  [("description", .Text set.description), ("owner", .Integer set.owner), ("status", .Integer set.modes)]

def entryFields (entry : MacroEntry) : Fields :=
  [("alias", .Text entry.alias'), ("expansion", .Text entry.expansion)]

def slotFields (player : MacroSlots) : Fields :=
  let cell := fun (value : Option Nat) => Cell.Integer (value.elim (-1) Int.ofNat)
  ("curmac", cell player.current) ::
    (List.finRange SLOT_COUNT).map (fun slot => ("macro_slot_" ++ toString slot.val, cell (player.slots slot)))

def setAt (m : PlayerMacros) (index : Int) : Option MacroSet :=
  if 0 ≤ index then m.sets[index.toNat]? else none

def entryAt (entries : List MacroEntry) (position : Int) : Option MacroEntry :=
  if 0 ≤ position then entries[position.toNat]? else none

-- Whether a row of the old state changes its number or goes.
def restructured (old : PlayerMacros) (numbered : MacroSet × Nat) : Bool :=
  let set := numbered.1
  if set.origin < 0 then false
  else
    set.origin ≠ numbered.2 ∨ (setAt old set.origin).any (fun previous =>
      previous.entries.length ≠ (Placement.stored (entryOrigins set)).length ∨
        set.entries.zipIdx.any (fun entry => 0 ≤ entry.1.origin ∧ entry.1.origin ≠ entry.2))

def structural (old new : PlayerMacros) : Bool :=
  (Placement.stored (setOrigins new)).dedup.length ≠ old.sets.length ∨
    new.sets.zipIdx.any (restructured old)

-- A dependency that nobody here owns blocks the reindexing.
def checkDependencies (db : Database) : Except Error Unit :=
  db.dependencies.forM fun d =>
    if d.target ∉ ["macro_sets", "macro_entries"] ∨ d.table = "macro_entries" ∨
        d.table = "commac_entries" then .ok ()
    else
      ensure (d.rows = 0)
        ("macro reindex blocked by unknown dependency " ++ d.table ++ " on " ++ d.target)

-- The database during a save, and whether anything has been written.
abbrev Writing := Database × Bool

def deleteSet (retained : List Int) (w : Writing) (index : Nat) : Writing :=
  if (index : Int) ∈ retained then w
  else
    ({ w.1 with
        macroEntries := w.1.macroEntries.delete (fun key => key.1 = index)
        macroSets := w.1.macroSets.delete (fun key => key = index) }, true)

-- The row of a set and the rows of its entries get another number.
def moveSet (a b : Int) (db : Database) : Except Error Database := do
  let macroSets ← db.macroSets.rekey (fun key => key = a) (fun _ => b)
  let macroEntries ← db.macroEntries.rekey (fun key => key.1 = a) (fun key => (b, key.2))
  .ok { db with macroSets := macroSets, macroEntries := macroEntries }

-- Vacate the numbers of moved sets first.
def parkSet (count : Nat) (w : Writing) (numbered : MacroSet × Nat) : Except Error Writing := do
  let origin := numbered.1.origin
  ensure (origin < count)
    ("macro set " ++ toString numbered.2 ++ ": stale row identity " ++ toString origin)
  if origin < 0 ∨ origin = numbered.2 then .ok w
  else do
    let db ← moveSet origin (-origin - 1) w.1
    .ok (db, true)

def deleteEntry (kept : List Int) (index : Nat) (w : Writing) (position : Nat) : Writing :=
  if (position : Int) ∈ kept then w
  else
    ({ w.1 with macroEntries :=
        w.1.macroEntries.delete (fun key => key = ((index : Int), (position : Int))) }, true)

def moveEntry (index : Nat) (a b : Int) (db : Database) : Except Error Database := do
  let macroEntries ← db.macroEntries.rekey (fun key => key = ((index : Int), a))
    (fun _ => ((index : Int), b))
  .ok { db with macroEntries := macroEntries }

def parkEntry (index count : Nat) (w : Writing) (numbered : MacroEntry × Nat) :
    Except Error Writing := do
  let source := numbered.1.origin
  ensure (source < count) ("macro set " ++ toString index ++ " entry " ++ toString numbered.2 ++
    ": stale row identity")
  if source < 0 ∨ source = numbered.2 then .ok w
  else do
    let db ← moveEntry index source (-source - 1) w.1
    .ok (db, true)

-- The row of an entry comes from where it was parked.
def bringEntry (index : Nat) (source : Int) (position : Nat) (db : Database) :
    Except Error Database :=
  if 0 ≤ source ∧ source ≠ position then moveEntry index (-source - 1) position db else .ok db

def placeEntry (index : Nat) (entries : List MacroEntry) (w : Writing) (numbered : MacroEntry × Nat) :
    Except Error Writing := do
  let entry := numbered.1
  let position := numbered.2
  let source := entry.origin
  let db ← bringEntry index source position w.1
  let (macroEntries, changed) ←
    withContext ("writing macro set " ++ toString index ++ ", entry " ++ toString position)
      (row db.entriesSchema db.macroEntries (index, position)
        ((entryAt entries source).map entryFields) (entryFields entry))
  .ok ({ db with macroEntries := macroEntries }, w.2 || changed)

-- The rows of one set's entries, after the set's own row has been written.
def saveEntries (index : Nat) (entries : List MacroEntry) (set : MacroSet) (w : Writing) :
    Except Error Writing := do
  let kept := Placement.stored (entryOrigins set)
  ensure (kept.dedup.length = kept.length)
    ("macro set " ++ toString index ++ ": duplicate entry identity")
  let w := (List.range entries.length).foldl (deleteEntry kept index) w
  let w ← set.entries.zipIdx.foldlM (parkEntry index entries.length) w
  set.entries.zipIdx.foldlM (placeEntry index entries) w

-- The rows of a set come from where they were parked.
def bringSet (origin : Int) (index : Nat) (db : Database) : Except Error Database :=
  if 0 ≤ origin ∧ origin ≠ index then moveSet (-origin - 1) index db else .ok db

def placeSet (old : PlayerMacros) (w : Writing) (numbered : MacroSet × Nat) :
    Except Error Writing := do
  let set := numbered.1
  let index := numbered.2
  let previous := setAt old set.origin
  let db ← bringSet set.origin index w.1
  let (macroSets, changed) ← withContext ("writing macro set " ++ toString index)
    (row db.setsSchema db.macroSets index (previous.map setFields) (setFields set))
  saveEntries index ((previous.map (·.entries)).getD []) set
    ({ db with macroSets := macroSets }, w.2 || changed)

def integerColumn (stored : Row) (column : String) : Except Error (String × Cell) :=
  match stored column with
  | .Integer value => .ok (column, .Integer value)
  | _ => .error ["error occurred while decoding column " ++ column]

def storedSlots (stored : Row) (player : MacroSlots) : Except Error Fields :=
  (slotFields player).mapM (fun field => integerColumn stored field.1)

-- The row may have been created for other reasons.
def previousSlots (db : Database) (player : ObjectId × MacroSlots) : Except Error (Option Fields) :=
  match db.commacEntries.get? player.1 with
  | some stored => (storedSlots stored player.2).map some
  | none => .ok none

def saveSlots (old : PlayerMacros) (w : Writing) (player : ObjectId × MacroSlots) :
    Except Error Writing :=
  if old.players.get? player.1 = some player.2 then .ok w
  else do
    let previous ← previousSlots w.1 player
    let (commacEntries, changed) ← withContext ("writing macro slots #" ++ toString player.1)
      (row w.1.slotsSchema w.1.commacEntries player.1 previous (slotFields player.2))
    .ok ({ w.1 with commacEntries := commacEntries }, w.2 || changed)

-- The rows of removed players lose their slots and stay.
def clearSlots (new : PlayerMacros) (w : Writing) (player : ObjectId × MacroSlots) :
    Except Error Writing :=
  if (new.players.get? player.1).isSome then .ok w
  else do
    let (commacEntries, changed) ← row w.1.slotsSchema w.1.commacEntries player.1
      (some (slotFields player.2)) (slotFields .default)
    .ok ({ w.1 with commacEntries := commacEntries }, w.2 || changed)

-- The row operations of a save, in order.
def saveRows (old new : PlayerMacros) (db : Database) : Except Error Writing := do
  let retained := (Placement.stored (setOrigins new)).dedup
  let w := (List.range old.sets.length).foldl (deleteSet retained) (db, false)
  let w ← new.sets.zipIdx.foldlM (parkSet old.sets.length) w
  let w ← new.sets.zipIdx.foldlM (placeSet old) w
  let w ← new.players.entries.foldlM (saveSlots old) w
  old.players.entries.foldlM (clearSlots new) w

def saveMacros (objects : World) (old new : PlayerMacros) (db : Database) : Except Error Writing := do
  new.validate objects
  let retained := Placement.stored (setOrigins new)
  ensure (retained.dedup.length = retained.length) "duplicate macro set row identity"
  if structural old new then checkDependencies db else .ok ()
  saveRows old new db

end StompyMux.Persistence
