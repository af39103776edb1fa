import Mathlib.Data.String.Basic
import StompyMux.Library.StableSort
import StompyMux.World.Object

-- Minute scheduling of the captured declarations.
namespace StompyMux.Lua

open Library StompyMux.World

-- A moment of the calendar. The weekdays count from Sunday.
structure Date where
  minute : Nat
  hour : Nat
  day : Nat
  month : Nat
  weekday : Nat

-- A field keeps whether it was written as a lone star.
structure Field where
  mask : UInt64
  wildcard : Bool

def Field.matches (field : Field) (value : Nat) : Bool :=
  field.mask &&& (1 <<< UInt64.ofNat value) != 0

structure Cron where
  source : String
  minute : Field
  hour : Field
  day : Field
  month : Field
  weekday : Field

-- The days are joined by or only when neither was written as a lone star.
def Cron.matches (calendar : Int → Option Date) (cron : Cron) (timestamp : Int) : Bool :=
  match calendar timestamp with
  | none => false
  | some date =>
      let day := cron.day.matches date.day
      let weekday := cron.weekday.matches date.weekday
      cron.minute.matches date.minute && cron.hour.matches date.hour &&
        cron.month.matches date.month &&
        if !cron.day.wildcard && !cron.weekday.wildcard then day || weekday else day && weekday

structure Definition where
  module : String
  index : Nat
  name : String
  cron : Cron

structure Catalog where
  modules : OrderedMap String (List Definition)
  numbered : ∀ entry ∈ modules.entries, ∀ i d, entry.2[i]? = some d →
    d.module = entry.1 ∧ d.index = i + 1

-- In the order of the modules, then of the declarations.
def Catalog.definitions (catalog : Catalog) : List Definition := catalog.modules.values.flatten

-- The object and its incarnation, when the module is one of objects.
structure Job where
  definition : Definition
  object : Option (ObjectId × Nat)
  due : Int
  expires : Int

-- The hash wraps in 64 bits.
def jitter (path name : String) (object : Option ObjectId) (minute : Int) : Int :=
  let bytes := path.toUTF8.toList ++ name.toUTF8.toList
  let hash := bytes.foldl (fun hash byte => (hash ^^^ byte.toUInt64) * 16777619) 2166136261
  let hash := hash ^^^ UInt64.ofInt (object.getD (-1)) ^^^ UInt64.ofInt minute
  (hash % 55).toNat

-- Arithmetic of signed 64-bit integers that reports overflow.
def checked (n : Int) : Option Int := if -2 ^ 63 ≤ n ∧ n < 2 ^ 63 then some n else none

-- The module a scheduled object names for its callbacks.
structure Scripted extends Object where
  luaParent : String

abbrev ScriptedWorld := OrderedMap ObjectId Scripted

def Definition.path (definition : Definition) : String :=
  String.ofList ((definition.module.toList.dropWhile (· ≠ '/')).drop 1)

section

variable (calendar : Int → Option Date) (catalog : Catalog) (world : ScriptedWorld)
  (minute start expires : Int)

def job (object : Option (ObjectId × Nat)) (definition : Definition) : Option Job :=
  if definition.cron.matches calendar start then
    some ⟨definition, object,
      start + jitter definition.path definition.name (object.map Prod.fst) minute, expires⟩
  else none

def globalJobs : List Job :=
  (catalog.definitions.filter fun d => "global_logic/".toList.isPrefixOf d.module.toList).filterMap
    (job calendar minute start expires none)

def objectJobs (entry : ObjectId × Scripted) : List Job :=
  match catalog.modules.get? ("object_logic/" ++ entry.2.luaParent) with
  | none => []
  | some definitions =>
      definitions.filterMap (job calendar minute start expires (some (entry.1, entry.2.generation)))

-- The jobs of one minute, in the order in which they are collected.
def collect : List Job :=
  globalJobs calendar catalog minute start expires ++
    (world.entries.filter fun entry =>
      entry.2.kind ≠ .Garbage ∧ .Going ∉ entry.2.flags).flatMap
        (objectJobs calendar catalog minute start expires)

end

structure Queue where
  highWater : Option Int
  jobs : List Job

namespace Queue

def default : Queue := ⟨none, []⟩

variable (q : Queue) (now : Int)

def retain : Queue := { q with jobs := q.jobs.filter fun job => now < job.expires }

def observe (calendar : Int → Option Date) (catalog : Catalog) (world : ScriptedWorld) : Queue :=
  let q := q.retain now
  let minute := now / 60
  match q.highWater with
  | none => { q with highWater := some minute }
  | some previous =>
      if minute ≤ previous then q
      else
        let q := { q with highWater := some minute }
        match checked (minute * 60) with
        | none => q
        | some start =>
            match checked (start + 60) with
            | none => q
            | some expires =>
                let added := collect calendar catalog world minute start expires
                { q with jobs := stableSort Job.due (q.jobs ++ added) }

def ready : Bool := q.jobs.head?.any fun job => job.due ≤ now

def takeDue : Queue × Option Job :=
  let q := { q with jobs := q.jobs.dropWhile fun job => job.expires ≤ now }
  if q.ready now then ({ q with jobs := q.jobs.tail }, q.jobs.head?) else (q, none)

def clear : Queue := { q with jobs := [] }

end Queue

end StompyMux.Lua
