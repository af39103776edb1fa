import Mathlib.Algebra.Order.Ring.Int
import Mathlib.Data.List.Pairwise
import Mathlib.Data.Prod.Lex
import StompyMux.Library.Machine
import StompyMux.Library.Smallest
import StompyMux.Library.Transition

-- Clearance watches and retry accounting of a controller whose search was exhausted.
namespace StompyMux.Autopilot

open Library

def WATCH_LIMIT : Nat := 64
def POLL_SECONDS : Int := 5
def RETRY_SECONDS : Int := 30
def RETRIES : Nat := 3

-- Column and row; the set of watched cells is ordered by column, then by row.
abbrev Cell := Nat ×ₗ Nat
abbrev Cells := List Cell

-- The sum of times that are not negative.
def saturatingAdd (a b : Int) : Int := min (a + b) I64_MAX

def remember (cells : Cells) (cell : Cell) : Cells := Smallest.keep WATCH_LIMIT cells cell

inductive Retry
  | Early
  | Timed
  deriving DecidableEq

structure Congestion where
  cells : Cells
  waiting : Bool
  timed : Nat
  early : Nat
  deadline : Int
  pollAt : Int
  cleared : Bool
  lastStart : Option Retry
  deriving DecidableEq

namespace Congestion

def default : Congestion := ⟨[], false, 0, 0, 0, 0, false, none⟩

variable (c : Congestion) (now : Int)

-- Early failures retain the existing deadline.
def failed : Bool × Congestion :=
  if c.cells.isEmpty || RETRIES ≤ c.timed then (false, c)
  else
    let deadline := if c.deadline = 0 ∨ c.lastStart = some .Timed then
      saturatingAdd now RETRY_SECONDS else c.deadline
    (true, { c with
      deadline := deadline, waiting := true, cleared := false,
      pollAt := saturatingAdd now POLL_SECONDS })

def shouldPoll : Bool :=
  c.waiting && now < c.deadline && c.early < RETRIES && !c.cleared && c.pollAt ≤ now

def polled (cleared : Bool) : Congestion :=
  { c with pollAt := saturatingAdd now POLL_SECONDS, cleared := c.cleared || cleared }

def eligible : Option Retry :=
  if !c.waiting then none
  else if c.deadline ≤ now then some .Timed
  else if c.cleared && c.early < RETRIES then some .Early
  else none

def started (retry : Option Retry) : Congestion :=
  let counted := match retry with
    | some .Early => { c with early := c.early + 1 }
    | some .Timed => { c with timed := c.timed + 1 }
    | none => c
  { counted with lastStart := retry, waiting := false, cleared := false, cells := [] }

end Congestion

-- The calls that the runtime makes.
inductive CongestionCall
  | poll (now : Int) (cleared : Bool)
  | start (now : Int)
  | remember (cell : Cell)
  | fail (now : Int)
  -- the search is given up without a call
  | drop

def CongestionCall.time : CongestionCall → Option Int
  | poll now _ | start now | fail now => some now
  | remember _ | drop => none

-- A controller's congestion state, whether a search runs, the latest time, and what happened: the
-- cells remembered since the last start, the number of early starts, the times of timed starts,
-- and the times of clearance checks with the deadlines they were made before.
structure Watch where
  congestion : Congestion
  searching : Bool
  clock : Int
  seen : List Cell
  early : Nat
  timed : List Int
  checks : List (Int × Int)

namespace Watch

def new : Watch := ⟨.default, false, 0, [], 0, [], []⟩

variable (w : Watch)

-- When the runtime makes a call.
def permits : CongestionCall → Bool
  | .poll now _ => w.congestion.shouldPoll now
  | .start now => !w.searching && !(w.congestion.waiting && (w.congestion.eligible now).isNone)
  | .remember _ | .fail _ | .drop => w.searching

def begin (now : Int) : Watch :=
  let retry := w.congestion.eligible now
  { w with
    congestion := w.congestion.started retry, searching := true, seen := [],
    early := if retry = some .Early then w.early + 1 else w.early,
    timed := if retry = some .Timed then w.timed ++ [now] else w.timed }

def apply : CongestionCall → Watch
  | .poll now cleared =>
      { w with
        congestion := w.congestion.polled now cleared,
        checks := w.checks ++ [(now, w.congestion.deadline)] }
  | .start now => w.begin now
  | .remember cell =>
      { w with
        congestion := { w.congestion with cells := Autopilot.remember w.congestion.cells cell },
        seen := w.seen ++ [cell] }
  | .fail now => { w with congestion := (w.congestion.failed now).2, searching := false }
  | .drop => { w with searching := false }

-- Times are positive and do not decrease.
def onTime (call : CongestionCall) : Bool :=
  call.time.all (fun now => 0 < now && w.clock ≤ now && now ≤ I64_MAX)

def step (call : CongestionCall) : Option Watch :=
  if w.permits call && w.onTime call then
    some { w.apply call with clock := call.time.getD w.clock }
  else none

end Watch

end StompyMux.Autopilot
