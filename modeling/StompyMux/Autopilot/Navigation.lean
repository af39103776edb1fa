import Std.Data.TreeMap.Lemmas
import StompyMux.Library.Route
import StompyMux.Map.Geometry

namespace StompyMux.Autopilot

open Library
open StompyMux.Map (HexCoordinate)

-- A zero-based coordinate on the planner's grid. It is unsigned and ordered.
structure GridHex where
  x : Nat
  y : Nat
  deriving DecidableEq

namespace GridHex

def toHexCoordinate (hex : GridHex) : HexCoordinate := ⟨hex.x, hex.y⟩

def ofHexCoordinate (hex : HexCoordinate) : GridHex := ⟨hex.x.toNat, hex.y.toNat⟩

-- The neighbors on a map, clockwise from north.
def neighborsWithin (hex : GridHex) (width height : UInt16) : List GridHex :=
  ((hex.toHexCoordinate.neighborsWithin width height).filterMap id).map ofHexCoordinate

def distance (hex other : GridHex) : Nat :=
  hex.toHexCoordinate.distance other.toHexCoordinate

-- By column, then by row.
def order : GridHex → GridHex → Ordering :=
  compareLex (compareOn GridHex.x) (compareOn GridHex.y)

instance : Std.TransCmp order := inferInstanceAs (Std.TransCmp (compareLex _ _))

instance : Std.LawfulEqCmp order where
  eq_of_compare := by
    rintro ⟨x, y⟩ ⟨x', y'⟩ h
    simp only [order, compareLex, compareOn, Ordering.then_eq_eq] at h
    rw [Std.LawfulEqCmp.eq_of_compare h.1, Std.LawfulEqCmp.eq_of_compare h.2]

end GridHex

-- A goal region: the cells between two distances of its center.
structure Goal where
  center : GridHex
  radius : UInt32
  minimum : UInt32
  deriving DecidableEq

namespace Goal

def contains (goal : Goal) (position : GridHex) : Bool :=
  let distance := position.distance goal.center
  goal.minimum.toNat ≤ distance && distance ≤ goal.radius.toNat

-- At most one of the two differences is positive.
def heuristic (goal : Goal) (position : GridHex) : Nat :=
  let distance := position.distance goal.center
  max (goal.minimum.toNat - distance) (distance - goal.radius.toNat)

end Goal

-- The cost of entering the second cell from the first; a zero cost counts as unavailable.
abbrev Traversal := GridHex → GridHex → Option UInt32

inductive NavigationError
  | EmptyMap
  | EmptyGoal
  | OutOfBounds (position : GridHex)
  | ZeroRecordLimit
  deriving DecidableEq

structure NavigationPath where
  cells : List GridHex
  cost : Nat
  deriving DecidableEq

inductive SearchStatus
  | Pending (expanded totalExpanded records : Nat)
  | Found (path : NavigationPath)
  | Unreachable
  | Invalidated
  | ResourceLimit (records limit : Nat)
  deriving DecidableEq

def SearchStatus.isTerminal : SearchStatus → Bool
  | .Pending .. => false
  | _ => true

structure Record where
  cost : Nat
  parent : Option GridHex
  deriving DecidableEq

structure OpenEntry where
  estimatedTotal : Nat
  heuristic : Nat
  cost : Nat
  position : GridHex
  deriving DecidableEq

namespace OpenEntry

-- The smallest estimated route cost comes first, then the smallest coordinate.
def before (entry other : OpenEntry) : Bool :=
  entry.estimatedTotal < other.estimatedTotal ||
    entry.estimatedTotal == other.estimatedTotal && (entry.heuristic < other.heuristic ||
      entry.heuristic == other.heuristic && (entry.cost < other.cost ||
        entry.cost == other.cost && (entry.position.x < other.position.x ||
          entry.position.x == other.position.x && entry.position.y ≤ other.position.y)))

-- The heap as the list of its entries in the order in which they are popped.
def push (entry : OpenEntry) : List OpenEntry → List OpenEntry
  | [] => [entry]
  | other :: entries =>
      if entry.before other then entry :: other :: entries else other :: push entry entries

end OpenEntry

structure AStarSearch where
  width : UInt16
  height : UInt16
  start : GridHex
  goal : Goal
  maxRecords : Nat
  records : Std.TreeMap GridHex Record GridHex.order
  openSet : List OpenEntry
  totalExpanded : Nat
  terminal : Option SearchStatus

-- Addition of 64-bit costs.
def checkedAdd (a b : Nat) : Option Nat := if a + b < 2 ^ 64 then some (a + b) else none

namespace AStarSearch

def onMap (width height : UInt16) (position : GridHex) : Bool :=
  position.x < width.toNat && position.y < height.toNat

def DEFAULT_MAX_RECORDS : Nat := 1000000

def withRecordLimit (width height : UInt16) (start : GridHex) (goal : Goal)
    (maxRecords : Nat) : Except NavigationError AStarSearch :=
  if width = 0 ∨ height = 0 then .error .EmptyMap
  else if goal.minimum > goal.radius then .error .EmptyGoal
  else if maxRecords = 0 then .error .ZeroRecordLimit
  else if ¬ onMap width height start then .error (.OutOfBounds start)
  else if ¬ onMap width height goal.center then .error (.OutOfBounds goal.center)
  else
    let heuristic := goal.heuristic start
    .ok {
      width, height, start, goal, maxRecords
      records := (∅ : Std.TreeMap GridHex Record GridHex.order).insert start ⟨0, none⟩
      openSet := [⟨heuristic, heuristic, 0, start⟩]
      totalExpanded := 0
      terminal := none }

def recordCount (search : AStarSearch) : Nat := search.records.size

def pending (search : AStarSearch) (expanded : Nat) : SearchStatus :=
  .Pending expanded search.totalExpanded search.recordCount

def resourceLimit (search : AStarSearch) : AStarSearch :=
  { search with terminal := some (.ResourceLimit search.recordCount search.maxRecords) }

-- The parent links lead back to the start. Each of them costs at least one, so the cost of
-- the destination bounds their number.
def pathTo (search : AStarSearch) (destination : GridHex) : NavigationPath :=
  let cost := (search.records[destination]?.map Record.cost).getD 0
  ⟨Route.chain (fun cell => search.records[cell]?.bind Record.parent) cost destination, cost⟩

-- Entries that an improved route has left behind.
def stale (search : AStarSearch) (entry : OpenEntry) : Bool :=
  match search.records[entry.position]? with
  | none => true
  | some record => record.cost != entry.cost

-- Discover or improve one neighbor of the cell `position`, which was reached at `cost`.
def relax (search : AStarSearch) (traversal : Traversal) (position : GridHex) (cost : Nat)
    (neighbor : GridHex) : AStarSearch :=
  match traversal position neighbor with
  | none => search
  | some edgeCost =>
      if edgeCost = 0 then search
      else
        match checkedAdd cost edgeCost.toNat with
        | none => search.resourceLimit
        | some candidateCost =>
            let known := search.records[neighbor]?
            if known.all (fun record => candidateCost < record.cost) then
              if known.isNone ∧ search.recordCount ≥ search.maxRecords then search.resourceLimit
              else
                let search := { search with
                  records := search.records.insert neighbor ⟨candidateCost, some position⟩ }
                let heuristic := search.goal.heuristic neighbor
                match checkedAdd candidateCost heuristic with
                | none => search.resourceLimit
                | some estimatedTotal =>
                    { search with
                      openSet := OpenEntry.push
                        ⟨estimatedTotal, heuristic, candidateCost, neighbor⟩ search.openSet }
            else search

-- The neighbors in order, up to the first one that ends the search.
def relaxAll (search : AStarSearch) (traversal : Traversal) (position : GridHex) (cost : Nat) :
    List GridHex → AStarSearch
  | [] => search
  | neighbor :: neighbors =>
      let search := search.relax traversal position cost neighbor
      if search.terminal.isSome then search
      else search.relaxAll traversal position cost neighbors

def expand (search : AStarSearch) (traversal : Traversal) (entry : OpenEntry) : AStarSearch :=
  { search with totalExpanded := search.totalExpanded + 1 }.relaxAll traversal entry.position
    entry.cost (entry.position.neighborsWithin search.width search.height)

def finish (search : AStarSearch) (status : SearchStatus) : AStarSearch :=
  { search with terminal := some status }

section

variable {σ : Type} (traversal : Traversal) (accept : σ → GridHex → Option Bool × σ)

-- The goal test of a popped cell. Cells outside the goal are not shown to the predicate.
def judge (search : AStarSearch) (state : σ) (position : GridHex) : Option Bool × σ :=
  if search.goal.contains position then accept state position else (some false, state)

-- At most `budget` expansions. The predicate's own state is threaded through.
def stepLoop : Nat → Nat → AStarSearch → σ → AStarSearch × SearchStatus × σ
  | 0, expanded, search, state =>
      if search.openSet = [] then (search.finish .Unreachable, .Unreachable, state)
      else (search, search.pending expanded, state)
  | budget + 1, expanded, search, state =>
      -- stale entries are popped first and do not count
      match search.openSet.dropWhile search.stale with
      | [] => ({ search with openSet := [] }.finish .Unreachable, .Unreachable, state)
      | entry :: rest =>
          let search := { search with openSet := rest }
          match search.judge accept state entry.position with
          | (none, state) =>
              ({ search with openSet := entry.push rest }, search.pending expanded, state)
          | (some true, state) =>
              let status := SearchStatus.Found (search.pathTo entry.position)
              (search.finish status, status, state)
          | (some false, state) =>
              let search := search.expand traversal entry
              match search.terminal with
              | some status => (search, status, state)
              | none => stepLoop budget (expanded + 1) search state

-- Resume the search for at most `budget` expansions.
def stepFiltered (search : AStarSearch) (budget : Nat) (state : σ) :
    AStarSearch × SearchStatus × σ :=
  match search.terminal with
  | some status => (search, status, state)
  | none =>
      if budget = 0 then (search, search.pending 0, state)
      else stepLoop traversal accept budget 0 search state

end

end AStarSearch

end StompyMux.Autopilot
