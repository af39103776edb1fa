import Mathlib.Algebra.BigOperators.Group.List.Basic
import StompyMux.Library.Table
import StompyMux.Sight.Los

-- Bounded memoization of center-to-center traces.
namespace StompyMux.Sight

open Library Library.Fallible
open StompyMux.Map

abbrev Key := HexCoordinate × HexCoordinate

structure TraceCache where
  entries : Table Key (List HexCoordinate)
  fifo : List Key
  cells : Nat

namespace TraceCache

-- The oldest traces make room.
def evict (maxEntries maxCells length : Nat) : List Key → Table Key (List HexCoordinate) → Nat →
    Except Error TraceCache
  | [], entries, cells =>
      if maxEntries ≤ entries.rows.length || maxCells < cells + length then
        .error ["nonempty bounded cache"]
      else .ok ⟨entries, [], cells⟩
  | oldest :: fifo, entries, cells =>
      if maxEntries ≤ entries.rows.length || maxCells < cells + length then do
        let removed ← ofOption "called unwrap on a none value" (entries.get? oldest)
        evict maxEntries maxCells length fifo (entries.delete (fun key => key = oldest))
          (cells - removed.length)
      else .ok ⟨entries, oldest :: fifo, cells⟩

variable (trace : HexCoordinate → HexCoordinate → Except Error (List HexCoordinate))

def get (cache : TraceCache) (source target : HexCoordinate) (maxEntries maxCells : Nat) :
    Except Error (List HexCoordinate × TraceCache) :=
  match cache.entries.get? (source, target) with
  | some cells => .ok (cells, cache)
  | none => do
      let cells ← trace source target
      if maxEntries = 0 || maxCells < cells.length then .ok (cells, cache)
      else
        let room ← evict maxEntries maxCells cells.length cache.fifo cache.entries cache.cells
        .ok (cells, ⟨room.entries.put (source, target) cells, room.fifo ++ [(source, target)],
          room.cells + cells.length⟩)

def MAX_ENTRIES : Nat := 32768

def MAX_CELLS : Nat := 1000000

-- The traces in a cache are right, and it knows how many there are.
structure Coherent (cache : TraceCache) : Prop where
  keys : cache.entries.keys.Perm cache.fifo
  traced : ∀ key cells, cache.entries.get? key = some cells → trace key.1 key.2 = .ok cells
  cells : cache.cells = (cache.entries.rows.map (fun row => row.2.length)).sum

variable {trace}

theorem coherent_empty : Coherent trace ⟨.empty, [], 0⟩ :=
  ⟨List.Perm.refl _, fun key cells h => by contradiction, rfl⟩

-- Making room keeps a cache right and never finds it empty.
theorem evict_ok (maxEntries maxCells length : Nat) (hentries : 0 < maxEntries) (hcells : length ≤ maxCells)
    (fifo : List Key) (entries : Table Key (List HexCoordinate)) (cells : Nat)
    (h : Coherent trace ⟨entries, fifo, cells⟩) :
    ∃ room, evict maxEntries maxCells length fifo entries cells = .ok room ∧ Coherent trace room ∧
      room.entries.rows.length < maxEntries ∧ room.cells + length ≤ maxCells ∧
      ∀ key, entries.get? key = none → room.entries.get? key = none := by
  induction fifo generalizing entries cells with
  | nil =>
      have hkeys : entries.rows = [] := List.map_eq_nil_iff.mp (List.perm_nil.mp h.keys)
      have hsum : cells = 0 := by
        rw [show cells = _ from h.cells]
        show (entries.rows.map _).sum = 0
        rw [hkeys]
        rfl
      have hroom : ¬ (maxEntries ≤ entries.rows.length || maxCells < cells + length) = true := by
        rw [hkeys, hsum]
        simp
        omega
      refine ⟨_, if_neg hroom, h, ?_, ?_, fun key hkey => hkey⟩
      · show entries.rows.length < maxEntries
        rw [hkeys]
        exact hentries
      · show cells + length ≤ maxCells
        omega
  | cons oldest fifo ih =>
      unfold evict
      split
      · have hin : oldest ∈ entries.keys := h.keys.mem_iff.mpr List.mem_cons_self
        obtain ⟨removed, hremoved⟩ := (entries.mem_keys_iff oldest).mp hin
        have hperm := entries.perm_delete oldest removed hremoved
        have hnext : Coherent trace ⟨entries.delete (fun key => key = oldest), fifo,
            cells - removed.length⟩ := by
          refine ⟨?_, fun key found hfound => ?_, ?_⟩
          · have hkeys := (hperm.map Prod.fst).symm.trans h.keys
            exact hkeys.cons_inv
          · have hfound : (entries.delete (fun key => key = oldest)).get? key = some found := hfound
            rw [Table.get?_delete] at hfound
            split at hfound
            · contradiction
            · exact h.traced key found hfound
          · have hsum : cells = (entries.rows.map (fun row => row.2.length)).sum := h.cells
            rw [(hperm.map (fun row => row.2.length)).sum_eq, List.map_cons, List.sum_cons] at hsum
            rw [hsum]
            exact Nat.add_sub_cancel_left _ _
        obtain ⟨room, hroom, hcoherent, hfew, hsmall, hnone⟩ := ih _ _ hnext
        refine ⟨room, bind_ok (ofOption_ok hremoved) hroom, hcoherent, hfew, hsmall,
          fun key hkey => hnone key ?_⟩
        rw [Table.get?_delete, hkey, ite_self]
      · rename_i hroom
        rw [Bool.or_eq_true, not_or, decide_eq_true_eq, decide_eq_true_eq] at hroom
        exact ⟨_, rfl, h, by show entries.rows.length < _; omega, by show cells + length ≤ _; omega,
          fun key hkey => hkey⟩

-- A cached trace is the trace, and the cache stays right and within its bounds.
theorem get_eq {cache : TraceCache} (source target : HexCoordinate) {maxEntries maxCells : Nat}
    (h : Coherent trace cache) (hfew : cache.entries.rows.length ≤ maxEntries) (hsmall : cache.cells ≤ maxCells) :
    (∀ e, trace source target = .error e → get trace cache source target maxEntries maxCells = .error e) ∧
    ∀ cells, trace source target = .ok cells →
      ∃ after, get trace cache source target maxEntries maxCells = .ok (cells, after) ∧
        Coherent trace after ∧ after.entries.rows.length ≤ maxEntries ∧ after.cells ≤ maxCells := by
  unfold get
  cases hget : cache.entries.get? (source, target) with
  | some found =>
      have htraced := h.traced _ found hget
      refine ⟨fun e herror => ?_, fun cells hcells => ?_⟩
      · rw [show trace source target = .ok found from htraced] at herror
        contradiction
      · have hsame : found = cells := Except.ok.inj (htraced.symm.trans hcells)
        rw [hsame]
        exact ⟨cache, rfl, h, hfew, hsmall⟩
  | none =>
      refine ⟨fun e herror => by rw [herror]; rfl, fun cells hcells => ?_⟩
      by_cases hskip : maxEntries = 0 || maxCells < cells.length
      · exact ⟨cache, bind_ok hcells (if_pos hskip), h, hfew, hsmall⟩
      · have hfits := hskip
        rw [Bool.or_eq_true, not_or, decide_eq_true_eq, decide_eq_true_eq] at hfits
        obtain ⟨room, hroom, hcoherent, hfew', hsmall', hnone⟩ := evict_ok maxEntries maxCells cells.length
          (by omega) (by omega) cache.fifo cache.entries cache.cells h
        have habsent := hnone _ hget
        have hrows := room.entries.rows_put_absent (source, target) cells habsent
        refine ⟨_, bind_ok hcells ((if_neg hskip).trans (bind_ok hroom rfl)), ?_, ?_, ?_⟩
        · refine ⟨?_, fun key found hfound => ?_, ?_⟩
          · show ((room.entries.put (source, target) cells).rows.map Prod.fst).Perm _
            rw [hrows]
            exact (hcoherent.keys.cons _).trans (List.perm_append_singleton _ _).symm
          · have hmem := ((room.entries.put (source, target) cells).get?_eq_some_iff key found).mp hfound
            rw [hrows] at hmem
            rcases List.mem_cons.mp hmem with heq | hmem
            · injection heq with hkey hcells'
              rw [hkey, hcells']
              exact hcells
            · exact hcoherent.traced key found ((room.entries.get?_eq_some_iff key found).mpr hmem)
          · show room.cells + cells.length = ((room.entries.put _ cells).rows.map _).sum
            rw [hrows, List.map_cons, List.sum_cons, hcoherent.cells]
            exact Nat.add_comm _ _
        · show (room.entries.put (source, target) cells).rows.length ≤ maxEntries
          rw [hrows, List.length_cons]
          omega
        · exact hsmall'

variable (trace) in
def centerTrace (cache : TraceCache) (source target : HexCoordinate) : Except Error (List HexCoordinate) := do
  let (cells, _) ← get trace cache source target MAX_ENTRIES MAX_CELLS
  .ok cells

-- Reports along cached traces are those along the traces themselves.
theorem los_cached {cache : TraceCache} (h : Coherent trace cache)
    (hfew : cache.entries.rows.length ≤ MAX_ENTRIES) (hsmall : cache.cells ≤ MAX_CELLS) (map : Battlefield) :
    terrainLosAtHeights map (centerTrace trace cache) = terrainLosAtHeights map trace := by
  have hsame : centerTrace trace cache = trace := by
    funext source target
    obtain ⟨herror, hok⟩ := get_eq source target h hfew hsmall
    unfold centerTrace
    cases htrace : trace source target with
    | error e => rw [herror e htrace]; rfl
    | ok cells =>
        obtain ⟨after, hget, -⟩ := hok cells htrace
        exact bind_ok hget rfl
  rw [hsame]

variable (trace) in
-- The answers to one request after the other. A trace that fails leaves the cache as it was.
def requests (maxEntries maxCells : Nat) : TraceCache → List Key →
    List (Except Error (List HexCoordinate)) × TraceCache
  | cache, [] => ([], cache)
  | cache, key :: keys =>
      match get trace cache key.1 key.2 maxEntries maxCells with
      | .error e =>
          let (answers, last) := requests maxEntries maxCells cache keys
          (.error e :: answers, last)
      | .ok (cells, after) =>
          let (answers, last) := requests maxEntries maxCells after keys
          (.ok cells :: answers, last)

theorem requests_eq (maxEntries maxCells : Nat) (keys : List Key) (cache : TraceCache)
    (h : Coherent trace cache) (hfew : cache.entries.rows.length ≤ maxEntries) (hsmall : cache.cells ≤ maxCells) :
    ∃ last, requests trace maxEntries maxCells cache keys =
        (keys.map (fun key => trace key.1 key.2), last) ∧ Coherent trace last ∧
      last.entries.rows.length ≤ maxEntries ∧ last.cells ≤ maxCells := by
  induction keys generalizing cache with
  | nil => exact ⟨cache, rfl, h, hfew, hsmall⟩
  | cons key keys ih =>
      obtain ⟨herror, hok⟩ := get_eq key.1 key.2 h hfew hsmall
      unfold requests
      rw [List.map_cons]
      cases htrace : trace key.1 key.2 with
      | error e =>
          obtain ⟨last, hlast, hbounds⟩ := ih cache h hfew hsmall
          rw [herror e htrace]
          rw [hlast]
          exact ⟨last, rfl, hbounds⟩
      | ok cells =>
          obtain ⟨after, hget, hafter, hfew', hsmall'⟩ := hok cells htrace
          obtain ⟨last, hlast, hbounds⟩ := ih after hafter hfew' hsmall'
          rw [hget]
          dsimp only
          rw [hlast]
          exact ⟨last, rfl, hbounds⟩

-- From an empty cache on, every request is answered with the trace itself, the cache counts its cells
-- and stays within its bounds, and reports along it are those along the traces.
theorem requests_exact (keys : List Key) :
    ∃ last, requests trace MAX_ENTRIES MAX_CELLS ⟨.empty, [], 0⟩ keys =
        (keys.map (fun key => trace key.1 key.2), last) ∧
      last.entries.rows.length ≤ MAX_ENTRIES ∧ last.cells ≤ MAX_CELLS ∧
      last.cells = (last.entries.rows.map (fun row => row.2.length)).sum ∧
      ∀ map, terrainLosAtHeights map (centerTrace trace last) = terrainLosAtHeights map trace := by
  obtain ⟨last, hlast, hcoherent, hfew, hsmall⟩ := requests_eq MAX_ENTRIES MAX_CELLS keys
    ⟨.empty, [], 0⟩ coherent_empty (Nat.zero_le _) (Nat.zero_le _)
  exact ⟨last, hlast, hfew, hsmall, hcoherent.cells, los_cached hcoherent hfew hsmall⟩

end TraceCache

end StompyMux.Sight
