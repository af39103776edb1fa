import Mathlib.Algebra.BigOperators.Group.Finset.Basic
import Mathlib.Algebra.Order.BigOperators.Group.Finset
import Mathlib.Data.Prod.Lex
import StompyMux.Library.Route
import StompyMux.Map.TerrainRules

-- Least-cost paths across the hexes of a generated map.
namespace StompyMux.Mapgen

open Library
open StompyMux.Map

structure HexMap where
  width : UInt16
  height : UInt16
  -- row by row from the top left
  hexes : List Hex
  sized : hexes.length = width.toNat * height.toNat

namespace HexMap

variable (map : HexMap)

def contains (hex : HexCoordinate) : Bool :=
  0 ≤ hex.x && 0 ≤ hex.y && hex.x < map.width.toNat && hex.y < map.height.toNat

def index (hex : HexCoordinate) : Nat := hex.y.toNat * map.width.toNat + hex.x.toNat

def coordinate (index : Nat) : HexCoordinate := ⟨index % map.width.toNat, index / map.width.toNat⟩

def hex (hex : HexCoordinate) : Option Hex :=
  if map.contains hex then map.hexes[map.index hex]? else none

def neighbors (hex : HexCoordinate) : List HexCoordinate :=
  (hex.neighborsWithin map.width map.height).filterMap id

def distance (a b : HexCoordinate) : Nat := min (a.distance b) (2 ^ 31 - 1)

theorem contains_iff (hex : HexCoordinate) : map.contains hex = true ↔
    (0 ≤ hex.x ∧ hex.x < map.width.toNat) ∧ 0 ≤ hex.y ∧ hex.y < map.height.toNat := by
  unfold contains
  simp only [Bool.and_eq_true, decide_eq_true_eq]
  omega

theorem onMap_eq (hex : HexCoordinate) : hex.onMap map.width map.height = map.contains hex := by
  rw [Bool.eq_iff_iff, contains_iff]
  unfold HexCoordinate.onMap
  simp only [Bool.and_eq_true, decide_eq_true_eq]
  omega

theorem mem_neighbors_iff (hex other : HexCoordinate) :
    other ∈ map.neighbors hex ↔ hex.distance other = 1 ∧ map.contains other = true := by
  rw [← onMap_eq, ← HexCoordinate.mem_neighborsWithin_iff]
  unfold neighbors
  rw [List.mem_filterMap]
  constructor
  · rintro ⟨value, hmem, hvalue⟩
    have hsame : value = some other := hvalue
    exact hsame ▸ hmem
  · exact fun h => ⟨_, h, rfl⟩

theorem index_lt (hex : HexCoordinate) (h : map.contains hex = true) : map.index hex < map.hexes.length := by
  obtain ⟨⟨hleft, hright⟩, htop, hbottom⟩ := (map.contains_iff hex).mp h
  rw [map.sized, mul_comm]
  have hrows : (hex.y.toNat + 1) * map.width.toNat ≤ map.height.toNat * map.width.toNat :=
    Nat.mul_le_mul_right _ (by omega)
  unfold index
  rw [add_mul, one_mul] at hrows
  omega

theorem coordinate_index {hex : HexCoordinate} (h : map.contains hex = true) :
    map.coordinate (map.index hex) = hex := by
  obtain ⟨⟨hleft, hright⟩, htop, -⟩ := (map.contains_iff hex).mp h
  have hwidth : hex.x.toNat < map.width.toNat := by omega
  unfold coordinate index
  have hcolumn : (hex.y.toNat * map.width.toNat + hex.x.toNat) % map.width.toNat = hex.x.toNat := by
    rw [mul_comm, Nat.mul_add_mod, Nat.mod_eq_of_lt hwidth]
  have hrow : (hex.y.toNat * map.width.toNat + hex.x.toNat) / map.width.toNat = hex.y.toNat := by
    rw [mul_comm, Nat.mul_add_div (by omega), Nat.div_eq_of_lt hwidth, add_zero]
  obtain ⟨x, y⟩ := hex
  dsimp only at hleft htop hcolumn hrow ⊢
  rw [HexCoordinate.mk.injEq]
  omega

theorem index_inj {a b : HexCoordinate} (ha : map.contains a = true) (hb : map.contains b = true)
    (h : map.index a = map.index b) : a = b := by
  rw [← map.coordinate_index ha, h, map.coordinate_index hb]

end HexMap

def MAX : Nat := 2 ^ 32 - 1

def saturatingAdd (a b : Nat) : Nat := min (a + b) MAX

-- The estimate, what has been spent, and the index of the hex.
abbrev Entry := Nat ×ₗ Nat ×ₗ Nat

def entry (estimate spent index : Nat) : Entry := toLex (estimate, toLex (spent, index))

structure Search where
  best : Nat → Nat
  cameFrom : Nat → Option Nat
  waiting : List Entry

section Algorithm

variable (map : HexMap) (start : HexCoordinate) (isGoal : HexCoordinate → Bool)
  (heuristic : HexCoordinate → UInt32) (cost : HexCoordinate → HexCoordinate → Option UInt32)

def relax (spent index : Nat) (search : Search) (next : HexCoordinate) : Search :=
  match cost (map.coordinate index) next with
  | none => search
  | some stepCost =>
      let total := saturatingAdd spent stepCost.toNat
      if total ≥ search.best (map.index next) then search
      else
        { best := Function.update search.best (map.index next) total
          cameFrom := Function.update search.cameFrom (map.index next) (some index)
          waiting := entry (saturatingAdd total (heuristic next).toNat) total (map.index next) :: search.waiting }

def expand (spent index : Nat) (search : Search) : Search :=
  (map.neighbors (map.coordinate index)).foldl (relax map heuristic cost spent index) search

-- The links back to the start, at most so many of them.
def backtrack (cameFrom : Nat → Option Nat) : Nat → Nat → List HexCoordinate
  | 0, step => [map.coordinate step]
  | fuel + 1, step =>
      map.coordinate step :: match cameFrom step with
        | none => []
        | some previous => backtrack cameFrom fuel previous

def sumOfBest (search : Search) : Nat := ∑ i ∈ Finset.range map.hexes.length, search.best i

theorem relax_measure (spent index : Nat) (search : Search) {next : HexCoordinate}
    (hnext : map.contains next = true) : relax map heuristic cost spent index search next = search ∨
      sumOfBest map (relax map heuristic cost spent index search next) < sumOfBest map search := by
  unfold relax
  cases cost (map.coordinate index) next with
  | none => exact .inl rfl
  | some stepCost =>
    dsimp only
    split
    · exact .inl rfl
    · rename_i hless
      refine .inr (Finset.sum_lt_sum (fun i _ => ?_) ⟨map.index next, Finset.mem_range.mpr (map.index_lt next hnext), ?_⟩)
      · dsimp only
        by_cases hi : i = map.index next
        · rw [hi, Function.update_self]
          omega
        · rw [Function.update_of_ne hi]
      · dsimp only
        rw [Function.update_self]
        omega

-- An expansion that changes anything lowers what is best for some hex.
theorem expand_measure (spent index : Nat) (search : Search) :
    expand map heuristic cost spent index search = search ∨
      sumOfBest map (expand map heuristic cost spent index search) < sumOfBest map search := by
  have hfold : ∀ (nexts : List HexCoordinate) (search : Search), (∀ next ∈ nexts, map.contains next = true) →
      nexts.foldl (relax map heuristic cost spent index) search = search ∨
        sumOfBest map (nexts.foldl (relax map heuristic cost spent index) search) < sumOfBest map search := by
    intro nexts
    induction nexts with
    | nil => exact fun search _ => .inl rfl
    | cons next nexts ih =>
      intro search h
      obtain ⟨hnext, hnexts⟩ := List.forall_mem_cons.mp h
      rw [List.foldl_cons]
      rcases relax_measure map heuristic cost spent index search hnext with hsame | hlt
      · rw [hsame]
        exact ih search hnexts
      · rcases ih (relax map heuristic cost spent index search next) hnexts with hsame | hlt'
        · rw [hsame]
          exact .inr hlt
        · exact .inr (lt_trans hlt' hlt)
  exact hfold _ search fun next h => ((map.mem_neighbors_iff _ next).mp h).2

variable (state : Search) (popped : Entry) (u : HexCoordinate) (v : HexCoordinate)

-- Every turn of the loop either lowers the best costs or shortens the queue.
theorem shorter_measure (h : state.waiting.min? = some popped) : Prod.Lex (· < ·) (· < ·)
      (sumOfBest map { state with waiting := state.waiting.erase popped }, (state.waiting.erase popped).length)
      (sumOfBest map state, state.waiting.length) := by
  have hmem := (List.min?_eq_some_iff.mp h).1
  have hlength := List.length_erase_of_mem hmem
  have hpos := List.length_pos_of_mem hmem
  exact Prod.Lex.right _ (by omega)

theorem expand_shorter_measure (h : state.waiting.min? = some popped) : Prod.Lex (· < ·) (· < ·)
      (sumOfBest map (expand map heuristic cost (ofLex (ofLex popped).2).1 (ofLex (ofLex popped).2).2
          { state with waiting := state.waiting.erase popped }),
        (expand map heuristic cost (ofLex (ofLex popped).2).1 (ofLex (ofLex popped).2).2
          { state with waiting := state.waiting.erase popped }).waiting.length)
      (sumOfBest map state, state.waiting.length) := by
  rcases expand_measure map heuristic cost (ofLex (ofLex popped).2).1 (ofLex (ofLex popped).2).2
      { state with waiting := state.waiting.erase popped } with hsame | hless
  · rw [hsame]
    exact shorter_measure map state popped h
  · exact Prod.Lex.left _ _ hless

def search (state : Search) : Option (List HexCoordinate) :=
  match _ : state.waiting.min? with
  | none => none
  | some popped =>
      let spent := (ofLex (ofLex popped).2).1
      let index := (ofLex (ofLex popped).2).2
      let rest := { state with waiting := state.waiting.erase popped }
      if spent > state.best index then search rest
      else if isGoal (map.coordinate index) then
        some (backtrack map state.cameFrom (state.best index) index).reverse
      else search (expand map heuristic cost spent index rest)
termination_by (sumOfBest map state, state.waiting.length)
decreasing_by
  · exact shorter_measure map state popped ‹_›
  · exact expand_shorter_measure map heuristic cost state popped ‹_›

def findPath : Option (List HexCoordinate) :=
  if !map.contains start then none
  else search map isGoal heuristic cost
    { best := Function.update (fun _ => MAX) (map.index start) 0
      cameFrom := fun _ => none
      waiting := [entry (heuristic start).toNat 0 (map.index start)] }

-- One step a route may take, at its cost.
def Edge (u v : HexCoordinate) (k : Nat) : Prop :=
  map.contains u = true ∧ map.contains v = true ∧ u.distance v = 1 ∧ (cost u v).map UInt32.toNat = some k

-- A path from the start, over hexes of the map.
def Reaches (cells : List HexCoordinate) (target : HexCoordinate) (total : Nat) : Prop :=
  map.contains start = true ∧ Route (Edge map cost) start cells target total

-- A heuristic that nowhere exceeds what is left to pay to a goal.
def Admissible : Prop :=
  ∀ v cells target total, map.contains v = true → Route (Edge map cost) v cells target total →
    isGoal target = true → (heuristic v).toNat ≤ total

def bestAt (state : Search) (v : HexCoordinate) : Nat := state.best (map.index v)

def Waiting (state : Search) (v : HexCoordinate) : Prop :=
  entry (saturatingAdd (bestAt map state v) (heuristic v).toNat) (bestAt map state v) (map.index v) ∈ state.waiting

def Carried (state : Search) (u v : HexCoordinate) (k : Nat) : Prop :=
  bestAt map state v < MAX ∧ bestAt map state v ≤ bestAt map state u + k

structure Linked (state : Search) : Prop where
  begun : bestAt map state start = 0 ∧ state.cameFrom (map.index start) = none
  limit : ∀ v, bestAt map state v ≤ MAX
  came : ∀ v, map.contains v = true → bestAt map state v < MAX → v = start ∨
    ∃ u k, Edge map cost u v k ∧ state.cameFrom (map.index v) = some (map.index u) ∧
      bestAt map state u + k ≤ bestAt map state v
  queued : ∀ item ∈ state.waiting, ∃ v spent, map.contains v = true ∧
    item = entry (saturatingAdd spent (heuristic v).toNat) spent (map.index v) ∧
    bestAt map state v ≤ spent ∧ spent < MAX

-- The best costs are those of routes, carried over every edge from what no longer waits; the hex being
-- expanded is excepted.
structure Ready (busy : Option HexCoordinate) (state : Search) : Prop extends
    Linked map start heuristic cost state where
  achieved : ∀ v, map.contains v = true → bestAt map state v < MAX →
    ∃ cells, Route (Edge map cost) start cells v (bestAt map state v) ∧ cells.Nodup ∧
      ∀ w ∈ cells, map.contains w = true ∧ bestAt map state w ≤ bestAt map state v
  settled : ∀ u, map.contains u = true → bestAt map state u < MAX → busy ≠ some u →
    Waiting map heuristic state u ∨
      isGoal u = false ∧ ∀ v k, Edge map cost u v k → Carried map state u v k

theorem entry_inj {estimate spent index estimate' spent' index' : Nat}
    (h : entry estimate spent index = entry estimate' spent' index') :
    spent = spent' ∧ index = index' := by
  unfold entry at h
  rw [toLex_inj, Prod.mk.injEq, toLex_inj, Prod.mk.injEq] at h
  exact h.2

-- A cheaper way to a hex, by way of a neighbor.
def lower (state : Search) (u v : HexCoordinate) (total : Nat) : Search :=
  { best := Function.update state.best (map.index v) total
    cameFrom := Function.update state.cameFrom (map.index v) (some (map.index u))
    waiting := entry (saturatingAdd total (heuristic v).toNat) total (map.index v) :: state.waiting }

theorem bestAt_lower_self (u v : HexCoordinate) (total : Nat) :
    bestAt map (lower map heuristic state u v total) v = total := Function.update_self _ _ _

theorem bestAt_lower_of_ne (u v w : HexCoordinate) (total : Nat)
    (hv : map.contains v = true) (hw : map.contains w = true) (h : w ≠ v) :
    bestAt map (lower map heuristic state u v total) w = bestAt map state w :=
  Function.update_of_ne (fun he => h (map.index_inj hw hv he)) _ _

theorem bestAt_lower_le (u : HexCoordinate) {v : HexCoordinate} (w : HexCoordinate) {total : Nat} (hless : total < bestAt map state v) :
    bestAt map (lower map heuristic state u v total) w ≤ bestAt map state w := by
  unfold bestAt lower at *
  dsimp only
  by_cases h : map.index w = map.index v
  · rw [h, Function.update_self]
    omega
  · rw [Function.update_of_ne h]

theorem relax_cases {u v : HexCoordinate} (hu : map.contains u = true)
    (hlimit : bestAt map state v ≤ MAX) :
    relax map heuristic cost (bestAt map state u) (map.index u) state v = state ∧
        (∀ k, Edge map cost u v k → bestAt map state v ≤ saturatingAdd (bestAt map state u) k) ∨
      ∃ k, (cost u v).map UInt32.toNat = some k ∧ bestAt map state u + k < bestAt map state v ∧
        relax map heuristic cost (bestAt map state u) (map.index u) state v =
          lower map heuristic state u v (bestAt map state u + k) := by
  unfold relax
  rw [map.coordinate_index hu]
  cases hcost : cost u v with
  | none =>
    refine .inl ⟨rfl, fun k hedge => ?_⟩
    have hk := hedge.2.2.2
    rw [hcost] at hk
    cases hk
  | some stepCost =>
    dsimp only
    split
    · rename_i hover
      refine .inl ⟨rfl, fun k hedge => ?_⟩
      have hk := hedge.2.2.2
      rw [hcost] at hk
      cases hk
      exact hover
    · rename_i hless
      have hbelow : saturatingAdd (bestAt map state u) stepCost.toNat < bestAt map state v := Nat.lt_of_not_le hless
      have htotal : saturatingAdd (bestAt map state u) stepCost.toNat = bestAt map state u + stepCost.toNat := by
        unfold saturatingAdd at hbelow ⊢
        omega
      rw [htotal] at hbelow ⊢
      exact .inr ⟨stepCost.toNat, rfl, hbelow, rfl⟩

theorem Linked.lower (u v : HexCoordinate) (k : Nat)
    (state : Search) (h : Linked map start heuristic cost state) (hedge : Edge map cost u v k)
    (hless : bestAt map state u + k < bestAt map state v) :
    Linked map start heuristic cost (lower map heuristic state u v (bestAt map state u + k)) ∧
      bestAt map (lower map heuristic state u v (bestAt map state u + k)) u = bestAt map state u := by
  have hle := fun w => bestAt_lower_le map heuristic state u w hless
  have hself := bestAt_lower_self map heuristic state u v (bestAt map state u + k)
  have hother := fun w hw hne => bestAt_lower_of_ne map heuristic state u v w (bestAt map state u + k) hedge.2.1 hw hne
  have hne : u ≠ v := by
    rintro rfl
    omega
  have hsource := hother u hedge.1 hne
  refine ⟨⟨?begun, fun w => le_trans (hle w) (h.limit w), ?came, ?queued⟩, hsource⟩
  case begun =>
    have hroot : map.index start ≠ map.index v := by
      intro he
      have hzero := h.begun.1
      unfold bestAt at hzero hless
      rw [he] at hzero
      omega
    refine ⟨?_, ?_⟩
    · have hzero := hle start
      have hbegun := h.begun.1
      omega
    · exact (Function.update_of_ne hroot _ _).trans h.begun.2
  case came =>
    intro w hw hlabel
    by_cases hwv : w = v
    · subst hwv
      refine .inr ⟨u, k, hedge, Function.update_self _ _ _, ?_⟩
      rw [hself, hsource]
    · rw [hother w hw hwv] at hlabel
      rcases h.came w hw hlabel with hstart | ⟨p, step, hstep, hlink, hgrow⟩
      · exact .inl hstart
      · refine .inr ⟨p, step, hstep, ?_, ?_⟩
        · exact (Function.update_of_ne (fun he => hwv (map.index_inj hw hedge.2.1 he)) _ _).trans hlink
        · have hp := hle p
          rw [hother w hw hwv]
          omega
  case queued =>
    intro item hitem
    rcases List.mem_cons.mp hitem with rfl | hitem
    · have hlimit := h.limit v
      exact ⟨v, _, hedge.2.1, rfl, le_of_eq hself, by omega⟩
    · obtain ⟨w, spent, hw, heq, hspent, hlt⟩ := h.queued item hitem
      exact ⟨w, spent, hw, heq, le_trans (hle w) hspent, hlt⟩

-- A route to a labelled hex stretches over one more edge, unless the label beyond is as low already.
theorem Ready.stretch (hbounded : ∀ cells v total, Route (Edge map cost) start cells v total →
      cells.Nodup → total < MAX) {busy : Option HexCoordinate} {state : Search}
    (h : Ready map start isGoal heuristic cost busy state) {u v : HexCoordinate} {k : Nat}
    (hedge : Edge map cost u v k) (hu : bestAt map state u < MAX) :
    bestAt map state v ≤ bestAt map state u ∨ bestAt map state u + k < MAX := by
  obtain ⟨cells, hroute, hnodup, hcells⟩ := h.achieved u hedge.1 hu
  by_cases hmem : v ∈ cells
  · exact .inl (hcells v hmem).2
  · refine .inr (hbounded _ v _ (Route.snoc (Edge map cost) v k hroute hedge) ?_)
    refine List.nodup_append.mpr ⟨hnodup, List.nodup_singleton v, ?_⟩
    intro w hw x hx he
    rw [List.mem_singleton.mp hx] at he
    exact hmem (he ▸ hw)

theorem Ready.lower (u v : HexCoordinate) (k : Nat)
    (state : Search) (h : Ready map start isGoal heuristic cost (some u) state)
    (hedge : Edge map cost u v k) (hless : bestAt map state u + k < bestAt map state v) :
    Ready map start isGoal heuristic cost (some u)
      (lower map heuristic state u v (bestAt map state u + k)) := by
  have hle := fun w => bestAt_lower_le map heuristic state u w hless
  have hself := bestAt_lower_self map heuristic state u v (bestAt map state u + k)
  have hother := fun w hw hne => bestAt_lower_of_ne map heuristic state u v w (bestAt map state u + k) hedge.2.1 hw hne
  obtain ⟨hlinked, hsource⟩ := h.toLinked.lower map start heuristic cost u v k state hedge hless
  refine ⟨hlinked, ?achieved, ?settled⟩
  case achieved =>
    intro w hw hlabel
    by_cases hwv : w = v
    · subst hwv
      obtain ⟨cells, hroute, hnodup, hcells⟩ := h.achieved u hedge.1 (by omega)
      rw [hself]
      refine ⟨cells ++ [w], Route.snoc _ _ _ hroute hedge, ?_, ?_⟩
      · refine List.nodup_append.mpr ⟨hnodup, List.nodup_singleton w, ?_⟩
        intro x hx y hy he
        rw [List.mem_singleton.mp hy] at he
        have hbelow := (hcells x hx).2
        rw [he] at hbelow
        omega
      · intro x hx
        rcases List.mem_append.mp hx with hx | hx
        · have hbelow := hcells x hx
          exact ⟨hbelow.1, by have := hle x; omega⟩
        · rw [List.mem_singleton.mp hx]
          exact ⟨hedge.2.1, le_of_eq hself⟩
    · rw [hother w hw hwv] at hlabel ⊢
      obtain ⟨cells, hroute, hnodup, hcells⟩ := h.achieved w hw hlabel
      exact ⟨cells, hroute, hnodup, fun x hx => ⟨(hcells x hx).1, le_trans (hle x) (hcells x hx).2⟩⟩
  case settled =>
    intro w hw hlabel hbusy
    by_cases hwv : w = v
    · subst hwv
      left
      unfold Waiting
      rw [hself]
      exact List.mem_cons_self
    · rw [hother w hw hwv] at hlabel
      rcases h.settled w hw hlabel hbusy with hwaiting | ⟨hgoal, hcarried⟩
      · left
        unfold Waiting at hwaiting ⊢
        rw [hother w hw hwv]
        exact List.mem_cons_of_mem _ hwaiting
      · refine .inr ⟨hgoal, fun x step hstep => ?_⟩
        have hx := hcarried x step hstep
        unfold Carried at hx ⊢
        have hlex := hle x
        rw [hother w hw hwv]
        omega

-- An expansion keeps the links, whatever the heuristic and however dear the paths.
theorem expand_linked (u : HexCoordinate)
    (hu : map.contains u = true) (state : Search) (h : Linked map start heuristic cost state) :
    Linked map start heuristic cost (expand map heuristic cost (bestAt map state u) (map.index u) state) := by
  have hfold : ∀ (nexts : List HexCoordinate), (∀ v ∈ nexts, u.distance v = 1 ∧ map.contains v = true) →
      ∀ state, Linked map start heuristic cost state → Linked map start heuristic cost
        (nexts.foldl (relax map heuristic cost (bestAt map state u) (map.index u)) state) := by
    intro nexts hnexts
    induction nexts with
    | nil => exact fun state h => h
    | cons v nexts ih =>
      intro state h
      obtain ⟨hv, hrest⟩ := List.forall_mem_cons.mp hnexts
      rw [List.foldl_cons]
      rcases relax_cases map heuristic cost state hu (h.limit v) with ⟨hsame, -⟩ | ⟨k, hk, hless, hlower⟩
      · rw [hsame]
        exact ih hrest state h
      · obtain ⟨hlinked, hsource⟩ := h.lower map start heuristic cost u v k state ⟨hu, hv.2, hv.1, hk⟩ hless
        have hnext := ih hrest _ hlinked
        rw [hlower]
        rw [hsource] at hnext
        exact hnext
  unfold expand
  rw [map.coordinate_index hu]
  exact hfold _ (fun v hv => (map.mem_neighbors_iff u v).mp hv) state h

section

variable (hbounded : ∀ cells v total, Route (Edge map cost) start cells v total → cells.Nodup → total < MAX)

include hbounded

theorem relax_ready {u v : HexCoordinate} {state : Search} (hu : map.contains u = true)
    (hv : map.contains v = true ∧ u.distance v = 1) (hlabel : bestAt map state u < MAX)
    (h : Ready map start isGoal heuristic cost (some u) state) {state' : Search}
    (hrelax : relax map heuristic cost (bestAt map state u) (map.index u) state v = state') :
    Ready map start isGoal heuristic cost (some u) state' ∧ bestAt map state' u = bestAt map state u ∧
      (∀ w, bestAt map state' w ≤ bestAt map state w) ∧
      ∀ k, Edge map cost u v k → Carried map state' u v k := by
  rcases relax_cases map heuristic cost state hu (h.limit v) with ⟨hsame, hover⟩ | ⟨k, hk, hless, hlower⟩
  · rw [hrelax] at hsame
    subst hsame
    refine ⟨h, rfl, fun w => le_refl _, fun k hedge => ?_⟩
    have hstretch := h.stretch map start isGoal heuristic cost hbounded hedge hlabel
    have hle := hover k hedge
    unfold saturatingAdd at hle
    exact ⟨by omega, by omega⟩
  · have hedge : Edge map cost u v k := ⟨hu, hv.1, hv.2, hk⟩
    have hlimit := h.limit v
    rw [hrelax] at hlower
    subst hlower
    have hself := bestAt_lower_self map heuristic state u v (bestAt map state u + k)
    obtain ⟨-, hsource⟩ := h.toLinked.lower map start heuristic cost u v k state hedge hless
    refine ⟨h.lower map start isGoal heuristic cost u v k state hedge hless, hsource,
      fun w => bestAt_lower_le map heuristic state u w hless, fun other hother => ?_⟩
    have hk' : other = k := Option.some.inj (hother.2.2.2.symm.trans hk)
    unfold Carried
    omega

-- Relaxing every neighbor of the hex being expanded carries it over all its edges.
theorem relax_all (u : HexCoordinate) (hu : map.contains u = true) (nexts : List HexCoordinate)
    (hnexts : ∀ v ∈ nexts, map.contains v = true ∧ u.distance v = 1) (state : Search)
    (hlabel : bestAt map state u < MAX) (h : Ready map start isGoal heuristic cost (some u) state)
    (state' : Search)
    (hfold : nexts.foldl (relax map heuristic cost (bestAt map state u) (map.index u)) state = state') :
    Ready map start isGoal heuristic cost (some u) state' ∧ bestAt map state' u = bestAt map state u ∧
      (∀ w, bestAt map state' w ≤ bestAt map state w) ∧
      ∀ v ∈ nexts, ∀ k, Edge map cost u v k → Carried map state' u v k := by
  induction nexts generalizing state with
  | nil =>
    subst hfold
    exact ⟨h, rfl, fun w => le_refl _, fun v hv => absurd hv List.not_mem_nil⟩
  | cons v nexts ih =>
    obtain ⟨hv, hrest⟩ := List.forall_mem_cons.mp hnexts
    obtain ⟨middle, hmiddle⟩ : ∃ middle, relax map heuristic cost (bestAt map state u) (map.index u) state v = middle :=
      ⟨_, rfl⟩
    obtain ⟨hready, hsame, hle, hcarried⟩ := relax_ready map start isGoal heuristic cost hbounded hu hv hlabel h hmiddle
    rw [List.foldl_cons, hmiddle, ← hsame] at hfold
    rw [← hsame] at hlabel
    obtain ⟨hready', hsame', hle', hcarried'⟩ := ih hrest middle hlabel hready hfold
    refine ⟨hready', hsame'.trans hsame, fun w => le_trans (hle' w) (hle w), fun w hw k hedge => ?_⟩
    rcases List.mem_cons.mp hw with rfl | hw
    · have hone := hcarried k hedge
      have hlower := hle' w
      unfold Carried at hone ⊢
      omega
    · exact hcarried' w hw k hedge

theorem expand_ready (u : HexCoordinate) (hu : map.contains u = true) (state : Search)
    (hgoal : isGoal u = false) (hlabel : bestAt map state u < MAX)
    (h : Ready map start isGoal heuristic cost (some u) state) :
    Ready map start isGoal heuristic cost none
      (expand map heuristic cost (bestAt map state u) (map.index u) state) := by
  unfold expand
  rw [map.coordinate_index hu]
  obtain ⟨hready, -, -, hcarried⟩ := relax_all map start isGoal heuristic cost hbounded u hu
    (map.neighbors u) (fun v hv => ((map.mem_neighbors_iff u v).mp hv).symm) state hlabel h _ rfl
  refine ⟨hready.toLinked, hready.achieved, fun w hw hlabel' _ => ?_⟩
  by_cases hwu : u = w
  · subst hwu
    refine .inr ⟨hgoal, fun v k hedge => hcarried v ?_ k hedge⟩
    exact (map.mem_neighbors_iff u v).mpr ⟨hedge.2.2.1, hedge.2.1⟩
  · exact hready.settled w hw hlabel' fun he => hwu (Option.some.inj he)

end

theorem Linked.drop (h : Linked map start heuristic cost state) :
    Linked map start heuristic cost { state with waiting := state.waiting.erase popped } :=
  ⟨h.begun, h.limit, h.came, fun item hitem => h.queued item (List.mem_of_mem_erase hitem)⟩

-- A popped entry that is out of date takes nothing of use from the queue.
theorem Ready.drop (state : Search) (popped : Entry) (u : HexCoordinate) (spent : Nat)
    (hu : map.contains u = true)
    (hpopped : popped = entry (saturatingAdd spent (heuristic u).toNat) spent (map.index u))
    (h : Ready map start isGoal heuristic cost none state) :
    Ready map start isGoal heuristic cost (some u) { state with waiting := state.waiting.erase popped } ∧
      (bestAt map state u < spent →
        Ready map start isGoal heuristic cost none { state with waiting := state.waiting.erase popped }) := by
  have hlinked := h.toLinked.drop map start heuristic cost state popped
  have hkept : ∀ w, map.contains w = true → (w ≠ u ∨ bestAt map state u < spent) →
      Waiting map heuristic state w →
      Waiting map heuristic { state with waiting := state.waiting.erase popped } w := by
    intro w hw hother hwaiting
    refine (List.mem_erase_of_ne fun he => ?_).mpr hwaiting
    rw [hpopped] at he
    obtain ⟨hspent, hindex⟩ := entry_inj he
    obtain rfl := map.index_inj hw hu hindex
    have hsame : bestAt map state w = spent := hspent
    rcases hother with hne | hlt
    · exact hne rfl
    · omega
  refine ⟨⟨hlinked, h.achieved, fun w hw hlabel hbusy => ?_⟩,
    fun hstale => ⟨hlinked, h.achieved, fun w hw hlabel _ => ?_⟩⟩
  · rcases h.settled w hw hlabel (by simp) with hwaiting | hdone
    · exact .inl (hkept w hw (.inl fun he => hbusy (he ▸ rfl)) hwaiting)
    · exact .inr hdone
  · rcases h.settled w hw hlabel (by simp) with hwaiting | hdone
    · exact .inl (hkept w hw (.inr hstale) hwaiting)
    · exact .inr hdone

-- The best cost of a hex on the map that has been reached.
def label (state : Search) (v : HexCoordinate) : Option Nat :=
  if map.contains v ∧ bestAt map state v < MAX then some (bestAt map state v) else none

theorem label_eq_some_iff (c : Nat) : label map state v = some c ↔
    (map.contains v = true ∧ bestAt map state v < MAX) ∧ bestAt map state v = c := by
  unfold label
  split
  · rename_i h
    simp [h]
  · rename_i h
    simp [h]

-- On every route to a goal there is a hex still waiting, with no more to pay than the rest of the route.
theorem Ready.onward (h : Ready map start isGoal heuristic cost none state)
    (hstart : map.contains start = true) {cells : List HexCoordinate} {target : HexCoordinate} {total : Nat}
    (hroute : Route (Edge map cost) start cells target total) (hgoal : isGoal target = true) :
    ∃ v rest cost', map.contains v = true ∧ bestAt map state v < MAX ∧ Waiting map heuristic state v ∧
      Route (Edge map cost) v rest target cost' ∧ bestAt map state v + cost' ≤ total := by
  have hzero : label map state start = some 0 :=
    (label_eq_some_iff map state start 0).mpr ⟨⟨hstart, by rw [h.begun.1]; decide⟩, h.begun.1⟩
  have hclosed : ∀ u c, label map state u = some c → ¬ Waiting map heuristic state u → ∀ v k, Edge map cost u v k →
      ∃ c', label map state v = some c' ∧ c' ≤ c + k := by
    intro u c hc hwaiting v k hedge
    obtain ⟨⟨hu, hlabel⟩, rfl⟩ := (label_eq_some_iff map state u c).mp hc
    rcases h.settled u hu hlabel (by simp) with hopen | ⟨-, hcarried⟩
    · exact absurd hopen hwaiting
    · obtain ⟨hlt, hle⟩ := hcarried v k hedge
      exact ⟨_, (label_eq_some_iff map state v _).mpr ⟨⟨hedge.2.1, hlt⟩, rfl⟩, hle⟩
  rcases Route.frontier (Edge map cost) (label map state) (Waiting map heuristic state) hclosed
      start target cells total 0 hroute hzero with ⟨c, hc, -, hnot⟩ | ⟨v, c, rest, cost', hc, hwaiting, hrest, hle⟩
  · obtain ⟨⟨ht, hlabel⟩, -⟩ := (label_eq_some_iff map state target c).mp hc
    rcases h.settled target ht hlabel (by simp) with hopen | ⟨hfalse, -⟩
    · exact absurd hopen hnot
    · rw [hgoal] at hfalse
      cases hfalse
  · obtain ⟨⟨hv, hlabel⟩, rfl⟩ := (label_eq_some_iff map state v c).mp hc
    exact ⟨v, rest, cost', hv, hlabel, hwaiting, hrest, by omega⟩

-- The links of a labelled hex lead back to the start, over a route that costs no more than its label.
theorem Linked.backtrack_chain (h : Linked map start heuristic cost state) (fuel : Nat) (v : HexCoordinate)
    (hv : map.contains v = true) (hlabel : bestAt map state v < MAX) :
    (backtrack map state.cameFrom fuel (map.index v)).reverse =
      Route.chain (fun w => (state.cameFrom (map.index w)).map map.coordinate) fuel v := by
  induction fuel generalizing v with
  | zero => simp only [backtrack, Route.chain, map.coordinate_index hv, List.reverse_cons, List.reverse_nil, List.nil_append]
  | succ fuel ih =>
    simp only [backtrack, Route.chain, map.coordinate_index hv]
    rcases h.came v hv hlabel with rfl | ⟨u, k, hedge, hlink, hgrow⟩
    · rw [h.begun.2]
      rfl
    · rw [hlink]
      simp only [Option.map_some, map.coordinate_index hedge.1, List.reverse_cons]
      rw [ih u hedge.1 (by omega)]

theorem Linked.backtrack_route (hpositive : ∀ u v k, Edge map cost u v k → 0 < k)
    {state : Search} (h : Linked map start heuristic cost state) {v : HexCoordinate}
    (hv : map.contains v = true) (hlabel : bestAt map state v < MAX) {fuel : Nat}
    (hfuel : bestAt map state v ≤ fuel) :
    ∃ total, Route (Edge map cost) start (backtrack map state.cameFrom fuel (map.index v)).reverse v total ∧
      total ≤ bestAt map state v := by
  rw [h.backtrack_chain map start heuristic cost state fuel v hv hlabel]
  refine Route.chain_route (Edge map cost) _ (label map state) start ?_ ?_ fuel v _
    ((label_eq_some_iff map state v _).mpr ⟨⟨hv, hlabel⟩, rfl⟩) hfuel
  · intro w c hc hnone
    obtain ⟨⟨hw, hlt⟩, -⟩ := (label_eq_some_iff map state w c).mp hc
    rcases h.came w hw hlt with hstart | ⟨u, k, -, hlink, -⟩
    · exact hstart
    · rw [hlink] at hnone
      cases hnone
  · intro w c u hc hsome
    obtain ⟨⟨hw, hlt⟩, rfl⟩ := (label_eq_some_iff map state w c).mp hc
    rcases h.came w hw hlt with rfl | ⟨p, k, hedge, hlink, hgrow⟩
    · rw [h.begun.2] at hsome
      cases hsome
    · rw [hlink, Option.map_some, map.coordinate_index hedge.1] at hsome
      obtain rfl := Option.some.inj hsome
      exact ⟨_, k, (label_eq_some_iff map state p _).mpr ⟨⟨hedge.1, by omega⟩, rfl⟩, hedge, hpositive p w k hedge, hgrow⟩

-- What the search says of the goals: a cheapest path to one, or that none can be reached.
def Answers (result : Option (List HexCoordinate)) : Prop :=
  match result with
  | some path => ∃ target total, Reaches map start cost path target total ∧ isGoal target = true ∧
      ∀ cells other total', Reaches map start cost cells other total' → isGoal other = true → total ≤ total'
  | none => ∀ cells target total, Reaches map start cost cells target total → isGoal target = false

theorem search_empty (h : state.waiting.min? = none) :
    search map isGoal heuristic cost state = none := by
  rw [search]
  split
  · rfl
  · rename_i popped hpop
    rw [h] at hpop
    cases hpop

theorem search_popped {spent : Nat} (hu : map.contains u = true)
    (h : state.waiting.min? = some (entry (saturatingAdd spent (heuristic u).toNat) spent (map.index u)))
    {rest : Search} (hrest : rest = { state with
      waiting := state.waiting.erase (entry (saturatingAdd spent (heuristic u).toNat) spent (map.index u)) }) :
    search map isGoal heuristic cost state =
      if spent > bestAt map state u then search map isGoal heuristic cost rest
      else if isGoal u then some (backtrack map state.cameFrom (bestAt map state u) (map.index u)).reverse
      else search map isGoal heuristic cost (expand map heuristic cost spent (map.index u) rest) := by
  rw [search]
  split
  · rename_i hpop
    rw [h] at hpop
    cases hpop
  · rename_i popped hpop
    rw [h] at hpop
    obtain rfl := Option.some.inj hpop
    subst hrest
    show (if spent > _ then _ else if isGoal (map.coordinate (map.index u)) then _ else _) = _
    rw [map.coordinate_index hu]
    rfl

theorem search_route (hpositive : ∀ u v k, Edge map cost u v k → 0 < k) {state : Search}
    (h : Linked map start heuristic cost state) {path : List HexCoordinate}
    (hpath : search map isGoal heuristic cost state = some path) :
    ∃ target total, Route (Edge map cost) start path target total ∧ isGoal target = true := by
  induction state using search.induct map isGoal heuristic cost with
  | case1 state hempty =>
    rw [search_empty map isGoal heuristic cost state hempty] at hpath
    cases hpath
  | case2 state popped hpop spent index rest hstale ih =>
    obtain ⟨u, given, hu, rfl, -, -⟩ := h.queued popped (List.min?_eq_some_iff.mp hpop).1
    have hstale' : given > bestAt map state u := hstale
    rw [search_popped map isGoal heuristic cost state u hu hpop rfl, if_pos hstale'] at hpath
    exact ih (h.drop map start heuristic cost state _) hpath
  | case3 state popped hpop spent index hfresh hgoal =>
    obtain ⟨u, given, hu, rfl, hle, hlt⟩ := h.queued popped (List.min?_eq_some_iff.mp hpop).1
    have hfresh' : ¬ given > bestAt map state u := hfresh
    have hgoal' : isGoal u = true := by rw [← map.coordinate_index hu]; exact hgoal
    rw [search_popped map isGoal heuristic cost state u hu hpop rfl, if_neg hfresh', if_pos hgoal'] at hpath
    obtain ⟨total, hroute, -⟩ := h.backtrack_route map start heuristic cost hpositive hu (by omega) (le_refl _)
    obtain rfl := Option.some.inj hpath
    exact ⟨u, total, hroute, hgoal'⟩
  | case4 state popped hpop spent index rest hfresh hgoal ih =>
    obtain ⟨u, given, hu, rfl, hle, hlt⟩ := h.queued popped (List.min?_eq_some_iff.mp hpop).1
    have hfresh' : ¬ given > bestAt map state u := hfresh
    have hgoal' : ¬ isGoal u = true := by rw [← map.coordinate_index hu]; exact hgoal
    rw [search_popped map isGoal heuristic cost state u hu hpop rfl, if_neg hfresh', if_neg hgoal'] at hpath
    have hsame : given = bestAt map rest u := le_antisymm (Nat.le_of_not_lt hfresh') hle
    have hlinked := expand_linked map start heuristic cost u hu rest (h.drop map start heuristic cost state _)
    rw [← hsame] at hlinked
    exact ih hlinked hpath

-- The entry taken for a goal is no dearer than what waits on the way to any other.
theorem Ready.least (hadmissible : Admissible map isGoal heuristic cost)
    (hstart : map.contains start = true) (state : Search)
    (h : Ready map start isGoal heuristic cost none state) (popped : Entry)
    (hpop : state.waiting.min? = some popped) (estimate spent index : Nat)
    (hpopped : popped = entry estimate spent index) (cells : List HexCoordinate) (target : HexCoordinate)
    (total : Nat) (hroute : Route (Edge map cost) start cells target total) (hgoal : isGoal target = true) :
    estimate ≤ total := by
  obtain ⟨v, rest, cost', hv, -, hwaiting, hrest, hle⟩ :=
    h.onward map start isGoal heuristic cost state hstart hroute hgoal
  have hmin := (List.min?_eq_some_iff.mp hpop).2 _ hwaiting
  have hheuristic := hadmissible v rest target cost' hv hrest hgoal
  rw [hpopped] at hmin
  have hfirst : estimate ≤ saturatingAdd (bestAt map state v) (heuristic v).toNat := Prod.Lex.monotone_fst _ _ hmin
  unfold saturatingAdd at hfirst
  omega

theorem search_answers (hpositive : ∀ u v k, Edge map cost u v k → 0 < k)
    (hbounded : ∀ cells v total, Route (Edge map cost) start cells v total → cells.Nodup → total < MAX)
    (hadmissible : Admissible map isGoal heuristic cost)
    (hstart : map.contains start = true) (state : Search)
    (h : Ready map start isGoal heuristic cost none state) :
    Answers map start isGoal cost (search map isGoal heuristic cost state) := by
  induction state using search.induct map isGoal heuristic cost with
  | case1 state hempty =>
    rw [search_empty map isGoal heuristic cost state hempty]
    rintro cells target total ⟨-, hroute⟩
    by_contra hgoal
    obtain ⟨v, -, -, -, -, hwaiting, -⟩ := h.onward map start isGoal heuristic cost state hstart
      hroute (by simpa using hgoal)
    have hnothing := List.min?_eq_none_iff.mp hempty
    unfold Waiting at hwaiting
    rw [hnothing] at hwaiting
    cases hwaiting
  | case2 state popped hpop spent index rest hstale ih =>
    obtain ⟨u, given, hu, rfl, -, -⟩ := h.queued popped (List.min?_eq_some_iff.mp hpop).1
    have hstale' : given > bestAt map state u := hstale
    rw [search_popped map isGoal heuristic cost state u hu hpop rfl, if_pos hstale']
    exact ih ((h.drop map start isGoal heuristic cost state _ u given hu rfl).2 hstale')
  | case3 state popped hpop spent index hfresh hgoal =>
    obtain ⟨u, given, hu, rfl, hle, hlt⟩ := h.queued popped (List.min?_eq_some_iff.mp hpop).1
    have hgoal' : isGoal u = true := by rw [← map.coordinate_index hu]; exact hgoal
    have hfresh' : ¬ given > bestAt map state u := hfresh
    rw [search_popped map isGoal heuristic cost state u hu hpop rfl, if_neg hfresh', if_pos hgoal']
    have hlabel : bestAt map state u < MAX := by omega
    obtain ⟨total, hroute, htotal⟩ := h.toLinked.backtrack_route map start heuristic cost hpositive hu
      hlabel (le_refl _)
    refine ⟨u, total, ⟨hstart, hroute⟩, hgoal', fun cells other total' hother hgoal'' => ?_⟩
    have hleast := h.least map start isGoal heuristic cost hadmissible hstart state _ hpop _ _ _ rfl cells other
      total' hother.2 hgoal''
    unfold saturatingAdd at hleast
    omega
  | case4 state popped hpop spent index rest hfresh hgoal ih =>
    obtain ⟨u, given, hu, rfl, hle, hlt⟩ := h.queued popped (List.min?_eq_some_iff.mp hpop).1
    have hgoal' : ¬ isGoal u = true := by rw [← map.coordinate_index hu]; exact hgoal
    have hfresh' : ¬ given > bestAt map state u := hfresh
    rw [search_popped map isGoal heuristic cost state u hu hpop rfl, if_neg hfresh', if_neg hgoal']
    have hsame : given = bestAt map rest u := le_antisymm (Nat.le_of_not_lt hfresh') hle
    have hready := (h.drop map start isGoal heuristic cost state _ u given hu rfl).1
    refine ih ?_
    show Ready map start isGoal heuristic cost none (expand map heuristic cost given (map.index u) rest)
    rw [hsame]
    exact expand_ready map start isGoal heuristic cost hbounded u hu rest (by simpa using hgoal')
      (by omega) hready

def initial : Search :=
  { best := Function.update (fun _ => MAX) (map.index start) 0
    cameFrom := fun _ => none
    waiting := [entry (heuristic start).toNat 0 (map.index start)] }

theorem bestAt_initial (hv : map.contains v = true) (hstart : map.contains start = true) :
    bestAt map (initial map start heuristic) v = if v = start then 0 else MAX := by
  unfold bestAt initial
  dsimp only
  split
  · rename_i he
    rw [he, Function.update_self]
  · rename_i hne
    rw [Function.update_of_ne fun he => hne (map.index_inj hv hstart he)]

theorem entry_initial : entry (heuristic start).toNat 0 (map.index start) =
    entry (saturatingAdd 0 (heuristic start).toNat) 0 (map.index start) := by
  have hword := (heuristic start).toNat_lt
  have hsame : saturatingAdd 0 (heuristic start).toNat = (heuristic start).toNat := by
    unfold saturatingAdd MAX
    omega
  rw [hsame]

theorem initial_linked (hstart : map.contains start = true) :
    Linked map start heuristic cost (initial map start heuristic) := by
  have hzero : bestAt map (initial map start heuristic) start = 0 := by
    rw [bestAt_initial map start heuristic start hstart hstart, if_pos rfl]
  refine ⟨⟨hzero, rfl⟩, fun v => ?_, fun v hv hlt => .inl ?_, fun item hitem => ?_⟩
  · unfold bestAt initial
    dsimp only
    by_cases he : map.index v = map.index start
    · rw [he, Function.update_self]
      exact Nat.zero_le _
    · rw [Function.update_of_ne he]
  · by_contra hne
    rw [bestAt_initial map start heuristic v hv hstart, if_neg hne] at hlt
    omega
  · rw [List.mem_singleton.mp hitem]
    exact ⟨start, 0, hstart, entry_initial map start heuristic, le_of_eq hzero, by decide⟩

theorem initial_ready (hstart : map.contains start = true) :
    Ready map start isGoal heuristic cost none (initial map start heuristic) := by
  have hzero : bestAt map (initial map start heuristic) start = 0 := by
    rw [bestAt_initial map start heuristic start hstart hstart, if_pos rfl]
  have honly : ∀ v, map.contains v = true → bestAt map (initial map start heuristic) v < MAX → v = start := by
    intro v hv hlt
    by_contra hne
    rw [bestAt_initial map start heuristic v hv hstart, if_neg hne] at hlt
    omega
  refine ⟨initial_linked map start heuristic cost hstart, fun v hv hlt => ?_, fun u hu hlt _ => .inl ?_⟩
  · obtain rfl := honly v hv hlt
    rw [hzero]
    refine ⟨[v], .single v, List.nodup_singleton v, fun w hw => ?_⟩
    rw [List.mem_singleton.mp hw]
    exact ⟨hv, le_of_eq hzero⟩
  · obtain rfl := honly u hu hlt
    unfold Waiting
    rw [hzero, ← entry_initial]
    exact List.mem_singleton_self _

-- Whatever the heuristic and the totals, what comes back is a path to a goal.
theorem findPath_route (hpositive : ∀ u v k, Edge map cost u v k → 0 < k) {path : List HexCoordinate}
    (hpath : findPath map start isGoal heuristic cost = some path) :
    ∃ target total, Reaches map start cost path target total ∧ isGoal target = true := by
  unfold findPath at hpath
  by_cases hstart : map.contains start = true
  · rw [if_neg (by simp [hstart])] at hpath
    obtain ⟨target, total, hroute, hgoal⟩ := search_route map start isGoal heuristic cost hpositive
      (initial_linked map start heuristic cost hstart) hpath
    exact ⟨target, total, ⟨hstart, hroute⟩, hgoal⟩
  · rw [if_pos (by simp [hstart])] at hpath
    cases hpath

theorem findPath_answers (hpositive : ∀ u v k, Edge map cost u v k → 0 < k)
    (hbounded : ∀ cells v total, Reaches map start cost cells v total → cells.Nodup → total < MAX)
    (hadmissible : Admissible map isGoal heuristic cost) :
    Answers map start isGoal cost (findPath map start isGoal heuristic cost) := by
  unfold findPath
  by_cases hstart : map.contains start = true
  · rw [if_neg (by simp [hstart])]
    exact search_answers map start isGoal heuristic cost hpositive
      (fun cells v total hroute => hbounded cells v total ⟨hstart, hroute⟩) hadmissible hstart _
      (initial_ready map start isGoal heuristic cost hstart)
  · rw [if_pos (by simp [hstart])]
    exact fun cells target total hreaches => absurd hreaches.1 hstart

end Algorithm

end StompyMux.Mapgen
