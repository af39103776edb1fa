import Mathlib.Algebra.Order.BigOperators.Group.Finset
import Mathlib.Data.Finset.Prod
import StompyMux.Autopilot.Navigation

namespace StompyMux.Autopilot

open Library

namespace OpenEntry

theorem before_iff (entry other : OpenEntry) :
    entry.before other = true ↔
      entry.estimatedTotal < other.estimatedTotal ∨
        (entry.estimatedTotal = other.estimatedTotal ∧ (entry.heuristic < other.heuristic ∨
          (entry.heuristic = other.heuristic ∧ (entry.cost < other.cost ∨
            (entry.cost = other.cost ∧ (entry.position.x < other.position.x ∨
              (entry.position.x = other.position.x ∧
                entry.position.y ≤ other.position.y))))))) := by
  simp [before]

theorem before_of_not {entry other : OpenEntry} (h : ¬ entry.before other = true) :
    other.before entry = true := by
  rw [before_iff] at h ⊢
  omega

theorem before_trans {entry middle other : OpenEntry} (h : entry.before middle = true)
    (h' : middle.before other = true) : entry.before other = true := by
  rw [before_iff] at h h' ⊢
  omega

theorem estimatedTotal_le {entry other : OpenEntry} (h : entry.before other = true) :
    entry.estimatedTotal ≤ other.estimatedTotal := by
  rw [before_iff] at h
  omega

def Sorted (entries : List OpenEntry) : Prop :=
  entries.Pairwise (fun entry other => entry.before other = true)

theorem mem_push (entry other : OpenEntry) (entries : List OpenEntry) :
    other ∈ push entry entries ↔ other = entry ∨ other ∈ entries := by
  induction entries with
  | nil => simp [push]
  | cons head entries ih =>
      simp only [push]
      split
      · simp
      · simp only [List.mem_cons, ih]
        tauto

variable (entry : OpenEntry) (entries : List OpenEntry)

theorem length_push : (push entry entries).length = entries.length + 1 := by
  induction entries with
  | nil => rfl
  | cons head entries ih =>
      simp only [push]
      split
      · rfl
      · simp [ih]

theorem push_sorted (hs : Sorted entries) : Sorted (push entry entries) := by
  induction entries with
  | nil => exact List.pairwise_singleton _ _
  | cons head entries ih =>
      obtain ⟨hhead, htail⟩ := List.pairwise_cons.mp hs
      simp only [push]
      split
      · rename_i h
        refine List.pairwise_cons.mpr ⟨fun other ho => ?_, hs⟩
        rcases List.mem_cons.mp ho with rfl | ho
        · exact h
        · exact before_trans h (hhead other ho)
      · rename_i h
        refine List.pairwise_cons.mpr ⟨fun other ho => ?_, ih htail⟩
        rcases (mem_push entry other entries).mp ho with rfl | ho
        · exact before_of_not h
        · exact hhead other ho

theorem push_first (hs : Sorted (entry :: entries)) : push entry entries = entry :: entries := by
  cases entries with
  | nil => rfl
  | cons head entries =>
      have h := (List.pairwise_cons.mp hs).1 head List.mem_cons_self
      simp only [push, if_pos h]

end OpenEntry

theorem GridHex.mem_neighborsWithin_iff (hex other : GridHex) (width height : UInt16) :
    other ∈ hex.neighborsWithin width height ↔
      hex.distance other = 1 ∧ AStarSearch.onMap width height other = true := by
  have hround : ∀ found : Map.HexCoordinate, found.onMap width height = true →
      (ofHexCoordinate found).toHexCoordinate = found := by
    rintro ⟨x, y⟩ h
    simp only [Map.HexCoordinate.onMap, Bool.and_eq_true, decide_eq_true_eq] at h
    simp only [ofHexCoordinate, toHexCoordinate, Map.HexCoordinate.mk.injEq]
    omega
  have hmap : ∀ found : GridHex, found.toHexCoordinate.onMap width height =
      AStarSearch.onMap width height found := by
    intro found
    simp [Map.HexCoordinate.onMap, AStarSearch.onMap, toHexCoordinate]
  simp only [neighborsWithin, List.mem_map, List.mem_filterMap, id_eq, exists_eq_right]
  constructor
  · rintro ⟨found, hf, rfl⟩
    obtain ⟨hd, hm⟩ := (Map.HexCoordinate.mem_neighborsWithin_iff _ _ _ _).mp hf
    rw [← hmap, distance, hround found hm]
    exact ⟨hd, hm⟩
  · rintro ⟨hd, hm⟩
    refine ⟨other.toHexCoordinate, ?_, rfl⟩
    exact (Map.HexCoordinate.mem_neighborsWithin_iff _ _ _ _).mpr ⟨hd, (hmap other).trans hm⟩

-- One step between adjacent cells of the map that the traversal allows.
def Edge (width height : UInt16) (traversal : Traversal) (u v : GridHex) (k : Nat) : Prop :=
  AStarSearch.onMap width height u = true ∧ AStarSearch.onMap width height v = true ∧
    u.distance v = 1 ∧ 0 < k ∧ ∃ cost : UInt32, traversal u v = some cost ∧ cost.toNat = k

-- The heuristic is consistent: it falls by at most one along a step.
theorem Goal.heuristic_le (goal : Goal) {width height : UInt16} {traversal : Traversal}
    {u v : GridHex} {k : Nat} (he : Edge width height traversal u v k) :
    goal.heuristic u ≤ goal.heuristic v + k := by
  obtain ⟨_, _, hd, hk, _⟩ := he
  have huv := Map.HexCoordinate.distance_triangle u.toHexCoordinate v.toHexCoordinate
    goal.center.toHexCoordinate
  have hvu := Map.HexCoordinate.distance_triangle v.toHexCoordinate u.toHexCoordinate
    goal.center.toHexCoordinate
  rw [Map.HexCoordinate.distance_comm v.toHexCoordinate u.toHexCoordinate] at hvu
  simp only [GridHex.distance] at hd
  simp only [heuristic, GridHex.distance]
  omega

theorem Goal.heuristic_eq_zero (goal : Goal) (position : GridHex)
    (hc : goal.contains position = true) : goal.heuristic position = 0 := by
  simp only [contains, Bool.and_eq_true, decide_eq_true_eq] at hc
  simp only [heuristic]
  omega

namespace AStarSearch

def MAX_EDGE : Nat := 2 ^ 32 - 1

def label (search : AStarSearch) (cell : GridHex) : Option Nat :=
  search.records[cell]?.map Record.cost

def cells (width height : UInt16) : Finset GridHex :=
  (Finset.range width.toNat ×ˢ Finset.range height.toNat).image (fun p => ⟨p.1, p.2⟩)

theorem mem_cells (width height : UInt16) (cell : GridHex) :
    cell ∈ cells width height ↔ onMap width height cell = true := by
  simp only [cells, Finset.mem_image, Finset.mem_product, Finset.mem_range, onMap,
    Bool.and_eq_true, decide_eq_true_eq]
  constructor
  · rintro ⟨p, h, rfl⟩
    exact h
  · intro h
    exact ⟨(cell.x, cell.y), h, rfl⟩

theorem card_cells_le (width height : UInt16) : (cells width height).card ≤ 65535 * 65535 := by
  have hw : width.toNat ≤ 65535 := Nat.le_of_lt_succ width.toNat_lt
  have hh : height.toNat ≤ 65535 := Nat.le_of_lt_succ height.toNat_lt
  refine Finset.card_image_le.trans ?_
  rw [Finset.card_product, Finset.card_range, Finset.card_range]
  exact Nat.mul_le_mul hw hh

-- What holds of the records and of the queue between any two operations of the search.
structure Labelled (traversal : Traversal) (search : AStarSearch) : Prop where
  center : AStarSearch.onMap search.width search.height search.goal.center = true
  size_le : search.records.size ≤ search.maxRecords
  start : search.records[search.start]? = some ⟨0, none⟩
  onMap : ∀ (v : GridHex) (r : Record), search.records[v]? = some r →
    AStarSearch.onMap search.width search.height v = true
  root : ∀ (v : GridHex) (r : Record), search.records[v]? = some r → r.parent = none →
    v = search.start
  link : ∀ (v : GridHex) (r : Record) (u : GridHex), search.records[v]? = some r →
    r.parent = some u → ∃ (r' : Record) (k : Nat), search.records[u]? = some r' ∧
      Edge search.width search.height traversal u v k ∧ r'.cost + k ≤ r.cost
  cost_le : ∀ (v : GridHex) (r : Record), search.records[v]? = some r →
    r.cost ≤ (search.records.size - 1) * MAX_EDGE
  entry : ∀ e ∈ search.openSet, e.estimatedTotal = e.cost + search.goal.heuristic e.position
  sorted : OpenEntry.Sorted search.openSet

-- Every record lies on the map, so there are no more records than cells.
theorem Labelled.records_size_le {traversal : Traversal} {search : AStarSearch}
    (hl : search.Labelled traversal) : search.records.size ≤ 65535 * 65535 := by
  have hnodup : search.records.keys.Nodup := Std.TreeMap.nodup_keys
  rw [← Std.TreeMap.length_keys, ← List.toFinset_card_of_nodup hnodup]
  refine (Finset.card_le_card ?_).trans (card_cells_le search.width search.height)
  intro cell hcell
  rw [List.mem_toFinset, Std.TreeMap.mem_keys] at hcell
  obtain ⟨r, hr⟩ := Option.isSome_iff_exists.mp
    ((Std.TreeMap.mem_iff_isSome_getElem? (t := search.records)).mp hcell)
  exact (mem_cells _ _ _).mpr (hl.onMap cell r hr)

theorem Labelled.size_pos {traversal : Traversal} {search : AStarSearch}
    (hl : search.Labelled traversal) : 0 < search.records.size := by
  have hmem : search.start ∈ search.records := by
    rw [Std.TreeMap.mem_iff_isSome_getElem?, hl.start]
    rfl
  have hne := Std.TreeMap.isEmpty_eq_false_iff_exists_mem.mpr ⟨search.start, hmem⟩
  rw [Std.TreeMap.isEmpty_eq_size_eq_zero] at hne
  exact Nat.pos_of_ne_zero (by simpa using hne)

theorem distance_lt {width height : UInt16} {u v : GridHex}
    (hu : onMap width height u = true) (hv : onMap width height v = true) :
    u.distance v < 2 ^ 18 := by
  have hw := width.toNat_lt
  have hh := height.toNat_lt
  simp only [onMap, Bool.and_eq_true, decide_eq_true_eq] at hu hv
  obtain ⟨x, y⟩ := u
  obtain ⟨x', y'⟩ := v
  simp only at hu hv
  have hq : ((x : Int) - x').natAbs < 2 ^ 17 := by omega
  have hr : ((y : Int) - (x + x % 2) / 2 - (y' - (x' + x' % 2) / 2)).natAbs < 2 ^ 17 := by omega
  simp only [GridHex.distance, GridHex.toHexCoordinate, Map.HexCoordinate.distance,
    Map.HexCoordinate.cube]
  omega

theorem heuristic_lt {goal : Goal} {width height : UInt16} {position : GridHex}
    (hp : onMap width height position = true) (hc : onMap width height goal.center = true) :
    goal.heuristic position < 2 ^ 32 := by
  have hd := distance_lt hp hc
  have hm := goal.minimum.toNat_lt
  simp only [Goal.heuristic]
  omega

-- The remaining work: two units for each unit by which a cell's cost may still fall, and
-- one for each queue entry.
def weight (search : AStarSearch) : Nat :=
  2 * ∑ cell ∈ cells search.width search.height, (search.label cell).getD (2 ^ 64) +
    search.openSet.length

theorem label_eq_some_iff (search : AStarSearch) (cell : GridHex) (c : Nat) :
    search.label cell = some c ↔ ∃ r : Record, search.records[cell]? = some r ∧ r.cost = c := by
  simp [label]

-- Record a better way to `w` through `v` and queue it.
def improve (search : AStarSearch) (v w : GridHex) (cost : Nat) : AStarSearch :=
  { search with
    records := search.records.insert w ⟨cost, some v⟩
    openSet := OpenEntry.push
      ⟨cost + search.goal.heuristic w, search.goal.heuristic w, cost, w⟩ search.openSet }

section

variable (traversal : Traversal) (search : AStarSearch) (v w : GridHex) (c k : Nat)

theorem improve_getElem_self :
    (search.improve v w c).records[w]? = some ⟨c, some v⟩ := by
  simp [improve]

theorem improve_getElem_of_ne (u : GridHex) (hne : u ≠ w) :
    (search.improve v w c).records[u]? = search.records[u]? := by
  have hcmp : ¬ GridHex.order w u = .eq :=
    fun h => hne (Std.LawfulEqCmp.eq_of_compare h).symm
  simp [improve, Std.TreeMap.getElem?_insert, hcmp]

theorem improve_size :
    (search.improve v w c).records.size =
      if search.label w = none then search.records.size + 1 else search.records.size := by
  simp only [improve, Std.TreeMap.size_insert, Std.TreeMap.contains_eq_isSome_getElem?, label,
    Option.map_eq_none_iff, Option.isSome_iff_ne_none, ite_not, ne_eq]

-- The costs that arise in a search stay far below 64 bits.
theorem edge_cost_le {u u' : GridHex} {width height : UInt16}
    (he : Edge width height traversal u u' k) : k ≤ MAX_EDGE := by
  obtain ⟨_, _, _, _, cost, _, rfl⟩ := he
  have hlt := cost.toNat_lt
  simp only [MAX_EDGE]
  omega

theorem candidate_lt (hl : search.Labelled traversal) (r : Record)
    (hv : search.records[v]? = some r) (he : Edge search.width search.height traversal v w k) :
    r.cost + k ≤ search.records.size * MAX_EDGE ∧
      r.cost + k + search.goal.heuristic w < 2 ^ 64 := by
  have hcost := hl.cost_le v r hv
  have hk := edge_cost_le traversal k he
  have hsize := hl.records_size_le
  have hpos := hl.size_pos
  have hh := heuristic_lt he.2.1 hl.center
  simp only [MAX_EDGE] at *
  constructor <;> omega

theorem improve_labelled (hl : search.Labelled traversal) (r : Record)
    (hv : search.records[v]? = some r) (he : Edge search.width search.height traversal v w k)
    (hbetter : ∀ c', search.label w = some c' → r.cost + k < c')
    (hroom : search.label w = none → search.records.size < search.maxRecords) :
    (search.improve v w (r.cost + k)).Labelled traversal := by
  obtain ⟨hcandidate, -⟩ := candidate_lt traversal search v w k hl r hv he
  have hne : v ≠ w := by
    rintro rfl
    have hself := hbetter r.cost ((label_eq_some_iff _ _ _).mpr ⟨r, hv, rfl⟩)
    omega
  have hstart : w ≠ search.start := by
    rintro rfl
    have h := hbetter 0 ((label_eq_some_iff _ _ _).mpr ⟨_, hl.start, rfl⟩)
    omega
  have hself := improve_getElem_self search v w (r.cost + k)
  have hother := improve_getElem_of_ne search v w (r.cost + k)
  have hsize := improve_size search v w (r.cost + k)
  constructor
  · exact hl.center
  · rw [hsize]
    split
    · rename_i hnone
      exact hroom hnone
    · exact hl.size_le
  · rw [show (search.improve v w (r.cost + k)).start = search.start from rfl,
      hother _ hstart.symm]
    exact hl.start
  · intro u r' hu
    by_cases huw : u = w
    · exact huw ▸ he.2.1
    · rw [hother u huw] at hu
      exact hl.onMap u r' hu
  · intro u r' hu hp
    by_cases huw : u = w
    · rw [huw, hself] at hu
      cases hu
      cases hp
    · rw [hother u huw] at hu
      exact hl.root u r' hu hp
  · intro u r' p hu hp
    by_cases huw : u = w
    · rw [huw, hself] at hu
      cases hu
      cases hp
      exact ⟨r, k, (hother v hne).trans hv, huw ▸ he, Nat.le_refl _⟩
    · rw [hother u huw] at hu
      obtain ⟨rp, step, hrp, hstep, hle⟩ := hl.link u r' p hu hp
      by_cases hpw : p = w
      -- the parent itself became cheaper
      · subst hpw
        have hlt := hbetter rp.cost ((label_eq_some_iff _ _ _).mpr ⟨rp, hrp, rfl⟩)
        exact ⟨_, step, hself, hstep, by simp only; omega⟩
      · exact ⟨rp, step, (hother p hpw).trans hrp, hstep, hle⟩
  · intro u r' hu
    rw [hsize]
    by_cases huw : u = w
    · rw [huw, hself] at hu
      cases hu
      split
      · exact hcandidate
      · rename_i hknown
        obtain ⟨c', hc'⟩ := Option.ne_none_iff_exists'.mp hknown
        obtain ⟨r₀, hr₀, rfl⟩ := (label_eq_some_iff _ _ _).mp hc'
        exact (hbetter _ hc').le.trans (hl.cost_le w r₀ hr₀)
    · rw [hother u huw] at hu
      refine (hl.cost_le u r' hu).trans (Nat.mul_le_mul_right MAX_EDGE ?_)
      split <;> omega
  · intro e hmem
    rcases (OpenEntry.mem_push _ _ _).mp hmem with rfl | hold
    · rfl
    · exact hl.entry e hold
  · exact OpenEntry.push_sorted _ _ hl.sorted

theorem improve_weight (hl : search.Labelled traversal) (r : Record)
    (hv : search.records[v]? = some r) (he : Edge search.width search.height traversal v w k)
    (hbetter : ∀ c', search.label w = some c' → r.cost + k < c') :
    (search.improve v w (r.cost + k)).weight < search.weight := by
  obtain ⟨-, hlt⟩ := candidate_lt traversal search v w k hl r hv he
  have hself : (search.improve v w (r.cost + k)).label w = some (r.cost + k) := by
    simp [label, improve_getElem_self]
  have hother : ∀ u, u ≠ w → (search.improve v w (r.cost + k)).label u = search.label u := by
    intro u hne
    simp only [label, improve_getElem_of_ne search v w _ u hne]
  have hold : r.cost + k < (search.label w).getD (2 ^ 64) := by
    cases hc : search.label w with
    | none => simp only [Option.getD_none]; omega
    | some c' => exact hbetter c' hc
  have hsum : ∑ cell ∈ cells search.width search.height,
        ((search.improve v w (r.cost + k)).label cell).getD (2 ^ 64) <
      ∑ cell ∈ cells search.width search.height, (search.label cell).getD (2 ^ 64) := by
    refine Finset.sum_lt_sum ?_ ⟨w, (mem_cells _ _ _).mpr he.2.1, ?_⟩
    · intro u _
      by_cases huw : u = w
      · rw [huw, hself]
        exact hold.le
      · rw [hother u huw]
    · rw [hself]
      exact hold
  have hlength : (search.improve v w (r.cost + k)).openSet.length = search.openSet.length + 1 :=
    OpenEntry.length_push _ _
  have hframe : cells (search.improve v w (r.cost + k)).width
      (search.improve v w (r.cost + k)).height = cells search.width search.height := rfl
  simp only [weight, hlength, hframe]
  omega

end

end AStarSearch

end StompyMux.Autopilot
