import StompyMux.Library.Route
import StompyMux.Map.Geometry

-- The distance of two cells is the length of the shortest path of neighbors.
namespace StompyMux.Map

open Library

namespace HexCoordinate

-- Even columns are half a cell further south than odd ones; clockwise from north.
def staggered (hex : HexCoordinate) : List HexCoordinate :=
  let up := if hex.x % 2 = 0 then hex.y else hex.y - 1
  let down := if hex.x % 2 = 0 then hex.y + 1 else hex.y
  [⟨hex.x, hex.y - 1⟩, ⟨hex.x + 1, up⟩, ⟨hex.x + 1, down⟩, ⟨hex.x, hex.y + 1⟩, ⟨hex.x - 1, down⟩,
    ⟨hex.x - 1, up⟩]

theorem adjacent_eq_staggered (hex : HexCoordinate) : hex.adjacent = hex.staggered := by
  simp only [adjacent, staggered, DIRECTIONS, List.map_cons, List.map_nil, cube, List.cons.injEq,
    HexCoordinate.mk.injEq, and_true, true_and]
  split <;> omega

theorem length_adjacent (hex : HexCoordinate) : hex.adjacent.length = 6 := rfl

theorem opposite {hex neighbor : HexCoordinate} {i : Nat} (h : hex.adjacent[i]? = some neighbor) :
    neighbor.adjacent[(i + 3) % 6]? = some hex := by
  obtain ⟨hi, -⟩ := List.getElem?_eq_some_iff.mp h
  rw [length_adjacent] at hi
  rw [adjacent_eq_staggered] at h ⊢
  obtain ⟨x, y⟩ := hex
  have hcases : i = 0 ∨ i = 1 ∨ i = 2 ∨ i = 3 ∨ i = 4 ∨ i = 5 := by omega
  rcases hcases with rfl | rfl | rfl | rfl | rfl | rfl <;>
    · simp only [staggered, List.getElem?_cons_zero, List.getElem?_cons_succ, Option.some.injEq] at h
      subst h
      simp only [staggered, Nat.reduceAdd, Nat.reduceMod, List.getElem?_cons_zero,
        List.getElem?_cons_succ, Option.some.injEq, HexCoordinate.mk.injEq, true_and]
      repeat' split
      all_goals omega

-- The unbounded grid.
def grid : SimpleGraph HexCoordinate where
  Adj hex other := other ∈ hex.adjacent
  symm := ⟨fun hex other h => by
    rw [mem_adjacent_iff] at h ⊢
    rw [distance_comm]
    exact h⟩
  loopless := ⟨fun hex h => by simp [mem_adjacent_iff, distance] at h⟩

theorem distance_self (hex : HexCoordinate) : hex.distance hex = 0 := by
  simp [distance]

theorem eq_of_distance (hex other : HexCoordinate) (h : hex.distance other = 0) : hex = other := by
  obtain ⟨x, y⟩ := hex
  obtain ⟨x', y'⟩ := other
  simp only [distance, cube] at h
  have hx : x = x' := by omega
  subst hx
  have hy : y = y' := by omega
  rw [hy]

-- Of three differences that sum to zero, the widest is one of the first two when these have
-- opposite signs, and the third otherwise.
theorem max_opposite {a b c : Int} (hc : c = -a - b) (h : a ≤ 0 ∧ 0 ≤ b ∨ 0 ≤ a ∧ b ≤ 0) :
    max a.natAbs (max b.natAbs c.natAbs) = max a.natAbs b.natAbs := by
  have hle : c.natAbs ≤ max a.natAbs b.natAbs := by
    rcases h with h | h <;> omega
  rw [← Nat.max_assoc, Nat.max_eq_left hle]

theorem max_alike {a b c : Int} (hc : c = -a - b) (h : a ≤ 0 ∧ b ≤ 0 ∨ 0 ≤ a ∧ 0 ≤ b) :
    max a.natAbs (max b.natAbs c.natAbs) = c.natAbs := by
  have ha : a.natAbs ≤ c.natAbs := by
    rcases h with h | h <;> omega
  have hb : b.natAbs ≤ c.natAbs := by
    rcases h with h | h <;> omega
  rw [Nat.max_eq_right hb, Nat.max_eq_right ha]

-- The signs of the two differences say which direction leads closer.
theorem exists_direction {q r q' r' : Int}
    (h : max (q - q').natAbs (max (r - r').natAbs (-q - r - (-q' - r')).natAbs) ≠ 0) :
    ∃ direction ∈ DIRECTIONS, max (q + direction.1 - q').natAbs (max (r + direction.2 - r').natAbs
      (-(q + direction.1) - (r + direction.2) - (-q' - r')).natAbs) + 1 =
        max (q - q').natAbs (max (r - r').natAbs (-q - r - (-q' - r')).natAbs) := by
  by_cases hq : q < q'
  · by_cases hr : r' < r
    · refine ⟨(1, -1), by decide, ?_⟩
      simp only
      rw [max_opposite (by omega) (by omega), max_opposite (by omega)
        (by omega)]
      omega
    · refine ⟨(1, 0), by decide, ?_⟩
      simp only
      rw [max_alike (by omega) (by omega), max_alike (by omega)
        (by omega)]
      omega
  · by_cases hq' : q' < q
    · by_cases hr : r < r'
      · refine ⟨(-1, 1), by decide, ?_⟩
        simp only
        rw [max_opposite (by omega) (by omega), max_opposite (by omega)
          (by omega)]
        omega
      · refine ⟨(-1, 0), by decide, ?_⟩
        simp only
        rw [max_alike (by omega) (by omega), max_alike (by omega)
          (by omega)]
        omega
    · have heq : q = q' := by omega
      subst heq
      by_cases hr : r < r'
      · refine ⟨(0, 1), by decide, ?_⟩
        simp only
        rw [max_alike (by omega) (by omega), max_alike (by omega)
          (by omega)]
        omega
      · have hr' : r' < r := by
          by_contra hle
          have heq : r = r' := by omega
          subst heq
          simp at h
        refine ⟨(0, -1), by decide, ?_⟩
        simp only
        rw [max_alike (by omega) (by omega), max_alike (by omega)
          (by omega)]
        omega

theorem exists_closer (hex other : HexCoordinate) (h : hex.distance other ≠ 0) :
    ∃ neighbor ∈ hex.adjacent, neighbor.distance other + 1 = hex.distance other := by
  obtain ⟨direction, hmem, hcloser⟩ := exists_direction h
  let q := hex.cube.1 + direction.1
  let r := hex.cube.2.1 + direction.2
  obtain ⟨hq, hr⟩ := (eq_offset_iff ⟨q, r + (q + q % 2) / 2⟩ q r).mp rfl
  refine ⟨⟨q, r + (q + q % 2) / 2⟩, List.mem_map.mpr ⟨direction, hmem, rfl⟩, ?_⟩
  have hleft : (⟨q, r + (q + q % 2) / 2⟩ : HexCoordinate).distance other =
      max (q - other.cube.1).natAbs (max (r - other.cube.2.1).natAbs
        (-q - r - other.cube.2.2).natAbs) := by
    simp only [distance, cube_third, hq, hr]
  rw [hleft]
  exact hcloser

theorem exists_path (hex other : HexCoordinate) :
    ∃ path : grid.Walk hex other, path.length = hex.distance other :=
  Descent.exists_walk distance eq_of_distance exists_closer hex other

theorem distance_eq_dist (hex other : HexCoordinate) : hex.distance other = grid.dist hex other := by
  symm
  apply Descent.dist_eq distance distance_self eq_of_distance ?_ exists_closer
  intro a b c hstep
  have htriangle := distance_triangle a b c
  have hone := (mem_adjacent_iff a b).mp hstep
  omega

section Checked

-- 64-bit arithmetic, where an overflow gives nothing.
def i64 (n : Int) : Option Int := if -2 ^ 63 ≤ n ∧ n < 2 ^ 63 then some n else none

def cubeChecked (hex : HexCoordinate) : Option (Int × Int × Int) := do
  let q ← i64 hex.x
  let y ← i64 hex.y
  let even ← i64 (q + q % 2)
  let r ← i64 (y - even / 2)
  let negated ← i64 (-q)
  let s ← i64 (negated - r)
  some (q, r, s)

def distanceChecked (hex other : HexCoordinate) : Option Nat := do
  let a ← hex.cubeChecked
  let b ← other.cubeChecked
  some (max (a.1 - b.1).natAbs (max (a.2.1 - b.2.1).natAbs (a.2.2 - b.2.2).natAbs))

def ofI32 (x y : Int32) : HexCoordinate := ⟨x.toInt, y.toInt⟩

theorem cubeChecked_ofI32 (x y : Int32) : (ofI32 x y).cubeChecked = some (ofI32 x y).cube := by
  have hx := x.le_toInt
  have hx' := x.toInt_lt
  have hy := y.le_toInt
  have hy' := y.toInt_lt
  have hsome (n : Int) (hlow : -2 ^ 63 ≤ n) (hhigh : n < 2 ^ 63) : i64 n = some n :=
    if_pos ⟨hlow, hhigh⟩
  simp only [cubeChecked, ofI32, cube, Option.bind_eq_bind]
  rw [hsome x.toInt (by omega) (by omega), Option.bind_some, hsome y.toInt (by omega) (by omega),
    Option.bind_some, hsome (x.toInt + x.toInt % 2) (by omega) (by omega), Option.bind_some,
    hsome (y.toInt - (x.toInt + x.toInt % 2) / 2) (by omega) (by omega), Option.bind_some,
    hsome (-x.toInt) (by omega) (by omega), Option.bind_some,
    hsome (-x.toInt - (y.toInt - (x.toInt + x.toInt % 2) / 2)) (by omega) (by omega),
    Option.bind_some]

theorem distanceChecked_ofI32 (x y x' y' : Int32) :
    distanceChecked (ofI32 x y) (ofI32 x' y') = some ((ofI32 x y).distance (ofI32 x' y')) := by
  unfold distanceChecked
  rw [cubeChecked_ofI32, cubeChecked_ofI32]
  rfl

end Checked

-- For all coordinates with 32-bit components: the distance does not overflow, it is the length of
-- the shortest path of neighbors, the way back is three directions further on, and the neighbors
-- within a map are those that lie on it, direction by direction.
theorem distance_exact (x y x' y' : Int32) :
    distanceChecked (ofI32 x y) (ofI32 x' y') = some ((ofI32 x y).distance (ofI32 x' y')) ∧
    (∃ path : grid.Walk (ofI32 x y) (ofI32 x' y'),
      path.length = (ofI32 x y).distance (ofI32 x' y')) ∧
    (∀ path : grid.Walk (ofI32 x y) (ofI32 x' y'),
      (ofI32 x y).distance (ofI32 x' y') ≤ path.length) ∧
    ((ofI32 x y).distance (ofI32 x' y') = 0 ↔ ofI32 x y = ofI32 x' y') ∧
    (ofI32 x y).distance (ofI32 x' y') = (ofI32 x' y').distance (ofI32 x y) ∧
    (∀ middle : HexCoordinate, (ofI32 x y).distance (ofI32 x' y') ≤
      (ofI32 x y).distance middle + middle.distance (ofI32 x' y')) ∧
    (ofI32 x y).adjacent = (ofI32 x y).staggered ∧
    (∀ (i : Nat) (neighbor : HexCoordinate), (ofI32 x y).adjacent[i]? = some neighbor →
      neighbor.adjacent[(i + 3) % 6]? = some (ofI32 x y)) ∧
    ∀ (width height : UInt16) (i : Nat),
      ((ofI32 x y).neighborsWithin width height)[i]? =
        ((ofI32 x y).adjacent[i]?).map (fun neighbor : HexCoordinate =>
          if 0 ≤ neighbor.x ∧ neighbor.x < width.toNat ∧ 0 ≤ neighbor.y ∧ neighbor.y < height.toNat
          then some neighbor else none) := by
  refine ⟨distanceChecked_ofI32 x y x' y', exists_path _ _, ?_, ?_, distance_comm _ _,
    fun middle => distance_triangle _ middle _, adjacent_eq_staggered _,
    fun i neighbor h => opposite h, ?_⟩
  · intro path
    rw [distance_eq_dist]
    exact grid.dist_le path
  · constructor
    · exact eq_of_distance _ _
    · intro heq
      rw [heq]
      exact distance_self _
  · intro width height i
    have hmap (neighbor : HexCoordinate) : neighbor.onMap width height = true ↔
        0 ≤ neighbor.x ∧ neighbor.x < width.toNat ∧ 0 ≤ neighbor.y ∧ neighbor.y < height.toNat := by
      simp only [onMap, Bool.and_eq_true, decide_eq_true_eq, and_assoc]
    unfold neighborsWithin
    rw [List.getElem?_map]
    simp only [hmap]

end HexCoordinate

end StompyMux.Map
