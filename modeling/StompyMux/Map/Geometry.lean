import Mathlib.Data.Int.Basic

namespace StompyMux.Map

-- Zero-based offset coordinates; signed values allow neighbors outside a map.
structure HexCoordinate where
  x : Int
  y : Int
  deriving DecidableEq

namespace HexCoordinate

-- Cube coordinates; the third one is the negated sum of the first two.
def cube (hex : HexCoordinate) : Int × Int × Int :=
  let q := hex.x
  let r := hex.y - (q + q % 2) / 2
  (q, r, -q - r)

-- Minimum number of adjacent hex transitions.
def distance (hex other : HexCoordinate) : Nat :=
  let a := hex.cube
  let b := other.cube
  max (a.1 - b.1).natAbs (max (a.2.1 - b.2.1).natAbs (a.2.2 - b.2.2).natAbs)

def DIRECTIONS : List (Int × Int) := [(0, -1), (1, -1), (1, 0), (0, 1), (-1, 1), (-1, 0)]

-- The six adjacent cells, clockwise from north.
def adjacent (hex : HexCoordinate) : List HexCoordinate :=
  let (q, r, _) := hex.cube
  DIRECTIONS.map (fun direction =>
    let q := q + direction.1
    ⟨q, r + direction.2 + (q + q % 2) / 2⟩)

def onMap (hex : HexCoordinate) (width height : UInt16) : Bool :=
  0 ≤ hex.x && hex.x < width.toNat && 0 ≤ hex.y && hex.y < height.toNat

-- The adjacent cells by direction, with `none` for each direction that leaves the map.
def neighborsWithin (hex : HexCoordinate) (width height : UInt16) : List (Option HexCoordinate) :=
  hex.adjacent.map (fun other => if other.onMap width height then some other else none)

theorem distance_comm (hex other : HexCoordinate) : hex.distance other = other.distance hex := by
  have hswap : ∀ a b : Int, (a - b).natAbs = (b - a).natAbs := fun a b => by omega
  simp only [distance]
  rw [hswap hex.cube.1, hswap hex.cube.2.1, hswap hex.cube.2.2]

theorem distance_triangle (hex middle other : HexCoordinate) :
    hex.distance other ≤ hex.distance middle + middle.distance other := by
  have hstep : ∀ a b c : Int, (a - c).natAbs ≤ (a - b).natAbs + (b - c).natAbs :=
    fun a b c => by omega
  have hq := hstep hex.cube.1 middle.cube.1 other.cube.1
  have hr := hstep hex.cube.2.1 middle.cube.2.1 other.cube.2.1
  have hs := hstep hex.cube.2.2 middle.cube.2.2 other.cube.2.2
  simp only [distance]
  omega

-- A cell is the neighbor in a direction when its cube coordinates differ by that direction.
theorem eq_offset_iff (other : HexCoordinate) (q r : Int) :
    other = ⟨q, r + (q + q % 2) / 2⟩ ↔ other.cube.1 = q ∧ other.cube.2.1 = r := by
  obtain ⟨x, y⟩ := other
  simp only [HexCoordinate.mk.injEq, cube]
  constructor
  · rintro ⟨rfl, rfl⟩
    exact ⟨rfl, by omega⟩
  · rintro ⟨rfl, rfl⟩
    exact ⟨rfl, by omega⟩

theorem cube_third (hex : HexCoordinate) : hex.cube.2.2 = -hex.cube.1 - hex.cube.2.1 := rfl

-- The six directions reach exactly the cells at distance one.
theorem mem_adjacent_iff (hex other : HexCoordinate) :
    other ∈ hex.adjacent ↔ hex.distance other = 1 := by
  simp only [adjacent, DIRECTIONS, List.map_cons, List.map_nil, List.mem_cons, List.not_mem_nil,
    or_false, eq_offset_iff, distance, cube_third]
  generalize hex.cube.1 = q, hex.cube.2.1 = r, other.cube.1 = q', other.cube.2.1 = r'
  constructor
  · rintro (⟨rfl, rfl⟩ | ⟨rfl, rfl⟩ | ⟨rfl, rfl⟩ | ⟨rfl, rfl⟩ | ⟨rfl, rfl⟩ | ⟨rfl, rfl⟩) <;> omega
  · intro h
    have hq : (q - q').natAbs ≤ 1 := h ▸ Nat.le_max_left _ _
    have hr : (r - r').natAbs ≤ 1 :=
      h ▸ Nat.le_trans (Nat.le_max_left _ _) (Nat.le_max_right _ _)
    have hs : (-q - r - (-q' - r')).natAbs ≤ 1 :=
      h ▸ Nat.le_trans (Nat.le_max_right _ _) (Nat.le_max_right _ _)
    have hne : ¬ (q = q' ∧ r = r') := by
      rintro ⟨rfl, rfl⟩
      simp at h
    clear h
    have hq' : q' = q - 1 ∨ q' = q ∨ q' = q + 1 := by omega
    have hr' : r' = r - 1 ∨ r' = r ∨ r' = r + 1 := by omega
    clear hq hr
    rcases hq' with rfl | rfl | rfl <;> rcases hr' with rfl | rfl | rfl <;> omega

theorem mem_neighborsWithin_iff (hex other : HexCoordinate) (width height : UInt16) :
    some other ∈ hex.neighborsWithin width height ↔
      hex.distance other = 1 ∧ other.onMap width height = true := by
  rw [← mem_adjacent_iff]
  simp only [neighborsWithin, List.mem_map]
  constructor
  · rintro ⟨found, hf, he⟩
    split at he
    · rename_i hmap
      cases he
      exact ⟨hf, hmap⟩
    · cases he
  · rintro ⟨hf, hmap⟩
    exact ⟨other, hf, by rw [if_pos hmap]⟩

end HexCoordinate

end StompyMux.Map
