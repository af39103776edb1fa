import Mathlib.Analysis.Real.Sqrt
import Mathlib.Tactic.FieldSimp
import Mathlib.Tactic.Linarith
import Mathlib.Tactic.Ring
import StompyMux.Map.Geometry

-- Ranges between the centers of hexes, exactly and rounded.
namespace StompyMux.Map

-- Columns lie closer together than rows, and even columns half a hex further south.
structure Point where
  x : ℝ
  y : ℝ

noncomputable def HexCoordinate.center (hex : HexCoordinate) : Point where
  x := (2 + 3 * hex.x) / (2 * √3)
  y := hex.y + if hex.x % 2 = 0 then 1 / 2 else 0

noncomputable def Point.range (p q : Point) : ℝ := √((q.x - p.x) ^ 2 + (q.y - p.y) ^ 2)

noncomputable def roundTiesEven (r : ℝ) : ℤ :=
  if r - ⌊r⌋ < 1 / 2 then ⌊r⌋
  else if 1 / 2 < r - ⌊r⌋ then ⌊r⌋ + 1
  else if ⌊r⌋ % 2 = 0 then ⌊r⌋
  else ⌊r⌋ + 1

namespace HexCoordinate

variable (hex other : HexCoordinate)

-- One for the columns that are offset.
def offset : ℤ := if hex.x % 2 = 0 then 1 else 0

-- Twice the vertical difference of the centers.
def halfRows : ℤ := 2 * (other.y - hex.y) + (other.offset - hex.offset)

-- Four times the square of the range.
def quadrupled : ℕ := (3 * (other.x - hex.x) ^ 2 + hex.halfRows other ^ 2).toNat

-- The range between the centers, rounded to a whole number.
def roundedRange : ℤ := (Nat.sqrt (hex.quadrupled other) + 1) / 2

theorem quadrupled_cast : (hex.quadrupled other : ℤ) = 3 * (other.x - hex.x) ^ 2 + hex.halfRows other ^ 2 :=
  Int.toNat_of_nonneg (by positivity)

-- The columns and the half rows are both even or both odd.
theorem quadrupled_even : hex.quadrupled other % 2 = 0 := by
  have hparity : (3 * (other.x - hex.x) ^ 2 + hex.halfRows other ^ 2) % 2 = 0 := by
    have hsame : (other.x - hex.x) % 2 = hex.halfRows other % 2 := by
      unfold halfRows offset
      split <;> split <;> omega
    have hsquare : ∀ a : ℤ, a ^ 2 % 2 = a % 2 := by
      intro a
      rcases Int.emod_two_eq_zero_or_one a with h | h
      · rw [pow_two, Int.mul_emod, h]
        rfl
      · rw [pow_two, Int.mul_emod, h]
        rfl
    have hcolumns := hsquare (other.x - hex.x)
    have hrows := hsquare (hex.halfRows other)
    omega
  have hcast := hex.quadrupled_cast other
  omega

theorem range_eq : hex.center.range other.center = √(hex.quadrupled other) / 2 := by
  have hthree : √(3 : ℝ) ^ 2 = 3 := Real.sq_sqrt (by norm_num)
  have hx : (other.center.x - hex.center.x) ^ 2 = 3 * ((other.x : ℝ) - hex.x) ^ 2 / 4 := by
    have hdifference : other.center.x - hex.center.x = 3 * ((other.x : ℝ) - hex.x) / (2 * √3) := by
      unfold center
      field_simp
      ring
    rw [hdifference, div_pow, mul_pow, mul_pow, hthree]
    ring
  have hy : (other.center.y - hex.center.y) ^ 2 = (hex.halfRows other : ℝ) ^ 2 / 4 := by
    have hdifference : other.center.y - hex.center.y = (hex.halfRows other : ℝ) / 2 := by
      unfold center halfRows offset
      split <;> split <;> push_cast <;> ring
    rw [hdifference, div_pow]
    norm_num
  have hcast : (hex.quadrupled other : ℝ) = 3 * ((other.x : ℝ) - hex.x) ^ 2 + (hex.halfRows other : ℝ) ^ 2 := by
    exact_mod_cast hex.quadrupled_cast other
  unfold Point.range
  rw [hx, hy, hcast, ← add_div, Real.sqrt_div' _ (by norm_num)]
  congr 1
  rw [show (4 : ℝ) = 2 ^ 2 by norm_num, Real.sqrt_sq (by norm_num)]

-- The range is never halfway between two whole numbers.
theorem roundTiesEven_range :
    roundTiesEven (hex.center.range other.center) = hex.roundedRange other := by
  have heven := hex.quadrupled_even other
  rw [hex.range_eq other]
  unfold roundedRange
  generalize hex.quadrupled other = k at heven
  obtain ⟨m, hm⟩ : ∃ m, m = Nat.sqrt k := ⟨_, rfl⟩
  have hlow : (m : ℝ) ≤ √k := Real.le_sqrt_of_sq_le (by
    rw [hm]
    exact_mod_cast Nat.sqrt_le' k)
  have hhigh : √(k : ℝ) < m + 1 := (Real.sqrt_lt' (by positivity)).mpr (by
    rw [hm]
    exact_mod_cast Nat.lt_succ_sqrt' k)
  rw [← hm]
  obtain ⟨f, hf | hf⟩ := Nat.even_or_odd' m
  · -- below the middle
    have hfloor : ⌊√(k : ℝ) / 2⌋ = (f : ℤ) := by
      rw [Int.floor_eq_iff]
      rw [hf] at hlow hhigh
      push_cast at hlow hhigh ⊢
      constructor <;> linarith
    have hbelow : √(k : ℝ) / 2 - ⌊√(k : ℝ) / 2⌋ < 1 / 2 := by
      rw [hfloor]
      rw [hf] at hhigh
      push_cast at hhigh ⊢
      linarith
    unfold roundTiesEven
    rw [if_pos hbelow, hfloor, hf]
    push_cast
    omega
  · -- above it, because an odd square is not the one of the range
    have hne : √(k : ℝ) ≠ m := by
      intro hsame
      have hsquare : (k : ℝ) = m ^ 2 := by
        rw [← hsame, Real.sq_sqrt (by positivity)]
      have hk : k = m ^ 2 := by exact_mod_cast hsquare
      have hodd : m % 2 = 1 := by omega
      rw [hk, Nat.pow_mod, hodd] at heven
      omega
    have hstrict : (m : ℝ) < √k := lt_of_le_of_ne hlow (Ne.symm hne)
    have hfloor : ⌊√(k : ℝ) / 2⌋ = (f : ℤ) := by
      rw [Int.floor_eq_iff]
      rw [hf] at hlow hhigh
      push_cast at hlow hhigh ⊢
      constructor <;> linarith
    have habove : 1 / 2 < √(k : ℝ) / 2 - ⌊√(k : ℝ) / 2⌋ := by
      rw [hfloor]
      rw [hf] at hstrict
      push_cast at hstrict ⊢
      linarith
    unfold roundTiesEven
    rw [if_neg (not_lt.mpr (le_of_lt habove)), if_pos habove, hfloor, hf]
    push_cast
    omega

theorem roundedRange_self : hex.roundedRange hex = 0 := by
  have hzero : hex.quadrupled hex = 0 := by
    unfold quadrupled halfRows
    rw [sub_self, sub_self, sub_self]
    rfl
  unfold roundedRange
  rw [hzero]
  rfl

-- No range rounds to less than the difference of the rows.
theorem rows_le_roundedRange : |other.y - hex.y| ≤ hex.roundedRange other := by
  have hcast := hex.quadrupled_cast other
  have hroot : |hex.halfRows other| ≤ Nat.sqrt (hex.quadrupled other) := by
    have hle : (hex.halfRows other).natAbs ≤ Nat.sqrt (hex.quadrupled other) := by
      rw [Nat.le_sqrt']
      zify
      rw [sq_abs, hcast]
      linarith [sq_nonneg (other.x - hex.x)]
    rw [Int.abs_eq_natAbs]
    exact_mod_cast hle
  have hhalf : 2 * |other.y - hex.y| ≤ |hex.halfRows other| + 1 := by
    have hshift : |other.offset - hex.offset| ≤ 1 := by
      unfold offset
      rw [abs_le]
      split <;> split <;> omega
    calc 2 * |other.y - hex.y| = |hex.halfRows other - (other.offset - hex.offset)| := by
          rw [halfRows, add_sub_cancel_right, abs_mul, abs_two]
      _ ≤ |hex.halfRows other| + |other.offset - hex.offset| := abs_sub _ _
      _ ≤ |hex.halfRows other| + 1 := by omega
  unfold roundedRange
  omega

end HexCoordinate

end StompyMux.Map
