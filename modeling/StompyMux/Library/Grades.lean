import Mathlib.Algebra.GroupWithZero.Nat
import Mathlib.Logic.Relation
import Mathlib.Order.Basic
import Mathlib.Order.Nat

-- Things that wear down through grades, each with a smaller factor than the one before.
namespace StompyMux.Library

structure Grades (G : Type) where
  factor : G → Nat
  next : G → Option G
  lighter : ∀ g g', next g = some g' → factor g' < factor g

namespace Grades

variable {G : Type} (grades : Grades G)

-- The lightest grade whose factor is not below what is left.
def settle (left : Nat) (g : G) : G :=
  match _ : grades.next g with
  | some g' => if left < grades.factor g' then settle left g' else g
  | none => g
termination_by grades.factor g
decreasing_by exact grades.lighter g g' ‹_›

-- One grade down.
def Lighter (g g' : G) : Prop := grades.next g = some g'

theorem settle_last (left : Nat) {g : G} (h : grades.next g = none) : grades.settle left g = g := by
  rw [settle]
  split
  · rename_i hsome
    rw [h] at hsome
    contradiction
  · rfl

theorem settle_next (left : Nat) {g g' : G} (h : grades.next g = some g') :
    grades.settle left g = if left < grades.factor g' then grades.settle left g' else g := by
  rw [settle]
  split
  · rename_i g'' hsome
    rw [h] at hsome
    cases hsome
    rfl
  · rename_i hnone
    rw [h] at hnone
    contradiction

theorem settle_induction (left : Nat) (motive : G → G → Prop)
    (last : ∀ g, grades.next g = none → motive g g)
    (stay : ∀ g g', grades.next g = some g' → grades.factor g' ≤ left → motive g g)
    (move : ∀ g g', grades.next g = some g' → left < grades.factor g' →
      motive g' (grades.settle left g') → motive g (grades.settle left g')) (g : G) :
    motive g (grades.settle left g) := by
  induction g using WellFounded.induction (InvImage.wf grades.factor Nat.lt_wfRel.wf) with
  | _ g ih =>
    cases hnext : grades.next g with
    | none =>
      rw [grades.settle_last left hnext]
      exact last g hnext
    | some g' =>
      rw [grades.settle_next left hnext]
      split
      · rename_i hlt
        exact move g g' hnext hlt (ih g' (grades.lighter g g' hnext))
      · rename_i hlt
        exact stay g g' hnext (not_lt.mp hlt)

theorem settle_lighter (left : Nat) (g : G) :
    Relation.ReflTransGen grades.Lighter g (grades.settle left g) := by
  refine grades.settle_induction left (fun g s => Relation.ReflTransGen grades.Lighter g s) ?_ ?_ ?_ g
  · exact fun g _ => .refl
  · exact fun g _ _ _ => .refl
  · exact fun g g' hnext _ ih => .head hnext ih

theorem factor_settle_le (left : Nat) (g : G) : grades.factor (grades.settle left g) ≤ grades.factor g := by
  refine grades.settle_induction left (fun g s => grades.factor s ≤ grades.factor g) ?_ ?_ ?_ g
  · exact fun g _ => le_rfl
  · exact fun g _ _ _ => le_rfl
  · exact fun g g' hnext _ ih => le_trans ih (le_of_lt (grades.lighter g g' hnext))

-- What is left never exceeds the factor of the grade that it settles at.
theorem left_le_settle {left : Nat} {g : G} (h : left ≤ grades.factor g) :
    left ≤ grades.factor (grades.settle left g) := by
  revert h
  refine grades.settle_induction left (fun g s => left ≤ grades.factor g → left ≤ grades.factor s)
    ?_ ?_ ?_ g
  · exact fun g _ h => h
  · exact fun g _ _ _ h => h
  · exact fun g g' _ hlt ih _ => ih (le_of_lt hlt)

theorem settle_stays_iff (left : Nat) (g : G) : grades.settle left g = g ↔
    (grades.next g).all (fun g' => grades.factor g' ≤ left) = true := by
  cases hnext : grades.next g with
  | none => exact ⟨fun _ => rfl, fun _ => grades.settle_last left hnext⟩
  | some g' =>
    rw [Option.all_some, decide_eq_true_eq]
    constructor
    · intro hstays
      by_contra hlt
      have hdown := grades.settle_next left hnext
      rw [if_pos (not_le.mp hlt), hstays] at hdown
      have hbelow := grades.factor_settle_le left g'
      rw [← hdown] at hbelow
      exact absurd (grades.lighter g g' hnext) (not_lt.mpr hbelow)
    · intro hle
      rw [grades.settle_next left hnext, if_neg (not_lt.mpr hle)]

theorem settle_settle {left left' : Nat} (h : left' ≤ left) (g : G) :
    grades.settle left' (grades.settle left g) = grades.settle left' g := by
  refine grades.settle_induction left (fun g s => grades.settle left' s = grades.settle left' g)
    ?_ ?_ ?_ g
  · exact fun g _ => rfl
  · exact fun g _ _ _ => rfl
  · intro g g' hnext hlt ih
    rw [ih, grades.settle_next left' hnext, if_pos (lt_of_le_of_lt h hlt)]

-- What stands: a grade and the damage it has taken, less than its factor.
structure Standing where
  grade : G
  taken : Nat
  stands : taken < grades.factor grade

namespace Standing

variable {grades} (s : grades.Standing)

def left : Nat := grades.factor s.grade - s.taken

theorem left_pos : 0 < s.left := Nat.sub_pos_of_lt s.stands

theorem ext {s t : grades.Standing} (hgrade : s.grade = t.grade) (hleft : s.left = t.left) : s = t := by
  obtain ⟨g, taken, hs⟩ := s
  obtain ⟨g', taken', ht⟩ := t
  cases hgrade
  unfold left at hleft
  have htaken : taken = taken' := by
    dsimp only at hleft hs ht
    omega
  cases htaken
  rfl

def settled (g : G) (left : Nat) (hpos : 0 < left) (hle : left ≤ grades.factor g) : grades.Standing where
  grade := grades.settle left g
  taken := grades.factor (grades.settle left g) - left
  stands := Nat.sub_lt (lt_of_lt_of_le hpos (grades.left_le_settle hle)) hpos

theorem settled_left {g : G} {left : Nat} (hpos : 0 < left) (hle : left ≤ grades.factor g) :
    (settled g left hpos hle).left = left := Nat.sub_sub_self (grades.left_le_settle hle)

-- More damage: what is left shrinks, and nothing stands once nothing is left.
def wear (damage : Nat) : Option grades.Standing :=
  if h : damage < s.left then
    some (settled s.grade (s.left - damage) (Nat.sub_pos_of_lt h)
      (le_trans (Nat.sub_le _ _) (Nat.sub_le _ _)))
  else none

variable (damage : Nat) (damages : List Nat) (t : grades.Standing)

theorem wear_none : s.wear damage = none ↔ s.left ≤ damage := by
  unfold wear
  split
  · rename_i h
    exact ⟨fun hnone => by contradiction, fun hle => absurd h (not_lt.mpr hle)⟩
  · rename_i h
    exact ⟨fun _ => not_lt.mp h, fun _ => rfl⟩

theorem wear_some (h : s.wear damage = some t) :
    damage < s.left ∧ t.left = s.left - damage ∧ t.grade = grades.settle (s.left - damage) s.grade := by
  unfold wear at h
  split at h
  · rename_i hlt
    cases h
    exact ⟨hlt, settled_left _ _, rfl⟩
  · contradiction

theorem wear_lighter (h : s.wear damage = some t) :
    Relation.ReflTransGen grades.Lighter s.grade t.grade := by
  obtain ⟨-, -, hgrade⟩ := s.wear_some damage t h
  rw [hgrade]
  exact grades.settle_lighter _ _

-- Damage taken twice is the sum taken once.
theorem wear_wear (a b : Nat) : (s.wear a).bind (fun t => t.wear b) = s.wear (a + b) := by
  cases ha : s.wear a with
  | none =>
    have hle := (s.wear_none a).mp ha
    exact ((s.wear_none (a + b)).mpr (le_trans hle (Nat.le_add_right a b))).symm
  | some t =>
    obtain ⟨hlt, hleft, hgrade⟩ := s.wear_some a t ha
    rw [Option.bind_some]
    cases hb : t.wear b with
    | none =>
      have hle := (t.wear_none b).mp hb
      exact ((s.wear_none (a + b)).mpr (by omega)).symm
    | some u =>
      obtain ⟨hlt', hleft', hgrade'⟩ := t.wear_some b u hb
      cases hsum : s.wear (a + b) with
      | none =>
        have hle := (s.wear_none (a + b)).mp hsum
        omega
      | some v =>
        obtain ⟨-, hleft'', hgrade''⟩ := s.wear_some (a + b) v hsum
        have hsame : s.left - (a + b) = t.left - b := by omega
        have hdown : t.left - b ≤ s.left - a := by omega
        congr 1
        apply ext
        · rw [hgrade', hgrade'', hgrade, hsame]
          exact grades.settle_settle hdown s.grade
        · omega

-- What stands after a list of hits.
def wearAll (start : Option grades.Standing) (damages : List Nat) : Option grades.Standing :=
  damages.foldl (fun s damage => s.bind (fun s => s.wear damage)) start

theorem wearAll_none : wearAll (none : Option grades.Standing) damages = none := by
  induction damages with
  | nil => rfl
  | cons damage damages ih => exact ih

theorem wearAll_sum : wearAll (some s) (damage :: damages) = s.wear (damage + damages.sum) := by
  induction damages generalizing s damage with
  | nil => rfl
  | cons next damages ih =>
    have hpair : wearAll (some s) (damage :: next :: damages) =
        wearAll (some s) ((damage + next) :: damages) := by
      show wearAll ((s.wear damage).bind fun t => t.wear next) damages = wearAll (s.wear (damage + next)) damages
      rw [s.wear_wear damage next]
    rw [hpair, ih s (damage + next), List.sum_cons, Nat.add_assoc]

theorem wearAll_lighter (start : Option grades.Standing) (t : grades.Standing)
    (h : wearAll start damages = some t) :
    ∃ s, start = some s ∧ Relation.ReflTransGen grades.Lighter s.grade t.grade := by
  induction damages generalizing start with
  | nil => exact ⟨t, h, .refl⟩
  | cons damage damages ih =>
    obtain ⟨next, hnext, hdown⟩ := ih _ h
    obtain ⟨s, hs, hwear⟩ := Option.bind_eq_some_iff.mp hnext
    exact ⟨s, hs, (s.wear_lighter damage next hwear).trans hdown⟩

theorem wear_eq_iff {a b : Nat} (h : a ≤ b) : s.wear a = s.wear b ↔ a = b ∨ s.left ≤ a := by
  constructor
  · intro hsame
    by_contra hother
    rw [not_or, not_le] at hother
    obtain ⟨hne, hlt⟩ := hother
    cases ha : s.wear a with
    | none => exact absurd hlt (not_lt.mpr ((s.wear_none a).mp ha))
    | some t =>
      rw [ha] at hsame
      obtain ⟨-, hleft, -⟩ := s.wear_some a t ha
      obtain ⟨hlt', hleft', -⟩ := s.wear_some b t hsame.symm
      omega
  · rintro (rfl | hle)
    · rfl
    · rw [(s.wear_none a).mpr hle, (s.wear_none b).mpr (le_trans hle h)]

-- Some hits and one hit of at least their sum come to the same when the sums agree, or when the hits
-- alone spend what is left.
theorem wearAll_eq_wear_iff (total : Nat) (hpos : 0 < total) (h : damages.sum ≤ total) :
    wearAll (some s) damages = s.wear total ↔ damages.sum = total ∨ s.left ≤ damages.sum := by
  cases damages with
  | nil =>
    have hleft := s.left_pos
    rw [List.sum_nil]
    refine ⟨fun hsame => ?_, fun hspent => by omega⟩
    obtain ⟨hlt, hrest, -⟩ := s.wear_some total s hsame.symm
    omega
  | cons damage damages =>
    rw [s.wearAll_sum damage damages, ← List.sum_cons]
    exact s.wear_eq_iff h

end Standing

end Grades

end StompyMux.Library
