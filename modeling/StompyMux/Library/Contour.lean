import Mathlib.Algebra.Order.Ring.Int
import Mathlib.Data.Fintype.Basic
import Mathlib.Logic.Relation
import Mathlib.Tactic.FinCases

-- The sides of a set of cells of the hexagonal grid, in axial coordinates, and a hand that follows them.
namespace StompyMux.Library.Contour

abbrev Cell := Int × Int

scoped instance six : NeZero 6 := ⟨by decide⟩

-- Clockwise from the north.
def way : Fin 6 → Int × Int
  | 0 => (0, -1)
  | 1 => (1, -1)
  | 2 => (1, 0)
  | 3 => (0, 1)
  | 4 => (-1, 1)
  | 5 => (-1, 0)

def go (cell : Cell) (d : Fin 6) : Cell := (cell.1 + (way d).1, cell.2 + (way d).2)

variable (cell : Cell) (d : Fin 6)

theorem go_of_sum (d e f : Fin 6)
    (h : ((way d).1 + (way e).1, (way d).2 + (way e).2) = way f) : go (go cell d) e = go cell f := by
  unfold go
  rw [← h]
  ext <;> dsimp only <;> omega

theorem go_turn : go (go cell d) (d + 2) = go cell (d + 1) :=
  go_of_sum cell d (d + 2) (d + 1) (by revert d; decide)

theorem go_side : go (go cell (d + 1)) (d + 5) = go cell d :=
  go_of_sum cell (d + 1) (d + 5) d (by revert d; decide)

theorem go_back : go (go cell d) (d + 3) = cell := by
  have h : ((way d).1 + (way (d + 3)).1, (way d).2 + (way (d + 3)).2) = (0, 0) := by revert d; decide
  obtain ⟨hx, hy⟩ := Prod.mk.inj h
  unfold go
  ext <;> dsimp only <;> omega

theorem add_three_three : ∀ d : Fin 6, d + 3 + 3 = d := by decide

theorem add_one_three : ∀ d : Fin 6, d + 1 + 3 = d + 4 := by decide

theorem add_one_four : ∀ d : Fin 6, d + 1 + 4 = d + 5 := by decide

theorem add_four_one : ∀ d : Fin 6, d + 4 + 1 = d + 5 := by decide

theorem add_one_inj : ∀ d e : Fin 6, d + 1 = e + 1 → d = e := by decide

theorem eq_add_three : ∀ d e : Fin 6, d + 1 = e + 4 → d = e + 3 := by decide

theorem eq_add_one : ∀ d e : Fin 6, d + 5 = e + 4 → e = d + 1 := by decide

section Sides

variable (inside : Cell → Prop)

def Side (cell : Cell) (d : Fin 6) : Prop := inside cell ∧ ¬ inside (go cell d)

-- Sides that are followed on around every corner, both ways.
structure Closed (followed : Cell → Fin 6 → Prop) : Prop where
  side : ∀ cell d, followed cell d → Side inside cell d
  corner : ∀ cell d, Side inside cell d → Side inside cell (d + 1) → (followed cell d ↔ followed cell (d + 1))
  bend : ∀ cell d, Side inside cell d → inside (go cell (d + 1)) →
    (followed cell d ↔ followed (go cell (d + 1)) (d + 5))

-- Whether a followed side lies between a cell and its neighbor.
def Across (followed : Cell → Fin 6 → Prop) (cell : Cell) (d : Fin 6) : Prop :=
  followed cell d ∨ followed (go cell d) (d + 3)

variable {inside} (followed : Cell → Fin 6 → Prop)

theorem across_symm (cell : Cell) (d : Fin 6) : Across followed (go cell d) (d + 3) ↔ Across followed cell d := by
  unfold Across
  rw [go_back, add_three_three]
  exact or_comm

theorem Closed.not_across (h : Closed inside followed) (cell : Cell) (d : Fin 6)
    (hsame : inside cell ↔ inside (go cell d)) : ¬ Across followed cell d := by
  rintro (hside | hside)
  · have hboth := h.side _ _ hside
    exact hboth.2 (hsame.mp hboth.1)
  · have hboth := h.side _ _ hside
    rw [Side, go_back] at hboth
    exact hboth.2 (hsame.mpr hboth.1)

theorem Closed.across_inside (h : Closed inside followed) (cell : Cell) (d : Fin 6) (hin : inside cell) :
    Across followed cell d ↔ followed cell d := by
  refine ⟨fun hacross => ?_, .inl⟩
  rcases hacross with hside | hside
  · exact hside
  · have hboth := h.side _ _ hside
    rw [Side, go_back] at hboth
    exact absurd hin hboth.2

theorem Closed.triangle_of_inside (h : Closed inside followed) (cell : Cell) (d : Fin 6) (hin : inside cell) :
    Across followed (go cell d) (d + 2) ↔ ¬ (Across followed cell d ↔ Across followed cell (d + 1)) := by
  have hfive : d + 2 + 3 = d + 5 := by revert d; decide
  have hthree : d + 2 + 1 = d + 3 := by revert d; decide
  have hseven : d + 2 + 5 = d + 1 := by revert d; decide
  have hturn := across_symm followed (go cell d) (d + 2)
  rw [go_turn, hfive] at hturn
  by_cases hv : inside (go cell d) <;> by_cases hw : inside (go cell (d + 1))
  · have hfirst := h.not_across followed cell d (iff_of_true hin hv)
    have hsecond := h.not_across followed cell (d + 1) (iff_of_true hin hw)
    have hthird := h.not_across followed (go cell d) (d + 2) (by rw [go_turn]; exact iff_of_true hv hw)
    tauto
  · have hfirst := h.not_across followed cell d (iff_of_true hin hv)
    have hsecond := h.across_inside followed cell (d + 1) hin
    have hthird := h.across_inside followed (go cell d) (d + 2) hv
    have hbend := h.bend (go cell d) (d + 2) ⟨hv, by rw [go_turn]; exact hw⟩ (by rw [hthree, go_back]; exact hin)
    rw [hthree, go_back, hseven] at hbend
    tauto
  · have hfirst := h.across_inside followed cell d hin
    have hsecond := h.not_across followed cell (d + 1) (iff_of_true hin hw)
    have hthird := h.across_inside followed (go cell (d + 1)) (d + 5) hw
    have hbend := h.bend cell d ⟨hin, hv⟩ hw
    rw [← hturn, hthird, ← hbend, hfirst]
    simp [hsecond]
  · have hfirst := h.across_inside followed cell d hin
    have hsecond := h.across_inside followed cell (d + 1) hin
    have hthird := h.not_across followed (go cell d) (d + 2) (by rw [go_turn]; exact iff_of_false hv hw)
    have hcorner := h.corner cell d ⟨hin, hv⟩ ⟨hin, hw⟩
    tauto

theorem even_rotate {p q r : Prop} (h : r ↔ ¬ (p ↔ q)) : p ↔ ¬ (q ↔ r) := by
  by_cases hp : p <;> by_cases hq : q <;> simp [hp, hq, h]

-- Where three cells meet, an even number of the sides between them is followed.
theorem Closed.triangle (h : Closed inside followed) (cell : Cell) (d : Fin 6) :
    Across followed (go cell d) (d + 2) ↔ ¬ (Across followed cell d ↔ Across followed cell (d + 1)) := by
  have hthree : d + 2 + 1 = d + 3 := by revert d; decide
  have hfour : d + 2 + 2 = d + 1 + 3 := by revert d; decide
  have hsix : d + 4 + 1 = d + 2 + 3 := by revert d; decide
  have hseven : d + 4 + 2 = d := by revert d; decide
  have hback : go (go cell (d + 1)) (d + 4) = cell := by
    rw [← add_one_three, go_back]
  have hfirst := across_symm followed cell d
  have hsecond := across_symm followed cell (d + 1)
  have hthird := across_symm followed (go cell d) (d + 2)
  rw [go_turn] at hthird
  by_cases hu : inside cell
  · exact h.triangle_of_inside followed cell d hu
  by_cases hv : inside (go cell d)
  · -- The same corner, seen from the second cell.
    have hcorner := h.triangle_of_inside followed (go cell d) (d + 2) hv
    rw [hthree, go_turn, hfour, hsecond, hfirst] at hcorner
    exact even_rotate hcorner
  by_cases hw : inside (go cell (d + 1))
  · have hcorner := h.triangle_of_inside followed (go cell (d + 1)) (d + 4) hw
    rw [hback, hsix, hseven, hthird, ← add_one_three, hsecond] at hcorner
    exact even_rotate (even_rotate hcorner)
  · have hone := h.not_across followed cell d (iff_of_false hu hv)
    have htwo := h.not_across followed cell (d + 1) (iff_of_false hu hw)
    have hlast := h.not_across followed (go cell d) (d + 2) (by rw [go_turn]; exact iff_of_false hv hw)
    tauto

-- The number of followed sides met on the way south along a column, from a row that is north of all
-- that is inside, taken as odd or even.
def odd (north x : Int) : Nat → Prop
  | 0 => False
  | n + 1 => ¬ (odd north x n ↔ Across followed (x, north + n) 3)

def Enclosed (north : Int) (cell : Cell) : Prop := odd followed north cell.1 (cell.2 - north).toNat

theorem not_enclosed_north (north : Int) (cell : Cell) (h : cell.2 ≤ north) : ¬ Enclosed followed north cell := by
  have hzero : (cell.2 - north).toNat = 0 := by omega
  unfold Enclosed
  rw [hzero]
  exact id

theorem xor_south {p q r : Prop} (h : r ↔ ¬ (p ↔ q)) : q ↔ ¬ (p ↔ r) := by
  by_cases hp : p <;> by_cases hq : q <;> simp [hp, hq, h]

theorem Closed.enclosed_south (h : Closed inside followed) (north : Int) (hnorth : ∀ cell, inside cell → north < cell.2)
    (cell : Cell) : Across followed cell 3 ↔ ¬ (Enclosed followed north cell ↔ Enclosed followed north (go cell 3)) := by
  obtain ⟨x, y⟩ := cell
  have hsouth : go (x, y) 3 = (x, y + 1) := by
    unfold go way
    ext <;> dsimp only
    omega
  rw [hsouth]
  by_cases hy : y < north
  · have hnot := h.not_across followed (x, y) 3 (iff_of_false
      (fun hin => by have hin' := hnorth _ hin; dsimp only at hin'; omega)
      (fun hin => by rw [hsouth] at hin; have hin' := hnorth _ hin; dsimp only at hin'; omega))
    have hfirst := not_enclosed_north followed north (x, y) (by dsimp only; omega)
    have hsecond := not_enclosed_north followed north (x, y + 1) (by dsimp only; omega)
    simp [hnot, hfirst, hsecond]
  · obtain ⟨n, hn⟩ : ∃ n : Nat, y = north + n := ⟨(y - north).toNat, by omega⟩
    have hfirst : (y - north).toNat = n := by omega
    have hsecond : (y + 1 - north).toNat = n + 1 := by omega
    refine xor_south ?_
    unfold Enclosed
    rw [hfirst, hsecond, hn]
    rfl

-- Three differences around a corner: of two that are told by a colour the third is too.
theorem xor_triangle {p q r a b c : Prop} (hpq : a ↔ ¬ (p ↔ q)) (hpr : b ↔ ¬ (p ↔ r)) (h : c ↔ ¬ (a ↔ b)) :
    c ↔ ¬ (q ↔ r) := by
  by_cases hp : p <;> by_cases hq : q <;> by_cases hr : r <;> simp_all

theorem Closed.enclosed_slope (h : Closed inside followed) {north : Int} (hnorth : ∀ cell, inside cell → north < cell.2)
    {cell : Cell}
    (heast : Across followed cell 2 ↔ ¬ (Enclosed followed north cell ↔ Enclosed followed north (go cell 2))) :
    Across followed (go cell 3) 1 ↔ ¬ (Enclosed followed north (go cell 3) ↔ Enclosed followed north (go cell 2)) := by
  have hsouth := h.enclosed_south followed north hnorth cell
  have hcorner := h.triangle followed cell 2
  have hsymm := across_symm followed (go cell 2) 4
  rw [go_of_sum cell 2 4 3 rfl] at hsymm
  have hslope : Across followed (go cell 3) 1 ↔ Across followed (go cell 2) 4 := hsymm
  have hthird := xor_triangle heast hsouth hcorner
  exact hslope.trans (hthird.trans (not_congr iff_comm))

theorem Closed.enclosed_east (h : Closed inside followed) (north : Int) (hnorth : ∀ cell, inside cell → north < cell.2)
    (cell : Cell) :
    Across followed cell 2 ↔ ¬ (Enclosed followed north cell ↔ Enclosed followed north (go cell 2)) := by
  have hlevel : ∀ cell : Cell, (go cell 2).2 = cell.2 := fun cell => add_zero _
  have hrows : ∀ n : Nat, ∀ cell : Cell, cell.2 ≤ north + n →
      (Across followed cell 2 ↔ ¬ (Enclosed followed north cell ↔ Enclosed followed north (go cell 2))) := by
    intro n
    induction n with
    | zero =>
      intro cell hrow
      have hout : ¬ inside cell := fun hin => by have hin' := hnorth _ hin; omega
      have hout' : ¬ inside (go cell 2) := fun hin => by have hin' := hnorth _ hin; rw [hlevel] at hin'; omega
      have hnot := h.not_across followed cell 2 (iff_of_false hout hout')
      have hfirst := not_enclosed_north followed north cell (by omega)
      have hsecond := not_enclosed_north followed north (go cell 2) (by rw [hlevel]; omega)
      simp [hnot, hfirst, hsecond]
    | succ n ih =>
      intro cell hrow
      -- The row above tells the slope between the rows, and the slope tells this row.
      have habove := ih (go cell 0) (by unfold go way; dsimp only; omega)
      have hslope := h.enclosed_slope followed hnorth habove
      have hback : go (go cell 0) 3 = cell := go_back cell 0
      have hside : go (go cell 0) 2 = go cell 1 := go_turn cell 0
      rw [hback, hside] at hslope
      have hsouth := h.enclosed_south followed north hnorth (go cell 1)
      have hcorner := h.triangle followed cell 1
      have hturn : go (go cell 1) 3 = go cell 2 := go_turn cell 1
      rw [hturn] at hsouth
      have hthird : Across followed (go cell 1) 3 ↔ ¬ (Across followed cell 1 ↔ Across followed cell 2) := hcorner
      exact xor_triangle (hslope.trans (not_congr iff_comm)) hsouth (xor_south hthird)
  exact hrows (cell.2 - north).toNat cell (by omega)

-- A followed side lies between cells that are enclosed and not, and no other side does.
theorem Closed.across_iff (h : Closed inside followed) (north : Int) (hnorth : ∀ cell, inside cell → north < cell.2)
    (cell : Cell) (d : Fin 6) :
    Across followed cell d ↔ ¬ (Enclosed followed north cell ↔ Enclosed followed north (go cell d)) := by
  have hsouth := h.enclosed_south followed north hnorth
  have heast := h.enclosed_east followed north hnorth
  have hslope : ∀ cell, Across followed cell 1 ↔ ¬ (Enclosed followed north cell ↔ Enclosed followed north (go cell 1)) := by
    intro cell
    have hrow := h.enclosed_slope followed hnorth (heast (go cell 0))
    have hback : go (go cell 0) 3 = cell := go_back cell 0
    have hside : go (go cell 0) 2 = go cell 1 := go_turn cell 0
    rw [hback, hside] at hrow
    exact hrow
  have hopposite : ∀ d, (∀ cell, Across followed cell d ↔
      ¬ (Enclosed followed north cell ↔ Enclosed followed north (go cell d))) →
      ∀ cell, Across followed cell (d + 3) ↔
        ¬ (Enclosed followed north cell ↔ Enclosed followed north (go cell (d + 3))) := by
    intro d hd cell
    have hthere := hd (go cell (d + 3))
    have hback : go (go cell (d + 3)) d = cell := by
      have hturn := go_back cell (d + 3)
      rw [add_three_three] at hturn
      exact hturn
    have hsymm := across_symm followed (go cell (d + 3)) d
    rw [hback] at hthere hsymm
    exact hsymm.trans (hthere.trans (not_congr iff_comm))
  fin_cases d
  · exact hopposite 3 hsouth cell
  · exact hslope cell
  · exact heast cell
  · exact hsouth cell
  · exact hopposite 1 hslope cell
  · exact hopposite 2 heast cell

end Sides

-- So many directions on, clockwise.
def turned (d : Fin 6) (turn : Nat) : Fin 6 := Fin.ofNat 6 (d.val + turn)

theorem turned_zero : turned d 0 = d := by revert d; decide

theorem turned_succ (turn : Nat) : turned d (turn + 1) = turned d turn + 1 := by
  unfold turned
  ext
  simp only [Fin.val_ofNat, Fin.val_add, Fin.val_one]
  omega

section Hand

variable (inside : Cell → Prop)

-- The hand turns from a side to the first cell inside and keeps what it touched last.
def Steps (cell : Cell) (d : Fin 6) (cell' : Cell) (d' : Fin 6) : Prop :=
  ∃ turn, inside (go cell (turned d turn)) ∧ (∀ k < turn, ¬ inside (go cell (turned d k))) ∧
    cell' = go cell (turned d turn) ∧ d' = turned d turn + 4

variable {inside} in
theorem Steps.side (cell : Cell) (d : Fin 6) (cell' : Cell) (d' : Fin 6) (h : Steps inside cell d cell' d')
    (hside : Side inside cell d) : Side inside cell' d' := by
  obtain ⟨turn, hin, hout, rfl, rfl⟩ := h
  cases turn with
  | zero =>
    rw [turned_zero] at hin
    exact absurd hin hside.2
  | succ turn =>
    refine ⟨hin, ?_⟩
    rw [turned_succ, add_one_four, go_side]
    exact hout turn (Nat.lt_succ_self turn)

variable {inside} in
theorem Steps.unique (cell : Cell) (d : Fin 6) (cell' cell'' : Cell) (d' d'' : Fin 6)
    (h : Steps inside cell d cell' d') (h' : Steps inside cell d cell'' d'') : cell'' = cell' ∧ d'' = d' := by
  obtain ⟨turn, hin, hout, rfl, rfl⟩ := h
  obtain ⟨turn', hin', hout', rfl, rfl⟩ := h'
  have hsame : turn' = turn := by
    rcases Nat.lt_trichotomy turn' turn with hlt | heq | hgt
    · exact absurd hin' (hout turn' hlt)
    · exact heq
    · exact absurd hin (hout' turn hgt)
  rw [hsame]
  exact ⟨rfl, rfl⟩

variable {inside} in
theorem Steps.neighbors (cell : Cell) (d : Fin 6) (cell' : Cell) (d' : Fin 6) (h : Steps inside cell d cell' d') :
    (∃ e, cell' = go cell e) ∧ ∃ e, cell = go cell' e := by
  obtain ⟨turn, -, -, rfl, -⟩ := h
  exact ⟨⟨_, rfl⟩, _, (go_back cell _).symm⟩

theorem turned_covers : ∀ b d : Fin 6, ∃ turn : Fin 6, turned b (turn.val + 1) = d := by decide

-- The states of a hand that has gone all the way round.
structure Rounded (visited : Cell → Fin 6 → Prop) : Prop where
  side : ∀ cell d, visited cell d → Side inside cell d
  next : ∀ cell d, visited cell d → ∀ cell' d', Steps inside cell d cell' d' → visited cell' d'
  previous : ∀ cell d, visited cell d → ∃ cell' d', visited cell' d' ∧ Steps inside cell' d' cell d

def Swept (visited : Cell → Fin 6 → Prop) (cell : Cell) (d : Fin 6) : Prop :=
  ∃ b turn, visited cell b ∧ d = turned b turn ∧ ∀ k ≤ turn, ¬ inside (go cell (turned b k))

variable {inside} (visited : Cell → Fin 6 → Prop)

theorem swept_of_visited {cell : Cell} {d : Fin 6} (hside : Side inside cell d) (h : visited cell d) :
    Swept inside visited cell d := by
  refine ⟨d, 0, h, (turned_zero d).symm, fun k hk => ?_⟩
  rw [Nat.le_zero.mp hk, turned_zero]
  exact hside.2

-- A side that is reached with the cell behind it inside is where a sweep began.
theorem visited_of_swept {cell : Cell} {d : Fin 6} (h : Swept inside visited cell (d + 1)) (hin : inside (go cell d)) :
    visited cell (d + 1) := by
  obtain ⟨b, turn, hvisited, hd, hout⟩ := h
  cases turn with
  | zero => rw [hd, turned_zero]; exact hvisited
  | succ turn =>
    rw [turned_succ] at hd
    have hsame := add_one_inj d (turned b turn) hd
    exact absurd (hsame ▸ hin) (hout turn (Nat.le_succ turn))

theorem Rounded.corner (h : Rounded inside visited) (cell : Cell) (d : Fin 6) (hside : Side inside cell d)
    (hside' : Side inside cell (d + 1)) : Swept inside visited cell d ↔ Swept inside visited cell (d + 1) := by
  constructor
  · rintro ⟨b, turn, hvisited, rfl, hout⟩
    refine ⟨b, turn + 1, hvisited, (turned_succ b turn).symm, fun k hk => ?_⟩
    by_cases hlast : k = turn + 1
    · rw [hlast, turned_succ]
      exact hside'.2
    · exact hout k (by omega)
  · rintro ⟨b, turn, hvisited, hd, hout⟩
    cases turn with
    | zero =>
      -- The hand came to this side from the cell behind the other.
      rw [turned_zero] at hd
      obtain ⟨before, d', hbefore, turn, hin, -, hcell, hback⟩ := h.previous cell b hvisited
      have hhere : go cell d = before := by
        rw [← hd] at hback
        rw [hcell, eq_add_three d _ hback, go_back]
      exact absurd (hhere ▸ (h.side before d' hbefore).1) hside.2
    | succ turn =>
      rw [turned_succ] at hd
      exact ⟨b, turn, hvisited, add_one_inj d _ hd, fun k hk => hout k (by omega)⟩

theorem Rounded.bend (h : Rounded inside visited) (cell : Cell) (d : Fin 6) (hside : Side inside cell d)
    (hin : inside (go cell (d + 1))) :
    Swept inside visited cell d ↔ Swept inside visited (go cell (d + 1)) (d + 5) := by
  have hbehind : go (go cell (d + 1)) (d + 4) = cell := by rw [← add_one_three, go_back]
  constructor
  · rintro ⟨b, turn, hvisited, hd, hout⟩
    have hnext : Steps inside cell b (go cell (d + 1)) (d + 5) := by
      refine ⟨turn + 1, ?_, fun k hk => hout k (by omega), ?_, ?_⟩
      · rw [turned_succ, ← hd]
        exact hin
      · rw [turned_succ, ← hd]
      · rw [turned_succ, ← hd, add_one_four]
    have hthere := h.next cell b hvisited _ _ hnext
    exact swept_of_visited visited (h.side _ _ hthere) hthere
  · intro hswept
    rw [← add_four_one] at hswept
    have hthere := visited_of_swept visited hswept (by rw [hbehind]; exact hside.1)
    obtain ⟨before, d', hbefore, turn, -, hout, hcell, hback⟩ := h.previous _ _ hthere
    rw [add_four_one] at hback
    have hturned := eq_add_one d _ hback
    have hsame : before = cell := by
      have hfirst := go_back before (d + 1)
      rw [← hturned, ← hcell, hturned, add_one_three] at hfirst
      exact hfirst.symm.trans hbehind
    subst hsame
    cases turn with
    | zero =>
      rw [turned_zero] at hturned
      exact absurd (hturned ▸ hin) (h.side _ _ hbefore).2
    | succ turn =>
      rw [turned_succ] at hturned
      exact ⟨d', turn, hbefore, (add_one_inj _ d hturned).symm, fun k hk => hout k (by omega)⟩

theorem Rounded.closed (h : Rounded inside visited) : Closed inside (Swept inside visited) := by
  refine ⟨?_, h.corner visited, h.bend visited⟩
  rintro cell d ⟨b, turn, hvisited, rfl, hout⟩
  exact ⟨(h.side cell b hvisited).1, hout turn (Nat.le_refl turn)⟩

-- Cells that are connected, around cells from which the north can be reached: the hand comes to every side.
theorem Rounded.visits (h : Rounded inside visited) (cell : Cell) (d : Fin 6) (hsome : visited cell d) (north : Int)
    (hnorth : ∀ cell, inside cell → north < cell.2)
    (hconnected : ∀ a b, inside a → inside b →
      Relation.ReflTransGen (fun u v => (inside u ∧ inside v) ∧ ∃ e, v = go u e) a b)
    (hopen : ∀ a, ¬ inside a → ∃ b, b.2 ≤ north ∧
      Relation.ReflTransGen (fun u v => (¬ inside u ∧ ¬ inside v) ∧ ∃ e, v = go u e) a b)
    (other : Cell) (e : Fin 6) (hside : Side inside other e) : ∃ b, visited other b := by
  have hclosed := h.closed visited
  have hacross := hclosed.across_iff (Swept inside visited) north hnorth
  have hkeep : ∀ u v, (inside u ↔ inside v) → (∃ e, v = go u e) →
      (Enclosed (Swept inside visited) north u ↔ Enclosed (Swept inside visited) north v) := by
    rintro u v hsame ⟨e, rfl⟩
    have hnot := hclosed.not_across (Swept inside visited) u e hsame
    rw [hacross] at hnot
    exact not_not.mp hnot
  have hout : ∀ a, ¬ inside a → ¬ Enclosed (Swept inside visited) north a := by
    intro a ha
    obtain ⟨b, hb, hway⟩ := hopen a ha
    have hsame : Enclosed (Swept inside visited) north a ↔ Enclosed (Swept inside visited) north b := by
      clear hb
      induction hway with
      | refl => rfl
      | tail _ hstep ih => exact ih.trans (hkeep _ _ (iff_of_false hstep.1.1 hstep.1.2) hstep.2)
    rw [hsame]
    exact not_enclosed_north _ north b hb
  have hfirst := h.side cell d hsome
  have hin : ∀ a, inside a → Enclosed (Swept inside visited) north a := by
    intro a ha
    have hstart : Enclosed (Swept inside visited) north cell := by
      have hdiffer := (hacross cell d).mp (.inl (swept_of_visited visited hfirst hsome))
      by_contra hnot
      exact hdiffer (iff_of_false hnot (hout _ hfirst.2))
    have hway := hconnected cell a hfirst.1 ha
    induction hway with
    | refl => exact hstart
    | tail _ hstep ih => exact (hkeep _ _ (iff_of_true hstep.1.1 hstep.1.2) hstep.2).mp (ih hstep.1.1)
  have hdiffer : Across (Swept inside visited) other e := by
    rw [hacross]
    exact fun hsame => hout _ hside.2 (hsame.mp (hin other hside.1))
  obtain ⟨b, -, hvisited, -⟩ := (hclosed.across_inside (Swept inside visited) other e hside.1).mp hdiffer
  exact ⟨b, hvisited⟩

end Hand

end StompyMux.Library.Contour
