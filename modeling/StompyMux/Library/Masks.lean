import Mathlib.Data.Nat.Bitwise

-- Sets of numbers below 64 as the bits of a word.
namespace StompyMux.Library.Masks

def bit (v : Nat) : UInt64 := 1 <<< UInt64.ofNat v

def holds (mask : UInt64) (v : Nat) : Bool := mask &&& bit v != 0

-- The numbers of a list that pass a test are put in.
def insertAll (mask : UInt64) (test : Nat → Bool) (values : List Nat) : UInt64 :=
  values.foldl (fun mask v => if test v then mask ||| bit v else mask) mask

theorem toNat_bit {v : Nat} (hv : v < 64) : (bit v).toNat = 2 ^ v := by
  have hlt : 2 ^ v < 2 ^ 64 := Nat.pow_lt_pow_right (by decide) hv
  have hshift : (UInt64.ofNat v).toNat = v :=
    UInt64.toNat_ofNat_of_lt (by simp only [UInt64.size]; omega)
  unfold bit
  rw [UInt64.toNat_shiftLeft, hshift, Nat.mod_eq_of_lt hv, UInt64.toNat_one, Nat.one_shiftLeft,
    Nat.mod_eq_of_lt hlt]

theorem holds_eq_testBit (mask : UInt64) {v : Nat} (hv : v < 64) :
    holds mask v = mask.toNat.testBit v := by
  have hand : (mask &&& bit v).toNat = (mask.toNat.testBit v).toNat * 2 ^ v := by
    rw [UInt64.toNat_and, toNat_bit hv, Nat.and_two_pow]
  have hpos := Nat.two_pow_pos v
  unfold holds
  cases hbit : mask.toNat.testBit v with
  | true =>
      rw [hbit, Bool.toNat_true, Nat.one_mul] at hand
      rw [bne_iff_ne]
      intro hzero
      rw [hzero] at hand
      simp at hand
      omega
  | false =>
      rw [hbit, Bool.toNat_false, Nat.zero_mul] at hand
      rw [bne_eq_false_iff_eq]
      exact UInt64.toNat_inj.mp hand

theorem holds_zero (v : Nat) (hv : v < 64) : holds 0 v = false := by
  rw [holds_eq_testBit 0 hv]
  exact Nat.zero_testBit v

theorem holds_or_bit (mask : UInt64) {v w : Nat} (hv : v < 64) (hw : w < 64) :
    holds (mask ||| bit w) v = (holds mask v || decide (v = w)) := by
  rw [holds_eq_testBit _ hv, holds_eq_testBit mask hv, UInt64.toNat_or, Nat.testBit_or,
    toNat_bit hw, Nat.testBit_two_pow]
  simp [eq_comm]

theorem holds_insertAll (test : Nat → Bool) (values : List Nat) (hvalues : ∀ w ∈ values, w < 64)
    (mask : UInt64) (v : Nat) (hv : v < 64) :
    holds (insertAll mask test values) v = true ↔
      holds mask v = true ∨ (v ∈ values ∧ test v = true) := by
  induction values generalizing mask with
  | nil => simp [insertAll]
  | cons w values ih =>
      have hw := hvalues w List.mem_cons_self
      have hstep : insertAll mask test (w :: values) =
          insertAll (if test w then mask ||| bit w else mask) test values := rfl
      rw [hstep, ih (fun x hx => hvalues x (List.mem_cons_of_mem _ hx))]
      by_cases htest : test w = true
      · rw [if_pos htest, holds_or_bit mask hv hw, Bool.or_eq_true, decide_eq_true_eq,
          List.mem_cons]
        constructor
        · rintro ((hold | rfl) | ⟨hmem, hpass⟩)
          · exact Or.inl hold
          · exact Or.inr ⟨Or.inl rfl, htest⟩
          · exact Or.inr ⟨Or.inr hmem, hpass⟩
        · rintro (hold | ⟨heq | hmem, hpass⟩)
          · exact Or.inl (Or.inl hold)
          · exact Or.inl (Or.inr heq)
          · exact Or.inr ⟨hmem, hpass⟩
      · rw [if_neg htest, List.mem_cons]
        constructor
        · rintro (hold | ⟨hmem, hpass⟩)
          · exact Or.inl hold
          · exact Or.inr ⟨Or.inr hmem, hpass⟩
        · rintro (hold | ⟨heq | hmem, hpass⟩)
          · exact Or.inl hold
          · rw [heq] at hpass
            exact absurd hpass htest
          · exact Or.inr ⟨hmem, hpass⟩

end StompyMux.Library.Masks
