import StompyMux.Library.Text

-- Texts of decimal digits and the numbers that they write.
namespace StompyMux.Library.Decimal

open Library.Text

def isDigits (text : List Char) : Bool := !text.isEmpty && text.all Char.isDigit

def value (text : List Char) : Nat := Nat.ofDigitChars 10 text 0

theorem isDigits_iff (text : List Char) :
    isDigits text = true ↔ text ≠ [] ∧ ∀ c ∈ text, c.isDigit = true := by
  cases text <;> simp [isDigits]

theorem digitValue_of_isDigit (c : Char) (h : c.isDigit = true) :
    digitValue 10 c = some (c.toNat - 48) := by
  have hrange : 48 ≤ c.toNat ∧ c.toNat ≤ 57 := by
    simp only [Char.isDigit, Bool.and_eq_true, decide_eq_true_eq] at h
    exact ⟨h.1, h.2⟩
  unfold digitValue
  rw [if_pos h, Option.filter_some, if_pos]
  simp only [decide_eq_true_eq]
  omega

theorem le_ofDigitChars (text : List Char) (start : Nat) : start ≤ Nat.ofDigitChars 10 text start := by
  induction text generalizing start with
  | nil => exact Nat.le_of_eq Nat.ofDigitChars_nil.symm
  | cons c text ih =>
      rw [Nat.ofDigitChars_cons]
      have hrest := ih (10 * start + (c.toNat - '0'.toNat))
      omega

-- Reading digit by digit stops at the first number over the limit.
theorem parseDigits_iff (limit : Nat) (text : List Char) (hdigits : ∀ c ∈ text, c.isDigit = true)
    (start : Nat) (hstart : start ≤ limit) (n : Nat) :
    parseDigits 10 limit start text = .ok n ↔ n = Nat.ofDigitChars 10 text start ∧ n ≤ limit := by
  induction text generalizing start with
  | nil =>
      simp only [parseDigits, Except.ok.injEq, Nat.ofDigitChars_nil]
      constructor
      · rintro rfl
        exact ⟨rfl, hstart⟩
      · rintro ⟨rfl, -⟩
        rfl
  | cons c text ih =>
      have hrest := fun d hd => hdigits d (List.mem_cons_of_mem c hd)
      have hnext : 10 * start + (c.toNat - '0'.toNat) = start * 10 + (c.toNat - 48) := by
        rw [Nat.mul_comm]
        rfl
      rw [parseDigits, digitValue_of_isDigit c (hdigits c List.mem_cons_self), Nat.ofDigitChars_cons,
        hnext]
      dsimp only
      by_cases hle : start * 10 + (c.toNat - 48) ≤ limit
      · rw [if_pos hle]
        exact ih hrest _ hle
      · rw [if_neg hle]
        have hmono := le_ofDigitChars text (start * 10 + (c.toNat - 48))
        constructor
        · intro h
          contradiction
        · rintro ⟨rfl, hn⟩
          omega

theorem parseUnsigned_iff (limit : Nat) {text : List Char} (h : isDigits text = true) (n : Nat) :
    parseUnsigned 10 limit text = .ok n ↔ n = value text ∧ n ≤ limit := by
  obtain ⟨hne, hdigits⟩ := (isDigits_iff text).mp h
  have hread : parseUnsigned 10 limit text = parseDigits 10 limit 0 text := by
    cases text with
    | nil => contradiction
    | cons c text =>
        have hplus : c ≠ '+' := by
          rintro rfl
          exact absurd (hdigits '+' List.mem_cons_self) (by decide)
        unfold parseUnsigned
        split
        · contradiction
        next heq => exact absurd (List.cons.inj heq).1 hplus
        next heq => exact absurd (List.cons.inj heq).1 hplus
        · rfl
  rw [hread]
  exact parseDigits_iff limit text hdigits 0 (Nat.zero_le _) n

end StompyMux.Library.Decimal
