import StompyMux.Library.Decimal
import StompyMux.Library.Fallible
import StompyMux.Library.Masks
import StompyMux.Lua.Schedules

-- The five-field grammar of schedules, compiled into the masks of their fields.
namespace StompyMux.Lua

open Library Library.Decimal Library.Fallible Library.Text

def EXPRESSION_LIMIT : Nat := 256

def parseU64 (source : List Char) : Except Error Nat :=
  match parseUnsigned 10 (2 ^ 64 - 1) source with
  | .ok value => .ok value
  | .error e => .error [String.ofList e.message]

-- Unsigned decimal digits in the range of signed 64-bit numbers.
def number (source : List Char) : Except Error Nat := do
  ensure (isDigits source) "expected decimal number"
  let value ← withContext "number overflow" (parseU64 source)
  ensure (value ≤ 2 ^ 63 - 1) "number overflow"
  pure value

namespace Field

-- A star is the whole range, and a lone number a range of one.
def span (range : List Char) (minimum maximum : Nat) : Except Error (Nat × Nat) :=
  if range = ['*'] then .ok (minimum, maximum)
  else
    match splitOnce '-' range with
    | some (first, last) => do
        let first ← number first
        let last ← number last
        pure (first, last)
    | none => do
        let value ← number range
        pure (value, value)

def stepOf (part : List Char) : Except Error (List Char × Nat) :=
  match splitOnce '/' part with
  | some (range, step) => (number step).map (fun step => (range, step))
  | none => .ok (part, 1)

def addPart (minimum maximum : Nat) (mask : UInt64) (part : List Char) : Except Error UInt64 := do
  let (range, step) ← stepOf part
  ensure (0 < step) "step must be positive"
  let (first, last) ← span range minimum maximum
  ensure (minimum ≤ first && last ≤ maximum && first ≤ last)
    s!"range must be within {minimum}..{maximum}"
  pure (Masks.insertAll mask (fun value => (value - first) % step = 0)
    (List.range' first (last + 1 - first)))

-- Every element is checked, even when an earlier one already matches.
def parse (source : List Char) (minimum maximum : Nat) : Except Error Field := do
  let mask ← (source.splitOn ',').foldlM (addPart minimum maximum) 0
  pure ⟨mask, source = ['*']⟩

end Field

def isBlank (c : Char) : Bool := c = ' ' || c = '\t'

def RANGES : List (Nat × Nat) := [(0, 59), (0, 23), (1, 31), (1, 12), (0, 6)]

def words (source : List Char) : List (List Char) :=
  (source.splitOnP isBlank).filter (fun word => !word.isEmpty)

def Cron.parse (source : String) : Except Error Cron := do
  ensure (utf8Len source.toList < EXPRESSION_LIMIT)
    s!"cron expression must be shorter than {EXPRESSION_LIMIT} bytes"
  let fields := words source.toList
  ensure (fields.length = 5) "cron requires five fields"
  let parsed ← (fields.zip RANGES).zipIdx.mapM (fun ((text, range), index) =>
    withContext s!"cron field {index + 1}" (Field.parse text range.1 range.2))
  match parsed with
  | [minute, hour, day, month, weekday] => pure ⟨source, minute, hour, day, month, weekday⟩
  | _ => .error ["five fields"]

section Grammar

def Numeral (text : List Char) (n : Nat) : Prop :=
  (text ≠ [] ∧ ∀ c ∈ text, c.isDigit = true) ∧ value text = n

variable (minimum maximum : Nat)

inductive Span : List Char → Nat → Nat → Prop
  | star : Span ['*'] minimum maximum
  | one (text : List Char) (n : Nat) (h : Numeral text n) (hlow : minimum ≤ n) (hhigh : n ≤ maximum) :
      Span text n n
  | range (text text' : List Char) (a b : Nat) (ha : Numeral text a) (hb : Numeral text' b)
      (hlow : minimum ≤ a) (horder : a ≤ b) (hhigh : b ≤ maximum) : Span (text ++ '-' :: text') a b

-- An element of a field and the numbers that it denotes.
inductive Element : List Char → Set Nat → Prop
  | plain (text : List Char) (a b : Nat) (h : Span minimum maximum text a b) :
      Element text {v | a ≤ v ∧ v ≤ b}
  | stepped (text digits : List Char) (a b step : Nat) (h : Span minimum maximum text a b)
      (hstep : Numeral digits step) (hpos : 0 < step) (hmax : step ≤ 2 ^ 63 - 1) :
      Element (text ++ '/' :: digits) {v | a ≤ v ∧ v ≤ b ∧ step ∣ v - a}

-- Elements joined by commas denote what any of them does.
def Denotes (text : List Char) (numbers : Set Nat) : Prop :=
  ∃ (parts : List (List Char)) (sets : List (Set Nat)), parts ≠ [] ∧
    text = List.intercalate [','] parts ∧ List.Forall₂ (Element minimum maximum) parts sets ∧
    numbers = {v | ∃ set ∈ sets, v ∈ set}

end Grammar

def Blank (text : List Char) : Prop := ∀ c ∈ text, isBlank c = true

def Solid (word : List Char) : Prop := word ≠ [] ∧ ∀ c ∈ word, isBlank c = false

inductive Separated : List (List Char) → List Char → Prop
  | none (gap : List Char) (h : Blank gap) : Separated [] gap
  | last (gap word : List Char) (hgap : Blank gap) (hword : Solid word) :
      Separated [word] (gap ++ word)
  | more (gap word rest : List Char) (c : Char) (words : List (List Char)) (hgap : Blank gap)
      (hword : Solid word) (hc : isBlank c = true) (h : Separated words rest) :
      Separated (word :: words) (gap ++ word ++ c :: rest)

structure Expression (source : List Char) (fields : List (List Char × Set Nat)) : Prop where
  short : utf8Len source < EXPRESSION_LIMIT
  separated : Separated (fields.map Prod.fst) source
  denotes : List.Forall₂ (fun (field : List Char × Set Nat) (range : Nat × Nat) =>
    Denotes range.1 range.2 field.1 field.2) fields RANGES

section Numbers

theorem number_iff (text : List Char) (n : Nat) :
    number text = .ok n ↔ Numeral text n ∧ n ≤ 2 ^ 63 - 1 := by
  constructor
  · intro h
    obtain ⟨hdigits, h⟩ := ok_of_ensure h
    obtain ⟨value, hread, h⟩ := ok_of_bind h
    obtain ⟨hsmall, h⟩ := ok_of_ensure h
    cases h
    have hparse : parseUnsigned 10 (2 ^ 64 - 1) text = .ok n := by
      have hread := ok_of_withContext hread
      unfold parseU64 at hread
      split at hread
      next value hvalue =>
        cases hread
        exact hvalue
      next => contradiction
    obtain ⟨hvalue, -⟩ := (parseUnsigned_iff _ hdigits n).mp hparse
    exact ⟨⟨(isDigits_iff text).mp hdigits, hvalue.symm⟩, by simpa using hsmall⟩
  · rintro ⟨⟨hdigits, hvalue⟩, hsmall⟩
    have hdigits' := (isDigits_iff text).mpr hdigits
    have hparse : parseUnsigned 10 (2 ^ 64 - 1) text = .ok n :=
      (parseUnsigned_iff _ hdigits' n).mpr ⟨hvalue.symm, by omega⟩
    have hread : withContext "number overflow" (parseU64 text) = .ok n := by
      unfold parseU64
      rw [hparse]
      rfl
    unfold number
    rw [hdigits', ensure_true_bind, hread]
    simp only [bind, Except.bind]
    have hle : decide (n ≤ 2 ^ 63 - 1) = true := decide_eq_true hsmall
    rw [hle]
    rfl

theorem Numeral.not_mem (text : List Char) (n : Nat) (h : Numeral text n) (c : Char)
    (hc : c.isDigit = false) : c ∉ text := by
  intro hmem
  rw [h.1.2 c hmem] at hc
  contradiction

end Numbers

section Elements

variable (minimum maximum : Nat)

theorem Span.chars (text : List Char) (a b : Nat) (h : Span minimum maximum text a b) (c : Char)
    (hc : c ∈ text) : c.isDigit = true ∨ c = '*' ∨ c = '-' := by
  cases h with
  | star => exact Or.inr (Or.inl (List.mem_singleton.mp hc))
  | one text n h => exact Or.inl (h.1.2 c hc)
  | range text text' a b ha hb =>
      rcases List.mem_append.mp hc with hleft | hright
      · exact Or.inl (ha.1.2 c hleft)
      · rcases List.mem_cons.mp hright with hdash | hright
        · exact Or.inr (Or.inr hdash)
        · exact Or.inl (hb.1.2 c hright)

theorem Element.chars (text : List Char) (set : Set Nat) (h : Element minimum maximum text set)
    (c : Char) (hc : c ∈ text) : c.isDigit = true ∨ c = '*' ∨ c = '-' ∨ c = '/' := by
  cases h with
  | plain text a b h =>
      rcases h.chars _ _ _ _ _ c hc with hd | hs | hm
      · exact Or.inl hd
      · exact Or.inr (Or.inl hs)
      · exact Or.inr (Or.inr (Or.inl hm))
  | stepped text digits a b step h hstep =>
      rcases List.mem_append.mp hc with hleft | hright
      · rcases h.chars _ _ _ _ _ c hleft with hd | hs | hm
        · exact Or.inl hd
        · exact Or.inr (Or.inl hs)
        · exact Or.inr (Or.inr (Or.inl hm))
      · rcases List.mem_cons.mp hright with hslash | hright
        · exact Or.inr (Or.inr (Or.inr hslash))
        · exact Or.inl (hstep.1.2 c hright)

theorem Span.not_mem_slash {text : List Char} {a b : Nat} (h : Span minimum maximum text a b) :
    '/' ∉ text := by
  intro hmem
  rcases h.chars _ _ _ _ _ '/' hmem with hd | hs | hm
  · exact absurd hd (by decide)
  · exact absurd hs (by decide)
  · exact absurd hm (by decide)

-- What is read as a range is one, once it is within the bounds.
theorem Field.span_sound {range : List Char} {a b : Nat}
    (h : Field.span range minimum maximum = .ok (a, b)) (hlow : minimum ≤ a) (hhigh : b ≤ maximum)
    (horder : a ≤ b) : Span minimum maximum range a b := by
  unfold Field.span at h
  split at h
  next hstar =>
    cases h
    rw [hstar]
    exact Span.star
  next =>
    split at h
    next first last hsplit =>
      obtain ⟨n, hn, h⟩ := ok_of_bind h
      obtain ⟨m, hm, h⟩ := ok_of_bind h
      cases h
      rw [splitOnce_eq _ _ _ _ hsplit]
      exact Span.range first last a b ((number_iff _ _).mp hn).1 ((number_iff _ _).mp hm).1 hlow
        horder hhigh
    next =>
      obtain ⟨n, hn, h⟩ := ok_of_bind h
      cases h
      exact Span.one range a ((number_iff _ _).mp hn).1 hlow hhigh

theorem Field.span_complete (hmax : maximum ≤ 2 ^ 63 - 1) (hrange : minimum ≤ maximum)
    {text : List Char} {a b : Nat} (h : Span minimum maximum text a b) :
    Field.span text minimum maximum = .ok (a, b) ∧ minimum ≤ a ∧ b ≤ maximum ∧ a ≤ b := by
  unfold Field.span
  cases h with
  | star => exact ⟨rfl, Nat.le_refl _, Nat.le_refl _, hrange⟩
  | one text n h hlow hhigh =>
      have hnotStar : text ≠ ['*'] := by
        rintro rfl
        exact absurd (h.1.2 '*' List.mem_cons_self) (by decide)
      have hread := (number_iff text a).mpr ⟨h, by omega⟩
      rw [if_neg hnotStar, splitOnce_none '-' text (h.not_mem text a '-' (by decide))]
      refine ⟨?_, hlow, hhigh, Nat.le_refl _⟩
      rw [hread]
      rfl
  | range text text' a b ha hb hlow horder hhigh =>
      have hnotStar : text ++ '-' :: text' ≠ ['*'] := by
        intro heq
        have hmem : '-' ∈ ['*'] := by
          rw [← heq]
          simp
        exact absurd hmem (by decide)
      have hreada := (number_iff text a).mpr ⟨ha, by omega⟩
      have hreadb := (number_iff text' b).mpr ⟨hb, by omega⟩
      rw [if_neg hnotStar, splitOnce_append '-' text text' (ha.not_mem text a '-' (by decide))]
      refine ⟨?_, hlow, hhigh, horder⟩
      dsimp only
      rw [hreada, hreadb]
      rfl

theorem Field.stepOf_sound {part range : List Char} {step : Nat}
    (h : Field.stepOf part = .ok (range, step)) :
    (part = range ∧ step = 1) ∨
      ∃ digits, part = range ++ '/' :: digits ∧ Numeral digits step ∧ step ≤ 2 ^ 63 - 1 := by
  unfold Field.stepOf at h
  split at h
  next text digits hsplit =>
    cases hnumber : number digits with
    | error e =>
        rw [hnumber] at h
        contradiction
    | ok n =>
        rw [hnumber] at h
        cases h
        obtain ⟨hn, hmax⟩ := (number_iff _ _).mp hnumber
        exact Or.inr ⟨digits, splitOnce_eq _ _ _ _ hsplit, hn, hmax⟩
  next =>
    cases h
    exact Or.inl ⟨rfl, rfl⟩

theorem holds_addPart (hmax : maximum < 64) (mask : UInt64) (a b step : Nat) (hb : b ≤ maximum)
    (v : Nat) (hv : v < 64) :
    Masks.holds (Masks.insertAll mask (fun value => (value - a) % step = 0)
      (List.range' a (b + 1 - a))) v = true ↔
        Masks.holds mask v = true ∨ (a ≤ v ∧ v ≤ b ∧ step ∣ v - a) := by
  rw [Masks.holds_insertAll _ _ _ mask v hv]
  · rw [List.mem_range'_1, decide_eq_true_eq, ← Nat.dvd_iff_mod_eq_zero]
    have hwithin : a ≤ v ∧ v < a + (b + 1 - a) ↔ a ≤ v ∧ v ≤ b := by omega
    rw [hwithin, and_assoc]
  · intro w hw
    rw [List.mem_range'_1] at hw
    omega

theorem addPart_sound (hmax : maximum < 64) {mask mask' : UInt64} {part : List Char}
    (h : Field.addPart minimum maximum mask part = .ok mask') :
    ∃ set, Element minimum maximum part set ∧ ∀ v < 64,
      (Masks.holds mask' v = true ↔ Masks.holds mask v = true ∨ v ∈ set) := by
  obtain ⟨⟨range, step⟩, hstep, h⟩ := ok_of_bind h
  obtain ⟨hpos, h⟩ := ok_of_ensure h
  obtain ⟨⟨a, b⟩, hspan, h⟩ := ok_of_bind h
  obtain ⟨hbounds, h⟩ := ok_of_ensure h
  cases h
  simp only [Bool.and_eq_true, decide_eq_true_eq] at hbounds hpos
  obtain ⟨⟨hlow, hhigh⟩, horder⟩ := hbounds
  have hrange := Field.span_sound minimum maximum hspan hlow hhigh horder
  rcases Field.stepOf_sound hstep with ⟨rfl, rfl⟩ | ⟨digits, rfl, hdigits, hlimit⟩
  · refine ⟨_, Element.plain part a b hrange, fun v hv => ?_⟩
    rw [holds_addPart maximum hmax mask a b 1 hhigh v hv]
    simp
  · exact ⟨_, Element.stepped range digits a b step hrange hdigits hpos hlimit,
      fun v hv => holds_addPart maximum hmax mask a b step hhigh v hv⟩

theorem addPart_complete (hmax : maximum < 64) (hrange : minimum ≤ maximum) (mask : UInt64)
    {part : List Char} {set : Set Nat} (h : Element minimum maximum part set) :
    ∃ mask', Field.addPart minimum maximum mask part = .ok mask' ∧ ∀ v < 64,
      (Masks.holds mask' v = true ↔ Masks.holds mask v = true ∨ v ∈ set) := by
  have hadd (range : List Char) (a b step : Nat) (hstep : Field.stepOf part = .ok (range, step))
      (hpos : 0 < step) (hspan : Span minimum maximum range a b) :
      ∃ mask', Field.addPart minimum maximum mask part = .ok mask' ∧ ∀ v < 64,
        (Masks.holds mask' v = true ↔
          Masks.holds mask v = true ∨ (a ≤ v ∧ v ≤ b ∧ step ∣ v - a)) := by
    obtain ⟨hread, hlow, hhigh, horder⟩ :=
      Field.span_complete minimum maximum (by omega) hrange hspan
    refine ⟨_, ?_, fun v hv => holds_addPart maximum hmax mask a b step hhigh v hv⟩
    have hbounds : (decide (minimum ≤ a) && decide (b ≤ maximum) && decide (a ≤ b)) = true := by
      simp [hlow, hhigh, horder]
    unfold Field.addPart
    rw [hstep]
    simp only [bind, Except.bind]
    rw [decide_eq_true hpos, hread]
    simp only [ensure, if_true, hbounds]
    rfl
  cases h with
  | plain text a b hspan =>
      have hnone := splitOnce_none '/' part (hspan.not_mem_slash _ _)
      obtain ⟨mask', hread, hholds⟩ := hadd part a b 1 (by
        unfold Field.stepOf
        rw [hnone]) Nat.one_pos hspan
      refine ⟨mask', hread, fun v hv => ?_⟩
      rw [hholds v hv]
      simp
  | stepped text digits a b step hspan hdigits hpos hlimit =>
      have hsome := splitOnce_append '/' text digits (hspan.not_mem_slash _ _)
      have hnumber := (number_iff digits step).mpr ⟨hdigits, hlimit⟩
      exact hadd text a b step (by
        unfold Field.stepOf
        rw [hsome]
        dsimp only
        rw [hnumber]
        rfl) hpos hspan

end Elements

end StompyMux.Lua
