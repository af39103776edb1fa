import StompyMux.Construction.System

-- Values of object state, the texts that show them and the texts that set them.
namespace StompyMux.State

open Library.Text

inductive Value (ν : Type)
  | Boolean (v : Bool)
  | Integer (v : Int64)
  | Number (v : ν)
  | String (v : List UInt8)
  deriving DecidableEq

-- Floating-point numbers, how they are shown and how they are read.
structure Floats (ν : Type) where
  numberDisplay : ν → List Char
  hexadecimalNumber : List Char → Option ν
  decimalNumber : List Char → Option ν
  isFinite : ν → Bool

def integerText (v : Int) : List Char :=
  if v < 0 then '-' :: decimal v.natAbs else decimal v.natAbs

def hexDigit (n : Nat) : Char := n.digitChar.toUpper

def quotedByte (b : UInt8) : List Char :=
  if b = 34 then ['\\', '"']
  else if b = 92 then ['\\', '\\']
  else if b = 10 then ['\\', 'n']
  else if b = 13 then ['\\', 'r']
  else if b = 9 then ['\\', 't']
  else if 32 ≤ b ∧ b ≤ 126 then [Char.ofNat b.toNat]
  else ['\\', 'x', hexDigit (b.toNat / 16), hexDigit (b.toNat % 16)]

def quoted (bytes : List UInt8) : List Char := '"' :: bytes.flatMap quotedByte ++ ['"']

def Value.display {ν : Type} (floats : Floats ν) : Value ν → List Char
  | .Boolean v => if v then "true".toList else "false".toList
  | .Integer v => integerText v.toInt
  | .Number v => floats.numberDisplay v
  | .String v => quoted v

-- What one character after a backslash stands for; `x` is followed by two digits.
def escapedByte (b : UInt8) : Option UInt8 :=
  if b = 34 then some 34
  else if b = 92 then some 92
  else if b = 110 then some 10
  else if b = 114 then some 13
  else if b = 116 then some 9
  else none

def hexValue (b : UInt8) : Option Nat := digitValue 16 (Char.ofNat b.toNat)

def unquoted : List UInt8 → Except String (List UInt8)
  | [] => .ok []
  | b :: input =>
      if b ≠ 92 then
        if b = 34 then .error "Unexpected quote in state string" else (unquoted input).map (b :: ·)
      else
        match input with
        | [] => .error "Incomplete state escape"
        | escape :: input =>
            match escapedByte escape with
            | some b => (unquoted input).map (b :: ·)
            | none =>
                if escape = 120 then
                  match input with
                  | high :: low :: input =>
                      match hexValue high, hexValue low with
                      | some high, some low =>
                          (unquoted input).map (UInt8.ofNat (high * 16 + low) :: ·)
                      | _, _ => .error "Invalid hexadecimal state escape"
                  | _ => .error "Invalid hexadecimal state escape"
                else .error "Invalid state escape"

def parseValue {ν : Type} (floats : Floats ν) (source : List Char) :
    Except String (Option (Value ν)) :=
  let source := trim source
  if source = [] then .ok none
  else if source.head? = some '"' then
    if 2 ≤ utf8Len source ∧ source.getLast? = some '"' then
      (unquoted ((utf8 source).tail.take (utf8Len source - 2))).map (fun out => some (.String out))
    else .error "Unterminated quoted state string"
  else if source = "true".toList then .ok (some (.Boolean true))
  else if source = "false".toList then .ok (some (.Boolean false))
  else
    match Construction.parseSigned (-2 ^ 63) (2 ^ 63 - 1) source with
    | some v => .ok (some (.Integer (Int64.ofInt v)))
    | none =>
        match ((floats.hexadecimalNumber source).or (floats.decimalNumber source)).filter
            floats.isFinite with
        | some v => .ok (some (.Number v))
        | none => .ok (some (.String (utf8 source)))

end StompyMux.State

-- What shows a value also sets it.
namespace StompyMux.State

open Library.Text

section Bytes

theorem utf8_digit (n : Nat) (h : n < 16) :
    ∃ b, hexValue b = some n ∧ ∀ text, utf8 (hexDigit n :: text) = b :: utf8 text := by
  have hdigits : ∀ n < 16, (hexDigit n).toNat < 128 ∧
      hexValue (UInt8.ofNat (hexDigit n).toNat) = some n := by decide
  exact ⟨_, (hdigits n h).2, utf8_ascii _ (hdigits n h).1⟩

theorem utf8_printable (b : UInt8) (h : b ≤ 126) (text : List Char) :
    utf8 (Char.ofNat b.toNat :: text) = b :: utf8 text := by
  have hle : b.toNat ≤ 126 := UInt8.le_iff_toNat_le.mp h
  have hchar : (Char.ofNat b.toNat).toNat = b.toNat := by
    unfold Char.ofNat
    rw [dif_pos (by unfold Nat.isValidChar; omega)]
    rfl
  rw [utf8_ascii _ (by omega), hchar, UInt8.ofNat_toNat]

variable (input : List UInt8)

theorem unquoted_plain (b : UInt8) (hescape : b ≠ 92) (hquote : b ≠ 34) :
    unquoted (b :: input) = (unquoted input).map (b :: ·) := by
  rw [unquoted.eq_def]
  dsimp only
  rw [if_pos hescape, if_neg hquote]

theorem unquoted_escape {escape b : UInt8} (h : escapedByte escape = some b) :
    unquoted (92 :: escape :: input) = (unquoted input).map (b :: ·) := by
  rw [unquoted.eq_def]
  dsimp only
  rw [if_neg (by decide), h]

theorem unquoted_hexadecimal {high low : UInt8} {m n : Nat} (hhigh : hexValue high = some m)
    (hlow : hexValue low = some n) :
    unquoted (92 :: 120 :: high :: low :: input) =
      (unquoted input).map (UInt8.ofNat (m * 16 + n) :: ·) := by
  have hnone : escapedByte 120 = none := rfl
  rw [unquoted.eq_def]
  dsimp only
  rw [if_neg (by decide), hnone, hhigh, hlow]
  rfl

-- Reading takes one shown byte off.
theorem unquoted_quotedByte (b : UInt8) (text : List Char) :
    unquoted (utf8 (quotedByte b ++ text)) = (unquoted (utf8 text)).map (b :: ·) := by
  have hpair : ∀ c : Char, c.toNat < 128 → utf8 ('\\' :: c :: text) =
      92 :: UInt8.ofNat c.toNat :: utf8 text := by
    intro c hc
    rw [utf8_ascii _ (by decide), utf8_ascii c hc]
    rfl
  unfold quotedByte
  by_cases hquote : b = 34
  · rw [if_pos hquote, hquote]
    exact (congrArg unquoted (hpair '"' (by decide))).trans (unquoted_escape _ rfl)
  by_cases hescape : b = 92
  · rw [if_neg hquote, if_pos hescape, hescape]
    exact (congrArg unquoted (hpair '\\' (by decide))).trans (unquoted_escape _ rfl)
  by_cases hline : b = 10
  · rw [if_neg hquote, if_neg hescape, if_pos hline, hline]
    exact (congrArg unquoted (hpair 'n' (by decide))).trans (unquoted_escape _ rfl)
  by_cases hreturn : b = 13
  · rw [if_neg hquote, if_neg hescape, if_neg hline, if_pos hreturn, hreturn]
    exact (congrArg unquoted (hpair 'r' (by decide))).trans (unquoted_escape _ rfl)
  by_cases htab : b = 9
  · rw [if_neg hquote, if_neg hescape, if_neg hline, if_neg hreturn, if_pos htab, htab]
    exact (congrArg unquoted (hpair 't' (by decide))).trans (unquoted_escape _ rfl)
  rw [if_neg hquote, if_neg hescape, if_neg hline, if_neg hreturn, if_neg htab]
  by_cases hprint : 32 ≤ b ∧ b ≤ 126
  · rw [if_pos hprint, List.singleton_append, utf8_printable b hprint.2]
    exact unquoted_plain _ b hescape hquote
  · have hbound := b.toNat_lt
    obtain ⟨high, hhigh, hfirst⟩ := utf8_digit (b.toNat / 16) (by omega)
    obtain ⟨low, hlow, hsecond⟩ := utf8_digit (b.toNat % 16) (by omega)
    have hbyte : b.toNat / 16 * 16 + b.toNat % 16 = b.toNat := by omega
    have htext : utf8 ('\\' :: 'x' :: hexDigit (b.toNat / 16) :: hexDigit (b.toNat % 16) :: text) =
        92 :: 120 :: high :: low :: utf8 text := by
      rw [utf8_ascii _ (by decide), utf8_ascii _ (by decide), hfirst, hsecond]
      rfl
    have hread := unquoted_hexadecimal (utf8 text) hhigh hlow
    rw [hbyte, UInt8.ofNat_toNat] at hread
    rw [if_neg hprint]
    exact (congrArg unquoted htext).trans hread

theorem unquoted_bytes (bytes : List UInt8) :
    unquoted (utf8 (bytes.flatMap quotedByte)) = .ok bytes := by
  induction bytes with
  | nil => rfl
  | cons b bytes ih =>
      rw [List.flatMap_cons, unquoted_quotedByte, ih]
      rfl

end Bytes

section Numbers

theorem digits_eq (text : List Char) (start : Nat) (h : ∀ c ∈ text, c.isDigit = true) :
    Construction.digits start text = some (Nat.ofDigitChars 10 text start) := by
  induction text generalizing start with
  | nil => rw [Construction.digits, Nat.ofDigitChars_nil]
  | cons c text ih =>
      have hc := h c List.mem_cons_self
      rw [Construction.digits, Construction.digit, if_pos hc, Option.bind_some,
        ih _ (fun d hd => h d (List.mem_cons_of_mem c hd)), Nat.ofDigitChars_cons]
      rfl

theorem magnitude_decimal (n : Nat) : Construction.magnitude (decimal n) = some n := by
  have hread := digits_eq (decimal n) 0 (isDigit_of_mem_decimal n)
  have hvalue : Nat.ofDigitChars 10 (decimal n) 0 = n := Nat.ofDigitChars_ten_toDigits
  rw [hvalue] at hread
  unfold Construction.magnitude
  split
  next hempty => exact absurd hempty Nat.toDigits_ne_nil
  next => exact hread

theorem parseSigned_integerText {minimum maximum v : Int} (hlow : minimum ≤ v)
    (hhigh : v ≤ maximum) :
    Construction.parseSigned minimum maximum (integerText v) = some v := by
  unfold integerText Construction.parseSigned
  by_cases hneg : v < 0
  · have habs : -(v.natAbs : Int) = v := by omega
    rw [if_pos hneg]
    generalize v.natAbs = n at habs ⊢
    subst habs
    simp [magnitude_decimal, hlow, hhigh]
  · have habs : (v.natAbs : Int) = v := by omega
    have hdigits := isDigit_of_mem_decimal v.natAbs
    rw [if_neg hneg]
    split
    next heq =>
      exact absurd (hdigits '+' (by rw [heq]; exact List.mem_cons_self)) (by decide)
    next heq =>
      exact absurd (hdigits '-' (by rw [heq]; exact List.mem_cons_self)) (by decide)
    next => simp [magnitude_decimal, habs, hlow, hhigh]

theorem isWhitespace_digit (c : Char) (h : c.isDigit = true) : isWhitespace c = false := by
  have hrange : 48 ≤ c.toNat ∧ c.toNat ≤ 57 := by
    simp only [Char.isDigit, Bool.and_eq_true, decide_eq_true_eq] at h
    exact ⟨h.1, h.2⟩
  simp only [isWhitespace, Bool.or_eq_false_iff, Bool.and_eq_false_imp, decide_eq_true_eq,
    decide_eq_false_iff_not, beq_eq_false_iff_ne]
  omega

theorem mem_integerText (v : Int) (c : Char) (h : c ∈ integerText v) :
    c = '-' ∨ c.isDigit = true := by
  unfold integerText at h
  split at h
  · rcases List.mem_cons.mp h with hc | hc
    · exact .inl hc
    · exact .inr (isDigit_of_mem_decimal _ c hc)
  · exact .inr (isDigit_of_mem_decimal _ c h)

theorem integerText_ne_nil (v : Int) : integerText v ≠ [] := by
  unfold integerText
  split
  · exact List.cons_ne_nil _ _
  · exact Nat.toDigits_ne_nil

end Numbers

section Values

variable {ν : Type} (floats : Floats ν)

-- The text that a value is shown as, without the white space around it.
theorem parseValue_quoted {source : List Char} {bytes : List UInt8}
    (h : trim source = quoted bytes) : parseValue floats source = .ok (some (.String bytes)) := by
  have hbytes : utf8 (quoted bytes) = 34 :: (utf8 (bytes.flatMap quotedByte) ++ [34]) := by
    unfold quoted
    rw [List.cons_append, utf8_ascii _ (by decide), utf8_append]
    rfl
  have hlength : utf8Len (quoted bytes) = (utf8 (bytes.flatMap quotedByte)).length + 2 := by
    rw [← length_utf8, hbytes, List.length_cons, List.length_append]
    rfl
  have hlast : (quoted bytes).getLast? = some '"' := List.getLast?_concat
  have hread : (utf8 (quoted bytes)).tail.take (utf8Len (quoted bytes) - 2) =
      utf8 (bytes.flatMap quotedByte) := by
    rw [hlength, hbytes, List.tail_cons, Nat.add_sub_cancel, List.take_left]
  have hne : quoted bytes ≠ [] := List.cons_ne_nil _ _
  have hfirst : (quoted bytes).head? = some '"' := rfl
  unfold parseValue
  rw [h, if_neg hne, if_pos hfirst, if_pos ⟨by omega, hlast⟩, hread, unquoted_bytes]
  rfl

theorem parseValue_integer {source : List Char} {v : Int64} (h : trim source = integerText v.toInt) :
    parseValue floats source = .ok (some (.Integer v)) := by
  have hmem := mem_integerText v.toInt
  have hquote : (integerText v.toInt).head? ≠ some '"' := by
    intro hhead
    rcases hmem _ (List.mem_of_head? hhead) with hc | hc
    · exact absurd hc (by decide)
    · exact absurd hc (by decide)
  have hword : ∀ word : List Char, 'e' ∈ word → integerText v.toInt ≠ word := by
    intro word he heq
    rcases hmem 'e' (heq ▸ he) with hc | hc
    · exact absurd hc (by decide)
    · exact absurd hc (by decide)
  have hhigh : v.toInt ≤ 2 ^ 63 - 1 := by
    have hlt := v.toInt_lt
    omega
  have hsigned := parseSigned_integerText v.le_toInt hhigh
  unfold parseValue
  rw [h, if_neg (integerText_ne_nil _), if_neg hquote, if_neg (hword _ (by decide)),
    if_neg (hword _ (by decide)), hsigned]
  dsimp only
  rw [Int64.ofInt_toInt]

theorem parseValue_boolean {source : List Char} {v : Bool}
    (h : trim source = (Value.Boolean v : Value ν).display floats) :
    parseValue floats source = .ok (some (.Boolean v)) := by
  unfold parseValue
  rw [h]
  cases v <;> rfl

theorem display_trimmed (value : Value ν) (h : ∀ v, value ≠ .Number v) :
    ∃ first last, (value.display floats).head? = some first ∧
      (value.display floats).getLast? = some last ∧
      isWhitespace first = false ∧ isWhitespace last = false := by
  cases value with
  | Boolean v => cases v <;> exact ⟨_, _, rfl, rfl, by decide, by decide⟩
  | Integer v =>
      have hshown : ∀ c ∈ integerText v.toInt, isWhitespace c = false := by
        intro c hc
        rcases mem_integerText v.toInt c hc with rfl | hdigit
        · decide
        · exact isWhitespace_digit c hdigit
      have hne := integerText_ne_nil v.toInt
      exact ⟨_, _, List.head?_eq_some_head hne, List.getLast?_eq_some_getLast hne,
        hshown _ (List.head_mem hne), hshown _ (List.getLast_mem hne)⟩
  | Number v => exact absurd rfl (h v)
  | String v => exact ⟨'"', '"', rfl, List.getLast?_concat, by decide, by decide⟩

theorem parseValue_display (value : Value ν) (h : ∀ v, value ≠ .Number v) (before after : List Char)
    (hbefore : ∀ c ∈ before, isWhitespace c = true) (hafter : ∀ c ∈ after, isWhitespace c = true) :
    parseValue floats (before ++ value.display floats ++ after) = .ok (some value) := by
  obtain ⟨first, last, hfirst, hlast, hstart, hend⟩ := display_trimmed floats value h
  have htrim := trim_padded before _ after hbefore hafter first last hfirst hlast hstart hend
  cases value with
  | Boolean v => exact parseValue_boolean floats htrim
  | Integer v => exact parseValue_integer floats htrim
  | Number v => exact absurd rfl (h v)
  | String v => exact parseValue_quoted floats htrim

theorem head?_trim (before rest : List Char) (c : Char)
    (hbefore : ∀ d ∈ before, isWhitespace d = true) (hc : isWhitespace c = false) :
    (trim (before ++ c :: rest)).head? = some c := by
  have hstart : trimStart (before ++ c :: rest) = c :: rest := by
    unfold trimStart
    rw [List.dropWhile_append_of_pos hbefore, List.dropWhile_cons_of_neg (by simp [hc])]
  have hend : [c].dropWhile isWhitespace = [c] := List.dropWhile_cons_of_neg (by simp [hc])
  unfold trim trimEnd
  rw [hstart, List.reverse_cons, List.dropWhile_append, hend]
  split
  · rfl
  · rw [List.reverse_append]
    rfl

-- A text that starts with a quote is never anything but a string.
theorem parseValue_string (source : List Char) (h : (trim source).head? = some '"') :
    (∃ message, parseValue floats source = .error message) ∨
      ∃ bytes, parseValue floats source = .ok (some (.String bytes)) := by
  have hne : trim source ≠ [] := by
    intro hempty
    rw [hempty] at h
    contradiction
  unfold parseValue
  rw [if_neg hne, if_pos h]
  split
  · cases unquoted ((utf8 (trim source)).tail.take (utf8Len (trim source) - 2)) with
    | error message => exact .inl ⟨message, rfl⟩
    | ok bytes => exact .inr ⟨bytes, rfl⟩
  · exact .inl ⟨_, rfl⟩

theorem parseValue_exact :
    (∀ (value : Value ν) (before after : List Char), (∀ v, value ≠ .Number v) →
      (∀ c ∈ before, isWhitespace c = true) → (∀ c ∈ after, isWhitespace c = true) →
      parseValue floats (before ++ value.display floats ++ after) = .ok (some value)) ∧
    ∀ before rest : List Char, (∀ c ∈ before, isWhitespace c = true) →
      (∃ message, parseValue floats (before ++ '"' :: rest) = .error message) ∨
      ∃ bytes, parseValue floats (before ++ '"' :: rest) = .ok (some (.String bytes)) ∧
        parseValue floats (quoted bytes) = .ok (some (.String bytes)) := by
  constructor
  · intro value before after h hbefore hafter
    exact parseValue_display floats value h before after hbefore hafter
  · intro before rest hbefore
    have hhead := head?_trim before rest '"' hbefore (by decide)
    rcases parseValue_string floats _ hhead with herror | ⟨bytes, hbytes⟩
    · exact .inl herror
    · have hagain := parseValue_display floats (.String bytes) (fun v h => nomatch h) [] []
        (fun _ hc => nomatch hc) (fun _ hc => nomatch hc)
      rw [List.nil_append, List.append_nil] at hagain
      exact .inr ⟨bytes, hbytes, hagain⟩

end Values

end StompyMux.State
