import Mathlib.Algebra.Order.Ring.Nat
import Mathlib.Data.List.Basic

-- Character and byte strings. Text is a list of characters; its byte length is the length
-- of its UTF-8 encoding.
namespace StompyMux.Library.Text

-- Characters and bytes are finitely many: a statement about the items of a list is decided on the
-- list, never by going through all of them.
scoped instance (priority := 2000) decidableOnList {A : Type} (P : A → Prop) [DecidablePred P]
    (items : List A) : Decidable (∀ x ∈ items, P x) :=
  List.decidableBAll P items

def utf8 (text : List Char) : List UInt8 := text.flatMap String.utf8EncodeChar

def utf8Len : List Char → Nat
  | [] => 0
  | c :: text => c.utf8Size + utf8Len text

@[simp] theorem utf8Len_nil : utf8Len [] = 0 := rfl

variable (separator : Char) (c : Char) (text : List Char)

@[simp] theorem utf8Len_cons : utf8Len (c :: text) = c.utf8Size + utf8Len text := rfl

@[simp] theorem utf8Len_append (text rest : List Char) :
    utf8Len (text ++ rest) = utf8Len text + utf8Len rest := by
  induction text with
  | nil => simp
  | cons c text ih =>
      simp only [List.cons_append, utf8Len_cons, ih]
      omega

theorem length_utf8 : (utf8 text).length = utf8Len text := by
  induction text with
  | nil => rfl
  | cons c text ih =>
      rw [utf8] at ih ⊢
      rw [List.flatMap_cons, List.length_append, ih, String.length_utf8EncodeChar, utf8Len_cons]

theorem utf8_append (text rest : List Char) : utf8 (text ++ rest) = utf8 text ++ utf8 rest :=
  List.flatMap_append

-- A byte of an encoded character is the character itself or lies in the upper half.
theorem mem_utf8EncodeChar (b : UInt8) (hb : b ∈ String.utf8EncodeChar c) :
    b.toNat = c.toNat ∧ c.toNat < 128 ∨ 128 ≤ b.toNat ∧ b.toNat < 248 ∧ 128 ≤ c.toNat := by
  have hval : c.toNat = c.val.toNat := rfl
  unfold String.utf8EncodeChar at hb
  dsimp only at hb
  split at hb
  · simp only [List.mem_singleton] at hb
    rw [hb, UInt8.toNat_ofNat']
    omega
  · split at hb
    · simp only [List.mem_cons, List.not_mem_nil, or_false] at hb
      rcases hb with rfl | rfl <;> rw [UInt8.toNat_ofNat'] <;> omega
    · split at hb <;> simp only [List.mem_cons, List.not_mem_nil, or_false] at hb
      · rcases hb with rfl | rfl | rfl <;> rw [UInt8.toNat_ofNat'] <;> omega
      · rcases hb with rfl | rfl | rfl | rfl <;> rw [UInt8.toNat_ofNat'] <;> omega

theorem mem_utf8 {b : UInt8} (hb : b ∈ utf8 text) : ∃ c ∈ text,
      b.toNat = c.toNat ∧ c.toNat < 128 ∨ 128 ≤ b.toNat ∧ b.toNat < 248 ∧ 128 ≤ c.toNat := by
  obtain ⟨c, hc, hbc⟩ := List.mem_flatMap.mp hb
  exact ⟨c, hc, mem_utf8EncodeChar c b hbc⟩

-- The longest prefix of at most `limit` bytes that does not split a character.
def takeBytes : Nat → List Char → List Char
  | _, [] => []
  | limit, c :: text =>
      if c.utf8Size ≤ limit then c :: takeBytes (limit - c.utf8Size) text else []

theorem utf8Len_takeBytes_le (limit : Nat) (text : List Char) :
    utf8Len (takeBytes limit text) ≤ limit := by
  induction text generalizing limit with
  | nil => simp [takeBytes]
  | cons c text ih =>
      by_cases h : c.utf8Size ≤ limit
      · have hrest := ih (limit - c.utf8Size)
        simp only [takeBytes, if_pos h, utf8Len_cons]
        omega
      · simp [takeBytes, if_neg h]

-- Space, tab, line feed, form feed and carriage return.
def isAsciiWhitespace (c : Char) : Bool := [32, 9, 10, 12, 13].contains c.toNat

-- The White_Space property.
def isWhitespace (c : Char) : Bool :=
  let n := c.toNat
  (9 ≤ n && n ≤ 13) || n == 0x20 || n == 0x85 || n == 0xA0 || n == 0x1680 ||
    (0x2000 ≤ n && n ≤ 0x200A) || n == 0x2028 || n == 0x2029 || n == 0x202F ||
    n == 0x205F || n == 0x3000

def trimStart (text : List Char) : List Char := text.dropWhile isWhitespace

def trimEnd (text : List Char) : List Char := (text.reverse.dropWhile isWhitespace).reverse

def trim (text : List Char) : List Char := trimEnd (trimStart text)

-- Trimming takes off the white space around a text that neither starts nor ends with it.
theorem trim_padded (before text after : List Char) (hbefore : ∀ c ∈ before, isWhitespace c = true)
    (hafter : ∀ c ∈ after, isWhitespace c = true) (first last : Char)
    (hfirst : text.head? = some first) (hlast : text.getLast? = some last)
    (hstart : isWhitespace first = false) (hend : isWhitespace last = false) :
    trim (before ++ text ++ after) = text := by
  obtain ⟨rest, rfl⟩ := List.head?_eq_some_iff.mp hfirst
  have hstarted : trimStart (before ++ first :: rest ++ after) = first :: rest ++ after := by
    unfold trimStart
    rw [List.append_assoc, List.dropWhile_append_of_pos hbefore, List.cons_append,
      List.dropWhile_cons_of_neg (by simp [hstart])]
  obtain ⟨lead, hlead⟩ := List.getLast?_eq_some_iff.mp hlast
  have hback : ∀ c ∈ after.reverse, isWhitespace c = true :=
    fun c hc => hafter c (List.mem_reverse.mp hc)
  unfold trim trimEnd
  rw [hstarted, hlead, List.reverse_append, List.dropWhile_append_of_pos hback, List.reverse_append,
    List.reverse_singleton, List.singleton_append, List.dropWhile_cons_of_neg (by simp [hend]),
    List.reverse_cons, List.reverse_reverse]

theorem utf8_ascii (h : c.toNat < 128) (text : List Char) :
    utf8 (c :: text) = UInt8.ofNat c.toNat :: utf8 text := by
  have hval : c.val.toNat ≤ 127 := Nat.le_of_lt_succ h
  have hencode : String.utf8EncodeChar c = [UInt8.ofNat c.toNat] := by
    unfold String.utf8EncodeChar
    rw [if_pos hval]
    rfl
  unfold utf8
  rw [List.flatMap_cons, hencode, List.singleton_append]

def stripPrefix (lead text : List Char) : Option (List Char) :=
  if lead.isPrefixOf text then some (text.drop lead.length) else none

def stripSuffix (tail text : List Char) : Option (List Char) :=
  if tail.isSuffixOf text then some (text.take (text.length - tail.length)) else none

def toAsciiLowercase (text : List Char) : List Char := text.map Char.toLower

def eqIgnoreAsciiCase (text other : List Char) : Bool :=
  toAsciiLowercase text == toAsciiLowercase other

theorem utf8Size_toLower : c.toLower.utf8Size = c.utf8Size := by
  unfold Char.toLower
  split
  · rename_i h
    have hc : c.utf8Size = 1 := by
      rw [Char.utf8Size_eq_one_iff]
      exact UInt32.le_trans h.2 (by decide)
    rw [hc, Char.utf8Size_eq_one_iff]
    have hhigh : c.val.toNat ≤ 90 := h.2
    change (c.val + 32).toNat ≤ 127
    rw [UInt32.toNat_add, show (32 : UInt32).toNat = 32 from rfl]
    omega
  · rfl

@[simp] theorem utf8Len_toAsciiLowercase : utf8Len (toAsciiLowercase text) = utf8Len text := by
  induction text with
  | nil => rfl
  | cons c text ih =>
      simpa [toAsciiLowercase, utf8Size_toLower] using ih

-- The control characters (category Cc).
def isControl (c : Char) : Bool := c.toNat < 0x20 || (0x7F ≤ c.toNat && c.toNat ≤ 0x9F)

def splitOnce (separator : Char) : List Char → Option (List Char × List Char)
  | [] => none
  | c :: text =>
      if c = separator then some ([], text)
      else (splitOnce separator text).map (fun parts => (c :: parts.1, parts.2))

theorem splitOnce_eq (text left right : List Char)
    (h : splitOnce separator text = some (left, right)) : text = left ++ separator :: right := by
  induction text generalizing left with
  | nil => simp [splitOnce] at h
  | cons c text ih =>
      unfold splitOnce at h
      split at h
      · rename_i hc
        simp only [Option.some.injEq, Prod.mk.injEq] at h
        rw [← h.1, ← h.2, hc, List.nil_append]
      · rw [Option.map_eq_some_iff] at h
        obtain ⟨parts, hparts, heq⟩ := h
        simp only [Prod.mk.injEq] at heq
        rw [← heq.1, List.cons_append, ih parts.1 (by rw [hparts, ← heq.2])]

theorem splitOnce_append (left right : List Char) (h : separator ∉ left) :
    splitOnce separator (left ++ separator :: right) = some (left, right) := by
  induction left with
  | nil => simp [splitOnce]
  | cons c left ih =>
      rw [List.mem_cons, not_or] at h
      rw [List.cons_append, splitOnce, if_neg (Ne.symm h.1), ih h.2]
      rfl

theorem splitOnce_none (h : separator ∉ text) : splitOnce separator text = none := by
  induction text with
  | nil => rfl
  | cons c text ih =>
      rw [List.mem_cons, not_or] at h
      rw [splitOnce, if_neg (Ne.symm h.1), ih h.2]
      rfl

-- Split at the last separator instead of the first.
def rsplitOnce (separator : Char) (text : List Char) : Option (List Char × List Char) :=
  (splitOnce separator text.reverse).map (fun parts => (parts.2.reverse, parts.1.reverse))

-- Split at a separator of several characters.
def splitOnceAt (separator : List Char) : List Char → Option (List Char × List Char)
  | [] => if separator = [] then some ([], []) else none
  | c :: text =>
      if separator.isPrefixOf (c :: text) then some ([], (c :: text).drop separator.length)
      else (splitOnceAt separator text).map (fun parts => (c :: parts.1, parts.2))

-- The segments between the separators; there is always one more segment than separators.
def split (separator : Char) : List Char → List (List Char)
  | [] => [[]]
  | c :: text =>
      if c = separator then [] :: split separator text
      else
        match split separator text with
        | [] => [[c]]
        | segment :: segments => (c :: segment) :: segments

theorem mem_of_mem_split (text segment : List Char) (c : Char)
    (hs : segment ∈ split separator text) (hc : c ∈ segment) : c ∈ text := by
  induction text generalizing segment with
  | nil => simp_all [split]
  | cons d text ih =>
      unfold split at hs
      split at hs
      · rcases List.mem_cons.mp hs with rfl | hs
        · simp at hc
        · exact List.mem_cons_of_mem d (ih segment hs hc)
      · split at hs
        · simp_all
        · rename_i first segments hsplit
          rcases List.mem_cons.mp hs with rfl | hs
          · rcases List.mem_cons.mp hc with rfl | hc
            · exact List.mem_cons_self
            · exact List.mem_cons_of_mem d (ih first (by simp [hsplit]) hc)
          · exact List.mem_cons_of_mem d (ih segment (by simp [hsplit, hs]) hc)

theorem mem_intercalate (parts : List (List Char)) (c : Char)
    (hc : c ∈ List.intercalate [separator] parts) : c = separator ∨ ∃ part ∈ parts, c ∈ part := by
  induction parts with
  | nil => simp at hc
  | cons part parts ih =>
      cases parts with
      | nil =>
          rw [List.intercalate_singleton] at hc
          exact .inr ⟨part, List.mem_cons_self, hc⟩
      | cons next parts =>
          rw [List.intercalate_cons_cons, List.mem_append, List.mem_append, List.mem_singleton] at hc
          rcases hc with (hc | hc) | hc
          · exact .inr ⟨part, List.mem_cons_self, hc⟩
          · exact .inl hc
          · rcases ih hc with heq | ⟨other, ho, hc⟩
            · exact .inl heq
            · exact .inr ⟨other, List.mem_cons_of_mem part ho, hc⟩

def decimal (n : Nat) : List Char := Nat.toDigits 10 n

theorem isDigit_of_mem_decimal (n : Nat) (c : Char) (hc : c ∈ decimal n) : c.isDigit :=
  Nat.isDigit_of_mem_toDigits (by decide) (by decide) hc

def digitValue (radix : Nat) (c : Char) : Option Nat :=
  let value :=
    if c.isDigit then some (c.toNat - 48)
    else if c.isLower then some (c.toNat - 87)
    else if c.isUpper then some (c.toNat - 55)
    else none
  value.filter (· < radix)

inductive ParseIntError
  | Empty
  | InvalidDigit
  | PosOverflow
  deriving DecidableEq

def ParseIntError.message : ParseIntError → List Char
  | .Empty => "cannot parse integer from empty string".toList
  | .InvalidDigit => "invalid digit found in string".toList
  | .PosOverflow => "number too large to fit in target type".toList

def parseDigits (radix limit : Nat) : Nat → List Char → Except ParseIntError Nat
  | value, [] => .ok value
  | value, c :: text =>
      match digitValue radix c with
      | none => .error .InvalidDigit
      | some digit =>
          if value * radix + digit ≤ limit then
            parseDigits radix limit (value * radix + digit) text
          else .error .PosOverflow

-- An unsigned number of at most `limit`; one plus sign may stand before the digits.
def parseUnsigned (radix limit : Nat) : List Char → Except ParseIntError Nat
  | [] => .error .Empty
  | ['+'] => .error .InvalidDigit
  | '+' :: text => parseDigits radix limit 0 text
  | text => parseDigits radix limit 0 text

example : parseUnsigned 16 255 ['+', 'f'] = .ok 15 := by decide

-- The same for bytes.
def lowerByte (b : UInt8) : UInt8 := if 65 ≤ b ∧ b ≤ 90 then b + 32 else b

def eqIgnoreAsciiCaseBytes (bytes other : List UInt8) : Bool :=
  bytes.map lowerByte == other.map lowerByte

def containsIgnoreAsciiCase (bytes needle : List UInt8) : Bool :=
  bytes.tails.any (fun tail => eqIgnoreAsciiCaseBytes (tail.take needle.length) needle)

-- The segments between the separators; there is always one more segment than separators.
def splitBytes (separator : UInt8) : List UInt8 → List (List UInt8)
  | [] => [[]]
  | b :: bytes =>
      if b = separator then [] :: splitBytes separator bytes
      else
        match splitBytes separator bytes with
        | [] => [[b]]
        | segment :: segments => (b :: segment) :: segments

-- Decoding of UTF-8 one byte at a time: `More` waits for continuation bytes, the next of
-- which must lie between `low` and `high`.
inductive Decoding
  | Start
  | More (remaining : Nat) (low high : UInt8) (value : Nat)
  deriving DecidableEq

-- An invalid sequence decodes to `none`.
def decodeLead (b : UInt8) : List (Option Char) × Decoding :=
  if b < 0x80 then ([some (Char.ofNat b.toNat)], .Start)
  else if b < 0xC2 then ([none], .Start)
  else if b ≤ 0xDF then ([], .More 0 0x80 0xBF (b.toNat % 32))
  else if b = 0xE0 then ([], .More 1 0xA0 0xBF 0)
  else if b = 0xED then ([], .More 1 0x80 0x9F 13)
  else if b ≤ 0xEF then ([], .More 1 0x80 0xBF (b.toNat % 16))
  else if b = 0xF0 then ([], .More 2 0x90 0xBF 0)
  else if b ≤ 0xF3 then ([], .More 2 0x80 0xBF (b.toNat % 8))
  else if b = 0xF4 then ([], .More 2 0x80 0x8F 4)
  else ([none], .Start)

def decodeByte : Decoding → UInt8 → List (Option Char) × Decoding
  | .Start, b => decodeLead b
  | .More remaining low high value, b =>
      if low ≤ b ∧ b ≤ high then
        let value := value * 64 + b.toNat % 64
        match remaining with
        | 0 => ([some (Char.ofNat value)], .Start)
        | remaining + 1 => ([], .More remaining 0x80 0xBF value)
      else
        -- the valid part read so far is one invalid sequence; the byte starts afresh
        let (decoded, next) := decodeLead b
        (none :: decoded, next)

def decode : Decoding → List UInt8 → List (Option Char)
  | .Start, [] => []
  | .More .., [] => [none]
  | state, b :: bytes => (decodeByte state b).1 ++ decode (decodeByte state b).2 bytes

def fromUtf8 (bytes : List UInt8) : Option (List Char) := (decode .Start bytes).mapM id

def fromUtf8Lossy (bytes : List UInt8) : List Char :=
  (decode .Start bytes).map (fun c => c.getD (Char.ofNat 0xFFFD))

example : fromUtf8 (utf8 ['a', 'é', '€', '𝄞']) = some ['a', 'é', '€', '𝄞'] := by decide

example : fromUtf8Lossy [0x61, 0xF0, 0x90, 0x41, 0xC0, 0xE2, 0x82] =
    ['a', Char.ofNat 0xFFFD, 'A', Char.ofNat 0xFFFD, Char.ofNat 0xFFFD] := by decide

end StompyMux.Library.Text
