import Mathlib.Order.Nat
import Std.Data.TreeSet.Lemmas
import StompyMux.Library.Text

namespace StompyMux.Telnet.Mxp

open Library.Text

def OPTION : UInt8 := 91

def LOCK_LOCKED : List Char := "\x1b[7z".toList

def TEMP_SECURE : List Char := "\x1b[4z".toList

def SECURE_LINE : List Char := "\x1b[1z".toList

def MAX_SUPPORTED_TAGS : Nat := 256

def MAX_TOKEN_BYTES : Nat := 63

-- Keep at most the retained token size without splitting a character.
def bounded (s : List Char) : List Char := takeBytes MAX_TOKEN_BYTES s

theorem utf8Len_bounded_le (s : List Char) : utf8Len (bounded s) ≤ MAX_TOKEN_BYTES :=
  utf8Len_takeBytes_le MAX_TOKEN_BYTES s

-- What a client reported about itself and the tags it accepts.
structure Client where
  name : List Char
  version : List Char
  mxpVersion : List Char
  registered : Option Bool
  versionReceived : Bool
  supportsReceived : Bool
  supports : Std.TreeSet (List Char)

def Client.default : Client := ⟨[], [], [], none, false, false, ∅⟩

abbrev Attribute := List Char × Option (List Char)

-- A lower-cased name and its attributes in order; bare flags have no value.
structure Tag where
  name : List Char
  attributes : List Attribute
  deriving DecidableEq

namespace Tag

-- The text after an equals sign: the value and what follows it. A quoted value without
-- its closing quote reaches to the end.
def value (rest : List Char) : List Char × List Char :=
  match rest with
  | [] => ([], [])
  | quote :: body =>
      if quote = '"' ∨ quote = '\'' then
        (body.takeWhile (· != quote), (body.dropWhile (· != quote)).drop 1)
      else
        (rest.takeWhile (fun c => !isAsciiWhitespace c),
          rest.dropWhile (fun c => !isAsciiWhitespace c))

def inName (c : Char) : Bool := !(isAsciiWhitespace c || c == '=')

-- Every round reads at least one character, so `fuel` rounds are enough for `fuel` many.
def parseAttributes : Nat → List Char → List Attribute
  | 0, _ => []
  | fuel + 1, rest =>
      if rest = [] then []
      else if rest.takeWhile inName = [] then
        -- a stray equals sign
        parseAttributes fuel (rest.drop 1)
      else
        let field := toAsciiLowercase (bounded (rest.takeWhile inName))
        match rest.dropWhile inName with
        | '=' :: tail =>
            (field, some (bounded (value tail).1)) ::
              parseAttributes fuel (trimStart (value tail).2)
        | tail => (field, none) :: parseAttributes fuel (trimStart tail)

def isTagByte (c : Char) : Bool := c.isAlphanum || c == '!'

def parse (line : List Char) : Option Tag :=
  match (stripPrefix ['<'] (trim line)).bind (stripSuffix ['>']) with
  | none => none
  | some inner =>
      let rest := trimStart inner
      let name := toAsciiLowercase (bounded (rest.takeWhile (fun c => !isAsciiWhitespace c)))
      let rest := trimStart (rest.dropWhile (fun c => !isAsciiWhitespace c))
      if name = [] ∨ ¬ name.all isTagByte then none
      else some ⟨name, parseAttributes rest.length rest⟩

end Tag

namespace Client

def applyVersion (client : Client) (field : Attribute) : Client :=
  let value := field.2.getD []
  if field.1 = "client".toList then { client with name := value }
  else if field.1 = "version".toList then { client with version := value }
  else if field.1 = "mxp".toList then { client with mxpVersion := value }
  else if field.1 = "registered".toList then
    { client with registered := some (eqIgnoreAsciiCase value "yes".toList) }
  else client

def applySupport (supports : Std.TreeSet (List Char))
    (field : Attribute) : Std.TreeSet (List Char) :=
  match field with
  | (_, some _) => supports
  | ('+' :: tag, none) =>
      if tag ≠ [] ∧ supports.size < MAX_SUPPORTED_TAGS then supports.insert tag else supports
  | ('-' :: tag, none) => supports.erase tag
  | (_, none) => supports

-- One protocol reply line without its prefix. Unknown and malformed replies change nothing.
def receive (client : Client) (line : List Char) : Option Client :=
  match Tag.parse line with
  | none => none
  | some tag =>
      if tag.name = "version".toList then
        some (tag.attributes.foldl applyVersion { client with versionReceived := true })
      else if tag.name = "supports".toList then
        some { client with
          supportsReceived := true
          supports := tag.attributes.foldl applySupport ∅ }
      else none

structure Bounded (client : Client) : Prop where
  count : client.supports.size ≤ MAX_SUPPORTED_TAGS
  names : ∀ tag ∈ client.supports, utf8Len tag ≤ MAX_TOKEN_BYTES

end Client

def secureTag (tag : List Char) : List Char := TEMP_SECURE ++ tag

-- Characters that would end or confuse the value are encoded, control characters dropped.
def quoteChar (c : Char) : List Char :=
  if c = '"' then "&quot;".toList
  else if c = '<' then "&lt;".toList
  else if c = '>' then "&gt;".toList
  else if isControl c then []
  else [c]

def quote (value : List Char) : List Char := ['"'] ++ value.flatMap quoteChar ++ ['"']

-- A character that may stand inside a tag.
def isTagText (c : Char) : Bool := !isControl c && c != '<' && c != '>'

theorem isTagText_quoteChar {c d : Char} (hd : d ∈ quoteChar c) : isTagText d := by
  have hnames : ∀ e ∈ "&quot;&lt;&gt;".toList, isTagText e := by decide
  unfold quoteChar at hd
  split_ifs at hd with hq ho hc hcontrol
  · exact hnames d (List.mem_of_mem_take (i := 6) hd)
  · exact hnames d (List.mem_of_mem_drop (i := 6) (List.mem_of_mem_take (i := 4) hd))
  · exact hnames d (List.mem_of_mem_drop (i := 10) hd)
  · simp at hd
  · rw [List.mem_singleton.mp hd]
    simp [isTagText, hcontrol, ho, hc]

theorem isTagText_quote (value : List Char) (c : Char) (hc : c ∈ quote value) : isTagText c := by
  simp only [quote, List.mem_append, List.mem_singleton, List.mem_flatMap] at hc
  rcases hc with (rfl | ⟨d, -, hd⟩) | rfl
  · decide
  · exact isTagText_quoteChar hd
  · decide

-- Lock the client, then ask what it is and which tags it accepts.
def activation : List UInt8 :=
  utf8 (LOCK_LOCKED ++ secureTag "<VERSION>".toList ++ secureTag "<SUPPORT>".toList)

-- The body of a protocol reply line; every other line is a command.
def replyBody (line : List Char) : Option (List Char) :=
  match stripPrefix SECURE_LINE line with
  | some body => if (trimStart body).head? = some '<' then some body else none
  | none => none

namespace Tag

variable (fuel : Nat) (rest : List Char)

theorem utf8Len_attribute_le (field : Attribute) (ha : field ∈ parseAttributes fuel rest) :
    utf8Len field.1 ≤ MAX_TOKEN_BYTES := by
  induction fuel generalizing rest with
  | zero => simp [parseAttributes] at ha
  | succ fuel ih =>
      simp only [parseAttributes] at ha
      have hname : utf8Len (toAsciiLowercase (bounded (rest.takeWhile inName))) ≤
          MAX_TOKEN_BYTES := by
        rw [utf8Len_toAsciiLowercase]
        exact utf8Len_bounded_le _
      split at ha
      · cases ha
      split at ha
      · exact ih _ ha
      split at ha
      · rcases List.mem_cons.mp ha with rfl | hrest
        · exact hname
        · exact ih _ hrest
      · rcases List.mem_cons.mp ha with rfl | hrest
        · exact hname
        · exact ih _ hrest

theorem parse_attributes_bounded (line : List Char) (tag : Tag) (hp : parse line = some tag) :
    ∀ field ∈ tag.attributes, utf8Len field.1 ≤ MAX_TOKEN_BYTES := by
  simp only [parse] at hp
  split at hp
  · cases hp
  split at hp
  · cases hp
  · cases hp
    exact utf8Len_attribute_le _ _

theorem length_value_le : (value rest).2.length ≤ rest.length := by
  unfold value
  split
  · simp
  rename_i quote body
  split
  · have hd := (List.dropWhile_sublist (l := body) (· != quote)).length_le
    simp only [List.length_drop, List.length_cons]
    omega
  · exact (List.dropWhile_sublist _).length_le

theorem length_trimStart_le (text : List Char) : (trimStart text).length ≤ text.length :=
  (List.dropWhile_sublist _).length_le

theorem length_dropWhile_lt {p : Char → Bool} {rest : List Char} (hp : rest.takeWhile p ≠ []) :
    (rest.dropWhile p).length < rest.length := by
  have hsplit := congrArg List.length (List.takeWhile_append_dropWhile (p := p) (l := rest))
  have hpos := List.length_pos_iff.mpr hp
  rw [List.length_append] at hsplit
  omega

theorem parseAttributes_succ (hf : rest.length ≤ fuel) :
    parseAttributes (fuel + 1) rest = parseAttributes fuel rest := by
  induction fuel generalizing rest with
  | zero =>
      obtain rfl := List.length_eq_zero_iff.mp (Nat.le_zero.mp hf)
      rfl
  | succ fuel ih =>
      rw [parseAttributes.eq_2 rest (fuel + 1), parseAttributes.eq_2 rest fuel]
      by_cases hnil : rest = []
      · simp only [if_pos hnil]
      simp only [if_neg hnil]
      by_cases hname : rest.takeWhile inName = []
      · simp only [if_pos hname]
        refine ih _ ?_
        simp only [List.length_drop]
        omega
      simp only [if_neg hname]
      have hlt := length_dropWhile_lt hname
      split
      · rename_i tail htail
        rw [htail, List.length_cons] at hlt
        have hv := length_value_le tail
        have ht := length_trimStart_le (value tail).2
        rw [ih _ (by omega)]
      · have ht := length_trimStart_le (rest.dropWhile inName)
        rw [ih _ (by omega)]

-- Rounds beyond the length of the text change nothing.
theorem parseAttributes_fuel (hf : rest.length ≤ fuel) :
    parseAttributes fuel rest = parseAttributes rest.length rest := by
  induction fuel, hf using Nat.le_induction with
  | base => rfl
  | succ fuel hle ih => rw [parseAttributes_succ fuel rest hle, ih]

end Tag

namespace Client

theorem default_bounded : Client.default.Bounded where
  count := by decide
  names := by simp [Client.default]

theorem applyVersion_supports (client : Client) (field : Attribute) :
    (client.applyVersion field).supports = client.supports := by
  unfold applyVersion
  split_ifs <;> rfl

theorem foldl_applyVersion_supports (client : Client)
    (attributes : List Attribute) :
    (attributes.foldl applyVersion client).supports = client.supports := by
  induction attributes generalizing client with
  | nil => rfl
  | cons field attributes ih =>
      rw [List.foldl_cons, ih, applyVersion_supports]

theorem applySupport_bounded {supports : Std.TreeSet (List Char)} {field : Attribute}
    (hfield : utf8Len field.1 ≤ MAX_TOKEN_BYTES)
    (hc : supports.size ≤ MAX_SUPPORTED_TAGS)
    (hn : ∀ tag ∈ supports, utf8Len tag ≤ MAX_TOKEN_BYTES) :
    (applySupport supports field).size ≤ MAX_SUPPORTED_TAGS ∧
      ∀ tag ∈ applySupport supports field, utf8Len tag ≤ MAX_TOKEN_BYTES := by
  unfold applySupport
  split
  · exact ⟨hc, hn⟩
  · rename_i tag
    simp only [utf8Len_cons] at hfield
    split
    · rename_i hroom
      refine ⟨Std.TreeSet.size_insert_le.trans hroom.2, fun other hmem => ?_⟩
      rcases Std.TreeSet.mem_insert.mp hmem with heq | hold
      · obtain rfl := Std.LawfulEqCmp.eq_of_compare heq
        omega
      · exact hn other hold
    · exact ⟨hc, hn⟩
  · refine ⟨Std.TreeSet.size_erase_le.trans hc, fun other hmem => ?_⟩
    exact hn other (Std.TreeSet.mem_of_mem_erase hmem)
  · exact ⟨hc, hn⟩

theorem foldl_applySupport_bounded (supports : Std.TreeSet (List Char))
    (fields : List Attribute) (hfields : ∀ field ∈ fields, utf8Len field.1 ≤ MAX_TOKEN_BYTES)
    (hc : supports.size ≤ MAX_SUPPORTED_TAGS)
    (hn : ∀ tag ∈ supports, utf8Len tag ≤ MAX_TOKEN_BYTES) :
    (fields.foldl applySupport supports).size ≤ MAX_SUPPORTED_TAGS ∧
      ∀ tag ∈ fields.foldl applySupport supports, utf8Len tag ≤ MAX_TOKEN_BYTES := by
  induction fields generalizing supports with
  | nil => exact ⟨hc, hn⟩
  | cons field fields ih =>
      obtain ⟨hc', hn'⟩ := applySupport_bounded
        (hfields field List.mem_cons_self) hc hn
      exact ih _ (fun f hf => hfields f (List.mem_cons_of_mem _ hf)) hc' hn'

theorem receive_bounded (client after : Client) (line : List Char) (hb : client.Bounded)
    (hr : client.receive line = some after) : after.Bounded := by
  unfold receive at hr
  split at hr
  · cases hr
  rename_i tag hparse
  split at hr
  · cases hr
    constructor
    · rw [foldl_applyVersion_supports]
      exact hb.count
    · rw [foldl_applyVersion_supports]
      exact hb.names
  split at hr
  · cases hr
    have hfields := Tag.parse_attributes_bounded line tag hparse
    obtain ⟨hc, hn⟩ := foldl_applySupport_bounded ∅ tag.attributes hfields (by decide) (by simp)
    exact ⟨hc, hn⟩
  · cases hr

end Client

end StompyMux.Telnet.Mxp
