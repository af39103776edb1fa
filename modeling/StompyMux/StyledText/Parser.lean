import StompyMux.StyledText.Image

namespace StompyMux.StyledText

open Library.Text

-- A run of visible text; terminal control bytes are never stored in one.
structure Span where
  text : List Char
  style : Style
  link : Option Link
  image : Option Image

def Span.default : Span := ⟨[], Style.default, none, none⟩

def Span.plain (text : List Char) : Span := { Span.default with text := text }

def ESC : Char := '\x1b'

def isShown (c : Char) : Bool := !isControl c || c == '\n' || c == '\r' || c == '\t'

def IsShown (text : List Char) : Prop := ∀ c ∈ text, isShown c

@[simp] theorem isShown_nil : IsShown [] := by simp [IsShown]

variable (c : Char) (text : List Char)

@[simp] theorem isShown_cons :
    IsShown (c :: text) ↔ isShown c ∧ IsShown text := List.forall_mem_cons

@[simp] theorem isShown_append (text rest : List Char) :
    IsShown (text ++ rest) ↔ IsShown text ∧ IsShown rest := List.forall_mem_append

theorem isShown_of_subset {text other : List Char} (ho : IsShown other) (hs : text ⊆ other) :
    IsShown text := fun c hc => ho c (hs hc)

theorem isShown_of_isUri (ht : IsUri text) : IsShown text := by
  intro c hc
  have hprintable := isUriChar_printable c (ht c hc)
  have hlow := hprintable.low
  have hhigh := hprintable.high
  have hcontrol : isControl c = false := by
    simp only [isControl, Bool.or_eq_false_iff, Bool.and_eq_false_iff, decide_eq_false_iff_not]
    omega
  simp [isShown, hcontrol]

theorem isShown_decimal (n : Nat) : IsShown (decimal n) := by
  apply isShown_of_isUri
  intro c hc
  simp [isUriChar, Char.isAlphanum, isDigit_of_mem_decimal n c hc]

def AllShown (spans : List Span) : Prop := ∀ span ∈ spans, IsShown span.text

@[simp] theorem allShown_nil : AllShown [] := by simp [AllShown]

@[simp] theorem allShown_cons (span : Span) (spans : List Span) :
    AllShown (span :: spans) ↔ IsShown span.text ∧ AllShown spans := List.forall_mem_cons

@[simp] theorem allShown_append (spans rest : List Span) :
    AllShown (spans ++ rest) ↔ AllShown spans ∧ AllShown rest := List.forall_mem_append

theorem allShown_plain (ht : IsShown text) : AllShown [Span.plain text] :=
  (allShown_cons _ _).mpr ⟨ht, allShown_nil⟩

-- Through the final byte of a control sequence. Lengths are counted in characters: every
-- byte that ends a sequence is a character of its own.
def controlLen : List Char → Nat
  | [] => 0
  | c :: tail => if 0x40 ≤ c.toNat ∧ c.toNat ≤ 0x7e then 1 else controlLen tail + 1

-- Through the bell or the escape and backslash that end a command.
def commandLen : List Char → Nat
  | [] => 0
  | c :: tail =>
      if c.toNat = 7 then 1
      else if c = ESC ∧ tail.head? = some '\\' then 2
      else commandLen tail + 1

-- One terminal escape, which starts with the first character.
def escapeLen (s : List Char) : Nat :=
  match s.drop 1 with
  | [] => s.length
  | c :: tail =>
      if c = '[' then 2 + controlLen tail
      else if c = ']' ∨ c = 'P' ∨ c = '_' ∨ c = '^' then 2 + commandLen tail
      else 2

theorem escapeLen_pos (tail : List Char) : 0 < escapeLen (c :: tail) := by
  unfold escapeLen
  split
  · simp
  · split_ifs <;> omega

def afterEscape (s : List Char) : List Char := s.drop (escapeLen s)

theorem length_afterEscape (tail : List Char) : (afterEscape (c :: tail)).length ≤ tail.length := by
  have hpos := escapeLen_pos c tail
  simp only [afterEscape, List.length_drop, List.length_cons]
  omega

def stripControls : List Char → List Char
  | [] => []
  | c :: tail =>
      if c = ESC then stripControls (afterEscape (c :: tail))
      else if isShown c then c :: stripControls tail
      else stripControls tail
termination_by s => s.length
decreasing_by
  · have hlen := length_afterEscape c tail
    simp only [List.length_cons]
    omega
  · simp
  · simp

theorem isShown_stripControls (s : List Char) : IsShown (stripControls s) := by
  fun_induction stripControls s with
  | case1 => exact isShown_nil
  | case2 tail ih => exact ih
  | case3 c tail _ hc ih => exact (isShown_cons c _).mpr ⟨hc, ih⟩
  | case4 c tail _ _ ih => exact ih

-- The rendition a sequence of parameters stands for.
def applyRendition (style : Style) (n : Nat) : Style :=
  if n = 0 then Style.default
  else if n = 1 then { style with bold := true }
  else if n = 3 then { style with italic := true }
  else if n = 4 then { style with underline := true }
  else if n = 5 then { style with blink := true }
  else if n = 7 then { style with inverse := true }
  else if n = 9 then { style with strikethrough := true }
  else if n = 22 then { style with bold := false }
  else if n = 23 then { style with italic := false }
  else if n = 24 then { style with underline := false }
  else if n = 25 then { style with blink := false }
  else if n = 27 then { style with inverse := false }
  else if n = 29 then { style with strikethrough := false }
  else if n = 53 then { style with overline := true }
  else if n = 55 then { style with overline := false }
  else if 30 ≤ n ∧ n ≤ 37 then
    { style with foregroundAnsi := some (UInt8.ofNat (n - 30)), foreground := some (ansiRgb (n - 30)) }
  else if 90 ≤ n ∧ n ≤ 97 then
    { style with
      foregroundAnsi := some (UInt8.ofNat (n - 90 + 8)), foreground := some (ansiRgb (n - 90 + 8)) }
  else if 40 ≤ n ∧ n ≤ 47 then
    { style with backgroundAnsi := some (UInt8.ofNat (n - 40)), background := some (ansiRgb (n - 40)) }
  else if 100 ≤ n ∧ n ≤ 107 then
    { style with
      backgroundAnsi := some (UInt8.ofNat (n - 100 + 8)), background := some (ansiRgb (n - 100 + 8)) }
  else if n = 39 then { style with foreground := none, foregroundAnsi := none }
  else if n = 49 then { style with background := none, backgroundAnsi := none }
  else style

def channelOf (n : Nat) : UInt8 := UInt8.ofNat (min n 255)

-- The color after 38 or 48 and the parameters behind it.
def extendedColor : List Nat → Option Rgb × List Nat
  | 5 :: n :: rest => (some (ansiRgb (min n 255)), rest)
  | 2 :: r :: g :: b :: rest => (some (channelOf r, channelOf g, channelOf b), rest)
  | rest => (none, rest)

-- Every round reads at least one parameter.
def applyRenditions : Nat → Style → List Nat → Style
  | 0, style, _ => style
  | _, style, [] => style
  | fuel + 1, style, n :: rest =>
      if n = 38 then
        applyRenditions fuel
          { style with foregroundAnsi := none, foreground := (extendedColor rest).1 }
          (extendedColor rest).2
      else if n = 48 then
        applyRenditions fuel
          { style with backgroundAnsi := none, background := (extendedColor rest).1 }
          (extendedColor rest).2
      else applyRenditions fuel (applyRendition style n) rest

def isRendition (seq : List Char) : Bool :=
  [ESC, '['].isPrefixOf seq && ['m'].isSuffixOf seq

-- The sequence has one final byte, so only that one is cut off.
def sgr (style : Style) (seq : List Char) : Style :=
  let values := (split ';' ((seq.drop 2).dropLast)).map (fun n =>
    match parseUnsigned 10 65535 n with
    | .ok value => value
    | .error _ => 0)
  if 32 < values.length then style else applyRenditions values.length style values

def isLinkName (name : List Char) : Bool :=
  ["url".toList, "link".toList, "send".toList, "prompt".toList].contains name

-- Trusted reports: style events are kept even when they are repeated.
inductive NativeEvent
  | Text (text : List Char)
  | Style (style : Style)

structure NativeState where
  events : List NativeEvent
  text : List Char
  style : Style
  stack : List Style

namespace NativeState

def flush (st : NativeState) : NativeState :=
  if st.text = [] then st
  else { st with events := st.events ++ [.Text st.text], text := [] }

def restyle (st : NativeState) (style : Style) (stack : List Style) : NativeState :=
  { st.flush with events := st.flush.events ++ [.Style style], style := style, stack := stack }

def push (st : NativeState) (c : Char) : NativeState := { st with text := st.text ++ [c] }

def literal (st : NativeState) (c : Char) : NativeState := if isShown c then st.push c else st

-- The tag up to its bracket and what follows; `i` is the position in bytes.
def tagEnd (i : Nat) : List Char → Option (List Char × List Char)
  | [] => none
  | c :: tail =>
      if OSC8_URI_LIMIT + 32 ≤ i then none
      else if c = ']' then some ([], tail)
      else (tagEnd (i + c.utf8Size) tail).map (fun found => (c :: found.1, found.2))

-- The style after a tag and the styles to return to, unless the tag is shown literally.
def tagStyle (p : Palette) (st : NativeState) (tag : List Char) : Option (Style × List Style) :=
  if tag = ['/'] then
    match st.stack with
    | [] => none
    | style :: stack => some (style, stack)
  else if eqIgnoreAsciiCase tag "reset".toList then some (Style.default, [])
  else if st.stack.length < MAX_NESTING then
    match Directive.directives tag with
    | .error _ => none
    | .ok [] => none
    | .ok (d :: ds) =>
        if isLinkName d.name ∨ d.name = "image".toList then none
        else
          match (d :: ds).foldlM (applyStyle p) st.style with
          | .error _ => none
          | .ok style => some (style, st.style :: st.stack)
  else none

def step (p : Palette) (st : NativeState) (c : Char) (tail : List Char) :
    NativeState × List Char :=
  if c = ESC then
    let seq := (c :: tail).take (escapeLen (c :: tail))
    if isRendition seq then (st.restyle (sgr st.style seq) st.stack, afterEscape (c :: tail))
    else (st, afterEscape (c :: tail))
  else if c = '[' then
    if tail.head? = some '[' then (st.push '[', tail.drop 1)
    else
      match tagEnd 1 tail with
      | none => (st.literal c, tail)
      | some (tag, rest) =>
          match st.tagStyle p (trim tag) with
          | none => (st.literal c, tail)
          | some (style, stack) => (st.restyle style stack, rest)
  else (st.literal c, tail)

theorem length_tagEnd (i : Nat) (text tag rest : List Char)
    (h : tagEnd i text = some (tag, rest)) : rest.length < text.length := by
  induction text generalizing i tag with
  | nil => simp [tagEnd] at h
  | cons c tail ih =>
      unfold tagEnd at h
      split_ifs at h with hi hc
      · simp only [Option.some.injEq, Prod.mk.injEq] at h
        rw [← h.2]
        simp
      · obtain ⟨found, hfound, heq⟩ := Option.map_eq_some_iff.mp h
        simp only [Prod.mk.injEq] at heq
        have hlen := ih _ found.1 (by rw [hfound, ← heq.2])
        rw [List.length_cons]
        omega

variable (p : Palette) (st : NativeState) (c : Char)

theorem length_step (tail : List Char) : (step p st c tail).2.length ≤ tail.length := by
  have hescape := length_afterEscape c tail
  unfold step
  dsimp only
  split_ifs
  · exact hescape
  · exact hescape
  · simp
  · split
    · exact Nat.le_refl _
    · rename_i tag rest htag
      split
      · exact Nat.le_refl _
      · exact Nat.le_of_lt (length_tagEnd 1 tail tag rest htag)
  · exact Nat.le_refl _

def run (p : Palette) (st : NativeState) : List Char → NativeState
  | [] => st.flush
  | c :: tail => run p (step p st c tail).1 (step p st c tail).2
termination_by s => s.length
decreasing_by
  have hlen := length_step p st c tail
  rw [List.length_cons]
  omega

def Shown (st : NativeState) : Prop :=
  (∀ text, .Text text ∈ st.events → IsShown text) ∧ IsShown st.text

theorem flush_shown (hs : st.Shown) : st.flush.Shown := by
  unfold flush
  split
  · exact hs
  · refine ⟨?_, isShown_nil⟩
    intro text htext
    rcases List.mem_append.mp htext with htext | htext
    · exact hs.1 text htext
    · rw [List.mem_singleton] at htext
      injection htext with htext
      rw [htext]
      exact hs.2

theorem restyle_shown (style : Style) (stack : List Style) (hs : st.Shown) :
    (st.restyle style stack).Shown := by
  have hflush := st.flush_shown hs
  refine ⟨?_, hflush.2⟩
  intro text htext
  rcases List.mem_append.mp htext with htext | htext
  · exact hflush.1 text htext
  · simp at htext

theorem push_shown (hc : isShown c) (hs : st.Shown) : (st.push c).Shown :=
  ⟨hs.1, by simp [push, hs.2, hc]⟩

theorem literal_shown (hs : st.Shown) : (st.literal c).Shown := by
  unfold literal
  split
  · rename_i hc
    exact st.push_shown c hc hs
  · exact hs

theorem step_shown (tail : List Char) (hs : st.Shown) : (step p st c tail).1.Shown := by
  unfold step
  dsimp only
  split
  · split
    · exact st.restyle_shown _ _ hs
    · exact hs
  split
  · split
    · exact st.push_shown '[' (by decide) hs
    split
    · exact st.literal_shown c hs
    · split
      · exact st.literal_shown c hs
      · exact st.restyle_shown _ _ hs
  · exact st.literal_shown c hs

theorem run_shown (s : List Char) (hs : st.Shown) : (run p st s).Shown := by
  fun_induction run p st s with
  | case1 st => exact st.flush_shown hs
  | case2 st c tail ih => exact ih (st.step_shown p c tail hs)

end NativeState

def nativeEvents (p : Palette) (source : List Char) : List NativeEvent :=
  (NativeState.run p ⟨[], [], Style.default, []⟩ source).events

theorem nativeEvents_shown (p : Palette) (source text : List Char)
    (ht : .Text text ∈ nativeEvents p source) : IsShown text :=
  (NativeState.run_shown p _ source ⟨by simp, isShown_nil⟩).1 text ht

-- Scanning stops at another opening bracket outside quotes; `i` is the position in bytes.
def tagEnd (i : Nat) (quoted escaped : Bool) : List Char → Option (List Char × List Char)
  | [] => none
  | c :: tail =>
      let next := fun quoted escaped =>
        (tagEnd (i + c.utf8Size) quoted escaped tail).map (fun found => (c :: found.1, found.2))
      if OSC8_URI_LIMIT + 32 ≤ i then none
      else if escaped then next quoted false
      else if quoted ∧ c = '\\' then next quoted true
      else
        let quoted := if c = '"' then !quoted else quoted
        if ¬ quoted ∧ c = '[' then none
        else if ¬ quoted ∧ c = ']' then some ([], tail)
        else next quoted false

theorem length_tagEnd (i : Nat) (quoted escaped : Bool) (text tag rest : List Char)
    (h : tagEnd i quoted escaped text = some (tag, rest)) : rest.length < text.length := by
  induction text generalizing i quoted escaped tag with
  | nil => simp [tagEnd] at h
  | cons c tail ih =>
      have hnext : ∀ j q e, (tagEnd j q e tail).map (fun found => (c :: found.1, found.2)) =
          some (tag, rest) → rest.length < (c :: tail).length := by
        intro j q e hmap
        obtain ⟨found, hfound, heq⟩ := Option.map_eq_some_iff.mp hmap
        simp only [Prod.mk.injEq] at heq
        have hlen := ih j q e found.1 (by rw [hfound, ← heq.2])
        rw [List.length_cons]
        omega
      unfold tagEnd at h
      dsimp only at h
      split at h
      · simp at h
      split at h
      · exact hnext _ _ _ h
      split at h
      · exact hnext _ _ _ h
      generalize (if c = '"' then !quoted else quoted) = toggled at h
      split at h
      · simp at h
      split at h
      · simp only [Option.some.injEq, Prod.mk.injEq] at h
        rw [← h.2]
        simp
      · exact hnext _ _ _ h

-- What a tag turns the current presentation into. `pop` returns to the enclosing one and
-- `reset` leaves every scope.
structure Opened where
  style : Style
  link : Option Link
  image : Option Image
  pop : Bool
  reset : Bool

structure ParseState where
  spans : List Span
  current : Span
  stack : List (Style × Option Link × Option Image)
  -- whether the open image scope has produced any fallback text yet
  imageText : Bool

namespace ParseState

def flush (st : ParseState) : ParseState :=
  if st.current.text = [] then st
  else { st with spans := st.spans ++ [st.current], current := { st.current with text := [] } }

def push (st : ParseState) (c : Char) : ParseState :=
  { st with
    current := { st.current with text := st.current.text ++ [c] }
    imageText := st.imageText || st.current.image.isSome }

def literal (st : ParseState) (c : Char) : ParseState := if isShown c then st.push c else st

-- The capabilities a link must be encodable for.
def linkOptions : RenderOptions where
  color := .None
  capabilities := Std.TreeSet.ofList
    ["".toList, "SEND".toList, "PROMPT".toList, "STYLE_BASIC".toList, "STYLE_STATES".toList,
      "TOOLTIP".toList, "MENU".toList, "VISIBILITY".toList, "SELECTION".toList,
      "SPOILER".toList, "DISABLED".toList]
  mxp := ∅
  width := 80

def isAnsiOnly (d : Directive) : Bool := d.name == "blink".toList || d.name == "inverse".toList

def openLink (p : Palette) (st : ParseState) (d : Directive) (ds : List Directive) :
    Except Error Opened := do
  ensure st.current.link.isNone "nested links are not allowed"
  ensure st.current.image.isNone "links cannot be nested in images"
  match d.value with
  | none => bail "missing link destination".toList
  | some target =>
      ensure d.quoted "link destination must be quoted"
      let kind : LinkKind :=
        if d.name = "send".toList then .Send
        else if d.name = "prompt".toList then .Prompt
        else .External
      let style ← (ds.filter isAnsiOnly).foldlM (applyStyle p) st.current.style
      let config ← LinkConfig.parse p (ds.filter (fun d => !isAnsiOnly d))
      let link : Link := ⟨kind, target, config⟩
      link.validate
      (config.effective p).validateComplete
      ensure (link.uri p linkOptions).isSome "encoded link URI is too long"
      return ⟨style, some link, st.current.image, false, false⟩

def openTag (p : Palette) (strict : Bool) (st : ParseState) (tag : List Char) :
    Except Error Opened :=
  if tag = ['/'] then
    match st.stack with
    | [] => bail "unmatched close tag".toList
    | (style, link, image) :: _ => do
        ensure (!strict || image.isSome || st.current.image.isNone || st.imageText)
          "image requires fallback text"
        return ⟨style, link, image, true, false⟩
  else if eqIgnoreAsciiCase tag "reset".toList then
    .ok ⟨Style.default, none, none, false, true⟩
  else do
    ensure (st.stack.length < MAX_NESTING) "style nesting is too deep"
    match ← Directive.directives tag with
    | [] => bail "empty style tag".toList
    | d :: ds =>
        if d.name = "image".toList then
          ensure (st.current.link.isNone && st.current.image.isNone)
            "images cannot be nested in links or images"
          let image ← Image.parse (d :: ds)
          return ⟨st.current.style, st.current.link, some image, false, false⟩
        else if isLinkName d.name then openLink p st d ds
        else
          let style ← (d :: ds).foldlM (applyStyle p) st.current.style
          return ⟨style, st.current.link, st.current.image, false, false⟩

def enter (st : ParseState) (opened : Opened) : ParseState :=
  let flushed := st.flush
  let stack :=
    if opened.pop then flushed.stack.tail
    else if opened.reset then []
    else (flushed.current.style, flushed.current.link, flushed.current.image) :: flushed.stack
  let imageText :=
    if ¬ opened.pop ∧ ¬ opened.reset ∧ opened.image.isSome ∧ flushed.current.image.isNone then
      false
    else flushed.imageText
  { spans := flushed.spans
    current := ⟨flushed.current.text, opened.style, opened.link, opened.image⟩
    stack, imageText }

def step (p : Palette) (strict : Bool) (st : ParseState) (c : Char) (tail : List Char) :
    Except Error (ParseState × List Char) :=
  if c = ESC then
    let seq := (c :: tail).take (escapeLen (c :: tail))
    let st := st.flush
    let style := if isRendition seq then sgr st.current.style seq else st.current.style
    .ok ({ st with current := { st.current with style } }, afterEscape (c :: tail))
  else if c = '[' then
    if tail.head? = some '[' then .ok (st.push '[', tail.drop 1)
    else
      match tagEnd 1 false false tail with
      | none =>
          if strict then bail "style tag is not closed".toList else .ok (st.literal c, tail)
      | some (tag, rest) =>
          match openTag p strict st (trim tag) with
          | .ok opened => .ok (st.enter opened, rest)
          | .error error => if strict then .error error else .ok (st.literal c, tail)
  else .ok (st.literal c, tail)

variable (p : Palette) (strict : Bool) (st : ParseState) (c : Char)

theorem length_step (st next : ParseState) (c : Char)
    (tail rest : List Char) (h : step p strict st c tail = .ok (next, rest)) :
    rest.length ≤ tail.length := by
  have hescape := length_afterEscape c tail
  unfold step at h
  split at h
  · injection h with h
    injection h with _ h
    rw [← h]
    exact hescape
  split at h
  · split at h
    · injection h with h
      injection h with _ h
      rw [← h]
      simp
    split at h
    · split at h
      · simp [bail] at h
      · injection h with h
        injection h with _ h
        rw [h]
    · rename_i tag after htag
      have hlen := length_tagEnd 1 false false tail tag after htag
      split at h
      · injection h with h
        injection h with _ h
        rw [← h]
        omega
      · split at h
        · simp at h
        · injection h with h
          injection h with _ h
          rw [h]
  · injection h with h
    injection h with _ h
    rw [h]

def run (p : Palette) (strict : Bool) (st : ParseState) : List Char → Except Error ParseState
  | [] => .ok st
  | c :: tail =>
      match _h : step p strict st c tail with
      | .error error => .error error
      | .ok (next, rest) => run p strict next rest
termination_by s => s.length
decreasing_by
  have hlen := length_step p strict st next c tail rest _h
  rw [List.length_cons]
  omega

def Shown (st : ParseState) : Prop :=
  AllShown st.spans ∧ IsShown st.current.text

theorem flush_shown (hs : st.Shown) : st.flush.Shown := by
  unfold flush
  split
  · exact hs
  · exact ⟨(allShown_append _ _).mpr ⟨hs.1, (allShown_cons _ _).mpr ⟨hs.2, allShown_nil⟩⟩,
      isShown_nil⟩

theorem push_shown (hc : isShown c) (hs : st.Shown) : (st.push c).Shown :=
  ⟨hs.1, by simp [push, hs.2, hc]⟩

theorem literal_shown (hs : st.Shown) : (st.literal c).Shown := by
  unfold literal
  split
  · rename_i hc
    exact st.push_shown c hc hs
  · exact hs

theorem step_shown (st next : ParseState) (c : Char)
    (tail rest : List Char) (hs : st.Shown) (h : step p strict st c tail = .ok (next, rest)) :
    next.Shown := by
  have hflush := st.flush_shown hs
  have hliteral := st.literal_shown c hs
  unfold step at h
  split at h
  · injection h with h
    injection h with h
    rw [← h]
    exact hflush
  split at h
  · split at h
    · injection h with h
      injection h with h
      rw [← h]
      exact st.push_shown '[' (by decide) hs
    split at h
    · split at h
      · simp [bail] at h
      · injection h with h
        injection h with h
        rwa [← h]
    · split at h
      · injection h with h
        injection h with h
        rw [← h]
        exact hflush
      · split at h
        · simp at h
        · injection h with h
          injection h with h
          rwa [← h]
  · injection h with h
    injection h with h
    rwa [← h]

theorem run_shown (st final : ParseState) (s : List Char)
    (hs : st.Shown) (h : run p strict st s = .ok final) : final.Shown := by
  fun_induction run p strict st s with
  | case1 st =>
      injection h with h
      rwa [← h]
  | case2 st c tail error herror => simp at h
  | case3 st c tail next rest hstep ih => exact ih (st.step_shown p strict next c tail rest hs hstep) h

end ParseState

def parse (p : Palette) (source : List Char) (strict : Bool) : Except Error (List Span) := do
  ensure (!strict || !(source.contains ESC || source.contains (Char.ofNat 0)))
    "literal escapes or NUL are not allowed"
  let st ← ParseState.run p strict ⟨[], Span.default, [], false⟩ source
  ensure (!strict || st.stack.isEmpty) "style tag is not closed"
  return st.flush.spans

theorem parse_shown {p : Palette} {source : List Char} {strict : Bool} {spans : List Span}
    (h : parse p source strict = .ok spans) : AllShown spans := by
  obtain ⟨-, -, h⟩ := bind_eq_ok _ _ _ h
  obtain ⟨st, hrun, h⟩ := bind_eq_ok _ _ _ h
  obtain ⟨-, -, h⟩ := bind_eq_ok _ _ _ h
  have hstart : ParseState.Shown ⟨[], Span.default, [], false⟩ := ⟨allShown_nil, isShown_nil⟩
  have hst := st.flush_shown (ParseState.run_shown p strict _ st source hstart hrun)
  injection h with h
  rw [← h]
  exact hst.1

end StompyMux.StyledText
