import Std.Data.TreeMap.Lemmas
import Std.Data.TreeSet.Lemmas
import StompyMux.Library.Text

namespace StompyMux.StyledText

open Library.Text

def MAX_NESTING : Nat := 32

def OSC8_URI_LIMIT : Nat := 4096

def OSC8_CLOSE : List Char := "\x1b]8;;\x1b\\".toList

inductive Error
  | Message (text : List Char)
  -- the message quotes the name
  | UnknownColor (name : List Char)
  deriving DecidableEq

def bail {α : Type} (message : List Char) : Except Error α := .error (.Message message)

def ensure (condition : Bool) (message : String) : Except Error Unit :=
  if condition then .ok () else bail message.toList

theorem bind_eq_ok {α β : Type} (first : Except Error α) (next : α → Except Error β) (result : β)
    (h : (first >>= next) = .ok result) : ∃ a, first = .ok a ∧ next a = .ok result := by
  cases first with
  | error error => simp [bind, Except.bind] at h
  | ok a => exact ⟨a, rfl, h⟩

theorem ensure_eq_ok {condition : Bool} {message : String} (h : ensure condition message = .ok ()) :
    condition := by
  unfold ensure at h
  split at h
  · assumption
  · simp [bail] at h

def parsed {α : Type} : Except ParseIntError α → Except Error α
  | .ok value => .ok value
  | .error error => bail error.message

abbrev Rgb := UInt8 × UInt8 × UInt8

structure Style where
  foreground : Option Rgb := none
  -- raw indices keep the client's palette across rendering depths
  foregroundAnsi : Option UInt8 := none
  backgroundAnsi : Option UInt8 := none
  background : Option Rgb := none
  bold : Bool := false
  italic : Bool := false
  blink : Bool := false
  underline : Bool := false
  overline : Bool := false
  strikethrough : Bool := false
  inverse : Bool := false
  deriving DecidableEq

def Style.default : Style := {}

inductive ColorDepth
  | None
  | Ansi16
  | Ansi256
  | Truecolor
  deriving DecidableEq

structure RenderOptions where
  color : ColorDepth
  capabilities : Std.TreeSet (List Char)
  mxp : Std.TreeSet (List Char)
  width : Nat

namespace RenderOptions

def has (o : RenderOptions) (capability : String) : Bool :=
  o.capabilities.contains capability.toList

def hasMxp (o : RenderOptions) (tag : String) : Bool := o.mxp.contains tag.toList

def linkEnabled (o : RenderOptions) (kind : List Char) : Bool :=
  o.has (if kind = "send".toList then "SEND" else if kind = "prompt".toList then "PROMPT" else "")

end RenderOptions

def BASE : List Rgb :=
  [(0, 0, 0), (128, 0, 0), (0, 128, 0), (128, 128, 0), (0, 0, 128), (128, 0, 128),
    (0, 128, 128), (192, 192, 192), (128, 128, 128), (255, 0, 0), (0, 255, 0), (255, 255, 0),
    (0, 0, 255), (255, 0, 255), (0, 255, 255), (255, 255, 255)]

def channel (n : Nat) : UInt8 := if n = 0 then 0 else UInt8.ofNat (55 + 40 * n)

def ansiRgb (n : Nat) : Rgb :=
  if n < 16 then BASE.getD n (0, 0, 0)
  else if 232 ≤ n then
    let level := UInt8.ofNat (8 + 10 * (min n 255 - 232))
    (level, level, level)
  else (channel ((n - 16) / 36), channel ((n - 16) / 6 % 6), channel ((n - 16) % 6))

def COLORS : List (String × Rgb) :=
  [("aliceblue", 240, 248, 255), ("antiquewhite", 250, 235, 215), ("aqua", 0, 255, 255),
    ("aquamarine", 127, 255, 212), ("azure", 240, 255, 255), ("beige", 245, 245, 220),
    ("bisque", 255, 228, 196), ("black", 0, 0, 0), ("blanchedalmond", 255, 235, 205),
    ("blue", 0, 0, 255), ("blueviolet", 138, 43, 226), ("brown", 165, 42, 42),
    ("burlywood", 222, 184, 135), ("cadetblue", 95, 158, 160), ("chartreuse", 127, 255, 0),
    ("chocolate", 210, 105, 30), ("coral", 255, 127, 80), ("cornflowerblue", 100, 149, 237),
    ("cornsilk", 255, 248, 220), ("crimson", 220, 20, 60), ("cyan", 0, 255, 255),
    ("darkblue", 0, 0, 139), ("darkcyan", 0, 139, 139), ("darkgoldenrod", 184, 134, 11),
    ("darkgray", 169, 169, 169), ("darkgreen", 0, 100, 0), ("darkgrey", 169, 169, 169),
    ("darkkhaki", 189, 183, 107), ("darkmagenta", 139, 0, 139), ("darkolivegreen", 85, 107, 47),
    ("darkorange", 255, 140, 0), ("darkorchid", 153, 50, 204), ("darkred", 139, 0, 0),
    ("darksalmon", 233, 150, 122), ("darkseagreen", 143, 188, 143),
    ("darkslateblue", 72, 61, 139), ("darkslategray", 47, 79, 79), ("darkslategrey", 47, 79, 79),
    ("darkturquoise", 0, 206, 209), ("darkviolet", 148, 0, 211), ("deeppink", 255, 20, 147),
    ("deepskyblue", 0, 191, 255), ("dimgray", 105, 105, 105), ("dimgrey", 105, 105, 105),
    ("dodgerblue", 30, 144, 255), ("firebrick", 178, 34, 34), ("floralwhite", 255, 250, 240),
    ("forestgreen", 34, 139, 34), ("fuchsia", 255, 0, 255), ("gainsboro", 220, 220, 220),
    ("ghostwhite", 248, 248, 255), ("gold", 255, 215, 0), ("goldenrod", 218, 165, 32),
    ("gray", 128, 128, 128), ("green", 0, 128, 0), ("greenyellow", 173, 255, 47),
    ("grey", 128, 128, 128), ("honeydew", 240, 255, 240), ("hotpink", 255, 105, 180),
    ("indianred", 205, 92, 92), ("indigo", 75, 0, 130), ("ivory", 255, 255, 240),
    ("khaki", 240, 230, 140), ("lavender", 230, 230, 250), ("lavenderblush", 255, 240, 245),
    ("lawngreen", 124, 252, 0), ("lemonchiffon", 255, 250, 205), ("lightblue", 173, 216, 230),
    ("lightcoral", 240, 128, 128), ("lightcyan", 224, 255, 255),
    ("lightgoldenrodyellow", 250, 250, 210), ("lightgray", 211, 211, 211),
    ("lightgreen", 144, 238, 144), ("lightgrey", 211, 211, 211), ("lightpink", 255, 182, 193),
    ("lightsalmon", 255, 160, 122), ("lightseagreen", 32, 178, 170),
    ("lightskyblue", 135, 206, 250), ("lightslategray", 119, 136, 153),
    ("lightslategrey", 119, 136, 153), ("lightsteelblue", 176, 196, 222),
    ("lightyellow", 255, 255, 224), ("lime", 0, 255, 0), ("limegreen", 50, 205, 50),
    ("linen", 250, 240, 230), ("magenta", 255, 0, 255), ("maroon", 128, 0, 0),
    ("mediumaquamarine", 102, 205, 170), ("mediumblue", 0, 0, 205),
    ("mediumorchid", 186, 85, 211), ("mediumpurple", 147, 112, 219),
    ("mediumseagreen", 60, 179, 113), ("mediumslateblue", 123, 104, 238),
    ("mediumspringgreen", 0, 250, 154), ("mediumturquoise", 72, 209, 204),
    ("mediumvioletred", 199, 21, 133), ("midnightblue", 25, 25, 112),
    ("mintcream", 245, 255, 250), ("mistyrose", 255, 228, 225), ("moccasin", 255, 228, 181),
    ("navajowhite", 255, 222, 173), ("navy", 0, 0, 128), ("oldlace", 253, 245, 230),
    ("olive", 128, 128, 0), ("olivedrab", 107, 142, 35), ("orange", 255, 165, 0),
    ("orangered", 255, 69, 0), ("orchid", 218, 112, 214), ("palegoldenrod", 238, 232, 170),
    ("palegreen", 152, 251, 152), ("paleturquoise", 175, 238, 238),
    ("palevioletred", 219, 112, 147), ("papayawhip", 255, 239, 213), ("peachpuff", 255, 218, 185),
    ("peru", 205, 133, 63), ("pink", 255, 192, 203), ("plum", 221, 160, 221),
    ("powderblue", 176, 224, 230), ("purple", 128, 0, 128), ("rebeccapurple", 102, 51, 153),
    ("red", 255, 0, 0), ("rosybrown", 188, 143, 143), ("royalblue", 65, 105, 225),
    ("saddlebrown", 139, 69, 19), ("salmon", 250, 128, 114), ("sandybrown", 244, 164, 96),
    ("seagreen", 46, 139, 87), ("seashell", 255, 245, 238), ("sienna", 160, 82, 45),
    ("silver", 192, 192, 192), ("skyblue", 135, 206, 235), ("slateblue", 106, 90, 205),
    ("slategray", 112, 128, 144), ("slategrey", 112, 128, 144), ("snow", 255, 250, 250),
    ("springgreen", 0, 255, 127), ("steelblue", 70, 130, 180), ("tan", 210, 180, 140),
    ("teal", 0, 128, 128), ("thistle", 216, 191, 216), ("tomato", 255, 99, 71),
    ("turquoise", 64, 224, 208), ("violet", 238, 130, 238), ("wheat", 245, 222, 179),
    ("white", 255, 255, 255), ("whitesmoke", 245, 245, 245), ("yellow", 255, 255, 0),
    ("yellowgreen", 154, 205, 50)]

inductive Value
  | Boolean (value : Bool)
  | Number (value : Nat)
  | Str (value : List Char)
  | Array (items : List Value)
  | Object (members : List (List Char × Value))

structure LinkConfig where
  preset : Option (List Char)
  fields : Std.TreeMap (List Char) Value

def LinkConfig.default : LinkConfig := ⟨none, ∅⟩

structure Palette where
  -- additional named colors and the named link presets
  colors : Std.TreeMap (List Char) Rgb
  presets : Std.TreeMap (List Char) LinkConfig

def ALIASES : List (List Char) :=
  ["black".toList, "red".toList, "green".toList, "yellow".toList, "blue".toList,
    "magenta".toList, "cyan".toList, "white".toList]

namespace Palette

def rgbChannels (body : List Char) : Except Error (Option Rgb) := do
  ensure (body.all (fun c => c.isDigit || c == ',')) "RGB channels must be unsigned decimal integers"
  let rgb ← (split ',' body).mapM (fun part => parsed (parseUnsigned 10 255 part))
  match rgb with
  | [r, g, b] => return some (UInt8.ofNat r, UInt8.ofNat g, UInt8.ofNat b)
  | _ => bail "RGB requires three channels".toList

def hexChannels (hex : List Char) : Except Error (Option Rgb) := do
  ensure (utf8Len hex == 6 && hex.all (fun c => c.toNat < 128)) "invalid RGB color"
  let r ← parsed (parseUnsigned 16 255 (hex.take 2))
  let g ← parsed (parseUnsigned 16 255 ((hex.drop 2).take 2))
  let b ← parsed (parseUnsigned 16 255 ((hex.drop 4).take 2))
  return some (UInt8.ofNat r, UInt8.ofNat g, UInt8.ofNat b)

def color (p : Palette) (name : List Char) : Except Error (Option Rgb) :=
  let name := toAsciiLowercase name
  match (stripPrefix "rgb(".toList name).bind (stripSuffix [')']) with
  | some body => rgbChannels body
  | none =>
      match stripPrefix ['#'] name with
      | some hex => hexChannels hex
      | none =>
          match p.colors[name]? with
          | some rgb => .ok (some rgb)
          | none =>
              match COLORS.find? (fun entry => entry.1.toList == name) with
              | some entry => .ok (some entry.2)
              | none =>
                  match (stripPrefix "bright-".toList name).bind (ALIASES.idxOf? ·) with
                  | some n => .ok (some (ansiRgb (n + 8)))
                  | none => .error (.UnknownColor name)

end Palette

-- One property of a tag. Whether its value was quoted matters to some of them.
structure Directive where
  name : List Char
  value : Option (List Char)
  quoted : Bool
  deriving DecidableEq

namespace Directive

-- The text up to the closing quote, whether there was one, and what follows it.
def quotedValue (escaped : Bool) :
    List Char → Except Error (List Char × Bool × List Char)
  | [] => if escaped then bail "unterminated escape".toList else .ok ([], false, [])
  | c :: rest =>
      if escaped then
        if c = '"' ∨ c = '\\' then do
          let (v, closed, rest) ← quotedValue false rest
          return (c :: v, closed, rest)
        else bail "invalid escape in directive".toList
      else if c = '"' then .ok ([], true, rest)
      else if c = '\\' then quotedValue true rest
      else if isControl c then bail "control byte in directive".toList
      else do
        let (v, closed, rest) ← quotedValue false rest
        return (c :: v, closed, rest)

-- The value after the equals sign, whether it was quoted, and what follows it.
def value? (rest : List Char) : Except Error (List Char × Bool × List Char) := do
  let (v, quoted, rest) ←
    match stripPrefix ['"'] rest with
    | some tail => do
        let (v, closed, rest) ← quotedValue false tail
        ensure (closed && (rest.head?.all isWhitespace))
          "unterminated or malformed quoted directive"
        pure (v, true, rest)
    | none =>
        pure (rest.takeWhile (fun c => !isWhitespace c), false,
          rest.dropWhile (fun c => !isWhitespace c))
  ensure (!v.isEmpty && utf8Len v ≤ OSC8_URI_LIMIT) "empty or oversized directive value"
  return (v, quoted, rest)

def inName (c : Char) : Bool := !(isAsciiWhitespace c || c == '=')

def next (rest : List Char) : Except Error (Directive × List Char) := do
  let name := rest.takeWhile inName
  ensure (!name.isEmpty) "invalid directive"
  match stripPrefix ['='] (rest.dropWhile inName) with
  | none => return (⟨toAsciiLowercase name, none, false⟩, rest.dropWhile inName)
  | some tail =>
      let (v, quoted, rest) ← value? tail
      return (⟨toAsciiLowercase name, some v, quoted⟩, rest)

-- Every directive reads at least one character, so `fuel` rounds are enough for `fuel` many.
def directivesFrom : Nat → List Char → Except Error (List Directive)
  | 0, _ => .ok []
  | fuel + 1, rest =>
      if rest.isEmpty then .ok []
      else do
        let (d, rest) ← next rest
        let ds ← directivesFrom fuel (trimStart rest)
        return d :: ds

def directives (s : List Char) : Except Error (List Directive) :=
  directivesFrom (trim s).length (trim s)

def text (d : Directive) : List Char := d.value.getD []

def boolean (d : Directive) : Except Error Bool := do
  ensure (!d.quoted) "boolean cannot be quoted"
  match d.value.map toAsciiLowercase with
  | none => return true
  | some v =>
      if v = "true".toList then return true
      else if v = "false".toList then return false
      else bail "invalid boolean".toList

-- Line styles stand for plain lines.
def isLineStyle (v : List Char) : Bool :=
  ["wavy".toList, "dotted".toList, "dashed".toList].contains (toAsciiLowercase v)

def line (d : Directive) : Except Error Bool :=
  if d.value.any isLineStyle then return true else d.boolean

end Directive

-- Unknown palette members are reported for the color's role.
def ground (p : Palette) (role : String) (name : List Char) : Except Error (Option Rgb) :=
  match p.color name with
  | .error (.UnknownColor _) => bail ("unknown ".toList ++ role.toList ++ " color".toList)
  | found => found

def applyStyle (p : Palette) (style : Style) (d : Directive) : Except Error Style := do
  if d.name = "fg".toList ∨ d.name = "color".toList then
    let foreground ← ground p "foreground" d.text
    return { style with foreground, foregroundAnsi := none }
  else if d.name = "bg".toList then
    let background ← ground p "background" d.text
    return { style with background, backgroundAnsi := none }
  else if d.name = "bold".toList then
    return { style with bold := ← d.boolean }
  else if d.name = "italic".toList then
    return { style with italic := ← d.boolean }
  else if d.name = "blink".toList then
    ensure d.value.isNone "blink takes no value"
    return { style with blink := true }
  else if d.name = "inverse".toList then
    ensure d.value.isNone "inverse takes no value"
    return { style with inverse := true }
  else if d.name = "underline".toList then
    return { style with underline := ← d.line }
  else if d.name = "overline".toList then
    return { style with overline := ← d.line }
  else if d.name = "strikethrough".toList then
    return { style with strikethrough := ← d.line }
  else if d.name = "text-decoration-color".toList then
    let _ ← p.color d.text
    return style
  else bail "unknown style tag".toList

example : Directive.directives "send=\"say \\\"hi\\\"\" bold".toList =
    .ok [⟨"send".toList, some "say \"hi\"".toList, true⟩, ⟨"bold".toList, none, false⟩] := by
  rfl

end StompyMux.StyledText
