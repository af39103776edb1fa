import StompyMux.Library.Machine
import StompyMux.StyledText.Markdown
import StompyMux.Telnet.Encode

namespace StompyMux.StyledText

open Library Library.Text
open StompyMux.Telnet

def distance (n : Nat) (rgb : Rgb) : Int :=
  let entry := ansiRgb n
  ((entry.1.toNat : Int) - rgb.1.toNat) ^ 2 + ((entry.2.1.toNat : Int) - rgb.2.1.toNat) ^ 2 +
    ((entry.2.2.toNat : Int) - rgb.2.2.toNat) ^ 2

def closest (entries : Nat) (rgb : Rgb) : Nat :=
  (List.range entries).foldl (fun best n => if distance n rgb < distance best rgb then n else best) 0

def joined (parameters : List Nat) : List Char :=
  List.intercalate [';'] (parameters.map decimal)

def indexedParameter (index : Nat) (bg : Bool) : Nat :=
  (if bg then 40 else 30) + index % 8 + if 8 ≤ index then 60 else 0

-- The parameters that select a color, reduced to what the terminal supports.
def color (rgb : Rgb) (bg : Bool) (depth : ColorDepth) : List Char :=
  let ground := if bg then 48 else 38
  match depth with
  | .Truecolor => joined [ground, 2, rgb.1.toNat, rgb.2.1.toNat, rgb.2.2.toNat]
  | .Ansi256 => joined [ground, 5, closest 256 rgb]
  | .None | .Ansi16 => joined [indexedParameter (closest 16 rgb) bg]

def groundColor (rgb : Option Rgb) (index : Option UInt8) (bg : Bool) (depth : ColorDepth) :
    List (List Char) :=
  match index, rgb with
  | some index, _ => [joined [indexedParameter index.toNat bg]]
  | none, some rgb => [color rgb bg depth]
  | none, none => []

def renditions (s : Style) (depth : ColorDepth) : List (List Char) :=
  let flags := [(s.bold, 1), (s.italic, 3), (s.underline, 4), (s.blink, 5), (s.inverse, 7),
    (s.strikethrough, 9), (s.overline, 53)]
  [joined [0]] ++ (flags.filter Prod.fst).map (fun flag => joined [flag.2]) ++
    groundColor s.foreground s.foregroundAnsi false depth ++
    groundColor s.background s.backgroundAnsi true depth

def rendition (parameters : List Char) : List Char := [ESC, '['] ++ parameters ++ ['m']

def ansi (s : Style) (depth : ColorDepth) : List Char :=
  if depth = .None then [] else (renditions s depth).flatMap rendition

inductive Picture
  | Text
  -- the first span of an image scope: the tag stands in for the whole scope
  | Tag (tag : List Char)
  -- a later span of the same scope, whose fallback text is left out
  | Continued

-- The style a span is shown in and the target it is a link to.
def presentation (p : Palette) (o : RenderOptions) (span : Span) : Style × Option (List Char) :=
  match span.link with
  | some link =>
      let uri := link.uri p o
      (if ¬ o.has "STYLE_BASIC" ∨ uri.isNone then link.config.fallback p span.style
        else span.style, uri)
  | none =>
      -- a hyperlink-capable terminal gets an image's text as a link to the picture
      match span.image with
      | some image =>
          (span.style,
            if image.isValid ∧ ¬ o.hasMxp "image" ∧ o.linkEnabled "url".toList then
              some image.source
            else none)
      | none => (span.style, none)

-- `previous` is the image of the span before.
def picture (o : RenderOptions) (previous : Option Image) (span : Span) : Picture :=
  match span.image with
  | none => .Text
  | some image =>
      if image.isValid ∧ o.hasMxp "image" then
        if previous = some image then .Continued else .Tag image.mxpTag
      else .Text

structure Prepared where
  text : List Char
  style : Style
  link : Option (List Char)
  picture : Picture

def prepare (p : Palette) (o : RenderOptions) (previous : Option Image) :
    List Span → List Prepared
  | [] => []
  | span :: spans =>
      ⟨span.text, (presentation p o span).1, (presentation p o span).2, picture o previous span⟩ ::
        prepare p o span.image spans

-- What the client shows in: the style, the open link, and whether any style was set.
structure Pen where
  style : Style
  link : Option (List Char)
  styled : Bool

def Pen.default : Pen := ⟨Style.default, none, false⟩

def openLink (uri : List Char) : List Char := "\x1b]8;;".toList ++ uri ++ "\x1b\\".toList

def linkChange (current next : Option (List Char)) : List Char :=
  if current = next then []
  else
    (if current.isSome then OSC8_CLOSE else []) ++
      match next with
      | some uri => openLink uri
      | none => []

-- The controls that change the presentation.
def Pen.change (o : RenderOptions) (pen : Pen) (style : Style) (link : Option (List Char)) :
    List Char :=
  linkChange pen.link link ++ if pen.style = style then [] else ansi style o.color

def Pen.changed (o : RenderOptions) (pen : Pen) (style : Style) (link : Option (List Char)) : Pen :=
  ⟨style, link, if pen.style = style then pen.styled else o.color != .None⟩

-- The spans from the current one on, and how much of it has been used.
structure Cursor where
  spans : List Prepared
  offset : Nat

def skipFinished : List Prepared → Nat → Cursor
  | [], offset => ⟨[], offset⟩
  | span :: spans, offset =>
      if offset = span.text.length then skipFinished spans 0 else ⟨span :: spans, offset⟩

structure Draft where
  candidate : List Char
  pen : Pen
  cursor : Cursor

def pieceText (span : Prepared) (offset n : Nat) : List Char :=
  match span.picture with
  | .Text => (span.text.drop offset).take n
  -- the tag replaces the whole fallback text, so it goes out once at the start
  | .Tag tag => if offset = 0 then tag else []
  | .Continued => []

-- The next `remaining` characters of the spans. Every round takes at least one of them.
def compose (o : RenderOptions) : Nat → Nat → Draft → Draft
  | 0, _, draft => draft
  | fuel + 1, remaining, draft =>
      if remaining = 0 then draft
      else
        match skipFinished draft.cursor.spans draft.cursor.offset with
        | ⟨[], offset⟩ => { draft with cursor := ⟨[], offset⟩ }
        | ⟨span :: spans, offset⟩ =>
            let n := min remaining (span.text.length - offset)
            compose o fuel (remaining - n)
              ⟨draft.candidate ++ draft.pen.change o span.style span.link ++
                  pieceText span offset n,
                draft.pen.changed o span.style span.link, ⟨span :: spans, offset + n⟩⟩

def RESET : List Char := "\x1b[0m".toList

-- The controls that close a message.
def close (link styled : Bool) : List UInt8 :=
  (if link then utf8 OSC8_CLOSE else []) ++ if styled then utf8 RESET else []

def Pen.reserve (pen : Pen) : Nat :=
  (if pen.link.isSome then (utf8 OSC8_CLOSE).length else 0) + if pen.styled then 4 else 0

structure Rendering where
  cursor : Cursor
  pen : Pen
  out : List UInt8
  chunks : List (List UInt8)
  total : Nat

namespace Rendering

-- The state after the grapheme, if it fits.
def attempt (o : RenderOptions) (limit : Nat) (st : Rendering) (g : List Char) :
    Option Rendering :=
  let draft := compose o g.length g.length ⟨[], st.pen, st.cursor⟩
  let encoded := encode draft.candidate
  if limit < st.out.length + encoded.length + draft.pen.reserve then none
  else some { st with cursor := draft.cursor, pen := draft.pen, out := st.out ++ encoded }

def closed (st : Rendering) : List UInt8 :=
  st.out ++ close st.pen.link.isSome st.pen.styled

-- Close the message and start the next one in the default presentation.
def cut (totalLimit : Nat) (st : Rendering) : Except Error Rendering := do
  ensure (!st.out.isEmpty) "output limit cannot fit a styled grapheme"
  ensure (st.total + st.closed.length ≤ totalLimit) "help output exceeds text budget"
  return ⟨st.cursor, Pen.default, [], st.chunks ++ [st.closed], st.total + st.closed.length⟩

def finish (totalLimit : Nat) (st : Rendering) : Except Error (List (List UInt8)) := do
  ensure (st.total + st.closed.length ≤ totalLimit) "help output exceeds text budget"
  return if st.closed.isEmpty then st.chunks else st.chunks ++ [st.closed]

-- A grapheme that does not fit even an empty message is an error of its own: the second
-- cut finds nothing to close.
def run (o : RenderOptions) (limit totalLimit : Nat) (complete : Bool) (st : Rendering) :
    List (List Char) → Except Error (List (List UInt8))
  | [] => st.finish totalLimit
  | g :: rest =>
      match st.attempt o limit g with
      | some next => run o limit totalLimit complete next rest
      | none =>
          if ¬ complete then st.finish totalLimit
          else do
            let fresh ← st.cut totalLimit
            match fresh.attempt o limit g with
            | some next => run o limit totalLimit complete next rest
            | none =>
                let _ ← fresh.cut totalLimit
                return []

end Rendering

def Rendering.initial (p : Palette) (o : RenderOptions) (spans : List Span) : Rendering :=
  ⟨⟨prepare p o none spans, 0⟩, Pen.default, [], [], 0⟩

def renderChunks (u : Unicode) (spans : List Span) (p : Palette) (o : RenderOptions)
    (limit totalLimit : Nat) (complete : Bool) : Except Error (List (List UInt8)) :=
  (Rendering.initial p o spans).run o limit totalLimit complete
    (u.graphemes (spans.flatMap Span.text))

-- An error is a panic: the caller expects a result.
def telnet (u : Unicode) (spans : List Span) (p : Palette) (o : RenderOptions) (limit : UInt64) :
    Except Error (List UInt8) := do
  let chunks ← renderChunks u spans p o limit.toNat USIZE_MAX false
  return chunks.getLast?.getD []

def telnetChunks (u : Unicode) (spans : List Span) (p : Palette) (o : RenderOptions)
    (limit totalLimit : Nat) : Except Error (List (List UInt8)) :=
  renderChunks u spans p o limit totalLimit true

def styledReserve (styled : Bool) : Nat := if styled then 4 else 0

-- The graphemes that fit, and whether all of them did.
def nativeText (limit : Nat) (styled : Bool) (out : List UInt8) :
    List (List Char) → List UInt8 × Bool
  | [] => (out, true)
  | g :: rest =>
      if limit < out.length + (encode g).length + styledReserve styled then (out, false)
      else nativeText limit styled (out ++ encode g) rest

def nativeTelnet (u : Unicode) (o : RenderOptions) (limit : Nat) (styled : Bool)
    (out : List UInt8) : List NativeEvent → List UInt8
  | [] => out ++ close false styled
  | .Style style :: rest =>
      let encoded := encode (ansi style o.color)
      let nextStyled := styled || o.color != .None
      if limit < out.length + encoded.length + styledReserve nextStyled then
        out ++ close false styled
      else nativeTelnet u o limit nextStyled (out ++ encoded) rest
  | .Text text :: rest =>
      match nativeText limit styled out (u.graphemes text) with
      | (out, true) => nativeTelnet u o limit styled out rest
      | (out, false) => out ++ close false styled

end StompyMux.StyledText
