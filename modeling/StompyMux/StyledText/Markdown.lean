import StompyMux.StyledText.Parser

namespace StompyMux.StyledText

open Library.Text

-- The Unicode tables: segmentation into user-perceived characters and into words, and the
-- display width. A segmentation loses nothing and never parts a carriage return from its
-- line feed.
structure Unicode where
  graphemes : List Char → List (List Char)
  wordBounds : List Char → List (List Char)
  width : List Char → Nat
  graphemes_flatten : ∀ text, (graphemes text).flatten = text
  graphemes_ne_nil : ∀ text, ∀ g ∈ graphemes text, g ≠ []
  graphemes_newline : ∀ text, (graphemes text).IsChain
    (fun g next => ¬(g.getLast? = some '\r' ∧ next.head? = some '\n'))

namespace Markdown

inductive Alignment
  | None
  | Left
  | Center
  | Right
  deriving DecidableEq

inductive Tag
  | Paragraph
  | Heading (level : Nat)
  | BlockQuote
  | CodeBlock
  | List (start : Option Nat)
  | Item
  | Table (alignment : List Alignment)
  | TableHead
  | TableRow
  | TableCell
  | Emphasis
  | Strong
  | Strikethrough
  | Link (destUrl : List Char)
  | Image (destUrl : List Char)
  | Other

inductive TagEnd
  | Paragraph
  | Heading
  | BlockQuote
  | CodeBlock
  | List
  | Item
  | Table
  | TableHead
  | TableRow
  | TableCell
  | Emphasis
  | Strong
  | Strikethrough
  | Link
  | Image
  | Other
  deriving DecidableEq

inductive Event
  | Start (tag : Tag)
  | End (tag : TagEnd)
  | Text (text : List Char)
  | Code (text : List Char)
  | SoftBreak
  | HardBreak
  | Rule
  | TaskListMarker (checked : Bool)
  -- raw HTML, footnotes and the like
  | Other

-- The bytes of a navigation URL; `digits` counts the hexadecimal digits still to come.
def decodeUrl (digits value : Nat) : List UInt8 → Option (List UInt8)
  | [] => if digits = 0 then some [] else none
  | b :: bytes =>
      if digits = 0 then
        if b = 37 then decodeUrl 2 0 bytes else (decodeUrl 0 0 bytes).map (b :: ·)
      else
        match digitValue 16 (Char.ofNat b.toNat) with
        | none => none
        | some digit =>
            if digits = 1 then (decodeUrl 0 0 bytes).map (UInt8.ofNat (value * 16 + digit) :: ·)
            else decodeUrl (digits - 1) (value * 16 + digit) bytes

def localUrl (url : List Char) : Option (List Char) :=
  ((decodeUrl 0 0 (utf8 url)).bind fromUtf8).filter (fun text => !text.any isControl)

-- Every round drops a suffix of three characters.
def trimEndMarkdown : Nat → List Char → List Char
  | 0, url => url
  | fuel + 1, url =>
      match stripSuffix ".md".toList url with
      | none => url
      | some url => trimEndMarkdown fuel url

-- The path components, each of which may step back over the one before.
def resolve (parts : List (List Char)) : List (List Char) → Option (List (List Char))
  | [] => some parts
  | component :: rest =>
      if component = [] ∨ component = ['.'] then resolve parts rest
      else if component = "..".toList then
        if parts = [] then none else resolve parts.dropLast rest
      else resolve (parts ++ [component]) rest

def articleDir (article : Option (List Char)) : List (List Char) :=
  match article.bind (rsplitOnce '/') with
  | none => []
  | some (dir, _) => split '/' dir

def articlePath (url : List Char) (article : Option (List Char)) : Option (List (List Char)) :=
  let parts := if ['/'].isPrefixOf url then [] else articleDir article
  let path := url.dropWhile (· == '/')
  (resolve parts (split '/' (trimEndMarkdown path.length path))).filter (fun parts => parts != [])

-- Translate safe URLs and help destinations into shared actions.
def link (url : List Char) (article : Option (List Char)) : Option Link :=
  let help := fun topic => some ⟨.Send, "help ".toList ++ topic, LinkConfig.default⟩
  if external url then some ⟨.External, url, LinkConfig.default⟩
  else
    match (stripPrefix "help:".toList url).filter (fun s => !s.isEmpty && !s.any isControl) with
    | some topic => (localUrl topic).bind help
    | none =>
        if !url.contains ':' && !"//".toList.isPrefixOf url && !url.any isControl then
          ((localUrl url).bind (articlePath · article)).bind
            (fun parts => help (List.intercalate ['/'] parts))
        else none

def charIndices (offset : Nat) : List Char → List (Nat × Char)
  | [] => []
  | c :: text => (offset, c) :: charIndices (offset + c.utf8Size) text

def pieceIndices (offset : Nat) : List (List Char) → List (Nat × List Char)
  | [] => []
  | piece :: pieces => (offset, piece) :: pieceIndices (offset + utf8Len piece) pieces

-- The positions, in bytes, of line breaks to insert and of characters to leave out.
structure WrapState where
  breaks : List Nat
  omitted : List Nat
  pending : List Nat
  pendingWidth : Nat
  col : Nat

def WrapState.grapheme (u : Unicode) (width : Nat) (st : WrapState)
    (piece : Nat × List Char) : WrapState :=
  let w := u.width piece.2
  if st.col + w > width ∧ st.col > 0 then
    { st with breaks := piece.1 :: st.breaks, col := w }
  else { st with col := st.col + w }

def WrapState.word (u : Unicode) (width : Nat) (st : WrapState)
    (piece : Nat × List Char) : WrapState :=
  let (offset, word) := piece
  if word.all isWhitespace ∧ ¬ word.contains '\n' then
    { st with
      pending := st.pending ++ (charIndices offset word).map Prod.fst
      pendingWidth := st.pendingWidth + u.width word }
  else if word.contains '\n' then
    { st with omitted := st.omitted ++ st.pending, pending := [], pendingWidth := 0, col := 0 }
  else
    let placed :=
      if st.col > 0 ∧ st.col + st.pendingWidth + u.width word > width then
        { st with
          omitted := st.omitted ++ st.pending, breaks := offset :: st.breaks
          pending := [], pendingWidth := 0, col := 0 }
      else { st with col := st.col + st.pendingWidth, pending := [], pendingWidth := 0 }
    (pieceIndices offset (u.graphemes word)).foldl (grapheme u width) placed

def visibleText (spans : List Span) : List Char := spans.flatMap Span.text

def wrapChar (breaks omitted : List Nat) (entry : Nat × Char) : List Char :=
  (if breaks.contains entry.1 then ['\n'] else []) ++
    (if omitted.contains entry.1 then [] else [entry.2])

def wrapSpans (breaks omitted : List Nat) (offset : Nat) : List Span → List Span
  | [] => []
  | span :: spans =>
      { span with text := (charIndices offset span.text).flatMap (wrapChar breaks omitted) } ::
        wrapSpans breaks omitted (offset + utf8Len span.text) spans

def wrap (u : Unicode) (spans : List Span) (width : Nat) : List Span :=
  let words := pieceIndices 0 (u.wordBounds (visibleText spans))
  let st := words.foldl (WrapState.word u width) ⟨[], [], [], 0, 0⟩
  wrapSpans st.breaks (st.omitted ++ st.pending) 0 spans

def splitInclusive : List Char → List (List Char)
  | [] => []
  | c :: text =>
      if c = '\n' then ['\n'] :: splitInclusive text
      else
        match splitInclusive text with
        | [] => [[c]]
        | piece :: pieces => (c :: piece) :: pieces

structure PrefixState where
  out : List Span
  start : Bool
  initial : Bool

def prefixPiece (first continuation : List Char) (span : Span) (st : PrefixState)
    (piece : List Char) : PrefixState :=
  let marked := st.start && piece != ['\n']
  let mark := if marked then [Span.plain (if st.initial then first else continuation)] else []
  ⟨st.out ++ mark ++ [{ span with text := piece }], piece.getLast? == some '\n',
    st.initial && !marked⟩

def prefixSpan (first continuation : List Char) (st : PrefixState) (span : Span) : PrefixState :=
  (splitInclusive span.text).foldl (prefixPiece first continuation span) st

def prefixed (spans : List Span) (first continuation : List Char) : List Span :=
  (spans.foldl (prefixSpan first continuation) ⟨[], true, true⟩).out

def spaces (n : Nat) : List Char := List.replicate n ' '

structure BlockLayout where
  quotes : Nat
  -- the innermost list item comes first
  indents : List Nat
  marker : Option (List Char)

namespace BlockLayout

def base (layout : BlockLayout) : List Char :=
  (List.replicate layout.quotes "> ".toList).flatten

def continuation (layout : BlockLayout) : List Char := layout.base ++ spaces layout.indents.sum

def first (layout : BlockLayout) : List Char :=
  match layout.marker with
  | none => layout.continuation
  | some marker => layout.base ++ spaces (layout.indents.sum - utf8Len marker) ++ marker

def render (u : Unicode) (layout : BlockLayout) (block : List Span) (code : Bool)
    (width : Nat) : List Span :=
  let available := max (width - u.width layout.continuation) 1
  -- at extremely narrow widths the prefixes are left out
  let narrow := width ≤ u.width layout.continuation
  prefixed (if code then block else wrap u block available)
    (if narrow then [] else layout.first) (if narrow then [] else layout.continuation)

end BlockLayout

def textWidth (u : Unicode) (cell : List Span) : Nat := u.width (visibleText cell)

-- The columns of a table, as wide as their widest cell.
def columnWidths (u : Unicode) (rows : List (List (List Span))) : List Nat :=
  let columns := (rows.map List.length).foldl max 0
  (List.range columns).map (fun i =>
    (rows.filterMap (fun row => row[i]?)).foldl (fun w cell => max w (textWidth u cell)) 0)

def cellLabel (rows : List (List (List Span))) (i : Nat) : Span :=
  let label :=
    match (rows.head?.getD [])[i]? with
    | some cell => visibleText cell
    | none => "Column ".toList ++ decimal (i + 1)
  { Span.plain (label ++ ": ".toList) with style := { Style.default with bold := true } }

def leading (alignment : List Alignment) (i padding : Nat) : Nat :=
  match alignment[i]? with
  | some .Right => padding
  | some .Center => padding / 2
  | _ => 0

def cellSpans (u : Unicode) (rows : List (List (List Span))) (alignment : List Alignment)
    (widths : List Nat) (fits : Bool) (r i : Nat) (cell : List Span) : List Span :=
  let padding := widths.getD i 0 - textWidth u cell
  let lead := if fits then leading alignment i padding else 0
  (if ¬ fits ∧ 0 < r then [cellLabel rows i] else []) ++
    (if 0 < lead then [Span.plain (spaces lead)] else []) ++ cell ++
    [Span.plain (if fits ∧ i + 1 < widths.length then spaces (padding - lead) ++ " | ".toList
      else ['\n'])]

def tableSpans (u : Unicode) (rows : List (List (List Span))) (width : Nat)
    (alignment : List Alignment) : List Span :=
  let widths := columnWidths u rows
  let fits : Bool := widths.sum + (widths.length - 1) * 3 ≤ width
  let out := rows.zipIdx.flatMap (fun row => row.1.zipIdx.flatMap (fun cell =>
    cellSpans u rows alignment widths fits row.2 cell.2 cell.1))
  if fits then out else wrap u out width

structure State where
  out : List Span
  block : List Span
  style : Style
  stack : List Style
  activeLink : Option Link
  activeImage : Option Image
  -- whether the open image has produced alternative text yet
  imageText : Bool
  code : Bool
  lists : List (Option Nat)
  table : Option (List (List (List Span)))
  tableAlignment : List Alignment
  row : List (List Span)
  cell : List Span
  inCell : Bool
  layout : BlockLayout

def State.initial : State :=
  ⟨[], [], Style.default, [], none, none, false, false, [], none, [], [], [], false, ⟨0, [], none⟩⟩

namespace State

-- Lay out one block; the list marker is used up by the first one.
def emitBlock (u : Unicode) (width : Nat) (code : Bool) (block : List Span) (st : State) : State :=
  if block.isEmpty then st
  else
    { st with
      out := st.out ++ st.layout.render u block code width
      layout := { st.layout with marker := none } }

def flushAs (u : Unicode) (width : Nat) (code : Bool) (st : State) : State :=
  { st.emitBlock u width code st.block with block := [] }

def flush (u : Unicode) (width : Nat) (st : State) : State := st.flushAs u width st.code

def pushSpan (st : State) (span : Span) : State :=
  if st.inCell then { st with cell := st.cell ++ [span] }
  else { st with block := st.block ++ [span] }

-- Text in the current presentation.
def pushText (st : State) (text : List Char) : State :=
  { st.pushSpan ⟨text, st.style, st.activeLink, st.activeImage⟩ with
    imageText := st.imageText || st.activeImage.isSome }

-- A block that is still on a line ends it.
def endLine (st : State) : State :=
  if st.block.getLast?.any (fun span => span.text.getLast? != some '\n') then
    { st with block := st.block ++ [Span.plain ['\n']] }
  else st

def endRow (st : State) : State :=
  match st.table with
  | none => st
  | some rows => { st with table := some (rows ++ [st.row]), row := [] }

def endTable (u : Unicode) (width : Nat) (st : State) : State :=
  match st.table with
  | none => st
  | some rows =>
      let inset := st.layout.quotes * 2 + st.layout.indents.sum
      let available := if width ≤ inset then width else width - inset
      { st.emitBlock u width true (tableSpans u rows available st.tableAlignment) with
        table := none }

def startItem (st : State) : State :=
  let (marker, lists) :=
    match st.lists with
    | some n :: lists => (decimal n ++ ". ".toList, some (n + 1) :: lists)
    | lists => ("- ".toList, lists)
  { st with
    lists := lists
    layout :=
      ⟨st.layout.quotes, utf8Len marker :: st.layout.indents, some marker⟩ }

def endLink (options : RenderOptions) (st : State) : State :=
  match st.activeLink with
  | none => st
  | some link =>
      let closed := { st with activeLink := none }
      if link.kind = .External ∧ ¬ options.linkEnabled "url".toList then
        closed.pushText (" (".toList ++ link.target ++ ")".toList)
      else closed

def endImage (options : RenderOptions) (st : State) : State :=
  match st.activeImage with
  | none => st
  | some image =>
      let closed := { st with activeImage := none }
      -- without alternative text the file name stands in for the picture
      let named :=
        if st.imageText then closed
        else closed.pushSpan ⟨image.fileName, st.style, st.activeLink, some image⟩
      if ¬ options.hasMxp "image" ∧ ¬ options.linkEnabled "url".toList then
        named.pushText (" (".toList ++ image.source ++ ")".toList)
      else named

def start (u : Unicode) (width : Nat) (article : Option (List Char)) (st : State) :
    Tag → State
  | .Table alignment => { ({ st with tableAlignment := alignment }).flush u width with table := some [] }
  | .TableHead | .TableRow => { st with row := [] }
  | .TableCell => { st with cell := [], inCell := true }
  | .Emphasis => { st with stack := st.style :: st.stack, style := { st.style with italic := true } }
  | .Strong => { st with stack := st.style :: st.stack, style := { st.style with bold := true } }
  | .Strikethrough =>
      { st with stack := st.style :: st.stack, style := { st.style with strikethrough := true } }
  | .Heading level =>
      let flushed := st.flush u width
      ({ flushed with style := { flushed.style with bold := true } }).pushText
        (List.replicate level '#' ++ [' '])
  | .CodeBlock => { st.flush u width with code := true }
  | .BlockQuote =>
      let flushed := st.flush u width
      { flushed with layout := { flushed.layout with quotes := flushed.layout.quotes + 1 } }
  | .List start =>
      let flushed := st.endLine.flush u width
      { flushed with lists := start :: flushed.lists }
  | .Item => (st.flush u width).startItem
  | .Link destUrl => { st with activeLink := link destUrl article }
  | .Image destUrl =>
      { st with
        activeImage :=
          match Image.fromUrl destUrl with
          | .ok image => some image
          | .error _ => none
        imageText := false }
  | .Paragraph | .Other => st

def finish (u : Unicode) (width : Nat) (options : RenderOptions) (st : State) :
    TagEnd → State
  | .TableCell => { st with row := st.row ++ [st.cell], cell := [], inCell := false }
  | .TableHead | .TableRow => st.endRow
  | .Table => st.endTable u width
  | .Emphasis | .Strong | .Strikethrough =>
      { st with style := st.stack.headD Style.default, stack := st.stack.tail }
  | .Heading => (({ st with style := Style.default }).pushText "\n\n".toList).flush u width
  | .CodeBlock => ({ st.flushAs u width true with code := false }).pushText ['\n']
  | .BlockQuote =>
      let flushed := st.flush u width
      { flushed with layout := { flushed.layout with quotes := flushed.layout.quotes - 1 } }
  | .List =>
      let flushed := st.flush u width
      let lists := flushed.lists.tail
      { flushed with
        lists := lists
        out := if lists = [] then flushed.out ++ [Span.plain ['\n']] else flushed.out }
  | .Item =>
      let flushed := st.endLine.flush u width
      { flushed with
        layout := { flushed.layout with indents := flushed.layout.indents.tail, marker := none } }
  | .Paragraph =>
      (st.pushText (if st.lists = [] then "\n\n".toList else ['\n'])).flush u width
  | .Link => st.endLink options
  | .Image => st.endImage options
  | .Other => st

def step (u : Unicode) (width : Nat) (options : RenderOptions) (article : Option (List Char))
    (st : State) : Event → State
  | .Start tag => st.start u width article tag
  | .End tag => st.finish u width options tag
  | .Text s => st.pushText (stripControls s)
  | .Code s =>
      { st.pushSpan ⟨stripControls s, Style.default, none, st.activeImage⟩ with
        imageText := st.imageText || st.activeImage.isSome }
  | .SoftBreak => st.pushText [' ']
  | .HardBreak => st.pushText ['\n']
  | .Rule => st.pushText (List.replicate (min width 40) '─' ++ ['\n'])
  | .TaskListMarker checked => st.pushText (if checked then "[x] ".toList else "[ ] ".toList)
  | .Other => st

end State

-- The events come from the CommonMark parser.
def spansAt (u : Unicode) (events : List Event) (options : RenderOptions)
    (article : Option (List Char)) : List Span :=
  let width := max options.width 1
  ((events.foldl (State.step u width options article) State.initial).flush u width).out

theorem mem_charIndices (offset i : Nat) (text : List Char) (c : Char)
    (h : (i, c) ∈ charIndices offset text) : c ∈ text := by
  induction text generalizing offset with
  | nil => simp [charIndices] at h
  | cons d text ih =>
      rcases List.mem_cons.mp h with h | h
      · injection h with _ h
        rw [h]
        exact List.mem_cons_self
      · exact List.mem_cons_of_mem d (ih _ h)

theorem wrapSpans_shown (breaks omitted : List Nat) (offset : Nat) {spans : List Span}
    (hs : AllShown spans) : AllShown (wrapSpans breaks omitted offset spans) := by
  induction spans generalizing offset with
  | nil => exact allShown_nil
  | cons span spans ih =>
      rw [allShown_cons] at hs
      refine (allShown_cons _ _).mpr ⟨?_, ih _ hs.2⟩
      intro c hc
      obtain ⟨entry, hentry, hc⟩ := List.mem_flatMap.mp hc
      unfold wrapChar at hc
      rcases List.mem_append.mp hc with hc | hc
      · split at hc
        · rw [List.mem_singleton.mp hc]
          decide
        · simp at hc
      · split at hc
        · simp at hc
        · rw [List.mem_singleton.mp hc]
          exact hs.1 _ (mem_charIndices offset entry.1 span.text entry.2 hentry)

variable (u : Unicode) (spans : List Span) (layout : BlockLayout) (rows : List (List (List Span)))
  (width : Nat)

theorem wrap_shown (hs : AllShown spans) :
    AllShown (wrap u spans width) := wrapSpans_shown _ _ 0 hs

theorem mem_splitInclusive (text piece : List Char) (c : Char) (hp : piece ∈ splitInclusive text)
    (hc : c ∈ piece) : c ∈ text := by
  induction text generalizing piece with
  | nil => simp [splitInclusive] at hp
  | cons d text ih =>
      unfold splitInclusive at hp
      split at hp
      · rename_i hd
        rcases List.mem_cons.mp hp with rfl | hp
        · rw [List.mem_singleton.mp hc, hd]
          exact List.mem_cons_self
        · exact List.mem_cons_of_mem d (ih piece hp hc)
      · split at hp
        · rw [List.mem_singleton.mp hp, List.mem_singleton] at hc
          rw [hc]
          exact List.mem_cons_self
        · rename_i first pieces hsplit
          rcases List.mem_cons.mp hp with rfl | hp
          · rcases List.mem_cons.mp hc with rfl | hc
            · exact List.mem_cons_self
            · exact List.mem_cons_of_mem d (ih first (by simp [hsplit]) hc)
          · exact List.mem_cons_of_mem d (ih piece (by simp [hsplit, hp]) hc)

theorem prefixPiece_shown {first continuation : List Char} (span : Span) {st : PrefixState}
    {piece : List Char} (hf : IsShown first) (hc : IsShown continuation) (hp : IsShown piece)
    (hs : AllShown st.out) : AllShown (prefixPiece first continuation span st piece).out := by
  have hmark : IsShown (if st.initial then first else continuation) := by
    split
    · exact hf
    · exact hc
  simp only [prefixPiece, allShown_append, allShown_cons, allShown_nil, and_true]
  refine ⟨⟨hs, ?_⟩, hp⟩
  split
  · exact (allShown_cons _ _).mpr ⟨hmark, allShown_nil⟩
  · exact allShown_nil

theorem prefixSpan_shown (first continuation : List Char) (st : PrefixState) (span : Span)
    (hf : IsShown first) (hc : IsShown continuation) (hspan : IsShown span.text)
    (hs : AllShown st.out) : AllShown (prefixSpan first continuation st span).out := by
  have hpieces : ∀ piece ∈ splitInclusive span.text, IsShown piece := fun piece hp =>
    isShown_of_subset hspan (fun c hc => mem_splitInclusive _ piece c hp hc)
  unfold prefixSpan
  generalize splitInclusive span.text = pieces at hpieces
  induction pieces generalizing st with
  | nil => exact hs
  | cons piece pieces ih =>
      exact ih _ (prefixPiece_shown span hf hc
          (hpieces piece List.mem_cons_self) hs)
        (fun other ho => hpieces other (List.mem_cons_of_mem piece ho))

theorem prefixed_shown (first continuation : List Char) (hf : IsShown first)
    (hc : IsShown continuation) (hs : AllShown spans) :
    AllShown (prefixed spans first continuation) := by
  have hfold : ∀ st : PrefixState, AllShown st.out →
      AllShown (spans.foldl (prefixSpan first continuation) st).out := by
    induction spans with
    | nil => exact fun st hst => hst
    | cons span spans ih =>
        intro st hst
        rw [allShown_cons] at hs
        exact ih hs.2 _ (prefixSpan_shown first continuation st span hf hc hs.1 hst)
  exact hfold _ allShown_nil

theorem spaces_shown (n : Nat) : IsShown (spaces n) := by
  intro c hc
  rw [List.eq_of_mem_replicate hc]
  decide

theorem continuation_shown : IsShown layout.continuation := by
  have hquote : ∀ c ∈ "> ".toList, isShown c := by decide
  refine (isShown_append _ _).mpr ⟨?_, spaces_shown _⟩
  intro c hc
  obtain ⟨mark, hmark, hc⟩ := List.mem_flatten.mp hc
  rw [List.eq_of_mem_replicate hmark] at hc
  exact hquote c hc

theorem first_shown (hm : ∀ marker ∈ layout.marker, IsShown marker) : IsShown layout.first := by
  unfold BlockLayout.first
  split
  · exact continuation_shown layout
  · rename_i marker hmarker
    have hbase := (isShown_append _ _).mp (continuation_shown layout)
    simp only [isShown_append]
    exact ⟨⟨hbase.1, spaces_shown _⟩, hm marker hmarker⟩

theorem render_shown {block : List Span} (code : Bool)
    (width : Nat) (hm : ∀ marker ∈ layout.marker, IsShown marker) (hb : AllShown block) :
    AllShown (layout.render u block code width) := by
  have hunless : ∀ (p : Prop) [Decidable p] (text : List Char), IsShown text →
      IsShown (if p then [] else text) := by
    intro p _ text ht
    split
    · exact isShown_nil
    · exact ht
  unfold BlockLayout.render
  apply prefixed_shown
  · exact hunless _ _ (first_shown layout hm)
  · exact hunless _ _ (continuation_shown layout)
  · split
    · exact hb
    · exact wrap_shown u block _ hb

theorem visibleText_shown (hs : AllShown spans) : IsShown (visibleText spans) := by
  intro c hc
  obtain ⟨span, hspan, hc⟩ := List.mem_flatMap.mp hc
  exact hs span hspan c hc

def RowsShown (rows : List (List (List Span))) : Prop :=
  ∀ row ∈ rows, ∀ cell ∈ row, AllShown cell

theorem cellLabel_shown (i : Nat) (hr : RowsShown rows) : IsShown (cellLabel rows i).text := by
  have hcolumn : ∀ c ∈ "Column ".toList, isShown c := by decide
  refine (isShown_append _ _).mpr ⟨?_, by unfold IsShown; decide⟩
  split
  · rename_i cell hcell
    have hmem := List.mem_of_getElem? hcell
    cases rows with
    | nil => simp at hmem
    | cons row rows => exact visibleText_shown cell (hr row List.mem_cons_self cell hmem)
  · exact (isShown_append _ _).mpr ⟨hcolumn, isShown_decimal _⟩

theorem cellSpans_shown
    (alignment : List Alignment) (widths : List Nat) (fits : Bool) (r i : Nat) {cell : List Span}
    (hr : RowsShown rows) (hc : AllShown cell) :
    AllShown (cellSpans u rows alignment widths fits r i cell) := by
  have hbar : IsShown " | ".toList := by
    unfold IsShown
    decide
  have hlead : ∀ n, AllShown (if 0 < n then [Span.plain (spaces n)] else []) := by
    intro n
    split
    · exact allShown_plain _ (spaces_shown n)
    · exact allShown_nil
  simp only [cellSpans, allShown_append]
  refine ⟨⟨⟨?_, ?_⟩, hc⟩, allShown_plain _ ?_⟩
  · split
    · exact (allShown_cons _ _).mpr ⟨cellLabel_shown rows i hr, allShown_nil⟩
    · exact allShown_nil
  · exact hlead _
  · split
    · exact (isShown_append _ _).mpr ⟨spaces_shown _, hbar⟩
    · unfold IsShown
      decide

theorem tableSpans_shown (alignment : List Alignment) (hr : RowsShown rows) :
    AllShown (tableSpans u rows width alignment) := by
  have hout : ∀ (widths : List Nat) (fits : Bool),
      AllShown (rows.zipIdx.flatMap (fun row => row.1.zipIdx.flatMap (fun cell =>
        cellSpans u rows alignment widths fits row.2 cell.2 cell.1))) := by
    intro widths fits span hspan
    obtain ⟨row, hrow, hspan⟩ := List.mem_flatMap.mp hspan
    obtain ⟨cell, hcell, hspan⟩ := List.mem_flatMap.mp hspan
    have hcells := hr row.1 (List.fst_mem_of_mem_zipIdx hrow)
    exact cellSpans_shown u rows alignment widths fits row.2 cell.2 hr
      (hcells cell.1 (List.fst_mem_of_mem_zipIdx hcell)) span hspan
  unfold tableSpans
  dsimp only
  split
  · exact hout _ _
  · exact wrap_shown u _ width (hout _ _)

theorem link_external {url : List Char} {article : Option (List Char)} {found : Link}
    (h : link url article = some found) (hk : found.kind = .External) : external found.target := by
  have hhelp : ∀ (topic : List Char) (other : Link),
      some (⟨.Send, "help ".toList ++ topic, LinkConfig.default⟩ : Link) = some other →
        other.kind = .Send := by
    intro topic other ho
    rw [← Option.some.inj ho]
  unfold link at h
  split at h
  · rename_i hexternal
    rw [← Option.some.inj h]
    exact hexternal
  · -- every other link is a command
    have hsend : found.kind = .Send := by
      split at h
      · obtain ⟨topic, -, h⟩ := Option.bind_eq_some_iff.mp h
        exact hhelp _ found h
      · split at h
        · obtain ⟨parts, -, h⟩ := Option.bind_eq_some_iff.mp h
          exact hhelp _ found h
        · simp at h
    rw [hk] at hsend
    simp at hsend

namespace State

-- No text that has been collected holds a terminal control.
structure Shown (st : State) : Prop where
  out : AllShown st.out
  block : AllShown st.block
  cell : AllShown st.cell
  row : ∀ cell ∈ st.row, AllShown cell
  table : ∀ rows ∈ st.table, RowsShown rows
  marker : ∀ marker ∈ st.layout.marker, IsShown marker
  link : ∀ link ∈ st.activeLink, link.kind = .External → IsShown link.target
  image : ∀ image ∈ st.activeImage, image.isValid

theorem initial_shown : initial.Shown where
  out := allShown_nil
  block := allShown_nil
  cell := allShown_nil
  row := by simp [initial]
  table := by simp [initial]
  marker := by simp [initial]
  link := by simp [initial]
  image := by simp [initial]

variable (st : State) (u : Unicode) (width : Nat) (options : RenderOptions)

theorem Shown.layoutAs (quotes : Nat) (indents : List Nat) (hs : st.Shown) :
    ({ st with layout := ⟨quotes, indents, none⟩ } : State).Shown :=
  { hs with marker := by simp }

theorem Shown.emitBlock (st : State) (u : Unicode) (width : Nat) (code : Bool) (block : List Span)
    (hb : AllShown block) (hs : st.Shown) : (st.emitBlock u width code block).Shown := by
  unfold State.emitBlock
  split
  · exact hs
  · have hrender := render_shown u st.layout code width hs.marker hb
    exact { hs with
      out := (allShown_append _ _).mpr ⟨hs.out, hrender⟩
      marker := by simp }

theorem Shown.flushAs (st : State) (u : Unicode) (width : Nat) (code : Bool) (hs : st.Shown) :
    (st.flushAs u width code).Shown :=
  { hs.emitBlock st u width code st.block hs.block with block := allShown_nil }

theorem Shown.flush (st : State) (u : Unicode) (width : Nat) (hs : st.Shown) :
    (st.flush u width).Shown := hs.flushAs st u width st.code

theorem Shown.pushSpan (st : State) (span : Span) (ht : IsShown span.text) (hs : st.Shown) :
    (st.pushSpan span).Shown := by
  have hspan : AllShown [span] := (allShown_cons _ _).mpr ⟨ht, allShown_nil⟩
  unfold State.pushSpan
  split
  · exact { hs with cell := (allShown_append _ _).mpr ⟨hs.cell, hspan⟩ }
  · exact { hs with block := (allShown_append _ _).mpr ⟨hs.block, hspan⟩ }

theorem Shown.pushText (st : State) (text : List Char) (ht : IsShown text) (hs : st.Shown) :
    (st.pushText text).Shown :=
  { hs.pushSpan st ⟨text, st.style, st.activeLink, st.activeImage⟩ ht with }

theorem Shown.endLine (st : State) (hs : st.Shown) : st.endLine.Shown := by
  have hline : IsShown ['\n'] := by
    unfold IsShown
    decide
  unfold State.endLine
  split
  · exact { hs with block := (allShown_append _ _).mpr ⟨hs.block, allShown_plain _ hline⟩ }
  · exact hs

theorem Shown.endRow (st : State) (hs : st.Shown) : st.endRow.Shown := by
  unfold State.endRow
  split
  · exact hs
  · rename_i rows hrows
    refine { hs with row := by simp, table := ?_ }
    intro other ho row hrow
    rw [← Option.some.inj ho] at hrow
    rcases List.mem_append.mp hrow with hrow | hrow
    · exact hs.table rows hrows row hrow
    · rw [List.mem_singleton.mp hrow]
      exact hs.row

theorem Shown.endTable (st : State) (u : Unicode) (width : Nat) (hs : st.Shown) :
    (st.endTable u width).Shown := by
  unfold State.endTable
  split
  · exact hs
  · rename_i rows hrows
    have hspans := fun available =>
      tableSpans_shown u rows available st.tableAlignment (hs.table rows hrows)
    exact { hs.emitBlock st u width true _ (hspans _) with table := by simp }

theorem Shown.startItem (st : State) (hs : st.Shown) : st.startItem.Shown := by
  have hdot : IsShown ". ".toList := by
    unfold IsShown
    decide
  have hdash : IsShown "- ".toList := by
    unfold IsShown
    decide
  have hmarker : ∀ (marker : List Char) (lists : List (Option Nat)) (indents : List Nat),
      IsShown marker →
      ({ st with lists := lists, layout := ⟨st.layout.quotes, indents, some marker⟩ } : State).Shown := by
    intro marker lists indents hm
    exact { hs with marker := fun other ho => by rwa [← Option.some.inj ho] }
  unfold State.startItem
  dsimp only
  split
  · exact hmarker _ _ _ ((isShown_append _ _).mpr ⟨isShown_decimal _, hdot⟩)
  · exact hmarker _ _ _ hdash

theorem parenthesised_shown {text : List Char} (ht : IsShown text) :
    IsShown (" (".toList ++ text ++ ")".toList) := by
  have hopen : IsShown " (".toList := by
    unfold IsShown
    decide
  have hclose : IsShown ")".toList := by
    unfold IsShown
    decide
  simp only [isShown_append]
  exact ⟨⟨hopen, ht⟩, hclose⟩

theorem Shown.endLink (st : State) (options : RenderOptions) (hs : st.Shown) :
    (st.endLink options).Shown := by
  unfold State.endLink
  split
  · exact hs
  · rename_i link hlink
    have hclosed : ({ st with activeLink := none } : State).Shown := { hs with link := by simp }
    split
    · rename_i hk
      exact hclosed.pushText _ _ (parenthesised_shown (hs.link link hlink hk.1))
    · exact hclosed

theorem Shown.endImage (st : State) (options : RenderOptions) (hs : st.Shown) :
    (st.endImage options).Shown := by
  unfold State.endImage
  split
  · exact hs
  · rename_i image himage
    have hsource := isShown_of_isUri _ (image.isValid_isUri (hs.image image himage))
    have hname : IsShown image.fileName :=
      isShown_of_subset hsource (fun c hc => image.mem_fileName c hc)
    have hclosed : ({ st with activeImage := none } : State).Shown := { hs with image := by simp }
    have hnamed : ∀ named : State, named.Shown → (if ¬ options.hasMxp "image" ∧
        ¬ options.linkEnabled "url".toList then
          named.pushText (" (".toList ++ image.source ++ ")".toList)
        else named).Shown := by
      intro named hn
      split
      · exact hn.pushText named _ (parenthesised_shown hsource)
      · exact hn
    apply hnamed
    split
    · exact hclosed
    · exact hclosed.pushSpan _ _ hname

theorem heading_shown (level : Nat) : IsShown (List.replicate level '#' ++ [' ']) := by
  refine (isShown_append _ _).mpr ⟨?_, by unfold IsShown; decide⟩
  intro c hc
  rw [List.eq_of_mem_replicate hc]
  decide

theorem rule_shown : IsShown (List.replicate width '─' ++ ['\n']) := by
  refine (isShown_append _ _).mpr ⟨?_, by unfold IsShown; decide⟩
  intro c hc
  rw [List.eq_of_mem_replicate hc]
  decide

theorem Shown.start (st : State) (u : Unicode) (width : Nat) (article : Option (List Char))
    (tag : Tag) (hs : st.Shown) : (st.start u width article tag).Shown := by
  have hflush := hs.flush st u width
  cases tag with
  | Table alignment =>
      have haligned : ({ st with tableAlignment := alignment } : State).Shown := { hs with }
      exact { haligned.flush _ u width with table := by simp [State.start, RowsShown] }
  | TableHead => exact { hs with row := by simp [State.start] }
  | TableRow => exact { hs with row := by simp [State.start] }
  | TableCell => exact { hs with cell := allShown_nil }
  | Emphasis => exact { hs with }
  | Strong => exact { hs with }
  | Strikethrough => exact { hs with }
  | Heading level =>
      have hbold : ({ st.flush u width with
          style := { (st.flush u width).style with bold := true } } : State).Shown :=
        { hflush with }
      exact hbold.pushText _ _ (heading_shown level)
  | CodeBlock => exact { hflush with }
  | BlockQuote => exact { hflush with }
  | List start =>
      have hline := (hs.endLine st).flush _ u width
      exact { hline with }
  | Item => exact hflush.startItem
  | Link destUrl =>
      exact { hs with
        link := fun found hfound hk =>
          isShown_of_isUri _ (external_isUri _ (link_external hfound hk)) }
  | Image destUrl =>
      refine { hs with image := ?_ }
      intro image himage
      simp only [State.start] at himage
      split at himage
      · rename_i found hfound
        obtain ⟨_, hvalid, hfound⟩ := bind_eq_ok _ _ _ hfound
        injection hfound with hfound
        rw [← Option.some.inj himage, ← hfound, Image.isValid, hvalid]
        rfl
      · simp at himage
  | Paragraph => exact hs
  | Other => exact hs

theorem Shown.finish (st : State) (u : Unicode) (width : Nat) (options : RenderOptions)
    (tag : TagEnd) (hs : st.Shown) : (st.finish u width options tag).Shown := by
  have hflush := hs.flush st u width
  have hnewline : IsShown ['\n'] := by
    unfold IsShown
    decide
  have hblank : IsShown "\n\n".toList := by
    unfold IsShown
    decide
  cases tag with
  | TableCell =>
      refine { hs with row := ?_, cell := allShown_nil }
      intro cell hcell
      rcases List.mem_append.mp hcell with hcell | hcell
      · exact hs.row cell hcell
      · rw [List.mem_singleton.mp hcell]
        exact hs.cell
  | TableHead => exact hs.endRow
  | TableRow => exact hs.endRow
  | Table => exact hs.endTable st u width
  | Emphasis => exact { hs with }
  | Strong => exact { hs with }
  | Strikethrough => exact { hs with }
  | Heading =>
      have hplain : ({ st with style := Style.default } : State).Shown := { hs with }
      exact (hplain.pushText _ _ hblank).flush _ u width
  | CodeBlock =>
      have hclosed : ({ st.flushAs u width true with code := false } : State).Shown :=
        { hs.flushAs st u width true with }
      exact hclosed.pushText _ _ hnewline
  | BlockQuote => exact { hflush with }
  | List =>
      refine { hflush with out := ?_ }
      simp only [State.finish]
      split
      · exact (allShown_append _ _).mpr ⟨hflush.out, allShown_plain _ hnewline⟩
      · exact hflush.out
  | Item => exact ((hs.endLine st).flush _ u width).layoutAs _ _ _
  | Paragraph =>
      refine (hs.pushText st _ ?_).flush _ u width
      split
      · exact hblank
      · exact hnewline
  | Link => exact hs.endLink st options
  | Image => exact hs.endImage st options
  | Other => exact hs

theorem Shown.step (st : State) (u : Unicode) (width : Nat) (options : RenderOptions)
    (article : Option (List Char)) (event : Event) (hs : st.Shown) :
    (st.step u width options article event).Shown := by
  cases event with
  | Start tag => exact hs.start st u width article tag
  | End tag => exact hs.finish st u width options tag
  | Text s => exact hs.pushText st _ (isShown_stripControls s)
  | Code s =>
      exact { hs.pushSpan st ⟨stripControls s, Style.default, none, st.activeImage⟩
        (isShown_stripControls s) with }
  | SoftBreak => exact hs.pushText st _ (by unfold IsShown; decide)
  | HardBreak => exact hs.pushText st _ (by unfold IsShown; decide)
  | Rule => exact hs.pushText st _ (rule_shown _)
  | TaskListMarker checked =>
      refine hs.pushText st _ ?_
      cases checked <;> (unfold IsShown; decide)
  | Other => exact hs

end State

theorem spansAt_shown (events : List Event) (options : RenderOptions)
    (article : Option (List Char)) : AllShown (spansAt u events options article) := by
  have hfold : ∀ (width : Nat) (st : State), st.Shown →
      (events.foldl (State.step u width options article) st).Shown := by
    intro width
    induction events with
    | nil => exact fun st hs => hs
    | cons event events ih =>
        exact fun st hs => ih _ (hs.step st u width options article event)
  exact ((hfold _ _ State.initial_shown).flush _ u _).out

end Markdown

end StompyMux.StyledText
