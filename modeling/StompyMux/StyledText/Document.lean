import StompyMux.StyledText.Chunks

namespace StompyMux.StyledText

open Library Library.Text
open StompyMux.Telnet

inductive Document
  | Styled (source : List Char)
  -- a trusted report whose explicit style transitions are kept
  | NativeStyled (source : List Char)
  | Markdown (source : List Char)
  | Literal (source : List Char)
  | Prefixed (source lead : List Char) (document : Document)

namespace Document

def source : Document → List Char
  | .Styled s | .NativeStyled s | .Markdown s | .Literal s | .Prefixed s _ _ => s

def parsedSpans (p : Palette) (source : List Char) : List Span :=
  match parse p source false with
  | .ok spans => spans
  | .error _ => []

def spans (u : Unicode) (commonMark : List Char → List Markdown.Event) (p : Palette)
    (o : RenderOptions) : Document → List Span
  | .Styled s | .NativeStyled s => parsedSpans p s
  | .Markdown s => Markdown.spansAt u (commonMark s) o none
  | .Prefixed _ lead document => parsedSpans p lead ++ spans u commonMark p o document
  | .Literal s => [Span.plain (stripControls s)]

def lastStyle : List NativeEvent → Option Style
  | [] => none
  | .Style style :: events => some ((lastStyle events).getD style)
  | .Text _ :: events => lastStyle events

-- The report starts from the default style whatever the prefix set.
def prefixedEvents (p : Palette) (lead source : List Char) : List NativeEvent :=
  let events := nativeEvents p lead
  let reset :=
    if (lastStyle events).any (· ≠ Style.default) then [NativeEvent.Style Style.default] else []
  events ++ reset ++ nativeEvents p source

def telnet (u : Unicode) (commonMark : List Char → List Markdown.Event) (p : Palette)
    (o : RenderOptions) (limit : UInt64) : Document → Except Error (List UInt8)
  | .NativeStyled source => .ok (nativeTelnet u o limit.toNat false [] (nativeEvents p source))
  | .Prefixed _ lead (.NativeStyled source) =>
      .ok (nativeTelnet u o limit.toNat false [] (prefixedEvents p lead source))
  | document => StyledText.telnet u (document.spans u commonMark p o) p o limit

theorem parsedSpans_shown (p : Palette) (source : List Char) : AllShown (parsedSpans p source) := by
  unfold parsedSpans
  split
  · rename_i spans h
    exact parse_shown h
  · exact allShown_nil

-- No run of a document holds a terminal control.
theorem spans_shown (u : Unicode) (commonMark : List Char → List Markdown.Event) (p : Palette)
    (o : RenderOptions) (document : Document) : AllShown (document.spans u commonMark p o) := by
  induction document with
  | Styled s => exact parsedSpans_shown p s
  | NativeStyled s => exact parsedSpans_shown p s
  | Markdown s => exact Markdown.spansAt_shown u (commonMark s) o none
  | Literal s => exact allShown_plain _ (isShown_stripControls s)
  | Prefixed s lead document ih =>
      exact (allShown_append _ _).mpr ⟨parsedSpans_shown p lead, ih⟩

end Document

variable (u : Unicode) (p : Palette) (o : RenderOptions) (limit : Nat) (styled : Bool)

theorem cellsOf_good (spans : List Span) (hs : AllShown spans) :
    ∀ cell ∈ cellsOf p o spans, cell.Good := by
  intro cell hcell
  refine ⟨spanCells_safe _ (prepare_safe p o none spans hs) cell hcell, ?_⟩
  obtain ⟨span, -, hcell⟩ := List.mem_flatMap.mp hcell
  obtain ⟨-, -, position, c, -, hchar, hshown⟩ := mem_cellsFrom span 0 span.text hcell
  exact ⟨span.picture, position, by rw [hshown, hchar]⟩

theorem initial_sound (spans : List Span) (limit : Nat) :
    Sound o limit (Rendering.initial p o spans) [] where
  out := rfl
  safe := allSafe_nil
  follows := follows_default o
  room := Nat.zero_le _
  valid := fun _ _ => Nat.zero_le _

theorem length_cellsOf (spans : List Span) :
    (cellsOf p o spans).length = (u.graphemes (spans.flatMap Span.text)).flatten.length := by
  rw [u.graphemes_flatten, ← chars_cellsOf p o spans, List.length_map]

theorem renderChunks_spec {spans : List Span} {p : Palette} {o : RenderOptions}
    {limit totalLimit : Nat} {complete : Bool} {chunks : List (List UInt8)} (hs : AllShown spans)
    (h : renderChunks u spans p o limit totalLimit complete = .ok chunks) : ∃ later count,
      Delivery o limit totalLimit (Rendering.initial p o spans) []
          (groupCells (u.graphemes (spans.flatMap Span.text)) (cellsOf p o spans)) chunks later count ∧
        (complete → count = (u.graphemes (spans.flatMap Span.text)).length) :=
  run_spec o limit totalLimit complete _ [] _ (cellsOf p o spans) chunks
    (initial_sound p o spans limit) (cellsOf_cursor p o spans) (length_cellsOf u p o spans)
    (cellsOf_good p o spans hs) h

theorem run_truncated (limit totalLimit : Nat) (st : Rendering)
    (gs : List (List Char)) (hroom : st.out.length + st.pen.reserve ≤ limit)
    (htotal : st.total + limit ≤ totalLimit) :
    ∃ chunks, st.run o limit totalLimit false gs = .ok chunks := by
  have hfinish : ∀ last : Rendering, last.out.length + last.pen.reserve ≤ limit →
      last.total + limit ≤ totalLimit → ∃ chunks, last.finish totalLimit = .ok chunks := by
    intro last hlast hsum
    have hclosed : last.closed.length = last.out.length + last.pen.reserve := by
      rw [Rendering.closed, List.length_append, length_close]
    unfold Rendering.finish ensure
    rw [if_pos (by rw [decide_eq_true_eq]; omega)]
    exact ⟨_, rfl⟩
  induction gs generalizing st with
  | nil => exact hfinish st hroom htotal
  | cons g gs ih =>
      unfold Rendering.run
      cases hattempt : st.attempt o limit g with
      | none => exact hfinish st hroom htotal
      | some next =>
          unfold Rendering.attempt at hattempt
          dsimp only at hattempt
          split at hattempt
          · simp at hattempt
          · rename_i hfits
            rw [← Option.some.inj hattempt]
            refine ih _ ?_ htotal
            rw [List.length_append]
            exact Nat.le_of_not_lt hfits

theorem telnet_ok (spans : List Span) (p : Palette) (o : RenderOptions) (limit : UInt64) : ∃ chunks,
      renderChunks u spans p o limit.toNat USIZE_MAX false = .ok chunks ∧
        telnet u spans p o limit = .ok (chunks.getLast?.getD []) := by
  have hlimit := limit.toNat_lt
  obtain ⟨chunks, hchunks⟩ := run_truncated o limit.toNat USIZE_MAX (Rendering.initial p o spans)
    (u.graphemes (spans.flatMap Span.text)) (Nat.zero_le _)
    (by show 0 + limit.toNat ≤ 2 ^ 64 - 1; omega)
  have hrender : renderChunks u spans p o limit.toNat USIZE_MAX false = .ok chunks := hchunks
  refine ⟨chunks, hrender, ?_⟩
  rw [telnet, hrender]
  rfl

theorem close_safe : ControlSafe (close false styled) := by
  have hclose := bytes_closeItems ⟨Style.default, none, styled⟩
  exact ⟨closeItems ⟨Style.default, none, styled⟩, closeItems_safe _, hclose.symm⟩

theorem nativeText_safe (out : List UInt8) (gs : List (List Char))
    (hg : ∀ g ∈ gs, IsShown g) (ho : ControlSafe out) :
    ControlSafe (nativeText limit styled out gs).1 := by
  induction gs generalizing out with
  | nil => exact ho
  | cons g gs ih =>
      have hencoded := encode_safe _ (visibleItems_safe g (hg g List.mem_cons_self))
      rw [itemsText_visibleItems] at hencoded
      unfold nativeText
      split
      · exact ho
      · exact ih _ (fun other hother => hg other (List.mem_cons_of_mem g hother))
          (ho.append _ _ hencoded)

theorem graphemes_shown (text : List Char) (ht : IsShown text) :
    ∀ g ∈ u.graphemes text, IsShown g := by
  intro g hg c hc
  apply ht
  rw [← u.graphemes_flatten text]
  exact List.mem_flatten.mpr ⟨g, hg, hc⟩

def EventsShown (events : List NativeEvent) : Prop := ∀ text, .Text text ∈ events → IsShown text

theorem nativeTelnet_safe (out : List UInt8) (events : List NativeEvent) (he : EventsShown events)
    (ho : ControlSafe out) : ControlSafe (nativeTelnet u o limit styled out events) := by
  induction events generalizing styled out with
  | nil => exact ho.append _ _ (close_safe styled)
  | cons event events ih =>
      have hrest : EventsShown events := fun text ht => he text (List.mem_cons_of_mem event ht)
      cases event with
      | Style style =>
          have hencoded := encode_safe _ (ansiItems_safe style o.color)
          rw [itemsText_ansi] at hencoded
          unfold nativeTelnet
          dsimp only
          split
          · exact ho.append _ _ (close_safe styled)
          · exact ih _ _ hrest (ho.append _ _ hencoded)
      | Text text =>
          have hgs := graphemes_shown u text (he text List.mem_cons_self)
          have htext := nativeText_safe limit styled out _ hgs ho
          unfold nativeTelnet
          split
          · rename_i after hafter
            rw [hafter] at htext
            exact ih _ _ hrest htext
          · rename_i after hafter
            rw [hafter] at htext
            exact htext.append _ _ (close_safe styled)

namespace Document

theorem prefixedEvents_shown (p : Palette) (lead source : List Char) :
    EventsShown (prefixedEvents p lead source) := by
  intro text ht
  rcases List.mem_append.mp ht with ht | ht
  · rcases List.mem_append.mp ht with ht | ht
    · exact nativeEvents_shown p lead text ht
    · split at ht <;> simp at ht
  · exact nativeEvents_shown p source text ht

theorem spans_telnet_safe (u : Unicode) (spans : List Span) (p : Palette) (o : RenderOptions)
    (limit : UInt64) (hs : AllShown spans) :
    ∃ output, StyledText.telnet u spans p o limit = .ok output ∧ ControlSafe output := by
  obtain ⟨chunks, hrender, htelnet⟩ := telnet_ok u spans p o limit
  obtain ⟨later, count, hdelivery, -⟩ := renderChunks_spec u hs hrender
  refine ⟨_, htelnet, ?_⟩
  have hchunks : chunks = partBytes later := hdelivery.chunks
  cases hlast : chunks.getLast? with
  | none => exact ControlSafe.nil
  | some output =>
      have hmem := List.mem_of_getLast? hlast
      rw [hchunks] at hmem
      obtain ⟨part, hpart, hbytes⟩ := List.mem_map.mp hmem
      exact ⟨part, (hdelivery.parts part hpart).safe, hbytes.symm⟩

-- Whatever a document, a palette and a client's options hold, the output consists of visible
-- characters and the renderer's own sequences.
theorem telnet_control_safe (u : Unicode) (commonMark : List Char → List Markdown.Event)
    (document : Document) (p : Palette) (o : RenderOptions) (limit : UInt64) :
    ∃ output, document.telnet u commonMark p o limit = .ok output ∧ ControlSafe output := by
  have hspans := spans_shown u commonMark p o
  unfold telnet
  split
  · rename_i source
    exact ⟨_, rfl, nativeTelnet_safe u o _ false [] _ (nativeEvents_shown p source) ControlSafe.nil⟩
  · rename_i source lead native
    exact ⟨_, rfl,
      nativeTelnet_safe u o _ false [] _ (prefixedEvents_shown p lead native) ControlSafe.nil⟩
  · exact spans_telnet_safe u _ p o limit (hspans document)

end Document

end StompyMux.StyledText
