import StompyMux.StyledText.Faithful

-- What the renderer promises of its messages, and when it keeps the promise.
namespace StompyMux.StyledText

open Library.Text Library.Terminal
open StompyMux.Telnet

-- The split form: every message fits, leaves nothing open, and together they show the text.
structure MessagesHold (text : List Char) (limit totalLimit : Nat) (chunks : List (List UInt8)) :
    Prop where
  nonempty : ∀ chunk ∈ chunks, chunk ≠ []
  room : ∀ chunk ∈ chunks, chunk.length ≤ limit
  total : totalLength chunks ≤ totalLimit
  closed : ∀ chunk ∈ chunks, SelfContained chunk
  text : deleteEscapes chunks.flatten = encode text

-- The truncating form: the message fits, leaves nothing open, and shows whole graphemes
-- from the start of the text.
structure TruncatedHolds (u : Unicode) (text : List Char) (limit : UInt64) (output : List UInt8) :
    Prop where
  room : output.length ≤ limit.toNat
  closed : SelfContained output
  text : ∃ count, deleteEscapes output = encode ((u.graphemes text).take count).flatten

structure RendersText (u : Unicode) (spans : List Span) (p : Palette) (o : RenderOptions) :
    Prop where
  messages : ∀ (limit totalLimit : Nat) (chunks : List (List UInt8)),
    telnetChunks u spans p o limit totalLimit = .ok chunks →
      MessagesHold (spans.flatMap Span.text) limit totalLimit chunks
  truncated : ∀ limit : UInt64, ∃ output,
    telnet u spans p o limit = .ok output ∧
      TruncatedHolds u (spans.flatMap Span.text) limit output

theorem selfContained_nil : SelfContained [] := by
  constructor
  · rfl
  · intro h
    simp [tokens, scan] at h

variable (p : Palette) (o : RenderOptions) (text : List Char)

theorem picture_text (previous : Option Image) (span : Span)
    (ho : o.hasMxp "image" = false) : picture o previous span = .Text := by
  unfold picture
  cases span.image with
  | none => rfl
  | some image => simp [ho]

theorem prepare_text (previous : Option Image) (spans : List Span) (ho : o.hasMxp "image" = false) :
    ∀ span ∈ prepare p o previous spans, span.picture = .Text := by
  induction spans generalizing previous with
  | nil => simp [prepare]
  | cons span spans ih =>
      intro prepared hp
      rcases List.mem_cons.mp hp with rfl | hp
      · exact picture_text o previous span ho
      · exact ih span.image prepared hp

-- Without pictures every cell shows its own character.
theorem cellsOf_plain (spans : List Span)
    (ho : o.hasMxp "image" = false) : ∀ cell ∈ cellsOf p o spans, PlainCell cell := by
  intro cell hcell
  obtain ⟨span, hspan, hcell⟩ := List.mem_flatMap.mp hcell
  obtain ⟨-, -, position, c, -, hchar, hshown⟩ := mem_cellsFrom span 0 span.text hcell
  rw [PlainCell, hshown, hchar, prepare_text p o none spans ho span hspan]
  rfl

theorem mem_groupCells (gs : List (List Char)) (cells group : List Cell)
    (hg : group ∈ groupCells gs cells) : ∀ cell ∈ group, cell ∈ cells := by
  induction gs generalizing cells with
  | nil => simp [groupCells] at hg
  | cons g gs ih =>
      intro cell hcell
      rcases List.mem_cons.mp hg with rfl | hg
      · exact List.mem_of_mem_take hcell
      · exact List.mem_of_mem_drop (ih _ hg cell hcell)

def spanGroups (u : Unicode) (spans : List Span) (p : Palette) (o : RenderOptions) :
    List (List Cell) :=
  groupCells (u.graphemes (spans.flatMap Span.text)) (cellsOf p o spans)

section

variable (u : Unicode) (spans : List Span) (p : Palette) (o : RenderOptions)

theorem chars_spanGroups :
    (spanGroups u spans p o).map chars = u.graphemes (spans.flatMap Span.text) := by
  apply chars_groupCells
  rw [u.graphemes_flatten, chars, chars_cellsOf]

theorem spanGroups_newlinesWhole :
    NewlinesWhole o (cellsOf p o spans) ↔
      ∀ group ∈ spanGroups u spans p o, NewlinesWhole o group := by
  have hchars := chars_spanGroups u spans p o
  have hne : ∀ group ∈ spanGroups u spans p o, group ≠ [] := by
    rintro group hgroup rfl
    have hnil : chars [] ∈ (spanGroups u spans p o).map chars := List.mem_map_of_mem hgroup
    rw [hchars] at hnil
    exact u.graphemes_ne_nil _ _ hnil rfl
  have hseams := u.graphemes_newline (spans.flatMap Span.text)
  rw [← hchars] at hseams
  have hwhole := groups_newlinesWhole o (spanGroups u spans p o) hne hseams
  rwa [spanGroups, flatten_groupCells _ _ (length_cellsOf u p o spans), ← spanGroups] at hwhole

variable (hs : AllShown spans) (ho : o.hasMxp "image" = false)

include hs ho

-- The first graphemes show the encoded text exactly when no line end in them is taken apart.
theorem shown_iff (count : Nat) :
    utf8 (((spanGroups u spans p o).take count).flatMap (groupText o)) =
        encode ((u.graphemes (spans.flatMap Span.text)).take count).flatten ↔
      ∀ group ∈ (spanGroups u spans p o).take count, NewlinesWhole o group := by
  have hcells : ∀ group ∈ (spanGroups u spans p o).take count, ∀ cell ∈ group,
      cell ∈ cellsOf p o spans :=
    fun group hgroup => mem_groupCells _ _ group (List.mem_of_mem_take hgroup)
  have hplain : ∀ group ∈ (spanGroups u spans p o).take count, ∀ cell ∈ group, PlainCell cell :=
    fun group hgroup cell hcell => cellsOf_plain p o spans ho cell (hcells group hgroup cell hcell)
  have hgood : ∀ group ∈ (spanGroups u spans p o).take count, ∀ cell ∈ group, cell.Good :=
    fun group hgroup cell hcell => cellsOf_good p o spans hs cell (hcells group hgroup cell hcell)
  have hne : ∀ g ∈ (u.graphemes (spans.flatMap Span.text)).take count, g ≠ [] :=
    fun g hg => u.graphemes_ne_nil _ g (List.mem_of_mem_take hg)
  have hchain := (u.graphemes_newline (spans.flatMap Span.text)).take count
  have htext : normalized ((u.graphemes (spans.flatMap Span.text)).take count).flatten =
      ((spanGroups u spans p o).take count).flatMap (fun group => normalized (chars group)) := by
    rw [normalized_flatten _ hne hchain, ← chars_spanGroups u spans p o, ← List.map_take,
      List.flatMap_map]
  rw [encode_eq, htext]
  constructor
  · intro heq group hgroup
    have hlen := utf8Len_groups o _ hplain hgood
    rw [← length_utf8, ← length_utf8, heq] at hlen
    have hsum : (((spanGroups u spans p o).take count).map (broken o)).sum = 0 := by omega
    have hzero := List.sum_eq_zero_iff_forall_eq_nat.mp hsum _ (List.mem_map_of_mem hgroup)
    exact (broken_eq_zero_iff o group).mp hzero
  · intro hwhole
    rw [groups_whole o _ hplain hgood hwhole]

theorem delivered_text {limit totalLimit count : Nat} {chunks : List (List UInt8)}
    {later : List (List Item)}
    (hd : Delivery o limit totalLimit (Rendering.initial p o spans) [] (spanGroups u spans p o)
      chunks later count) :
    deleteEscapes chunks.flatten =
        encode ((u.graphemes (spans.flatMap Span.text)).take count).flatten ↔
      ∀ group ∈ (spanGroups u spans p o).take count, NewlinesWhole o group := by
  have hflat : chunks.flatten = later.flatten.flatMap Item.bytes := by
    have hchunks : chunks = partBytes later := hd.chunks
    rw [hchunks, partBytes, ← List.flatMap_def, ← List.flatMap_assoc, List.flatMap_id']
  have hsafe : AllSafe later.flatten := by
    intro item hitem
    obtain ⟨part, hpart, hitem⟩ := List.mem_flatten.mp hitem
    exact (hd.parts part hpart).safe item hitem
  have hshown : visible later.flatten =
      ((spanGroups u spans p o).take count).flatMap (groupText o) := hd.shown
  rw [hflat, deleteEscapes_items _ hsafe, hshown]
  exact shown_iff u spans p o hs ho count

end

theorem run_unlimited (complete : Bool) (st : Rendering)
    (gs : List (List Char)) : ∃ enough, ∀ limit totalLimit, enough ≤ limit → enough ≤ totalLimit →
      ∃ chunks, st.run o limit totalLimit complete gs = .ok chunks := by
  induction gs generalizing st with
  | nil =>
      refine ⟨st.total + st.closed.length, ?_⟩
      intro limit totalLimit _ htotal
      unfold Rendering.run Rendering.finish ensure
      rw [if_pos (by rw [decide_eq_true_eq]; exact htotal)]
      exact ⟨_, rfl⟩
  | cons g gs ih =>
      let draft := compose o g.length g.length ⟨[], st.pen, st.cursor⟩
      let size := st.out.length + (encode draft.candidate).length + draft.pen.reserve
      obtain ⟨enough, henough⟩ := ih { st with
        cursor := draft.cursor
        pen := draft.pen
        out := st.out ++ encode draft.candidate }
      refine ⟨max size enough, ?_⟩
      intro limit totalLimit hlimit htotal
      have hfits : ¬ limit < size := by omega
      have hattempt : st.attempt o limit g = some { st with
          cursor := draft.cursor
          pen := draft.pen
          out := st.out ++ encode draft.candidate } := if_neg hfits
      obtain ⟨chunks, hchunks⟩ := henough limit totalLimit (by omega) (by omega)
      refine ⟨chunks, ?_⟩
      unfold Rendering.run
      rw [hattempt]
      exact hchunks

theorem run_single (limit totalLimit : Nat) (st : Rendering)
    (gs : List (List Char)) (chunks : List (List UInt8))
    (h : st.run o limit totalLimit false gs = .ok chunks) :
    chunks.length ≤ st.chunks.length + 1 := by
  have hfinish : ∀ last : Rendering, last.chunks = st.chunks →
      last.finish totalLimit = .ok chunks → chunks.length ≤ st.chunks.length + 1 := by
    intro last hlast hfinish
    obtain ⟨_, -, hfinish⟩ := bind_eq_ok _ _ _ hfinish
    injection hfinish with hfinish
    rw [← hfinish, ← hlast]
    split
    · omega
    · rw [List.length_append, List.length_singleton]
  induction gs generalizing st with
  | nil => exact hfinish st rfl h
  | cons g gs ih =>
      unfold Rendering.run at h
      cases hattempt : st.attempt o limit g with
      | none =>
          rw [hattempt] at h
          exact hfinish st rfl h
      | some next =>
          rw [hattempt] at h
          have hchunks : next.chunks = st.chunks := by
            unfold Rendering.attempt at hattempt
            dsimp only at hattempt
            split at hattempt
            · simp at hattempt
            · rw [← Option.some.inj hattempt]
          rw [← hchunks]
          exact ih next h (by rwa [hchunks])

theorem messages_delivered {u : Unicode} {spans : List Span} {p : Palette} {o : RenderOptions}
    (hs : AllShown spans) {limit totalLimit : Nat} {chunks : List (List UInt8)}
    (h : telnetChunks u spans p o limit totalLimit = .ok chunks) :
    ∃ later, Delivery o limit totalLimit (Rendering.initial p o spans) [] (spanGroups u spans p o)
      chunks later (u.graphemes (spans.flatMap Span.text)).length := by
  obtain ⟨later, count, hdelivery, hcount⟩ :=
    renderChunks_spec u hs h
  refine ⟨later, ?_⟩
  rw [← hcount rfl]
  exact hdelivery

theorem Delivery.bounds {limit totalLimit : Nat} {st : Rendering}
    {items : List Item} {groups : List (List Cell)} {chunks : List (List UInt8)}
    {later : List (List Item)} {count : Nat} (hst : st.chunks = [])
    (hd : Delivery o limit totalLimit st items groups chunks later count) :
    totalLength chunks ≤ totalLimit ∧
      ∀ chunk ∈ chunks, chunk ≠ [] ∧ chunk.length ≤ limit ∧ SelfContained chunk := by
  have hchunks : chunks = partBytes later := by
    rw [hd.chunks, hst, List.nil_append]
  have htotal := hd.total
  refine ⟨by rw [hchunks]; omega, ?_⟩
  intro chunk hchunk
  rw [hchunks] at hchunk
  obtain ⟨part, hpart, rfl⟩ := List.mem_map.mp hchunk
  have hp := hd.parts part hpart
  exact ⟨hp.nonempty, hp.room, hp.selfContained⟩

section

variable (u : Unicode) (spans : List Span) (p : Palette) (o : RenderOptions)
variable (hs : AllShown spans) (ho : o.hasMxp "image" = false)

include hs ho

-- Together the messages show the encoded text exactly when no line end is taken apart.
theorem messages_text_iff {limit totalLimit : Nat} {chunks : List (List UInt8)}
    (h : telnetChunks u spans p o limit totalLimit = .ok chunks) :
    deleteEscapes chunks.flatten = encode (spans.flatMap Span.text) ↔
      NewlinesWhole o (cellsOf p o spans) := by
  obtain ⟨later, hdelivery⟩ := messages_delivered hs h
  have htext := delivered_text u spans p o hs ho hdelivery
  have hlength : (spanGroups u spans p o).length =
      (u.graphemes (spans.flatMap Span.text)).length := by
    rw [← chars_spanGroups u spans p o, List.length_map]
  rwa [List.take_length, u.graphemes_flatten, ← hlength, List.take_length,
    ← spanGroups_newlinesWhole] at htext

theorem messages_hold {limit totalLimit : Nat} {chunks : List (List UInt8)}
    (hw : NewlinesWhole o (cellsOf p o spans))
    (h : telnetChunks u spans p o limit totalLimit = .ok chunks) :
    MessagesHold (spans.flatMap Span.text) limit totalLimit chunks := by
  obtain ⟨later, hdelivery⟩ := messages_delivered hs h
  obtain ⟨htotal, hchunks⟩ := hdelivery.bounds _ rfl
  exact {
    nonempty := fun chunk hchunk => (hchunks chunk hchunk).1
    room := fun chunk hchunk => (hchunks chunk hchunk).2.1
    total := htotal
    closed := fun chunk hchunk => (hchunks chunk hchunk).2.2
    text := (messages_text_iff u spans p o hs ho h).mpr hw }

theorem truncated_holds (limit : UInt64) (hw : NewlinesWhole o (cellsOf p o spans)) :
    ∃ output, telnet u spans p o limit = .ok output ∧
      TruncatedHolds u (spans.flatMap Span.text) limit output := by
  obtain ⟨chunks, hrender, htelnet⟩ := telnet_ok u spans p o limit
  obtain ⟨later, count, hdelivery, -⟩ := renderChunks_spec u hs hrender
  obtain ⟨-, hchunks⟩ := hdelivery.bounds _ rfl
  have hwhole := (spanGroups_newlinesWhole u spans p o).mp hw
  have htext := (delivered_text u spans p o hs ho hdelivery).mpr
    (fun group hgroup => hwhole group (List.mem_of_mem_take hgroup))
  have hsingle : chunks.length ≤ 1 := run_single o _ _ _ _ chunks hrender
  refine ⟨_, htelnet, ?_⟩
  cases chunks with
  | nil => exact ⟨Nat.zero_le _, selfContained_nil, count, htext⟩
  | cons output rest =>
      have hrest : rest = [] := by
        rw [List.length_cons] at hsingle
        exact List.length_eq_zero_iff.mp (by omega)
      subst hrest
      obtain ⟨-, hroom, hclosed⟩ := hchunks output List.mem_cons_self
      rw [List.flatten_cons, List.flatten_nil, List.append_nil] at htext
      exact ⟨hroom, hclosed, count, htext⟩

-- The renderer keeps its promise exactly when no carriage return is presented otherwise
-- than the line feed behind it.
theorem rendersText_iff : RendersText u spans p o ↔ NewlinesWhole o (cellsOf p o spans) := by
  constructor
  · intro hrenders
    obtain ⟨enough, henough⟩ := run_unlimited o true (Rendering.initial p o spans)
      (u.graphemes (spans.flatMap Span.text))
    obtain ⟨chunks, hchunks⟩ := henough enough enough (Nat.le_refl _) (Nat.le_refl _)
    have hrender : telnetChunks u spans p o enough enough = .ok chunks := hchunks
    have htext := (hrenders.messages enough enough chunks hrender).text
    exact (messages_text_iff u spans p o hs ho hrender).mp htext
  · intro hw
    exact ⟨fun limit totalLimit chunks h =>
        messages_hold u spans p o hs ho hw h,
      fun limit => truncated_holds u spans p o hs ho limit hw⟩

end

-- In ASCII text a grapheme is one character or one line end.
def asciiGraphemes : List Char → List (List Char)
  | [] => []
  | '\r' :: '\n' :: text => ['\r', '\n'] :: asciiGraphemes text
  | c :: text => [c] :: asciiGraphemes text

theorem asciiGraphemes_flatten : (asciiGraphemes text).flatten = text := by
  fun_induction asciiGraphemes text with
  | case1 => rfl
  | case2 text ih => rw [List.flatten_cons, ih]; rfl
  | case3 c text _ ih => rw [List.flatten_cons, ih, List.singleton_append]

theorem asciiGraphemes_ne_nil : ∀ g ∈ asciiGraphemes text, g ≠ [] := by
  fun_induction asciiGraphemes text with
  | case1 => simp
  | case2 text ih => exact List.forall_mem_cons.mpr ⟨by simp, ih⟩
  | case3 c text _ ih => exact List.forall_mem_cons.mpr ⟨by simp, ih⟩

theorem asciiGraphemes_newline : (asciiGraphemes text).IsChain
    (fun g next => ¬(g.getLast? = some '\r' ∧ next.head? = some '\n')) := by
  fun_induction asciiGraphemes text with
  | case1 => exact List.IsChain.nil
  | case2 text ih =>
      refine List.isChain_cons.mpr ⟨?_, ih⟩
      intro next _ hseam
      exact absurd hseam.1 (by decide)
  | case3 c text hnewline ih =>
      refine List.isChain_cons.mpr ⟨?_, ih⟩
      rintro next hnext ⟨hreturn, hfeed⟩
      have hc : c = '\r' := Option.some.inj hreturn
      cases text with
      | nil => simp [asciiGraphemes] at hnext
      | cons d text =>
          have hhead : next.head? = some d := by
            unfold asciiGraphemes at hnext
            split at hnext
            · simp_all
            · rename_i heq
              rw [(List.cons.inj heq).1, ← Option.some.inj hnext]
              rfl
            · rename_i heq
              rw [(List.cons.inj heq).1, ← Option.some.inj hnext]
              rfl
          rw [hhead] at hfeed
          exact hnewline text hc (by rw [Option.some.inj hfeed])

def Unicode.ascii : Unicode where
  graphemes := asciiGraphemes
  wordBounds := asciiGraphemes
  width := List.length
  graphemes_flatten := asciiGraphemes_flatten
  graphemes_ne_nil := asciiGraphemes_ne_nil
  graphemes_newline := asciiGraphemes_newline

def Span.bold (text : List Char) : Span :=
  { Span.plain text with style := { Style.default with bold := true } }

def Palette.empty : Palette := ⟨∅, ∅⟩

def RenderOptions.ansi16 : RenderOptions := ⟨.Ansi16, ∅, ∅, 80⟩

theorem rendersText_plain_newline :
    RendersText Unicode.ascii [Span.bold ['a'], Span.plain ['\r', '\n']] Palette.empty
      RenderOptions.ansi16 :=
  (rendersText_iff Unicode.ascii _ Palette.empty RenderOptions.ansi16
    (by unfold AllShown IsShown; decide) (by decide)).mpr (by unfold NewlinesWhole; decide)

-- "\r" alone is bold, and its line feed becomes a second "\r\n".
theorem not_rendersText_bold_return :
    ¬ RendersText Unicode.ascii [Span.bold ['\r'], Span.plain ['\n']] Palette.empty
      RenderOptions.ansi16 := by
  intro hrenders
  have hshown : ∃ chunk, telnetChunks Unicode.ascii [Span.bold ['\r'], Span.plain ['\n']]
      Palette.empty RenderOptions.ansi16 100 100 = .ok [chunk] ∧
        deleteEscapes chunk = [13, 13, 10] := ⟨_, rfl, by decide⟩
  obtain ⟨chunk, hchunks, hchunk⟩ := hshown
  have htext := (hrenders.messages 100 100 [chunk] hchunks).text
  rw [List.flatten_cons, List.flatten_nil, List.append_nil, hchunk] at htext
  exact absurd htext (by decide)

end StompyMux.StyledText
