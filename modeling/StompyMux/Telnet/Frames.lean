import StompyMux.Telnet.Transparency

namespace StompyMux.Telnet

-- What a decoder hands on while it reads: a complete subnegotiation goes to the handler of its
-- option, a byte of application data to the line discipline.
inductive Heard
  | Frame (option : UInt8) (payload : List UInt8)
  | Byte (b : UInt8)
  deriving DecidableEq

-- What a peer sends between commands.
inductive Piece
  | Frame (option : UInt8) (payload : List UInt8)
  | Text (data : List UInt8)
  deriving DecidableEq

def Input.bytes : Input → List UInt8
  | .Reply bytes => bytes
  | _ => []

namespace Piece

def wire : Piece → List UInt8
  | .Frame option payload => (subReply option payload).bytes
  | .Text data => escape data

def heard : Piece → List Heard
  | .Frame option payload => [.Frame option payload]
  | .Text data => data.map .Byte

def Fits (limit : Nat) : Piece → Prop
  | .Frame _ payload => payload.length ≤ limit
  | .Text _ => True

end Piece

namespace Decoder

def heardByte (d : Decoder) (b : UInt8) : List Heard :=
  match d.state with
  | .Data => if b = IAC then [] else [.Byte b]
  | .Iac => if b = IAC then [.Byte b] else []
  | .Sub option payload escaped => if escaped ∧ b = SE then [.Frame option payload] else []
  | .Option _ | .SubOption | .DiscardSub _ => []

-- In the order of the calls, up to the one that fails.
def heard (d : Decoder) : List UInt8 → List Heard
  | [] => []
  | b :: bytes =>
      d.heardByte b ++
        match d.feedByte b with
        | (next, _, none) => next.heard bytes
        | (_, _, some _) => []

-- One call of a handler, without the wire.
def hear (d : Decoder) : Heard → Decoder × List Input × Option FeedError
  | .Frame option payload => ((d.sub option payload).1, (d.sub option payload).2, none)
  | .Byte b => d.data b

def hearAll (d : Decoder) : List Heard → Decoder × Except FeedError (List Input)
  | [] => (d, .ok [])
  | call :: calls =>
      match d.hear call with
      | (next, _, some e) => (next, .error e)
      | (next, out, none) =>
          ((next.hearAll calls).1, (next.hearAll calls).2.map (out ++ ·))

theorem heard_cons {d next : Decoder} {b : UInt8} {bytes : List UInt8} {out : List Input}
    (hb : d.feedByte b = (next, out, none)) :
    d.heard (b :: bytes) = d.heardByte b ++ next.heard bytes := by
  simp only [heard, hb]

variable (d : Decoder) (b : UInt8) (rest : List UInt8) (option : UInt8)

theorem heard_payload (collected payload rest : List UInt8)
    (hs : d.state = .Sub option collected false)
    (hl : (collected ++ payload).length ≤ d.subnegotiationLimit) :
    d.heard (escape payload ++ rest) =
      heard { d with state := .Sub option (collected ++ payload) false } rest := by
  induction payload generalizing d collected with
  | nil =>
      rw [List.append_nil, ← hs]
      rfl
  | cons b payload ih =>
      have hone : (collected ++ [b]).length ≤ d.subnegotiationLimit := by
        simp only [List.length_append, List.length_cons, List.length_nil] at hl ⊢
        omega
      have hrest := ih { d with state := .Sub option (collected ++ [b]) false }
        (collected ++ [b]) rfl (by simpa using hl)
      have hopen : d.heardByte b = [] := by simp [heardByte, hs]
      by_cases hb : b = IAC
      · subst hb
        rw [escape_iac, List.cons_append, List.cons_append,
          heard_cons (feedByte_escape d option collected hs),
          heard_cons (feedByte_doubled { d with state := .Sub option collected true } option
            collected rfl hone), hrest, hopen]
        simp [heardByte, IAC, SE]
      · rw [escape_byte payload hb, List.cons_append,
          heard_cons (feedByte_collect d hs hb hone), hrest, hopen]
        simp

theorem heard_frame (payload rest : List UInt8)
    (hs : d.state = .Data) (hl : payload.length ≤ d.subnegotiationLimit) :
    d.heard ((subReply option payload).bytes ++ rest) =
      .Frame option payload :: (d.sub option payload).1.heard rest := by
  have hsb : feedByte { d with state := .Iac } SB =
      ({ d with state := .SubOption }, [], none) := rfl
  have hoption : feedByte { d with state := .SubOption } option =
      ({ d with state := .Sub option [] false }, [], none) := rfl
  have hpayload := heard_payload { d with state := .Sub option [] false } option [] payload
    ([IAC, SE] ++ rest) rfl (by simpa using hl)
  have hready : { d with state := .Data } = d := by rw [← hs]
  have hwire : (subReply option payload).bytes ++ rest =
      IAC :: SB :: option :: (escape payload ++ ([IAC, SE] ++ rest)) := by
    simp [subReply, Input.bytes]
  rw [hwire, heard_cons (feedByte_iac d hs), heard_cons hsb,
    heard_cons hoption, hpayload, List.cons_append, List.cons_append, List.nil_append,
    heard_cons (feedByte_escape _ option ([] ++ payload) rfl),
    heard_cons (feedByte_close _ option rfl)]
  simp [heardByte, hs, hready, SB, IAC]

theorem heard_escape (hs : d.state = .Data) : d.heard (escape [b] ++ rest) = .Byte b ::
        match d.data b with
        | (next, _, none) => next.heard rest
        | (_, _, some _) => [] := by
  have hready : { d with state := .Data } = d := by rw [← hs]
  by_cases hb : b = IAC
  · subst hb
    have hsecond : feedByte { d with state := .Iac } IAC = d.data IAC := by
      simp [feedByte, hready]
    rw [escape_iac, List.cons_append, heard_cons (feedByte_iac d hs)]
    simp [heard, heardByte, hs, hsecond, escape]
  · have hbyte : d.feedByte b = d.data b := by simp [feedByte, hs, hb, hready]
    rw [escape_byte [] hb]
    simp [heard, heardByte, hs, hb, hbyte, escape]

theorem feed_escape (hs : d.state = .Data) : d.feed (escape [b] ++ rest) = match d.data b with
      | (next, _, some e) => (next, .error e)
      | (next, out, none) => ((next.feed rest).1, (next.feed rest).2.map (out ++ ·)) := by
  obtain ⟨⟨next, out, failed⟩, hb⟩ : ∃ step, d.data b = step := ⟨_, rfl⟩
  rw [hb]
  cases failed with
  | some e => exact feed_escape_error rest hs hb
  | none => exact feed_append d next _ rest out (feed_escape_ok hs hb)

theorem data_kept {d next : Decoder} {b : UInt8} {out : List Input}
    (hb : d.data b = (next, out, none)) :
    next.state = d.state ∧ next.subnegotiationLimit = d.subnegotiationLimit := by
  have hfst : next = (d.data b).1 := by rw [hb]
  rw [hfst]
  unfold data
  split_ifs
  · exact ⟨rfl, rfl⟩
  · unfold endLine
    split
    · exact ⟨rfl, rfl⟩
    · split <;> exact ⟨rfl, rfl⟩
  all_goals exact ⟨rfl, rfl⟩

theorem hear_kept {d next : Decoder} {call : Heard} {out : List Input}
    (hc : d.hear call = (next, out, none)) :
    next.state = d.state ∧ next.subnegotiationLimit = d.subnegotiationLimit := by
  cases call with
  | Frame option payload =>
      have hq := sub_quiet d option payload
      have hnext : next = (d.sub option payload).1 := (congrArg Prod.fst hc).symm
      rw [hnext]
      exact ⟨hq.state, hq.subnegotiationLimit⟩
  | Byte b => exact data_kept hc

-- A decoder between commands that reads the wire of one call makes just that call.
structure Makes (d : Decoder) (wire rest : List UInt8) (call : Heard) : Prop where
  feed : d.feed (wire ++ rest) =
    match d.hear call with
    | (next, _, some e) => (next, .error e)
    | (next, out, none) => ((next.feed rest).1, (next.feed rest).2.map (out ++ ·))
  heard : d.heard (wire ++ rest) =
    call :: match d.hear call with
      | (next, _, none) => next.heard rest
      | (_, _, some _) => []

theorem makes_frame (payload rest : List UInt8)
    (hs : d.state = .Data) (hl : payload.length ≤ d.subnegotiationLimit) :
    Makes d (subReply option payload).bytes rest (.Frame option payload) where
  feed := feed_append _ _ _ rest _ (feed_frame d option hs hl)
  heard := heard_frame d option payload rest hs hl

theorem makes_byte (hs : d.state = .Data) : Makes d (escape [b]) rest (.Byte b) where
  feed := feed_escape d b rest hs
  heard := heard_escape d b rest hs

-- Reading and handing over agree before `rest` and then go on from the same decoder.
def Agrees (d : Decoder) (wire : List UInt8) (calls : List Heard) : Prop :=
  d.feed wire = d.hearAll calls ∧ d.heard wire <+: calls ∧
    ∀ out, (d.feed wire).2 = .ok out → d.heard wire = calls

theorem agrees_cons {wire rest : List UInt8} {call : Heard} (calls : List Heard)
    (hm : Makes d wire rest call)
    (hrest : ∀ next out, d.hear call = (next, out, none) → Agrees next rest calls) :
    Agrees d (wire ++ rest) (call :: calls) := by
  obtain ⟨⟨next, out, failed⟩, hc⟩ : ∃ step, d.hear call = step := ⟨_, rfl⟩
  have hfeed := hm.feed
  have hheard := hm.heard
  cases failed with
  | some e =>
      simp only [hc] at hfeed hheard
      unfold Agrees
      rw [hfeed, hheard]
      refine ⟨by simp only [hearAll, hc], ?_, fun out h => by cases h⟩
      exact (List.prefix_cons_inj call).mpr List.nil_prefix
  | none =>
      obtain ⟨hsame, hpre, hall⟩ := hrest next out hc
      simp only [hc] at hfeed hheard
      unfold Agrees
      rw [hfeed, hheard]
      refine ⟨by simp only [hearAll, hc, hsame], (List.prefix_cons_inj call).mpr hpre, ?_⟩
      intro total htotal
      cases hmore : (next.feed rest).2 with
      | error e =>
          rw [hmore] at htotal
          cases htotal
      | ok more => rw [hall more hmore]

theorem agrees_text (data : List UInt8) (d : Decoder) (rest : List UInt8) (calls : List Heard)
    (hs : d.state = .Data)
    (hrest : ∀ next : Decoder, next.state = .Data →
      next.subnegotiationLimit = d.subnegotiationLimit → Agrees next rest calls) :
    Agrees d (escape data ++ rest) (data.map .Byte ++ calls) := by
  induction data generalizing d with
  | nil => exact hrest d hs rfl
  | cons b data ih =>
      have hsplit : escape (b :: data) ++ rest = escape [b] ++ (escape data ++ rest) := by
        simp [escape]
      rw [hsplit, List.map_cons, List.cons_append]
      refine agrees_cons d _ (makes_byte d b _ hs) ?_
      intro next out hc
      obtain ⟨hstate, hlimit⟩ := hear_kept hc
      exact ih next (hstate.trans hs) (fun after ha hl => hrest after ha (hl.trans hlimit))

theorem agrees_pieces (pieces : List Piece) (d : Decoder) (hs : d.state = .Data)
    (hfit : ∀ piece ∈ pieces, piece.Fits d.subnegotiationLimit) :
    Agrees d (pieces.flatMap Piece.wire) (pieces.flatMap Piece.heard) := by
  induction pieces generalizing d with
  | nil => exact ⟨rfl, List.nil_prefix, fun _ _ => rfl⟩
  | cons piece pieces ih =>
      obtain ⟨hfirst, hlater⟩ := List.forall_mem_cons.mp hfit
      have hnext : ∀ next : Decoder, next.state = .Data →
          next.subnegotiationLimit = d.subnegotiationLimit →
          Agrees next (pieces.flatMap Piece.wire) (pieces.flatMap Piece.heard) :=
        fun next hstate hlimit => ih next hstate (hlimit ▸ hlater)
      rw [List.flatMap_cons, List.flatMap_cons]
      cases piece with
      | Text data => exact agrees_text data d _ _ hs hnext
      | Frame option payload =>
          refine agrees_cons d _ (makes_frame d option payload _ hs hfirst) ?_
          intro next out hc
          obtain ⟨hstate, hlimit⟩ := hear_kept hc
          exact hnext next (hstate.trans hs) hlimit

-- A framed payload that fits makes one call, with that option and payload, and leaves the
-- command stream alone. So any frames and escaped text in a row are handed on in their order,
-- up to a line that is too long.
theorem frames_exact (d : Decoder) (hs : d.state = .Data) :
    (∀ (option : UInt8) (payload : List UInt8), payload.length ≤ d.subnegotiationLimit →
      d.heard (subReply option payload).bytes = [.Frame option payload] ∧
        d.feed (subReply option payload).bytes =
          ((d.sub option payload).1, .ok (d.sub option payload).2) ∧
        (d.feed (subReply option payload).bytes).1.state = .Data ∧
        (d.feed (subReply option payload).bytes).1.line = d.line ∧
        (d.feed (subReply option payload).bytes).1.afterCr = d.afterCr) ∧
    ∀ pieces : List Piece, (∀ piece ∈ pieces, piece.Fits d.subnegotiationLimit) →
      d.feed (pieces.flatMap Piece.wire) = d.hearAll (pieces.flatMap Piece.heard) ∧
        d.heard (pieces.flatMap Piece.wire) <+: pieces.flatMap Piece.heard ∧
        ∀ out, (d.feed (pieces.flatMap Piece.wire)).2 = .ok out →
          d.heard (pieces.flatMap Piece.wire) = pieces.flatMap Piece.heard := by
  refine ⟨?_, fun pieces hfit => agrees_pieces pieces d hs hfit⟩
  intro option payload hl
  have hfeed : d.feed (subReply option payload).bytes =
      ((d.sub option payload).1, .ok (d.sub option payload).2) := feed_frame d option hs hl
  have hheard := heard_frame d option payload [] hs hl
  have hq := sub_quiet d option payload
  rw [List.append_nil] at hheard
  rw [hfeed]
  exact ⟨hheard, rfl, hq.state.trans hs, congrArg LineBuffer.line hq.text,
    congrArg LineBuffer.afterCr hq.text⟩

-- Text around a payload of IAC, SE and SB bytes.
def sampleFrames : List Piece :=
  [.Text [104, 255, 13], .Frame GMCP [255, 240, 255, 255, 250, 13], .Text [10, 105, 10]]

theorem frames_exact_sample :
    sampleFrames.flatMap Piece.wire =
        [104, 255, 255, 13, 255, 250, 201, 255, 255, 240, 255, 255, 255, 255, 250, 13, 255, 240,
          10, 105, 10] ∧
      (new ⟨80, 8⟩).heard (sampleFrames.flatMap Piece.wire) = sampleFrames.flatMap Piece.heard := by
  have hfit : ∀ piece ∈ sampleFrames, piece.Fits 8 := by
    simp [sampleFrames, Piece.Fits]
  have hout : ((new ⟨80, 8⟩).feed (sampleFrames.flatMap Piece.wire)).2 =
      .ok [.InvalidUtf8, .Line ['i']] := rfl
  exact ⟨rfl, ((frames_exact (new ⟨80, 8⟩) rfl).2 sampleFrames hfit).2.2 _ hout⟩

end Decoder

end StompyMux.Telnet
