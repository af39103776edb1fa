import Mathlib.Data.List.Infix
import StompyMux.Telnet.Decoder

namespace StompyMux.Telnet

open Library.Text

-- What the command stream remembers between two bytes of application data.
structure LineBuffer where
  line : List UInt8
  afterCr : Bool
  discarded : Nat
  deriving DecidableEq

-- The line discipline on its own: application data in, command lines out.
def LineBuffer.accept (buffer : LineBuffer) (limit : Nat) (b : UInt8) :
    LineBuffer × List Input × Option FeedError :=
  if buffer.afterCr ∧ (b = 10 ∨ b = 0) then ({ buffer with afterCr := false }, [], none)
  else if b = 13 ∨ b = 10 then
    match fromUtf8 buffer.line with
    | none => (⟨[], b == 13, buffer.discarded + buffer.line.length⟩, [.InvalidUtf8], none)
    | some line => (⟨[], b == 13, buffer.discarded⟩, [.Line line], none)
  else if b = 8 ∨ b = 127 then
    (⟨Decoder.eraseCharacter buffer.line, false, buffer.discarded⟩, [], none)
  else if b = 0 then ({ buffer with afterCr := false }, [], none)
  else if (buffer.line ++ [b]).length > limit then
    (⟨[], false, buffer.discarded + (buffer.line ++ [b]).length⟩, [],
      some (.InputLineExceeds limit))
  else (⟨buffer.line ++ [b], false, buffer.discarded⟩, [], none)

-- The inputs that belong to the command stream.
def commands (out : List Input) : List Input :=
  out.filter (fun input => match input with
    | .Line _ | .InvalidUtf8 => true
    | _ => false)

@[simp] theorem commands_append (out more : List Input) :
    commands (out ++ more) = commands out ++ commands more := List.filter_append ..

namespace Decoder

def text (d : Decoder) : LineBuffer := ⟨d.line, d.afterCr, d.discarded⟩

-- Nothing that belongs to the command stream has changed and nothing entered it.
structure Quiet (d after : Decoder) (out : List Input) : Prop where
  state : after.state = d.state
  text : after.text = d.text
  inputLineLimit : after.inputLineLimit = d.inputLineLimit
  subnegotiationLimit : after.subnegotiationLimit = d.subnegotiationLimit
  silent : commands out = []

variable (d : Decoder) (option : UInt8) (p : List UInt8)

theorem Quiet.refl : Quiet d d [] := ⟨rfl, rfl, rfl, rfl, rfl⟩

theorem Quiet.trans (d next after : Decoder) (out more : List Input) (hn : Quiet d next out)
    (ha : Quiet next after more) : Quiet d after (out ++ more) where
  state := ha.state.trans hn.state
  text := ha.text.trans hn.text
  inputLineLimit := ha.inputLineLimit.trans hn.inputLineLimit
  subnegotiationLimit := ha.subnegotiationLimit.trans hn.subnegotiationLimit
  silent := by rw [commands_append, hn.silent, ha.silent, List.append_nil]

theorem onEnabled_quiet (side : Side) :
    Quiet d (d.onEnabled option side).1 (d.onEnabled option side).2 := by
  unfold onEnabled
  split_ifs <;> exact ⟨rfl, rfl, rfl, rfl, rfl⟩

theorem onDisabled_quiet (side : Side) : Quiet d (d.onDisabled option side) [] := by
  unfold onDisabled
  split_ifs <;> exact ⟨rfl, rfl, rfl, rfl, rfl⟩

theorem effect_quiet (event : Event) : Quiet d (d.effect event).1 (d.effect event).2 := by
  cases event with
  | Send verb option => exact ⟨rfl, rfl, rfl, rfl, rfl⟩
  | Changed change =>
      simp only [effect]
      split_ifs
      · have hq := onEnabled_quiet d change.option change.side
        exact ⟨hq.state, hq.text, hq.inputLineLimit, hq.subnegotiationLimit, hq.silent⟩
      · exact ⟨rfl, rfl, rfl, rfl, rfl⟩
      · have hq := onDisabled_quiet d change.option change.side
        exact ⟨hq.state, hq.text, hq.inputLineLimit, hq.subnegotiationLimit, rfl⟩

theorem effects_quiet (events : List Event) :
    Quiet d (d.effects events).1 (d.effects events).2 := by
  induction events generalizing d with
  | nil => exact Quiet.refl d
  | cons event events ih => exact (effect_quiet d event).trans _ _ _ _ _ (ih _)

theorem negotiated_quiet (outcome : Negotiator × List Event) :
    Quiet d (d.negotiated outcome).1 (d.negotiated outcome).2 := by
  have hq := effects_quiet { d with negotiation := outcome.1 } outcome.2
  exact ⟨hq.state, hq.text, hq.inputLineLimit, hq.subnegotiationLimit, hq.silent⟩

theorem subEnvironment_quiet : Quiet d (d.subEnvironment p).1 (d.subEnvironment p).2 := by
  unfold subEnvironment
  split <;> exact ⟨rfl, rfl, rfl, rfl, rfl⟩

theorem identify_quiet (name : List UInt8) : Quiet d (d.identify name) [] := by
  unfold identify
  split <;> exact ⟨rfl, rfl, rfl, rfl, rfl⟩

theorem subTtype_quiet : Quiet d (d.subTtype p).1 (d.subTtype p).2 := by
  have hq := identify_quiet d ((p.drop 1).takeWhile (· != 0))
  refine ⟨hq.state, hq.text, hq.inputLineLimit, hq.subnegotiationLimit, ?_⟩
  simp only [subTtype]
  split <;> rfl

theorem subCharset_quiet : Quiet d (d.subCharset p).1 (d.subCharset p).2 := by
  unfold subCharset
  dsimp only
  split
  · refine ⟨rfl, rfl, rfl, rfl, ?_⟩
    split <;> rfl
  · exact ⟨rfl, rfl, rfl, rfl, rfl⟩
  · split_ifs <;> exact ⟨rfl, rfl, rfl, rfl, rfl⟩
  · exact ⟨rfl, rfl, rfl, rfl, rfl⟩

theorem sub_quiet : Quiet d (d.sub option p).1 (d.sub option p).2 := by
  simp only [sub]
  split_ifs
  · exact subEnvironment_quiet d p
  · exact ⟨rfl, rfl, rfl, rfl, rfl⟩
  · split <;> exact ⟨rfl, rfl, rfl, rfl, rfl⟩
  · exact subTtype_quiet d p
  · exact subCharset_quiet d p
  · exact ⟨rfl, rfl, rfl, rfl, rfl⟩

-- While MXP is off, application data meets the plain line discipline.
theorem data_eq_accept (b : UInt8) (hm : (d.optionState MXP .Local).enabled = false) :
    (d.data b).1.text = (d.text.accept d.inputLineLimit b).1 ∧
      (d.data b).2 = (d.text.accept d.inputLineLimit b).2 ∧ (d.data b).1.state = d.state ∧
      (d.data b).1.negotiation = d.negotiation ∧ (d.data b).1.inputLineLimit = d.inputLineLimit ∧
      (d.data b).1.subnegotiationLimit = d.subnegotiationLimit := by
  unfold data LineBuffer.accept
  have hline : d.text.line = d.line := rfl
  have hcr : d.text.afterCr = d.afterCr := rfl
  rw [hline, hcr]
  split_ifs
  · exact ⟨rfl, rfl, rfl, rfl, rfl, rfl⟩
  · have hoff : (optionState { d with afterCr := false } MXP .Local).enabled = false := hm
    simp only [endLine, hoff, Bool.false_eq_true, if_false]
    cases fromUtf8 d.line <;> exact ⟨rfl, rfl, rfl, rfl, rfl, rfl⟩
  all_goals exact ⟨rfl, rfl, rfl, rfl, rfl, rfl⟩

theorem feed_cons {d next : Decoder} {b : UInt8} {bytes : List UInt8} {out : List Input}
    (hb : d.feedByte b = (next, out, none)) :
    d.feed (b :: bytes) = ((next.feed bytes).1, (next.feed bytes).2.map (out ++ ·)) := by
  simp only [feed, hb]
  split <;> simp_all [Except.map]

theorem feed_append (d next : Decoder) (bytes rest : List UInt8) (out : List Input)
    (hf : d.feed bytes = (next, .ok out)) :
    d.feed (bytes ++ rest) = ((next.feed rest).1, (next.feed rest).2.map (out ++ ·)) := by
  induction bytes generalizing d out with
  | nil =>
      cases hf
      cases hr : next.feed rest with
      | mk after result => cases result <;> simp [hr, Except.map]
  | cons b bytes ih =>
      obtain ⟨⟨middle, emitted, failed⟩, hb⟩ : ∃ step, d.feedByte b = step := ⟨_, rfl⟩
      cases failed with
      | some e => simp [feed, hb] at hf
      | none =>
          rw [feed_cons hb] at hf
          cases hm : (middle.feed bytes).2 with
          | error e => simp [hm, Except.map] at hf
          | ok more =>
              simp only [hm, Except.map, Prod.mk.injEq, Except.ok.injEq] at hf
              obtain ⟨rfl, rfl⟩ := hf
              rw [List.cons_append, feed_cons hb,
                ih middle more (Prod.ext rfl hm)]
              cases (middle.feed bytes).1.feed rest with
              | mk after result => cases result <;> simp [Except.map]

end Decoder

-- A complete Telnet command.
inductive Command (limit : Nat) : List UInt8 → Prop
  | Simple (b : UInt8) (hb : b ∉ [247, 248, SB, IAC]) (hv : Verb.fromByte b = none) :
      Command limit [IAC, b]
  | Negotiate (verb : Verb) (option : UInt8) : Command limit [IAC, verb.toByte, option]
  | Subnegotiate (option : UInt8) (payload : List UInt8) (hl : payload.length ≤ limit) :
      Command limit ([IAC, SB, option] ++ escape payload ++ [IAC, SE])

-- A stream of application data, with IAC doubled, into which commands have been inserted
-- at any positions between the bytes of the data.
inductive Mixed (limit : Nat) : List UInt8 → List UInt8 → Prop
  | Nil : Mixed limit [] []
  | Byte (b : UInt8) (data mixed : List UInt8) (hm : Mixed limit data mixed) :
      Mixed limit (b :: data) (escape [b] ++ mixed)
  | Inserted (command data mixed : List UInt8) (hc : Command limit command)
      (hm : Mixed limit data mixed) : Mixed limit data (command ++ mixed)

namespace Decoder

variable (d : Decoder) (option : UInt8) (collected : List UInt8)

theorem feedByte_iac (hs : d.state = .Data) :
    d.feedByte IAC = ({ d with state := .Iac }, [], none) := by
  simp [feedByte, hs]

theorem feedByte_collect {option b : UInt8} {collected : List UInt8}
    (hs : d.state = .Sub option collected false) (hb : b ≠ IAC)
    (hl : (collected ++ [b]).length ≤ d.subnegotiationLimit) :
    d.feedByte b = ({ d with state := .Sub option (collected ++ [b]) false }, [], none) := by
  simp only [feedByte, hs, subByte]
  rw [if_neg (by simp), if_neg (by simp [hb]), if_pos (Or.inl (by simp)),
    if_neg (Nat.not_lt.mpr hl)]

theorem feedByte_escape (hs : d.state = .Sub option collected false) :
    d.feedByte IAC = ({ d with state := .Sub option collected true }, [], none) := by
  simp [feedByte, hs, subByte]

theorem feedByte_doubled (hs : d.state = .Sub option collected true)
    (hl : (collected ++ [IAC]).length ≤ d.subnegotiationLimit) :
    d.feedByte IAC = ({ d with state := .Sub option (collected ++ [IAC]) false }, [], none) := by
  simp only [feedByte, hs, subByte]
  rw [if_neg (by decide), if_neg (by decide), if_pos (Or.inr trivial),
    if_neg (Nat.not_lt.mpr hl)]

theorem feedByte_close {payload : List UInt8} (hs : d.state = .Sub option payload true) :
    d.feedByte SE = ((sub { d with state := .Data } option payload).1,
      (sub { d with state := .Data } option payload).2, none) := by
  simp [feedByte, hs, subByte]

theorem escape_iac (rest : List UInt8) : escape (IAC :: rest) = IAC :: IAC :: escape rest := rfl

theorem escape_byte {b : UInt8} (rest : List UInt8) (hb : b ≠ IAC) :
    escape (b :: rest) = b :: escape rest := by
  rw [escape, List.flatMap_cons, if_neg hb, ← escape, List.singleton_append]

theorem feed_payload (collected payload : List UInt8) (hs : d.state = .Sub option collected false)
    (hl : (collected ++ payload).length ≤ d.subnegotiationLimit) : d.feed (escape payload) =
      ({ d with state := .Sub option (collected ++ payload) false }, .ok []) := by
  induction payload generalizing d collected with
  | nil =>
      rw [List.append_nil, ← hs]
      rfl
  | cons b payload ih =>
      have hone : (collected ++ [b]).length ≤ d.subnegotiationLimit := by
        simp only [List.length_append, List.length_cons, List.length_nil] at hl ⊢
        omega
      have hrest := ih { d with state := .Sub option (collected ++ [b]) false }
        (collected ++ [b]) rfl (by simpa using hl)
      by_cases hb : b = IAC
      · subst hb
        rw [escape_iac, feed_cons (feedByte_escape d option collected hs),
          feed_cons (feedByte_doubled { d with state := .Sub option collected true } option
            collected rfl hone), hrest]
        simp [Except.map]
      · rw [escape_byte payload hb,
          feed_cons (feedByte_collect d hs hb hone), hrest]
        simp [Except.map]

-- A subnegotiation that fits reaches the handler of its option, and nothing else happens.
theorem feed_frame {payload : List UInt8} (hs : d.state = .Data)
    (hl : payload.length ≤ d.subnegotiationLimit) :
    d.feed ([IAC, SB, option] ++ escape payload ++ [IAC, SE]) =
      ((d.sub option payload).1, .ok (d.sub option payload).2) := by
  have hsb : feedByte { d with state := .Iac } SB =
      ({ d with state := .SubOption }, [], none) := rfl
  have hoption : feedByte { d with state := .SubOption } option =
      ({ d with state := .Sub option [] false }, [], none) := rfl
  have hpayload := feed_payload { d with state := .Sub option [] false } option [] payload rfl
    (by simpa using hl)
  have hready : { d with state := .Data } = d := by rw [← hs]
  rw [List.append_assoc, List.cons_append, List.cons_append, List.cons_append, List.nil_append,
    feed_cons (feedByte_iac d hs), feed_cons hsb,
    feed_cons hoption, feed_append _ _ _ _ _ hpayload,
    feed_cons (feedByte_escape _ option ([] ++ payload) rfl),
    feed_cons (feedByte_close _ option rfl)]
  simp [feed, Except.map, hready]

-- A command is read to its end without an error, and the command stream stays as it was.
theorem feed_command {command : List UInt8} (hs : d.state = .Data)
    (hc : Command d.subnegotiationLimit command) :
    ∃ next out, d.feed command = (next, .ok out) ∧ Quiet d next out := by
  have hiac := feedByte_iac d hs
  cases hc with
  | Simple b hb hv =>
      simp only [List.mem_cons, List.not_mem_nil, or_false, not_or] at hb
      have hbyte : feedByte { d with state := .Iac } b = ({ d with state := .Data }, [], none) := by
        simp [feedByte, hv, hb]
      refine ⟨_, [], by rw [feed_cons hiac, feed_cons hbyte]; rfl, ?_⟩
      exact ⟨hs.symm, rfl, rfl, rfl, rfl⟩
  | Negotiate verb option =>
      have hverb : feedByte { d with state := .Iac } verb.toByte =
          ({ d with state := .Option verb }, [], none) := by
        have hne : verb.toByte ≠ IAC := by cases verb <;> decide
        simp [feedByte, hne, Verb.fromByte_toByte]
      let ready : Decoder := { d with state := .Data }
      let outcome := ready.negotiated (ready.negotiation.receive option verb
        (OPTIONS.contains (option, verb.side)))
      have hoption : feedByte { d with state := .Option verb } option =
          (outcome.1, outcome.2, none) := rfl
      have hq := negotiated_quiet ready (ready.negotiation.receive option verb
        (OPTIONS.contains (option, verb.side)))
      refine ⟨outcome.1, outcome.2, ?_, ?_⟩
      · rw [feed_cons hiac, feed_cons hverb, feed_cons hoption]
        simp [feed, Except.map]
      · exact ⟨hq.state.trans hs.symm, hq.text, hq.inputLineLimit, hq.subnegotiationLimit,
          hq.silent⟩
  | Subnegotiate option payload hl =>
      exact ⟨_, _, feed_frame d option hs hl, sub_quiet d option payload⟩

-- Two decoders at the same point of one command stream, between two commands.
structure SameStream (d other : Decoder) : Prop where
  state : d.state = .Data
  state' : other.state = .Data
  text : d.text = other.text
  inputLineLimit : d.inputLineLimit = other.inputLineLimit
  mxp : (other.optionState MXP .Local).enabled = false

-- A byte of application data moves both decoders in the same way.
theorem data_sameStream {d other : Decoder} (b : UInt8) (hs : SameStream d other)
    (hm : (d.optionState MXP .Local).enabled = false) :
    (d.data b).2 = (other.data b).2 ∧ SameStream (d.data b).1 (other.data b).1 ∧
      (d.data b).1.subnegotiationLimit = d.subnegotiationLimit := by
  obtain ⟨ht, hout, hstate, hneg, hlimit, hsub⟩ := data_eq_accept d b hm
  obtain ⟨ht', hout', hstate', hneg', hlimit', -⟩ := data_eq_accept other b hs.mxp
  refine ⟨?_, ⟨?_, ?_, ?_, ?_, ?_⟩, hsub⟩
  · rw [hout, hout', hs.text, hs.inputLineLimit]
  · rw [hstate, hs.state]
  · rw [hstate', hs.state']
  · rw [ht, ht', hs.text, hs.inputLineLimit]
  · rw [hlimit, hlimit', hs.inputLineLimit]
  · rw [optionState, hneg']
    exact hs.mxp

theorem feed_escape_ok {d next : Decoder} {b : UInt8} {out : List Input} (hs : d.state = .Data)
    (hb : d.data b = (next, out, none)) : d.feed (escape [b]) = (next, .ok out) := by
  have hd : { d with state := .Data } = d := by rw [← hs]
  by_cases hiac : b = IAC
  · subst hiac
    have hfirst : d.feedByte IAC = ({ d with state := .Iac }, [], none) := by simp [feedByte, hs]
    have hsecond : feedByte { d with state := .Iac } IAC = (next, out, none) := by
      simpa [feedByte, hd] using hb
    rw [escape, List.flatMap_singleton, if_pos rfl, feed_cons hfirst,
      feed_cons hsecond]
    simp [feed, Except.map]
  · have hbyte : d.feedByte b = (next, out, none) := by simpa [feedByte, hs, hiac, hd] using hb
    rw [escape, List.flatMap_singleton, if_neg hiac, feed_cons hbyte]
    simp [feed, Except.map]

theorem feed_escape_error {d next : Decoder} {b : UInt8} (rest : List UInt8) {out : List Input}
    {e : FeedError} (hs : d.state = .Data) (hb : d.data b = (next, out, some e)) :
    d.feed (escape [b] ++ rest) = (next, .error e) := by
  have hd : { d with state := .Data } = d := by rw [← hs]
  by_cases hiac : b = IAC
  · subst hiac
    have hfirst : d.feedByte IAC = ({ d with state := .Iac }, [], none) := by simp [feedByte, hs]
    have hsecond : feedByte { d with state := .Iac } IAC = (next, out, some e) := by
      simpa [feedByte, hd] using hb
    rw [escape, List.flatMap_singleton, if_pos rfl, List.cons_append, List.cons_append,
      List.nil_append, feed_cons hfirst]
    simp [feed, hsecond, Except.map]
  · have hbyte : d.feedByte b = (next, out, some e) := by simpa [feedByte, hs, hiac, hd] using hb
    rw [escape, List.flatMap_singleton, if_neg hiac]
    simp [feed, hbyte]

-- What remains to be fed after an error-free start succeeds when the whole does.
theorem feed_append_inv {d next after : Decoder} {bytes rest : List UInt8}
    {out total : List Input} (hf : d.feed bytes = (next, .ok out))
    (ht : d.feed (bytes ++ rest) = (after, .ok total)) :
    ∃ more, next.feed rest = (after, .ok more) ∧ total = out ++ more := by
  rw [feed_append d next bytes rest out hf] at ht
  cases hr : next.feed rest with
  | mk final result =>
      cases result with
      | error e => simp [hr, Except.map] at ht
      | ok more =>
          simp only [hr, Except.map, Prod.mk.injEq, Except.ok.injEq] at ht
          exact ⟨more, by rw [ht.1], ht.2.symm⟩

-- The MXP option is off at every point of the run.
def MxpNeverEnabled (d : Decoder) (bytes : List UInt8) : Prop :=
  ∀ start, start <+: bytes → ((d.feed start).1.optionState MXP .Local).enabled = false

theorem MxpNeverEnabled.rest (d next : Decoder) (bytes rest : List UInt8) (out : List Input)
    (hf : d.feed bytes = (next, .ok out)) (hm : MxpNeverEnabled d (bytes ++ rest)) :
    MxpNeverEnabled next rest := by
  intro start hstart
  have hwhole := hm (bytes ++ start) ((List.prefix_append_right_inj bytes).mpr hstart)
  rwa [feed_append d next bytes start out hf] at hwhole

theorem mixed_sameStream (limit : Nat) (data mixed : List UInt8) (d other final final' : Decoder)
    (out out' : List Input) (hmix : Mixed limit data mixed) (hs : SameStream d other)
    (hl : d.subnegotiationLimit = limit) (hm : MxpNeverEnabled d mixed)
    (hf : d.feed mixed = (final, .ok out)) (hf' : other.feed (escape data) = (final', .ok out')) :
    commands out = commands out' ∧ SameStream final final' := by
  induction hmix generalizing d other out out' with
  | Nil =>
      cases hf
      cases hf'
      exact ⟨rfl, hs⟩
  | Byte b data mixed _ ih =>
      have hoff := hm [] (List.nil_prefix)
      obtain ⟨hout, hsame, hsub⟩ := data_sameStream b hs hoff
      rw [show escape (b :: data) = escape [b] ++ escape data by simp [escape]] at hf'
      obtain ⟨⟨next, emitted, failed⟩, hd⟩ : ∃ step, d.data b = step := ⟨_, rfl⟩
      obtain ⟨⟨next', emitted', failed'⟩, hd'⟩ : ∃ step, other.data b = step := ⟨_, rfl⟩
      simp only [hd, hd', Prod.mk.injEq] at hout hsame hsub
      obtain ⟨rfl, rfl⟩ := hout
      cases failed with
      | some e => rw [feed_escape_error mixed hs.state hd] at hf; cases hf
      | none =>
          have hfirst := feed_escape_ok hs.state hd
          have hfirst' := feed_escape_ok hs.state' hd'
          obtain ⟨more, hr, rfl⟩ := feed_append_inv hfirst hf
          obtain ⟨more', hr', rfl⟩ := feed_append_inv hfirst' hf'
          obtain ⟨hcommands, hfinal⟩ := ih next next' more more' hsame (hsub.trans hl)
            (MxpNeverEnabled.rest d next _ _ _ hfirst hm) hr hr'
          exact ⟨by rw [commands_append, commands_append, hcommands], hfinal⟩
  | Inserted command data mixed hc _ ih =>
      obtain ⟨next, emitted, hn, hq⟩ := feed_command d hs.state (hl ▸ hc)
      obtain ⟨more, hr, rfl⟩ := feed_append_inv hn hf
      have hsame : SameStream next other :=
        ⟨hq.state.trans hs.state, hs.state', hq.text.trans hs.text,
          hq.inputLineLimit.trans hs.inputLineLimit, hs.mxp⟩
      obtain ⟨hcommands, hfinal⟩ := ih next other more out' hsame
        (hq.subnegotiationLimit.trans hl) (MxpNeverEnabled.rest d next _ _ _ hn hm) hr hf'
      refine ⟨?_, hfinal⟩
      rw [commands_append, hq.silent, List.nil_append, hcommands]

-- Commands inserted anywhere into application data leave the command stream unchanged: the
-- same lines and decoding failures come out, and the same text is pending afterwards.
theorem feed_mixed (d final final' : Decoder) (data mixed : List UInt8) (out out' : List Input)
    (hs : d.state = .Data) (hmix : Mixed d.subnegotiationLimit data mixed)
    (hf : d.feed mixed = (final, .ok out)) (hf' : d.feed (escape data) = (final', .ok out'))
    (hm : MxpNeverEnabled d mixed) :
    commands out = commands out' ∧ final.line = final'.line ∧
      final.pendingText = final'.pendingText ∧ final.discarded = final'.discarded := by
  have hsame : SameStream d d := ⟨hs, hs, rfl, rfl, hm [] List.nil_prefix⟩
  obtain ⟨hcommands, hfinal⟩ := mixed_sameStream _ data mixed d d final final' out out' hmix
    hsame rfl hm hf hf'
  have hline : final.line = final'.line := congrArg LineBuffer.line hfinal.text
  exact ⟨hcommands, hline, congrArg List.length hline, congrArg LineBuffer.discarded hfinal.text⟩

-- A refused option inside a character, a subnegotiation between CR and LF and a NOP.
def sampleData : List UInt8 := [104, 0xC3, 0xA9, 13, 10, 255, 10]

def sampleMixed : List UInt8 :=
  [104, 0xC3] ++ [255, 251, 99] ++ [0xA9, 13] ++ [255, 250, 201, 13, 255, 255, 255, 240] ++ [10] ++
    [255, 241] ++ [255, 255, 10]

theorem sampleMixed_mixed : Mixed 8 sampleData sampleMixed :=
  .Byte 104 _ _ <| .Byte 0xC3 _ _ <| .Inserted _ _ _ (.Negotiate .Will 99) <|
    .Byte 0xA9 _ _ <| .Byte 13 _ _ <|
    .Inserted _ _ _ (.Subnegotiate 201 [13, 255] (by decide)) <| .Byte 10 _ _ <|
    .Inserted _ _ _ (.Simple 241 (by decide) rfl) <| .Byte 255 _ _ <| .Byte 10 _ _ .Nil

theorem feed_mixed_sample :
    ∃ out out', ((new ⟨80, 8⟩).feed sampleMixed).2 = .ok out ∧
      ((new ⟨80, 8⟩).feed (escape sampleData)).2 = .ok out' ∧
      commands out = [.Line ['h', 'é'], .InvalidUtf8] ∧ commands out = commands out' := by
  let d := new ⟨80, 8⟩
  have hm : MxpNeverEnabled d sampleMixed := by
    intro start hstart
    have hall : ∀ start ∈ sampleMixed.inits,
        ((d.feed start).1.optionState MXP .Local).enabled = false := by decide
    exact hall start ((List.mem_inits start sampleMixed).mpr hstart)
  have hf : d.feed sampleMixed =
      ((d.feed sampleMixed).1, .ok [.Reply [255, 254, 99], .Line ['h', 'é'], .InvalidUtf8]) :=
    Prod.ext rfl rfl
  have hf' : d.feed (escape sampleData) =
      ((d.feed (escape sampleData)).1, .ok [.Line ['h', 'é'], .InvalidUtf8]) := Prod.ext rfl rfl
  exact ⟨_, _, congrArg Prod.snd hf, congrArg Prod.snd hf', rfl,
    (feed_mixed d _ _ sampleData sampleMixed _ _ rfl sampleMixed_mixed hf hf' hm).1⟩

end Decoder

end StompyMux.Telnet
