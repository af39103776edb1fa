import StompyMux.Telnet.Decoder

namespace StompyMux.Telnet

-- What a connection does with its decoder.
inductive Call
  | Initial
  | Negotiate (option : UInt8) (side : Side) (enable : Bool)
  | Echo (secret : Bool)
  | Feed (bytes : List UInt8)
  deriving DecidableEq

namespace Decoder

-- The decoder after a call, whether or not the call returned an error.
def perform (d : Decoder) : Call → Decoder
  | .Initial => d.initial.1
  | .Negotiate option side enable => (d.negotiate option side enable).1
  | .Echo secret => (d.echo secret).1
  | .Feed bytes => (d.feed bytes).1

def session (limits : Limits) (calls : List Call) : Decoder := calls.foldl perform (new limits)

theorem negotiated_apply (d : Decoder) (option : UInt8) (side : Side)
    (transition : QState × Option Bool) :
    (d.negotiated (d.negotiation.apply option side transition)).1 =
      let before := d.optionState option side
      let after := transition.1
      let installed := { d with negotiation := d.negotiation.set option side after }
      if before = after then installed
      else if after.enabled ∧ ¬ before.enabled then (installed.onEnabled option side).1
      else if ¬ after.enabled then installed.onDisabled option side
      else installed := by
  obtain ⟨after, sent⟩ := transition
  cases sent <;>
    · simp only [negotiated, Negotiator.apply, optionState]
      by_cases h : d.negotiation.state option side = after
      · simp [h, effects, effect]
      · simp only [h, effects, effect, ne_eq, not_false_eq_true, if_true, if_false,
          List.cons_append, List.nil_append]
        split_ifs <;> rfl

-- What a property of decoders has to survive to hold at every point of a session.
structure Preserved (P : Decoder → Prop) : Prop where
  negotiated : ∀ d option side transition, P d →
    P (d.negotiated (d.negotiation.apply option side transition)).1
  flags : ∀ d initialized echoSuppressed, P d → P { d with initialized, echoSuppressed }
  feedByte : ∀ d b, P d → P (d.feedByte b).1

namespace Preserved

variable {P : Decoder → Prop}

theorem negotiate (hp : Preserved P) (d : Decoder) (option : UInt8) (side : Side) (enable : Bool)
    (hd : P d) : P (d.negotiate option side enable).1 := by
  unfold Decoder.negotiate
  split
  · exact hd
  · exact hp.negotiated d option side _ hd

theorem negotiateAll (hp : Preserved P) (d : Decoder) (options : List (UInt8 × Side))
    (hd : P d) : P (d.negotiateAll options).1 := by
  induction options generalizing d with
  | nil => exact hd
  | cons slot options ih => exact ih _ (hp.negotiate d slot.1 slot.2 true hd)

theorem feed (hp : Preserved P) (d : Decoder) (bytes : List UInt8) (hd : P d) :
    P (d.feed bytes).1 := by
  induction bytes generalizing d with
  | nil => exact hd
  | cons b bytes ih =>
      have hb := hp.feedByte d b hd
      simp only [Decoder.feed]
      -- the state a failing byte leaves behind is the state of the failed call
      split
      · rename_i next out e hstep
        rw [hstep] at hb
        exact hb
      · rename_i next out hstep
        rw [hstep] at hb
        have hrest := ih next hb
        split <;> simp_all

theorem perform (hp : Preserved P) (d : Decoder) (call : Call) (hd : P d) :
    P (d.perform call) := by
  cases call with
  | Initial =>
      simp only [Decoder.perform, initial]
      split
      · exact hd
      · exact hp.negotiateAll _ OPTIONS (hp.flags d true d.echoSuppressed hd)
  | Negotiate option side enable => exact hp.negotiate d option side enable hd
  | Echo secret => exact hp.negotiate _ ECHO .Local secret (hp.flags d d.initialized secret hd)
  | Feed bytes => exact hp.feed d bytes hd

theorem session (hp : Preserved P) (limits : Limits) (calls : List Call)
    (hnew : P (new limits)) : P (session limits calls) := by
  unfold Decoder.session
  generalize new limits = d at hnew
  induction calls generalizing d with
  | nil => exact hnew
  | cons call calls ih => exact ih _ (hp.perform d call hnew)

end Preserved

end Decoder

end StompyMux.Telnet

namespace StompyMux.Telnet.Decoder

open Library.Text

-- Everything a peer can make the decoder hold.
structure Bounded (limits : Limits) (d : Decoder) : Prop where
  inputLineLimit : d.inputLineLimit = limits.inputLine
  subnegotiationLimit : d.subnegotiationLimit = limits.subnegotiation
  line : d.line.length ≤ limits.inputLine
  payload : ∀ option payload escaped, d.state = .Sub option payload escaped →
    payload.length ≤ limits.subnegotiation
  environment : d.environment.Bounded
  terminalRaw : d.terminalRaw.length ≤ TTYPE_TEXT_BYTES
  clientRaw : d.clientRaw.length ≤ TTYPE_TEXT_BYTES
  mxp : d.mxp.Bounded

variable (limits : Limits)

theorem new_bounded : Bounded limits (new limits) where
  inputLineLimit := rfl
  subnegotiationLimit := rfl
  line := Nat.zero_le _
  payload := by simp [new]
  environment := Environment.empty_bounded
  terminalRaw := by simp [new, length_utf8]; decide
  clientRaw := Nat.zero_le _
  mxp := Mxp.Client.default_bounded

variable (d : Decoder) (option : UInt8) (b : UInt8) (side : Side)

theorem onEnabled_bounded (hb : Bounded limits d) : Bounded limits (d.onEnabled option side).1 := by
  unfold onEnabled
  split_ifs
  · exact { hb with environment := Environment.empty_bounded }
  · exact hb
  · exact hb
  · exact hb
  · exact { hb with }
  · exact { hb with mxp := Mxp.Client.default_bounded }
  · exact hb

theorem onDisabled_bounded (hb : Bounded limits d) : Bounded limits (d.onDisabled option side) := by
  unfold onDisabled
  split_ifs
  · exact { hb with mxp := Mxp.Client.default_bounded }
  · exact { hb with terminalRaw := (new_bounded limits).terminalRaw }
  · exact { hb with }
  · exact { hb with }
  · exact { hb with environment := Environment.empty_bounded }
  · exact hb

theorem negotiated_bounded (transition : QState × Option Bool) (hb : Bounded limits d) :
    Bounded limits (d.negotiated (d.negotiation.apply option side transition)).1 := by
  rw [negotiated_apply]
  have hinstalled : Bounded limits
      { d with negotiation := d.negotiation.set option side transition.1 } := { hb with }
  dsimp only
  split_ifs
  · exact hinstalled
  · exact onEnabled_bounded limits _ option side hinstalled
  · exact hinstalled
  · exact onDisabled_bounded limits _ option side hinstalled

theorem eraseCharacter_length_le (line : List UInt8) :
    (eraseCharacter line).length ≤ line.length := by
  have hd := (List.dropWhile_sublist (l := line.reverse) (fun b => b &&& 0xC0 == 0x80)).length_le
  simp only [eraseCharacter, List.length_reverse, List.length_drop] at hd ⊢
  omega

theorem endLine_bounded (hb : Bounded limits d) : Bounded limits (d.endLine b).1 := by
  unfold endLine
  split
  · exact { hb with line := Nat.zero_le _ }
  split
  · rename_i body _
    refine { hb with line := Nat.zero_le _, mxp := ?_ }
    cases hr : d.mxp.receive body with
    | none => exact hb.mxp
    | some after => exact d.mxp.receive_bounded after body hb.mxp hr
  · exact { hb with line := Nat.zero_le _ }

-- The line is checked after each push, and a line that is too long is dropped at once.
theorem data_bounded (hb : Bounded limits d) : Bounded limits (d.data b).1 := by
  unfold data
  split_ifs with hcr hend herase hnul hlong
  · exact { hb with }
  · exact endLine_bounded limits _ b { hb with }
  · exact { hb with line := (eraseCharacter_length_le d.line).trans hb.line }
  · exact { hb with }
  · exact { hb with line := Nat.zero_le _ }
  · exact { hb with line := hb.inputLineLimit ▸ Nat.not_lt.mp hlong }

theorem identify_bounded (name : List UInt8) (hb : Bounded limits d) :
    Bounded limits (d.identify name) := by
  unfold identify
  split
  · exact { hb with }
  · have htaken : (name.take TTYPE_TEXT_BYTES).length ≤ TTYPE_TEXT_BYTES :=
      List.length_take_le _ _
    refine { hb with terminalRaw := htaken, clientRaw := ?_ }
    dsimp only
    split_ifs
    · exact htaken
    · exact hb.clientRaw

theorem sub_bounded (p : List UInt8) (hb : Bounded limits d) :
    Bounded limits (d.sub option p).1 := by
  simp only [sub]
  split_ifs
  · unfold subEnvironment
    split
    · rename_i environment hu
      exact { hb with environment := d.environment.update_bounded environment p hb.environment hu }
    · exact hb
  · exact hb
  · split
    · exact { hb with }
    · exact hb
  · exact { identify_bounded limits d ((p.drop 1).takeWhile (· != 0)) hb with }
  · unfold subCharset
    dsimp only
    split
    · exact { hb with }
    · exact { hb with }
    · split_ifs
      · exact hb
      · exact { hb with }
      · exact hb
    · exact hb
  · exact hb

-- So is a payload: what is too long never becomes part of the state.
theorem subByte_bounded {payload : List UInt8} (escaped : Bool)
    (b : UInt8) (hb : Bounded limits d) (hp : payload.length ≤ limits.subnegotiation) :
    Bounded limits (d.subByte option payload escaped b).1 := by
  unfold subByte
  split
  · exact sub_bounded limits d option payload hb
  split
  · exact { hb with payload := by rintro _ _ _ ⟨⟩; exact hp }
  dsimp only
  generalize (if ¬ escaped = true ∨ b = IAC then payload ++ [b] else payload) = collected
  split_ifs with hlong henv
  · exact { hb with payload := by rintro _ _ _ ⟨⟩ }
  · exact hb
  · refine { hb with payload := ?_ }
    rintro _ _ _ ⟨⟩
    exact hb.subnegotiationLimit ▸ Nat.not_lt.mp hlong

theorem feedByte_bounded (hb : Bounded limits d) : Bounded limits (d.feedByte b).1 := by
  have hready : Bounded limits { d with state := .Data } :=
    { hb with payload := by rintro _ _ _ ⟨⟩ }
  have hstate : ∀ state, (∀ option payload escaped, state ≠ .Sub option payload escaped) →
      Bounded limits { d with state } := by
    intro state hne
    refine { hb with payload := ?_ }
    intro option payload escaped h
    exact absurd h (hne option payload escaped)
  unfold feedByte
  split
  · split
    · exact hstate .Iac (by simp)
    · exact data_bounded limits _ b hready
  · split
    · exact data_bounded limits _ b hready
    split
    · exact hstate (.Option _) (by simp)
    split_ifs
    · exact hstate .SubOption (by simp)
    · exact { hready with line := (eraseCharacter_length_le d.line).trans hb.line }
    · exact { hready with line := Nat.zero_le _ }
    · exact hready
  · exact negotiated_bounded limits _ b _ _ hready
  · split
    · exact hready
    · exact hstate (.DiscardSub _) (by simp)
  · exact { hb with payload := by rintro _ _ _ ⟨⟩; exact Nat.zero_le _ }
  · rename_i option payload escaped hs
    exact subByte_bounded limits _ option escaped b hready
      (hb.payload option payload escaped hs)

theorem bounded_preserved : Preserved (Bounded limits) where
  negotiated := negotiated_bounded limits
  flags := fun _ _ _ hb => { hb with }
  feedByte := feedByte_bounded limits

-- Nothing a peer sends, and no call that failed on the way, makes the decoder hold more
-- than its limits.
theorem session_bounded (calls : List Call) :
    let d := session limits calls
    d.pendingText ≤ limits.inputLine ∧
    (∀ option payload escaped, d.state = .Sub option payload escaped →
      payload.length ≤ limits.subnegotiation) ∧
    d.environment.size ≤ 64 ∧ d.environment.bytes ≤ 65536 ∧
    (∀ (key : Kind × List UInt8) (value : List UInt8), d.environment[key]? = some value →
      key.2.length ≤ 256 ∧ value.length ≤ 4096) ∧
    d.terminalRaw.length ≤ 63 ∧ d.clientRaw.length ≤ 63 ∧
    d.mxp.supports.size ≤ 256 ∧ ∀ tag ∈ d.mxp.supports, utf8Len tag ≤ 63 := by
  have hb := (bounded_preserved limits).session limits calls (new_bounded limits)
  exact ⟨hb.line, hb.payload, hb.environment.count, hb.environment.bytes,
    hb.environment.fields, hb.terminalRaw, hb.clientRaw, hb.mxp.count, hb.mxp.names⟩

end StompyMux.Telnet.Decoder
