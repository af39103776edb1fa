import StompyMux.Telnet.Peers
import StompyMux.Telnet.Transparency

-- A decoder and the client of its connection: what they announce, the decoder reads as bytes.
namespace StompyMux.Telnet

open Library Peers

-- The negotiation that a reply is.
def Input.command : Input → Option (Verb × UInt8)
  | .Reply [first, verb, option] =>
      if first = IAC then (Verb.fromByte verb).map (fun verb => (verb, option)) else none
  | _ => none

def announced (out : List Input) : List (Verb × UInt8) := out.filterMap Input.command

namespace Decoder

variable (d : Decoder)

theorem effects_announced (events : List Event) :
    (d.effects events).1.negotiation = d.negotiation ∧ announced (d.effects events).2 = sends events := by
  induction events generalizing d with
  | nil => exact ⟨rfl, rfl⟩
  | cons event events ih =>
      obtain ⟨hengine, hsends⟩ := ih (d.effect event).1
      have hhead : (d.effect event).1.negotiation = d.negotiation ∧
          announced (d.effect event).2 = sends [event] := by
        cases event with
        | Send verb option => exact ⟨rfl, by cases verb <;> rfl⟩
        | Changed change =>
            unfold effect onEnabled onDisabled
            dsimp only
            split_ifs <;> exact ⟨rfl, rfl⟩
      refine ⟨hengine.trans hhead.1, ?_⟩
      show announced ((d.effect event).2 ++ ((d.effect event).1.effects events).2) = sends ([event] ++ events)
      unfold announced sends at *
      rw [List.filterMap_append, List.filterMap_append, hhead.2, hsends]

theorem feed_negotiation (hs : d.state = .Data) (verb : Verb) (option : UInt8) :
    d.feed [IAC, verb.toByte, option] =
      ((d.negotiated (d.negotiation.receive option verb (OPTIONS.contains (option, verb.side)))).1,
        .ok (d.negotiated (d.negotiation.receive option verb (OPTIONS.contains (option, verb.side)))).2) := by
  have hd : { d with state := .Data } = d := by rw [← hs]
  have hne : verb.toByte ≠ IAC := by cases verb <;> decide
  rw [feed_cons (feedByte_iac d hs)]
  simp [feed, feedByte, hne, Verb.fromByte_toByte, hd, Except.map]

end Decoder

-- The decoder is peer A and the client peer B. The client negotiates by the rules, and takes and
-- refuses what it likes.
structure Wired where
  server : Decoder
  client : Negotiator
  channel : Peer → List (Verb × UInt8)

inductive Move
  | Negotiate (option : UInt8) (side : Side) (enable : Bool)
  | Request (option : UInt8) (side : Side) (enable : Bool)
  | Hear (accept : Bool)
  | Read

namespace Wired

def start (limits : Limits) : Wired := ⟨.new limits, .initial, fun _ => []⟩

variable (w : Wired)

def config : Config := ⟨fun | .A => w.server.negotiation | .B => w.client, w.channel⟩

def said (peer : Peer) (messages : List (Verb × UInt8)) : Wired :=
  { w with channel := Function.update w.channel peer (w.channel peer ++ messages) }

def served (result : Decoder × List Input) : Wired :=
  { w with server := result.1 }.said .A (announced result.2)

def replied (outcome : Negotiator × List Event) : Wired :=
  { w with client := outcome.1 }.said .B (sends outcome.2)

def popped (peer : Peer) (rest : List (Verb × UInt8)) : Wired :=
  { w with channel := Function.update w.channel peer rest }

def step : Move → Option Wired
  | .Negotiate option side enable => some (w.served (w.server.negotiate option side enable))
  | .Request option side enable => some (w.replied (w.client.request option side enable))
  | .Hear accept =>
      match w.channel .A with
      | [] => none
      | (verb, option) :: rest =>
          some ((w.popped .A rest).replied (w.client.receive option verb accept))
  | .Read =>
      match w.channel .B with
      | [] => none
      | (verb, option) :: rest =>
          match w.server.feed [IAC, verb.toByte, option] with
          | (d, .ok out) => some ((w.popped .B rest).served (d, out))
          | (_, .error _) => none

theorem replied_config (outcome : Negotiator × List Event) :
    (w.replied outcome).config = w.config.emit .B outcome := by
  unfold replied said config Config.emit
  congr 1
  funext peer
  cases peer <;> rfl

theorem served_config (result : Decoder × List Input) : (w.served result).config =
    ⟨Function.update w.config.engine .A result.1.negotiation,
      Function.update w.channel .A (w.channel .A ++ announced result.2)⟩ := by
  unfold served said config
  congr 1
  funext peer
  cases peer <;> rfl

theorem served_negotiated (outcome : Negotiator × List Event) :
    (w.served (w.server.negotiated outcome)).config = w.config.emit .A outcome := by
  obtain ⟨hengine, hsends⟩ :=
    Decoder.effects_announced { w.server with negotiation := outcome.1 } outcome.2
  rw [served_config]
  unfold Decoder.negotiated Config.emit
  rw [hengine, hsends]
  rfl

-- Reading the bytes of an announcement is a step of the engine: none of it is refused or lost.
theorem read_config (hr : w.server.state = .Data) {verb : Verb} {option : UInt8}
    {rest : List (Verb × UInt8)} (hchannel : w.channel .B = (verb, option) :: rest) :
    ∃ next, w.step .Read = some next ∧
      w.config.deliver .B (OPTIONS.contains (option, verb.side)) = some next.config ∧
      next.server.state = .Data := by
  let outcome := w.server.negotiation.receive option verb (OPTIONS.contains (option, verb.side))
  have hconfig := (w.popped .B rest).served_negotiated outcome
  refine ⟨(w.popped .B rest).served (w.server.negotiated outcome), ?_, ?_, ?_⟩
  · simp only [step, hchannel, w.server.feed_negotiation hr verb option]
    rfl
  · rw [show (w.popped .B rest).server = w.server from rfl] at hconfig
    rw [hconfig]
    simp only [Config.deliver, config, hchannel]
    rfl
  · exact (w.server.negotiated_quiet outcome).state.trans hr

theorem hear_config {accept : Bool} {next : Wired} (h : w.step (.Hear accept) = some next) :
    w.config.deliver .A accept = some next.config ∧ next.server = w.server := by
  cases hchannel : w.channel .A with
  | nil => simp [step, hchannel] at h
  | cons message rest =>
      simp only [step, hchannel, Option.some.injEq] at h
      rw [← h, replied_config]
      refine ⟨?_, rfl⟩
      simp only [Config.deliver, config, hchannel]
      rfl

-- Between moves the decoder is between commands, and the engines agree as they should.
structure Sound : Prop where
  ready : w.server.state = .Data
  consistent : w.config.Consistent

theorem start_sound (limits : Limits) : (start limits).Sound := by
  refine ⟨rfl, ?_⟩
  have hinitial : (start limits).config = Config.initial := by
    unfold start config Config.initial
    congr 1
    funext peer
    cases peer <;> rfl
  rw [hinitial]
  exact Config.initial_consistent

-- One side takes in the oldest announcement of the other one, the client with or without consent.
def drain (reading : Option Bool) : Option Wired :=
  w.step (match reading with
    | some accept => .Hear accept
    | none => .Read)

theorem drain_sound (reading : Option Bool) (next : Wired) (h : w.Sound) (hd : w.drain reading = some next) :
    next.Sound ∧ next.config.totalWork < w.config.totalWork := by
  cases reading with
  | some accept =>
      obtain ⟨hdeliver, hserver⟩ := w.hear_config hd
      obtain ⟨hconsistent, hwork⟩ := Config.deliver_consistent h.consistent hdeliver
      exact ⟨⟨hserver ▸ h.ready, hconsistent⟩, hwork⟩
  | none =>
      cases hchannel : w.channel .B with
      | nil => simp [drain, step, hchannel] at hd
      | cons message rest =>
          obtain ⟨next', hnext, hdeliver, hready⟩ := w.read_config h.ready hchannel
          obtain rfl := Option.some.inj (hnext.symm.trans hd)
          obtain ⟨hconsistent, hwork⟩ := Config.deliver_consistent h.consistent hdeliver
          exact ⟨⟨hready, hconsistent⟩, hwork⟩

theorem step_sound (move : Move) (next : Wired) (h : w.Sound) (hm : w.step move = some next) : next.Sound := by
  cases move with
  | Hear accept => exact (w.drain_sound (some accept) next h hm).1
  | Read => exact (w.drain_sound none next h hm).1
  | Request option side enable =>
      obtain rfl := Option.some.inj hm
      refine ⟨h.ready, ?_⟩
      rw [replied_config]
      exact Config.request_consistent w.config .B option side enable h.consistent
  | Negotiate option side enable =>
      obtain rfl := Option.some.inj hm
      unfold Decoder.negotiate
      split
      · refine ⟨h.ready, ?_⟩
        rw [served_config]
        show Config.Consistent ⟨Function.update w.config.engine .A (w.config.engine .A),
          Function.update w.channel .A (w.channel .A ++ [])⟩
        rw [List.append_nil, Function.update_eq_self, Function.update_eq_self]
        exact h.consistent
      · refine ⟨(w.server.negotiated_quiet _).state.trans h.ready, ?_⟩
        rw [served_negotiated]
        exact Config.request_consistent w.config .A option side enable h.consistent

-- Whatever both sides are asked to negotiate, whatever the client consents to and in whatever order
-- they read: the decoder takes every announcement for what it is, reading comes to an end, and then
-- decoder and client agree on every option.
theorem connection_converges (limits : Limits) (moves : List Move)
    (hr : Transition.run step (start limits) moves = some w) :
    (w.config.Idle → ∀ option side,
      (w.server.optionState option side = .Yes ∨ w.server.optionState option side = .No) ∧
      w.server.optionState option side = w.client.state option side.flip) ∧
    (∀ verb option rest, w.channel .B = (verb, option) :: rest → ∃ next, w.step .Read = some next ∧
      w.config.deliver .B (OPTIONS.contains (option, verb.side)) = some next.config) ∧
    ∃ bound, ∀ readings final, Transition.run drain w readings = some final → readings.length ≤ bound := by
  have hsound : w.Sound := Transition.run_invariant step Sound step_sound moves (start limits) w
    (start_sound limits) hr
  refine ⟨fun hi option side => ?_, fun verb option rest hchannel => ?_, w.config.totalWork, ?_⟩
  · obtain ⟨value, hself, hother⟩ := w.config.idle_agreement hsound.consistent hi .A option side
    refine ⟨?_, hself.trans hother.symm⟩
    cases value with
    | false => exact .inr hself
    | true => exact .inl hself
  · obtain ⟨next, hnext, hdeliver, -⟩ := w.read_config hsound.ready hchannel
    exact ⟨next, hnext, hdeliver⟩
  · intro readings final hrun
    have hle := Transition.run_length_le drain Sound
      (fun w reading next h hd => (w.drain_sound reading next h hd).1) (fun w => w.config.totalWork)
      (fun w reading next h hd => (w.drain_sound reading next h hd).2) readings w final hsound hrun
    omega

-- The client offers its terminal type, and both sides take it on.
theorem connection_converges_terminal :
    ∃ asked agreed, Transition.run step (start .default) [.Request 24 .Local true] = some asked ∧
      Transition.run step (start .default) [.Request 24 .Local true, .Read, .Hear true] = some agreed ∧
      (∃ next, asked.step .Read = some next ∧ asked.config.deliver .B true = some next.config) ∧
      agreed.server.optionState 24 .Remote = .Yes ∧ agreed.client.state 24 .Local = .Yes := by
  obtain ⟨asked, hasked⟩ : ∃ w, Transition.run step (start .default) [.Request 24 .Local true] = some w :=
    ⟨_, rfl⟩
  obtain ⟨agreed, hagreed, hidle, hyes⟩ : ∃ w, Transition.run step (start .default)
      [.Request 24 .Local true, .Read, .Hear true] = some w ∧ w.config.Idle ∧
        w.server.optionState 24 .Remote = .Yes := ⟨_, rfl, ⟨rfl, rfl⟩, rfl⟩
  have hoffer : asked.channel .B = [(.Will, 24)] := by
    cases hasked
    rfl
  refine ⟨asked, agreed, hasked, hagreed,
    (connection_converges asked _ _ hasked).2.1 .Will 24 [] hoffer, hyes, ?_⟩
  exact ((connection_converges agreed _ _ hagreed).1 hidle 24 .Remote).2.symm.trans hyes

end Wired

end StompyMux.Telnet
