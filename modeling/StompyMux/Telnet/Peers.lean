import Mathlib.Algebra.BigOperators.Fin
import Mathlib.Algebra.Order.BigOperators.Group.Finset
import StompyMux.Library.Transition
import StompyMux.Telnet.Negotiation

namespace StompyMux.Telnet.Peers

open Library

inductive Peer
  | A
  | B
  deriving DecidableEq

def Peer.other : Peer → Peer
  | .A => .B
  | .B => .A

@[simp] theorem Peer.other_other (peer : Peer) : peer.other.other = peer := by
  cases peer <;> rfl

@[simp] theorem Peer.other_ne (peer : Peer) : peer.other ≠ peer := by cases peer <;> decide

-- Two negotiators and what each of them has sent and the other one has not yet received,
-- oldest first.
structure Config where
  engine : Peer → Negotiator
  channel : Peer → List (Verb × UInt8)

inductive Action
  | Request (peer : Peer) (option : UInt8) (side : Side) (enable : Bool)
  | Deliver (sender : Peer) (accept : Bool)
  deriving DecidableEq

namespace Config

def initial : Config := ⟨fun _ => Negotiator.initial, fun _ => []⟩

-- Install the outcome of one engine call and append its output to the peer's channel.
def emit (config : Config) (peer : Peer) (outcome : Negotiator × List Event) : Config where
  engine := Function.update config.engine peer outcome.1
  channel := Function.update config.channel peer (config.channel peer ++ sends outcome.2)

def deliver (config : Config) (sender : Peer) (accept : Bool) : Option Config :=
  match config.channel sender with
  | [] => none
  | (verb, option) :: rest =>
      let popped : Config :=
        { config with channel := Function.update config.channel sender rest }
      some (popped.emit sender.other
        ((config.engine sender.other).receive option verb accept))

def step (config : Config) : Action → Option Config
  | .Request peer option side enable =>
      some (config.emit peer ((config.engine peer).request option side enable))
  | .Deliver sender accept => config.deliver sender accept

-- Deliveries alone, without new requests.
def drain (config : Config) (delivery : Peer × Bool) : Option Config :=
  config.deliver delivery.1 delivery.2

def Idle (config : Config) : Prop := config.channel .A = [] ∧ config.channel .B = []

end Config

-- One peer's slot for one option together with the decisions about it that are still
-- on their way to the other peer.
structure Endpoint where
  state : QState
  sent : List Bool
  deriving DecidableEq

namespace Endpoint

def apply (endpoint : Endpoint) (transition : QState × Option Bool) : Endpoint :=
  ⟨transition.1, endpoint.sent ++ transition.2.toList⟩

def request (endpoint : Endpoint) (enable : Bool) : Endpoint :=
  endpoint.apply (endpoint.state.request enable)

def receive (endpoint : Endpoint) (positive accept : Bool) : Endpoint :=
  endpoint.apply (endpoint.state.receive positive accept)

end Endpoint

def settled : Bool → QState
  | true => .Yes
  | false => .No

def wanting (value opposite : Bool) : QState :=
  if value then .WantYes opposite else .WantNo opposite

-- A peer that wants `value` gets either `value` or a refusal as its answer.
def Answer (value answer : Bool) : Prop := answer = value ∨ answer = false

-- Every way in which the two ends of one option can stand, up to exchanging the ends.
inductive Standing : Endpoint → Endpoint → Prop
  | Agreed (value : Bool) : Standing ⟨settled value, []⟩ ⟨settled value, []⟩
  | Asked (value queued : Bool) :
      Standing ⟨wanting value queued, [value]⟩ ⟨settled !value, []⟩
  | Crossed (value queued queued' : Bool) :
      Standing ⟨wanting value queued, [value]⟩ ⟨wanting value queued', [value]⟩
  | Answered (value answer queued : Bool) (ha : Answer value answer) :
      Standing ⟨wanting value queued, []⟩ ⟨settled answer, [answer]⟩
  -- the answering end has already asked for the contrary of its own answer
  | Renewed (value answer queued queued' : Bool) (ha : Answer value answer) :
      Standing ⟨wanting value queued, []⟩ ⟨wanting (!answer) queued', [answer, !answer]⟩

def Linked (x y : Endpoint) : Prop := Standing x y ∨ Standing y x

theorem Linked.symm (x y : Endpoint) (hl : Linked x y) : Linked y x := hl.elim .inr .inl

def queuedCount : QState → Nat
  | .WantNo true | .WantYes true => 1
  | _ => 0

def pending : QState → Bool
  | .WantNo _ | .WantYes _ => true
  | _ => false

-- What is left to be done for one direction: two units for each message, less one when the
-- receiver waits for an answer, and two for each request that is queued at the sender.
def directionWork (sender receiver : Endpoint) : Nat :=
  2 * sender.sent.length - (if pending receiver.state then 1 else 0) +
    2 * queuedCount sender.state

def work (x y : Endpoint) : Nat := directionWork x y + directionWork y x

theorem work_comm (x y : Endpoint) : work x y = work y x := Nat.add_comm _ _

-- How a settled and a waiting end react. These four equations carry all case analysis below.

theorem settled_request (value enable : Bool) (sent : List Bool) :
    Endpoint.request ⟨settled value, sent⟩ enable =
      if enable = value then ⟨settled value, sent⟩
      else ⟨wanting enable false, sent ++ [enable]⟩ := by
  cases value <;> cases enable <;>
    simp [Endpoint.request, Endpoint.apply, QState.request, settled, wanting]

theorem wanting_request (value queued enable : Bool) (sent : List Bool) :
    Endpoint.request ⟨wanting value queued, sent⟩ enable =
      ⟨wanting value (enable != value), sent⟩ := by
  cases value <;> cases enable <;>
    simp [Endpoint.request, Endpoint.apply, QState.request, wanting]

theorem settled_receive (value accept : Bool) (sent : List Bool) :
    ∃ answer, Answer value answer ∧
      Endpoint.receive ⟨settled !value, sent⟩ value accept =
        ⟨settled answer, sent ++ [answer]⟩ := by
  cases value with
  | false => exact ⟨false, .inl rfl, rfl⟩
  | true => cases accept with
    | false => exact ⟨false, .inr rfl, rfl⟩
    | true => exact ⟨true, .inl rfl, rfl⟩

theorem wanting_receive {value answer : Bool} (queued accept : Bool) (sent : List Bool)
    (ha : Answer value answer) :
    Endpoint.receive ⟨wanting value queued, sent⟩ answer accept =
      if queued = true ∧ answer = value then ⟨wanting (!answer) false, sent ++ [!answer]⟩
      else ⟨settled answer, sent⟩ := by
  rcases ha with rfl | rfl
  · cases answer <;> cases queued <;>
      simp [Endpoint.receive, Endpoint.apply, QState.receive, settled, wanting]
  · cases value <;> cases queued <;>
      simp [Endpoint.receive, Endpoint.apply, QState.receive, settled, wanting]

theorem Standing.request_left {x y : Endpoint} (enable : Bool) (hs : Standing x y) :
    Linked (x.request enable) y := by
  cases hs with
  | Agreed value =>
      rw [settled_request]
      by_cases h : enable = value
      · rw [if_pos h]
        exact .inl (.Agreed value)
      · obtain rfl : value = !enable := Bool.eq_not.mpr (Ne.symm h)
        rw [if_neg h]
        exact .inl (.Asked enable false)
  | Asked value queued =>
      rw [wanting_request]
      exact .inl (.Asked value _)
  | Crossed value queued queued' =>
      rw [wanting_request]
      exact .inl (.Crossed value _ queued')
  | Answered value answer queued ha =>
      rw [wanting_request]
      exact .inl (.Answered value answer _ ha)
  | Renewed value answer queued queued' ha =>
      rw [wanting_request]
      exact .inl (.Renewed value answer _ queued' ha)

theorem Standing.request_right {x y : Endpoint} (enable : Bool) (hs : Standing x y) :
    Linked x (y.request enable) := by
  cases hs with
  | Agreed value =>
      exact (Standing.request_left enable (.Agreed value)).symm
  | Asked value queued =>
      rw [settled_request]
      by_cases h : enable = !value
      · rw [if_pos h]
        exact .inl (.Asked value queued)
      · obtain rfl : enable = value := Decidable.not_not.mp (mt Bool.eq_not.mpr h)
        rw [if_neg h]
        exact .inl (.Crossed enable queued false)
  | Crossed value queued queued' =>
      rw [wanting_request]
      exact .inl (.Crossed value queued _)
  | Answered value answer queued ha =>
      rw [settled_request]
      by_cases h : enable = answer
      · rw [if_pos h]
        exact .inl (.Answered value answer queued ha)
      · obtain rfl : enable = !answer := Bool.eq_not.mpr h
        rw [if_neg h]
        exact .inl (.Renewed value answer queued false ha)
  | Renewed value answer queued queued' ha =>
      rw [wanting_request]
      exact .inl (.Renewed value answer queued _ ha)

theorem Linked.request (x y : Endpoint) (enable : Bool) (hl : Linked x y) :
    Linked (x.request enable) y := by
  rcases hl with hs | hs
  · exact hs.request_left enable
  · exact (hs.request_right enable).symm

@[simp] theorem pending_settled (value : Bool) : pending (settled value) = false := by
  cases value <;> rfl

@[simp] theorem pending_wanting (value queued : Bool) :
    pending (wanting value queued) = true := by
  cases value <;> rfl

@[simp] theorem queuedCount_settled (value : Bool) : queuedCount (settled value) = 0 := by
  cases value <;> rfl

@[simp] theorem queuedCount_wanting (value queued : Bool) :
    queuedCount (wanting value queued) = queued.toNat := by
  cases value <;> cases queued <;> rfl

theorem Standing.receive_left {x : Endpoint} {state : QState} {positive : Bool} (accept : Bool)
    {rest : List Bool} (hs : Standing x ⟨state, positive :: rest⟩) :
    Linked (x.receive positive accept) ⟨state, rest⟩ ∧
      work (x.receive positive accept) ⟨state, rest⟩ < work x ⟨state, positive :: rest⟩ := by
  cases hs with
  | Crossed _ queued queued' =>
      rw [wanting_receive queued accept _ (.inl rfl)]
      cases queued with
      | true =>
          rw [if_pos ⟨rfl, rfl⟩]
          refine ⟨.inr (.Renewed positive positive queued' false (.inl rfl)), ?_⟩
          simp [work, directionWork]
      | false =>
          rw [if_neg (fun h => Bool.false_ne_true h.1)]
          refine ⟨.inr (.Answered positive positive queued' (.inl rfl)), ?_⟩
          simp [work, directionWork]
  | Answered value answer queued ha =>
      rw [wanting_receive queued accept _ ha]
      by_cases h : queued = true ∧ positive = value
      · rw [if_pos h]
        refine ⟨.inl ?_, ?_⟩
        · simpa using Standing.Asked (!positive) false
        · simp [work, directionWork, h.1]
      · rw [if_neg h]
        refine ⟨.inl (.Agreed positive), ?_⟩
        simp [work, directionWork]
  | Renewed value answer queued queued' ha =>
      rw [wanting_receive queued accept _ ha]
      by_cases h : queued = true ∧ positive = value
      · rw [if_pos h]
        refine ⟨.inl (.Crossed (!positive) false queued'), ?_⟩
        simp [work, directionWork, h.1]
        omega
      · rw [if_neg h]
        refine ⟨.inr ?_, ?_⟩
        · simpa using Standing.Asked (!positive) queued'
        · simp [work, directionWork]
          omega

theorem Standing.receive_right {y : Endpoint} {state : QState} {positive : Bool} (accept : Bool)
    {rest : List Bool} (hs : Standing ⟨state, positive :: rest⟩ y) :
    Linked (y.receive positive accept) ⟨state, rest⟩ ∧
      work (y.receive positive accept) ⟨state, rest⟩ < work y ⟨state, positive :: rest⟩ := by
  cases hs with
  | Asked value queued =>
      obtain ⟨answer, ha, hr⟩ := settled_receive positive accept []
      rw [hr]
      refine ⟨.inr (.Answered positive answer queued ha), ?_⟩
      simp [work, directionWork]
  | Crossed value queued queued' =>
      exact Standing.receive_left accept (.Crossed positive queued' queued)

-- Receiving the oldest message keeps the link and uses up work.
theorem Linked.receive (x : Endpoint) (state : QState) (positive accept : Bool)
    (rest : List Bool) (hl : Linked x ⟨state, positive :: rest⟩) :
    Linked (x.receive positive accept) ⟨state, rest⟩ ∧
      work (x.receive positive accept) ⟨state, rest⟩ < work x ⟨state, positive :: rest⟩ := by
  rcases hl with hs | hs
  · exact hs.receive_left accept
  · exact hs.receive_right accept

-- With nothing under way the two ends agree.
theorem Linked.agreed (x y : Endpoint) (hl : Linked x y) (hx : x.sent = []) (hy : y.sent = []) :
    ∃ value, x.state = settled value ∧ y.state = settled value := by
  rcases hl with hs | hs
  · cases hs <;> simp_all
  · cases hs <;> simp_all

-- The decisions in a channel about one option and one side of its sender, oldest first.
def decisions (channel : List (Verb × UInt8)) (option : UInt8) (side : Side) : List Bool :=
  channel.filterMap (fun message =>
    if message.2 = option ∧ message.1.side = side.flip then some message.1.positive else none)

theorem decisions_append (channel rest : List (Verb × UInt8)) (option : UInt8) (side : Side) :
    decisions (channel ++ rest) option side =
      decisions channel option side ++ decisions rest option side :=
  List.filterMap_append

theorem decisions_cons_self (verb : Verb) (option : UInt8) (rest : List (Verb × UInt8)) :
    decisions ((verb, option) :: rest) option verb.side.flip =
      verb.positive :: decisions rest option verb.side.flip := by
  simp [decisions]

theorem decisions_cons_of_ne {verb : Verb} {option other : UInt8} {side : Side}
    (rest : List (Verb × UInt8)) (hne : ¬ (other = option ∧ side = verb.side.flip)) :
    decisions ((verb, option) :: rest) other side = decisions rest other side := by
  have hskip : ¬ (option = other ∧ verb.side = side.flip) := by
    rintro ⟨rfl, hs⟩
    exact hne ⟨rfl, by rw [hs, Side.flip_flip]⟩
  simp [decisions, hskip]

-- A transition of one slot is visible in the decisions of that slot only.
theorem decisions_apply_self (engine : Negotiator) (option : UInt8) (side : Side)
    (transition : QState × Option Bool) :
    decisions (sends (engine.apply option side transition).2) option side =
      transition.2.toList := by
  obtain ⟨after, sent⟩ := transition
  rw [Negotiator.sends_apply]
  cases sent <;> simp [decisions]

theorem decisions_apply_of_ne (engine : Negotiator) {option other : UInt8}
    {side endpoint : Side} (transition : QState × Option Bool)
    (hne : ¬ (other = option ∧ endpoint = side)) :
    decisions (sends (engine.apply option side transition).2) other endpoint = [] := by
  obtain ⟨after, sent⟩ := transition
  rw [Negotiator.sends_apply]
  cases sent with
  | none => rfl
  | some enable =>
      have hskip : ¬ (other = option ∧ endpoint = (Negotiator.verb side enable).side.flip) := by
        simpa using hne
      exact decisions_cons_of_ne [] hskip

namespace Config

def view (config : Config) (peer : Peer) (option : UInt8) (side : Side) : Endpoint :=
  ⟨(config.engine peer).state option side, decisions (config.channel peer) option side⟩

-- Each side of each option is linked to the opposite side at the other peer.
def Consistent (config : Config) : Prop :=
  ∀ peer option side,
    Linked (config.view peer option side) (config.view peer.other option side.flip)

theorem initial_consistent : initial.Consistent := fun _ _ _ => .inl (.Agreed false)

variable (config : Config) (peer : Peer) (option : UInt8) (side : Side)

theorem emit_view_self (transition : QState × Option Bool) :
    (config.emit peer ((config.engine peer).apply option side transition)).view peer option side =
      (config.view peer option side).apply transition := by
  simp [emit, view, decisions_append, decisions_apply_self, Endpoint.apply,
    Negotiator.apply_state]

theorem emit_view_of_ne {peer p : Peer} {option other : UInt8}
    {side endpoint : Side} (transition : QState × Option Bool)
    (hne : ¬ (p = peer ∧ other = option ∧ endpoint = side)) :
    (config.emit peer ((config.engine peer).apply option side transition)).view p other endpoint =
      config.view p other endpoint := by
  by_cases hp : p = peer
  · subst hp
    have hslot : ¬ (other = option ∧ endpoint = side) := fun h => hne ⟨rfl, h⟩
    simp [emit, view, decisions_append, decisions_apply_of_ne _ _ hslot,
      Negotiator.apply_state, Negotiator.state_set_of_ne _ _ hslot]
  · simp [emit, view, hp]

-- Changing one view keeps the configuration consistent when it keeps the view's own link.
theorem consistent_of_view (before after : Config) (peer : Peer) (option : UInt8) (side : Side)
    (hc : before.Consistent)
    (hframe : ∀ p other endpoint, ¬ (other = option ∧
        ((p = peer ∧ endpoint = side) ∨ (p = peer.other ∧ endpoint = side.flip))) →
      after.view p other endpoint = before.view p other endpoint)
    (hlink : Linked (after.view peer option side) (after.view peer.other option side.flip)) :
    after.Consistent := by
  intro p other endpoint
  by_cases ho : other = option ∧
      ((p = peer ∧ endpoint = side) ∨ (p = peer.other ∧ endpoint = side.flip))
  · obtain ⟨rfl, ⟨rfl, rfl⟩ | ⟨rfl, rfl⟩⟩ := ho
    · exact hlink
    · simpa using hlink.symm
  · rw [hframe p other endpoint ho, hframe p.other other endpoint.flip]
    · exact hc p other endpoint
    · rintro ⟨rfl, ⟨hp, hs⟩ | ⟨hp, hs⟩⟩
      · subst hp hs
        exact ho ⟨rfl, .inr (by simp)⟩
      · refine ho ⟨rfl, .inl ⟨?_, ?_⟩⟩
        · simpa using congrArg Peer.other hp
        · simpa using congrArg Side.flip hs

theorem request_consistent (enable : Bool) (hc : config.Consistent) :
    (config.emit peer ((config.engine peer).request option side enable)).Consistent := by
  refine consistent_of_view config _ peer option side hc ?_ ?_
  · intro p other endpoint hne
    refine emit_view_of_ne config _ ?_
    rintro ⟨rfl, rfl, rfl⟩
    exact hne ⟨rfl, .inl ⟨rfl, rfl⟩⟩
  · rw [Negotiator.request, emit_view_self, emit_view_of_ne _ _ (by simp)]
    exact (hc peer option side).request _ _ enable

-- Everything a delivery does: the oldest decision leaves the sender's end of one slot,
-- the receiver's end of that slot takes it in, and nothing else moves.
theorem deliver_spec {config next : Config} {sender : Peer} {accept : Bool}
    (hd : config.deliver sender accept = some next) :
    ∃ option side state positive rest,
      config.view sender option (Side.flip side) = ⟨state, positive :: rest⟩ ∧
      next.view sender option (Side.flip side) = ⟨state, rest⟩ ∧
      next.view sender.other option side =
        (config.view sender.other option side).receive positive accept ∧
      ∀ p other endpoint, ¬ (other = option ∧
          ((p = sender.other ∧ endpoint = side) ∨ (p = sender ∧ endpoint = side.flip))) →
        next.view p other endpoint = config.view p other endpoint := by
  unfold deliver at hd
  split at hd
  · cases hd
  rename_i verb option rest hch
  let popped : Config := { config with channel := Function.update config.channel sender rest }
  have hpop : popped.view sender option verb.side.flip =
      ⟨(config.engine sender).state option verb.side.flip,
        decisions rest option verb.side.flip⟩ := by
    simp [popped, view]
  have hkeep : ∀ p other endpoint,
      ¬ (p = sender ∧ other = option ∧ endpoint = verb.side.flip) →
      popped.view p other endpoint = config.view p other endpoint := by
    intro p other endpoint hne
    by_cases hp : p = sender
    · subst hp
      have hslot : ¬ (other = option ∧ endpoint = verb.side.flip) := fun h => hne ⟨rfl, h⟩
      simp only [popped, view, Function.update_self, hch,
        decisions_cons_of_ne _ hslot]
    · simp [popped, view, hp]
  obtain rfl := Option.some.inj hd
  refine ⟨option, verb.side, (config.engine sender).state option verb.side.flip,
    verb.positive, decisions rest option verb.side.flip, ?_, ?_, ?_, ?_⟩
  · simp only [view, hch, decisions_cons_self]
  · rw [Negotiator.receive]
    exact (emit_view_of_ne popped _ (by simp)).trans hpop
  · have hself := emit_view_self popped sender.other option verb.side
      (((config.engine sender.other).state option verb.side).receive verb.positive accept)
    rw [hkeep _ _ _ (by simp)] at hself
    exact hself
  · intro p other endpoint hne
    rw [Negotiator.receive]
    refine (emit_view_of_ne popped _ ?_).trans (hkeep p other endpoint ?_)
    · rintro ⟨rfl, rfl, rfl⟩
      exact hne ⟨rfl, .inl ⟨rfl, rfl⟩⟩
    · rintro ⟨rfl, rfl, rfl⟩
      exact hne ⟨rfl, .inr ⟨rfl, rfl⟩⟩

def linkWork (config : Config) (peer : Peer) (option : UInt8) (side : Side) : Nat :=
  work (config.view peer option side) (config.view peer.other option side.flip)

def slotWork (config : Config) (option : UInt8) : Nat :=
  config.linkWork .A option .Local + config.linkWork .A option .Remote

def totalWork (config : Config) : Nat := ∑ i : Fin 256, config.slotWork (UInt8.ofFin i)

theorem slotWork_eq : config.slotWork option =
      config.linkWork peer option side + config.linkWork peer option side.flip := by
  have hswap : ∀ side, config.linkWork .B option side = config.linkWork .A option side.flip := by
    intro side
    rw [linkWork, work_comm, linkWork, Side.flip_flip]
    rfl
  cases peer <;> cases side <;> simp only [slotWork, hswap, Side.flip] <;> omega

-- A delivery keeps the configuration consistent and uses up work.
theorem deliver_consistent {config next : Config} {sender : Peer} {accept : Bool}
    (hc : config.Consistent) (hd : config.deliver sender accept = some next) :
    next.Consistent ∧ next.totalWork < config.totalWork := by
  obtain ⟨option, side, state, positive, rest, hbefore, hafter, hreceive, hframe⟩ :=
    deliver_spec hd
  have hlink := hc sender.other option side
  rw [Peer.other_other, hbefore] at hlink
  obtain ⟨hlinked, hwork⟩ := Linked.receive _ state positive accept rest hlink
  rw [← hreceive, ← hafter] at hlinked
  constructor
  · refine consistent_of_view config next sender.other option side hc ?_ ?_
    · intro p other endpoint hne
      refine hframe p other endpoint (fun h => hne ?_)
      simpa using h
    · simpa using hlinked
  · have hself : next.linkWork sender.other option side <
        config.linkWork sender.other option side := by
      simpa only [linkWork, Peer.other_other, hreceive, hafter, hbefore] using hwork
    have hother : next.linkWork sender.other option side.flip =
        config.linkWork sender.other option side.flip := by
      simp only [linkWork, Peer.other_other, Side.flip_flip]
      rw [hframe _ _ _ (by simp), hframe _ _ _ (by simp [Ne.symm])]
    have hslot : next.slotWork option < config.slotWork option := by
      rw [slotWork_eq next sender.other option side,
        slotWork_eq config sender.other option side]
      omega
    have hrest : ∀ other, other ≠ option → next.slotWork other = config.slotWork other := by
      intro other hne
      simp only [slotWork, linkWork, hframe _ other _ (fun h => hne h.1)]
    refine Finset.sum_lt_sum ?_ ⟨option.toFin, Finset.mem_univ _, hslot⟩
    intro i _
    by_cases ho : UInt8.ofFin i = option
    · rw [ho]
      exact hslot.le
    · exact (hrest _ ho).le

theorem step_consistent (action : Action) (next : Config)
    (hc : config.Consistent) (hs : config.step action = some next) : next.Consistent := by
  cases action with
  | Request peer option side enable =>
      obtain rfl := Option.some.inj hs
      exact request_consistent config peer option side enable hc
  | Deliver sender accept => exact (deliver_consistent hc hs).1

theorem exists_delivery (hi : ¬ config.Idle) :
    ∃ delivery next, config.drain delivery = some next := by
  by_cases ha : config.channel .A = []
  · cases hb : config.channel .B with
    | nil => exact absurd ⟨ha, hb⟩ hi
    | cons message rest => exact ⟨(.B, false), _, by rw [drain, deliver, hb]⟩
  · obtain ⟨message, rest, hm⟩ := List.exists_cons_of_ne_nil ha
    exact ⟨(.A, false), _, by rw [drain, deliver, hm]⟩

theorem idle_agreement (hc : config.Consistent) (hi : config.Idle)
    (peer : Peer) (option : UInt8) (side : Side) :
    ∃ value, (config.engine peer).state option side = settled value ∧
      (config.engine peer.other).state option side.flip = settled value := by
  have hempty : ∀ p, config.channel p = [] := by
    intro p
    cases p with
    | A => exact hi.1
    | B => exact hi.2
  exact (hc peer option side).agreed _ _ (by simp [view, hempty, decisions])
    (by simp [view, hempty, decisions])

end Config

-- Whatever the peers request and in whatever order their messages arrive: with both
-- channels empty every slot is settled and the two peers hold the same opinion of it;
-- and deliveries without new requests always end, in bounded many steps, with both
-- channels empty.
theorem peers_converge (actions : List Action) (config : Config)
    (hr : Transition.run Config.step Config.initial actions = some config) :
    (config.Idle → ∀ peer option side,
      ((config.engine peer).state option side = .Yes ∨
        (config.engine peer).state option side = .No) ∧
      (config.engine peer).state option side =
        (config.engine peer.other).state option side.flip) ∧
    (∃ bound, ∀ deliveries final, Transition.run Config.drain config deliveries = some final →
      deliveries.length ≤ bound ∧
      ((∀ delivery, final.drain delivery = none) → final.Idle) ∧
      ∃ more idle, Transition.run Config.drain final more = some idle ∧ idle.Idle) := by
  have hc := Transition.run_invariant Config.step Config.Consistent Config.step_consistent
    actions _ config Config.initial_consistent hr
  have hkeep : ∀ state delivery next, Config.Consistent state →
      Config.drain state delivery = some next → Config.Consistent next :=
    fun state delivery next hs hd =>
      (Config.deliver_consistent hs hd).1
  have hdecr : ∀ state delivery next, Config.Consistent state →
      Config.drain state delivery = some next → next.totalWork < state.totalWork :=
    fun state delivery next hs hd =>
      (Config.deliver_consistent hs hd).2
  constructor
  · intro hi peer option side
    obtain ⟨value, hself, hother⟩ := config.idle_agreement hc hi peer option side
    refine ⟨?_, hself.trans hother.symm⟩
    cases value with
    | false => exact .inr hself
    | true => exact .inl hself
  · refine ⟨config.totalWork, fun deliveries final hf => ⟨?_, ?_, ?_⟩⟩
    · have hl := Transition.run_length_le Config.drain Config.Consistent hkeep
        Config.totalWork hdecr deliveries config final hc hf
      omega
    · intro hnone
      by_contra hi
      obtain ⟨delivery, next, hd⟩ := final.exists_delivery hi
      rw [hnone delivery] at hd
      cases hd
    · have hfc := Transition.run_invariant Config.drain Config.Consistent hkeep
        deliveries config final hc hf
      exact Transition.run_completes Config.drain Config.Consistent hkeep Config.totalWork
        hdecr Config.Idle (fun state _ hi => state.exists_delivery hi) final hfc

-- Both peers ask for the terminal type at once and A changes its mind before any answer.
def crossedRequests : List Action :=
  [.Request .A 24 .Local true, .Request .B 24 .Remote true, .Request .A 24 .Local false,
    .Deliver .A true, .Deliver .B true, .Deliver .A true, .Deliver .B true]

theorem peers_converge_crossed :
    ∃ config, Transition.run Config.step Config.initial crossedRequests = some config ∧
      config.Idle ∧
      (config.engine .A).state 24 .Local = .No ∧
      (config.engine .A).state 24 .Local = (config.engine .B).state 24 .Remote := by
  let config := (Transition.run Config.step Config.initial crossedRequests).get rfl
  have hr : Transition.run Config.step Config.initial crossedRequests = some config :=
    (Option.some_get _).symm
  have hi : config.Idle := ⟨rfl, rfl⟩
  exact ⟨config, hr, hi, rfl, ((peers_converge crossedRequests config hr).1 hi .A 24 .Local).2⟩

end StompyMux.Telnet.Peers
