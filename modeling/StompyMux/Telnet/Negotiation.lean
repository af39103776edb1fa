import Mathlib.Logic.Function.Basic

namespace StompyMux.Telnet

-- The endpoint whose option is being negotiated.
inductive Side
  | Local
  | Remote
  deriving DecidableEq

def Side.flip : Side → Side
  | .Local => .Remote
  | .Remote => .Local

@[simp] theorem Side.flip_flip (side : Side) : side.flip.flip = side := by cases side <;> rfl

@[simp] theorem Side.flip_ne (side : Side) : side.flip ≠ side := by cases side <;> decide

inductive Verb
  | Will
  | Wont
  | Do
  | Dont
  deriving DecidableEq

def Verb.toByte : Verb → UInt8
  | .Will => 251
  | .Wont => 252
  | .Do => 253
  | .Dont => 254

def Verb.fromByte (byte : UInt8) : Option Verb :=
  if byte = 251 then some .Will
  else if byte = 252 then some .Wont
  else if byte = 253 then some .Do
  else if byte = 254 then some .Dont
  else none

theorem Verb.fromByte_toByte (verb : Verb) : Verb.fromByte verb.toByte = some verb := by
  cases verb <;> rfl

-- The side of the receiver that a verb talks about.
def Verb.side : Verb → Side
  | .Will | .Wont => .Remote
  | .Do | .Dont => .Local

def Verb.positive : Verb → Bool
  | .Will | .Do => true
  | .Wont | .Dont => false

-- Stable states have no queue; pending states retain one opposite request.
inductive QState
  | No
  | Yes
  | WantNo (opposite : Bool)
  | WantYes (opposite : Bool)
  deriving DecidableEq

namespace QState

-- Negotiating is distinct from enabled.
def enabled (state : QState) : Bool := state == .Yes

def request : QState → Bool → QState × Option Bool
  | .No, true => (.WantYes false, some true)
  | .Yes, false => (.WantNo false, some false)
  | .WantNo _, enable => (.WantNo enable, none)
  | .WantYes _, enable => (.WantYes !enable, none)
  | state, _ => (state, none)

-- The second argument says whether the peer's verb is positive; `accept` matters only
-- for an unsolicited offer.
def receive : QState → Bool → Bool → QState × Option Bool
  | .No, true, accept => (if accept then .Yes else .No, some accept)
  | .Yes, true, _ => (.Yes, none)
  | .No, false, _ => (.No, none)
  | .Yes, false, _ => (.No, some false)
  | .WantNo false, _, _ => (.No, none)
  | .WantNo true, true, _ => (.Yes, none)
  | .WantNo true, false, _ => (.WantYes false, some true)
  | .WantYes false, true, _ => (.Yes, none)
  | .WantYes true, true, _ => (.WantNo false, some false)
  | .WantYes _, false, _ => (.No, none)

end QState

structure Change where
  option : UInt8
  side : Side
  before : QState
  after : QState
  deriving DecidableEq

inductive Event
  | Send (verb : Verb) (option : UInt8)
  | Changed (change : Change)
  deriving DecidableEq

def sends (events : List Event) : List (Verb × UInt8) :=
  events.filterMap (fun event => match event with
    | .Send verb option => some (verb, option)
    | .Changed _ => none)

-- Independent state for both endpoints of every possible option.
structure Negotiator where
  states : UInt8 → Side → QState

namespace Negotiator

def initial : Negotiator := ⟨fun _ _ => .No⟩

def state (engine : Negotiator) (option : UInt8) (side : Side) : QState :=
  engine.states option side

def set (engine : Negotiator) (option : UInt8) (side : Side) (after : QState) : Negotiator :=
  ⟨fun other endpoint =>
    if other = option ∧ endpoint = side then after else engine.states other endpoint⟩

variable (engine : Negotiator) (option : UInt8)

@[simp] theorem state_set_self (side : Side)
    (after : QState) : (engine.set option side after).state option side = after := by
  simp [set, state]

theorem state_set (option other : UInt8) (side endpoint : Side) (after : QState) :
    (engine.set option side after).state other endpoint =
      if other = option ∧ endpoint = side then after else engine.state other endpoint := rfl

theorem state_set_of_ne {option other : UInt8} {side endpoint : Side}
    (after : QState) (hne : ¬ (other = option ∧ endpoint = side)) :
    (engine.set option side after).state other endpoint = engine.state other endpoint := by
  simp only [state_set, if_neg hne]

-- The verb that announces a decision about one of the sender's own sides.
def verb (side : Side) (enable : Bool) : Verb :=
  match side, enable with
  | .Local, true => .Will
  | .Local, false => .Wont
  | .Remote, true => .Do
  | .Remote, false => .Dont

@[simp] theorem verb_side (side : Side) (enable : Bool) :
    (verb side enable).side = side.flip := by
  cases side <;> cases enable <;> rfl

@[simp] theorem verb_positive (side : Side) (enable : Bool) :
    (verb side enable).positive = enable := by
  cases side <;> cases enable <;> rfl

-- Wire output comes before the transition notification.
def apply (engine : Negotiator) (option : UInt8) (side : Side)
    (transition : QState × Option Bool) : Negotiator × List Event :=
  let before := engine.state option side
  let after := transition.1
  let sent := match transition.2 with
    | some enable => [Event.Send (verb side enable) option]
    | none => []
  let changed :=
    if before ≠ after then [Event.Changed ⟨option, side, before, after⟩] else []
  (engine.set option side after, sent ++ changed)

def request (engine : Negotiator) (option : UInt8) (side : Side) (enable : Bool) :
    Negotiator × List Event :=
  engine.apply option side ((engine.state option side).request enable)

def receive (engine : Negotiator) (option : UInt8) (verb : Verb) (accept : Bool) :
    Negotiator × List Event :=
  engine.apply option verb.side
    ((engine.state option verb.side).receive verb.positive accept)

theorem apply_state (side : Side) (transition : QState × Option Bool) :
    (engine.apply option side transition).1 = engine.set option side transition.1 := rfl

-- A transition puts its decision, if it makes one, on the wire exactly once.
theorem sends_apply (side : Side) (transition : QState × Option Bool) :
    sends (engine.apply option side transition).2 =
      (transition.2.map (fun enable => (verb side enable, option))).toList := by
  obtain ⟨after, sent⟩ := transition
  cases sent <;> simp only [apply] <;> split <;> rfl

end Negotiator

end StompyMux.Telnet
