import StompyMux.Telnet.Environment
import StompyMux.Telnet.Mxp
import StompyMux.Telnet.Negotiation

namespace StompyMux.Telnet

open Library.Text

def TTYPE : UInt8 := 24
def NAWS : UInt8 := 31
def CHARSET : UInt8 := 42
def NEW_ENVIRON : UInt8 := 39
def MSSP : UInt8 := 70
def MCCP2 : UInt8 := 86
def MXP : UInt8 := Mxp.OPTION
def GMCP : UInt8 := 201
def SB : UInt8 := 250
def SE : UInt8 := 240
def IAC : UInt8 := 255
def ECHO : UInt8 := 1
def TTYPE_TEXT_BYTES : Nat := 63

-- Unsolicited acceptance is direction-specific.
def OPTIONS : List (UInt8 × Side) :=
  [(TTYPE, .Remote), (NAWS, .Remote), (NEW_ENVIRON, .Remote), (MSSP, .Local), (MCCP2, .Local),
    (CHARSET, .Local), (GMCP, .Local), (MXP, .Local)]

inductive State
  | Data
  | Iac
  | Option (verb : Verb)
  | SubOption
  | Sub (option : UInt8) (payload : List UInt8) (escaped : Bool)
  -- drains an oversized environment message without retaining its payload
  | DiscardSub (escaped : Bool)
  deriving DecidableEq

inductive Input
  | Line (line : List Char)
  | Reply (bytes : List UInt8)
  | InvalidUtf8
  | StartCompression
  | StatusRequest
  | Problem (option description : String)
  | Negotiated (change : Change)
  deriving DecidableEq

inductive FeedError
  | SubnegotiationTooLong
  | InputLineExceeds (limit : Nat)
  deriving DecidableEq

def FeedError.message : FeedError → String
  | .SubnegotiationTooLong => "Telnet subnegotiation too long"
  | .InputLineExceeds limit => "input line exceeds " ++ toString limit ++ " bytes"

structure Limits where
  inputLine : Nat
  subnegotiation : Nat
  deriving DecidableEq

def Limits.default : Limits := ⟨8192, 8192⟩

structure Decoder where
  state : State
  negotiation : Negotiator
  initialized : Bool
  ttypeResponses : Nat
  charsetPending : Bool
  environment : Environment
  client : List Char
  clientRaw : List UInt8
  colorDepth : Nat
  screenReader : Bool
  echoSuppressed : Bool
  charsetUtf8 : Bool
  mxp : Mxp.Client
  line : List UInt8
  discarded : Nat
  afterCr : Bool
  inputLineLimit : Nat
  subnegotiationLimit : Nat
  width : Nat
  height : Nat
  ansi : Bool
  terminal : List Char
  terminalRaw : List UInt8

-- IAC is doubled whatever the text encoding.
def escape (payload : List UInt8) : List UInt8 :=
  payload.flatMap (fun b => if b = IAC then [b, b] else [b])

def subReply (option : UInt8) (payload : List UInt8) : Input :=
  .Reply ([IAC, SB, option] ++ escape payload ++ [IAC, SE])

-- The permissive nonnegative form of `strtol`: white space, one sign, decimal digits.
def mttsBits (name : List UInt8) : Option Nat :=
  let space := fun (b : UInt8) => decide ((9 ≤ b ∧ b ≤ 13) ∨ b = 32)
  let digit := fun (b : UInt8) => decide (48 ≤ b ∧ b ≤ 57)
  let push := fun (value : Nat) (b : UInt8) =>
    let next := value * 10 + (b - 48).toNat
    if next < 2 ^ 63 then some next else none
  if name.length < 5 ∨ ¬ eqIgnoreAsciiCaseBytes (name.take 5) (utf8 "MTTS ".toList) then none
  else if name.drop 5 = [] then some 0
  else if (name.drop 5).all space then none
  else
    let unsigned := (name.drop 5).dropWhile space
    let negative := unsigned.head? == some 45
    let digits := if unsigned.head? = some 43 ∨ negative then unsigned.drop 1 else unsigned
    match (digits.takeWhile digit).foldlM push 0 with
    | none => none
    | some value =>
        if digits.takeWhile digit = [] ∨ digits.dropWhile digit ≠ [] ∨
            (negative ∧ value ≠ 0) then none
        else some value

namespace Decoder

def new (limits : Limits) : Decoder where
  state := .Data
  negotiation := .initial
  initialized := false
  ttypeResponses := 0
  charsetPending := false
  environment := ∅
  client := []
  clientRaw := []
  colorDepth := 16
  screenReader := false
  echoSuppressed := false
  charsetUtf8 := true
  mxp := .default
  line := []
  discarded := 0
  afterCr := false
  inputLineLimit := limits.inputLine
  subnegotiationLimit := limits.subnegotiation
  width := 80
  height := 25
  ansi := true
  terminal := "vt100".toList
  terminalRaw := utf8 "vt100".toList

def optionState (d : Decoder) (option : UInt8) (side : Side) : QState :=
  d.negotiation.state option side

def pendingText (d : Decoder) : Nat := d.line.length

-- What an option does when it becomes enabled.
def onEnabled (d : Decoder) (option : UInt8) (side : Side) : Decoder × List Input :=
  if (option, side) = (NEW_ENVIRON, .Remote) then
    ({ d with environment := ∅ }, [subReply NEW_ENVIRON [1]])
  else if (option, side) = (MSSP, .Local) then (d, [.StatusRequest])
  else if (option, side) = (MCCP2, .Local) then (d, [.StartCompression])
  else if (option, side) = (TTYPE, .Remote) then (d, [subReply TTYPE [1]])
  else if (option, side) = (CHARSET, .Local) then
    ({ d with charsetPending := true }, [subReply CHARSET (utf8 "\x01;UTF-8".toList)])
  else if (option, side) = (MXP, .Local) then
    ({ d with mxp := .default }, [.Reply Mxp.activation])
  else (d, [])

-- What a change to a state other than enabled takes back.
def onDisabled (d : Decoder) (option : UInt8) (side : Side) : Decoder :=
  if (option, side) = (MXP, .Local) then { d with mxp := .default }
  else if (option, side) = (TTYPE, .Remote) then
    { d with terminal := "vt100".toList, terminalRaw := utf8 "vt100".toList }
  else if (option, side) = (NAWS, .Remote) then { d with width := 80, height := 25 }
  else if (option, side) = (CHARSET, .Local) then { d with charsetPending := false }
  else if (option, side) = (NEW_ENVIRON, .Remote) then { d with environment := ∅ }
  else d

def effect (d : Decoder) : Event → Decoder × List Input
  | .Send verb option => (d, [.Reply [IAC, verb.toByte, option]])
  | .Changed change =>
      if change.after.enabled ∧ ¬ change.before.enabled then
        let (d, out) := d.onEnabled change.option change.side
        (d, .Negotiated change :: out)
      else if ¬ change.after.enabled then
        (d.onDisabled change.option change.side, [.Negotiated change])
      else (d, [.Negotiated change])

-- Option effects follow the order of the negotiation output.
def effects (d : Decoder) : List Event → Decoder × List Input
  | [] => (d, [])
  | event :: events =>
      let (d, out) := d.effect event
      let (d, more) := d.effects events
      (d, out ++ more)

-- Install an engine outcome and apply its effects.
def negotiated (d : Decoder) (outcome : Negotiator × List Event) : Decoder × List Input :=
  { d with negotiation := outcome.1 }.effects outcome.2

-- ECHO is started by the server only.
def negotiate (d : Decoder) (option : UInt8) (side : Side) (enable : Bool) :
    Decoder × List Input :=
  if enable ∧ (option, side) ∉ OPTIONS ∧ (option, side) ≠ (ECHO, .Local) then (d, [])
  else d.negotiated (d.negotiation.request option side enable)

def echo (d : Decoder) (secret : Bool) : Decoder × List Input :=
  { d with echoSuppressed := secret }.negotiate ECHO .Local secret

def negotiateAll (d : Decoder) : List (UInt8 × Side) → Decoder × List Input
  | [] => (d, [])
  | (option, side) :: options =>
      let (d, out) := d.negotiate option side true
      let (d, more) := d.negotiateAll options
      (d, out ++ more)

-- The supported negotiations are begun once.
def initial (d : Decoder) : Decoder × List Input :=
  if d.initialized then (d, []) else { d with initialized := true }.negotiateAll OPTIONS

-- Drop trailing continuation bytes and the byte they belong to.
def eraseCharacter (line : List UInt8) : List UInt8 :=
  ((line.reverse.dropWhile (fun b => b &&& 0xC0 == 0x80)).drop 1).reverse

-- A line terminator takes the buffered line.
def endLine (d : Decoder) (b : UInt8) : Decoder × List Input × Option FeedError :=
  let taken := { d with line := [], afterCr := b == 13 }
  match fromUtf8 d.line with
  | none => ({ taken with discarded := d.discarded + d.line.length }, [.InvalidUtf8], none)
  | some line =>
      match if (d.optionState MXP .Local).enabled then Mxp.replyBody line else none with
      -- replies on a secure line are protocol data, never commands
      | some body => ({ taken with mxp := (d.mxp.receive body).getD d.mxp }, [], none)
      | none => (taken, [.Line line], none)

-- One byte of application data. On an error the changes made so far stay.
def data (d : Decoder) (b : UInt8) : Decoder × List Input × Option FeedError :=
  if d.afterCr ∧ (b = 10 ∨ b = 0) then ({ d with afterCr := false }, [], none)
  else if b = 13 ∨ b = 10 then { d with afterCr := false }.endLine b
  else if b = 8 ∨ b = 127 then
    ({ d with afterCr := false, line := eraseCharacter d.line }, [], none)
  else if b = 0 then ({ d with afterCr := false }, [], none)
  else if (d.line ++ [b]).length > d.inputLineLimit then
    ({ d with
        afterCr := false
        line := []
        discarded := d.discarded + (d.line ++ [b]).length }, [],
      some (.InputLineExceeds d.inputLineLimit))
  else ({ d with afterCr := false, line := d.line ++ [b] }, [], none)

def subEnvironment (d : Decoder) (p : List UInt8) : Decoder × List Input :=
  match d.environment.update p with
  | .ok environment => ({ d with environment }, [])
  | .error e =>
      (d, [.Problem "ENVIRON"
        ("sent an invalid or oversized NEW-ENVIRON update: " ++ e.message)])

-- What a terminal type name says about the client: capability bits or a displayed name.
def identify (d : Decoder) (name : List UInt8) : Decoder :=
  match mttsBits name with
  | some bits =>
      { d with
        screenReader := bits &&& 64 != 0
        colorDepth :=
          if bits &&& 256 ≠ 0 then 24
          else if bits &&& 8 ≠ 0 then 256
          else if bits &&& 1 ≠ 0 then 16
          else 0 }
  | none =>
      let displayed := name.take TTYPE_TEXT_BYTES
      let first := d.ttypeResponses == 0
      { d with
        clientRaw := if first then displayed else d.clientRaw
        client := if first then fromUtf8Lossy displayed else d.client
        terminalRaw := displayed
        terminal := fromUtf8Lossy displayed
        -- the capabilities are read from the whole name
        colorDepth :=
          if containsIgnoreAsciiCase name (utf8 "TRUECOLOR".toList) then 24
          else if containsIgnoreAsciiCase name (utf8 "256COLOR".toList) ∨
              eqIgnoreAsciiCaseBytes name (utf8 "XTERM".toList) then 256
          else if eqIgnoreAsciiCaseBytes name (utf8 "DUMB".toList) then 0
          else 16 }

-- A terminal type response; an embedded NUL ends the name.
def subTtype (d : Decoder) (p : List UInt8) : Decoder × List Input :=
  let d := d.identify ((p.drop 1).takeWhile (· != 0))
  let responses := min (d.ttypeResponses + 1) (2 ^ 64 - 1)
  ({ d with ansi := d.colorDepth != 0 && !d.screenReader, ttypeResponses := responses },
    if responses < 3 then [subReply TTYPE [1]] else [])

def subCharset (d : Decoder) (p : List UInt8) : Decoder × List Input :=
  let utf8Name := utf8 "UTF-8".toList
  match p with
  | 2 :: name =>
      let accepted := eqIgnoreAsciiCaseBytes name utf8Name
      ({ d with charsetPending := false, charsetUtf8 := accepted },
        if accepted then [] else [.Problem "CHARSET" "accepted unsupported charset"])
  | 3 :: _ => ({ d with charsetPending := false }, [])
  | 1 :: separator :: name :: names =>
      if d.charsetPending then (d, [subReply CHARSET [3]])
      else if (splitBytes separator (name :: names)).any (eqIgnoreAsciiCaseBytes · utf8Name) then
        ({ d with charsetUtf8 := true }, [subReply CHARSET (2 :: utf8Name)])
      else (d, [subReply CHARSET [3]])
  | _ => (d, [subReply CHARSET [3]])

-- A complete subnegotiation; one whose option is not enabled is ignored.
def sub (d : Decoder) (option : UInt8) (p : List UInt8) : Decoder × List Input :=
  let ping := utf8 "Core.Ping".toList
  if option = NEW_ENVIRON ∧ (d.optionState NEW_ENVIRON .Remote).enabled then d.subEnvironment p
  else if option = GMCP ∧ (d.optionState GMCP .Local).enabled ∧
      (p = ping ∨ (ping ++ [32]).isPrefixOf p) then
    (d, [subReply GMCP ping])
  else if option = NAWS ∧ (d.optionState NAWS .Remote).enabled ∧ p.length = 4 then
    match p with
    | [w, w', h, h'] =>
        ({ d with width := w.toNat * 256 + w'.toNat, height := h.toNat * 256 + h'.toNat }, [])
    | _ => (d, [])
  else if option = TTYPE ∧ (d.optionState TTYPE .Remote).enabled ∧ p.head? = some 0 then
    d.subTtype p
  else if option = CHARSET ∧ (d.optionState CHARSET .Local).enabled ∧ p ≠ [] then
    d.subCharset p
  else (d, [])

-- The byte that follows a collected payload inside a subnegotiation.
def subByte (d : Decoder) (option : UInt8) (payload : List UInt8) (escaped : Bool) (b : UInt8) :
    Decoder × List Input × Option FeedError :=
  if escaped ∧ b = SE then
    let (d, out) := d.sub option payload
    (d, out, none)
  else if ¬ escaped ∧ b = IAC then ({ d with state := .Sub option payload true }, [], none)
  else
    let payload := if ¬ escaped ∨ b = IAC then payload ++ [b] else payload
    if payload.length > d.subnegotiationLimit then
      if option = NEW_ENVIRON then
        ({ d with state := .DiscardSub false },
          [.Problem "ENVIRON" "sent an invalid or oversized NEW-ENVIRON update"], none)
      else (d, [], some .SubnegotiationTooLong)
    else ({ d with state := .Sub option payload false }, [], none)

-- Every byte starts from the data state and leaves it only where it says so.
def feedByte (decoder : Decoder) (b : UInt8) : Decoder × List Input × Option FeedError :=
  let d := { decoder with state := .Data }
  match decoder.state with
  | .Data => if b = IAC then ({ d with state := .Iac }, [], none) else d.data b
  | .Iac =>
      if b = IAC then d.data b
      else
        match Verb.fromByte b with
        | some verb => ({ d with state := .Option verb }, [], none)
        | none =>
            if b = SB then ({ d with state := .SubOption }, [], none)
            else if b = 247 then ({ d with line := eraseCharacter d.line }, [], none)
            else if b = 248 then ({ d with line := [] }, [], none)
            else (d, [], none)
  | .Option verb =>
      let (d, out) := d.negotiated
        (d.negotiation.receive b verb (OPTIONS.contains (b, verb.side)))
      (d, out, none)
  | .DiscardSub escaped =>
      if escaped ∧ b = SE then (d, [], none)
      else ({ d with state := .DiscardSub (!escaped && b == IAC) }, [], none)
  | .SubOption => ({ d with state := .Sub b [] false }, [], none)
  | .Sub option payload escaped => d.subByte option payload escaped b

-- The first error ends the call and its output is lost; the decoder keeps what it did.
def feed (d : Decoder) : List UInt8 → Decoder × Except FeedError (List Input)
  | [] => (d, .ok [])
  | b :: bytes =>
      match d.feedByte b with
      | (d, _, some e) => (d, .error e)
      | (d, out, none) =>
          match d.feed bytes with
          | (d, .ok more) => (d, .ok (out ++ more))
          | (d, .error e) => (d, .error e)

end Decoder

end StompyMux.Telnet
