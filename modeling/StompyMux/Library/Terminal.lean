import StompyMux.Library.Text

-- How a terminal reads its input: bytes to show, control sequences and commands.
namespace StompyMux.Library.Terminal

open Library.Text

inductive Token
  | Byte (b : UInt8)
  -- escape, bracket, parameters and a final byte
  | Control (parameters : List UInt8) (final : UInt8)
  -- escape, closing bracket and a body ended by a bell or by escape and backslash
  | Command (body : List UInt8)
  deriving DecidableEq

inductive Mode
  | Ground
  | Escape
  | Control (parameters : List UInt8)
  | Command (body : List UInt8)
  | CommandEscape (body : List UInt8)
  deriving DecidableEq

-- A sequence that is still open at the end of the input shows nothing.
def scan : Mode → List UInt8 → List Token
  | _, [] => []
  | .Ground, b :: bytes =>
      if b = 27 then scan .Escape bytes else .Byte b :: scan .Ground bytes
  | .Escape, b :: bytes =>
      if b = 91 then scan (.Control []) bytes
      else if b = 93 then scan (.Command []) bytes
      else scan .Ground bytes
  | .Control parameters, b :: bytes =>
      if 64 ≤ b ∧ b ≤ 126 then .Control parameters b :: scan .Ground bytes
      else scan (.Control (parameters ++ [b])) bytes
  | .Command body, b :: bytes =>
      if b = 7 then .Command body :: scan .Ground bytes
      else if b = 27 then scan (.CommandEscape body) bytes
      else scan (.Command (body ++ [b])) bytes
  | .CommandEscape body, b :: bytes =>
      if b = 92 then .Command body :: scan .Ground bytes
      else scan (.Command (body ++ [27, b])) bytes

def tokens (bytes : List UInt8) : List Token := scan .Ground bytes

example : tokens [97, 27, 91, 49, 109] = [.Byte 97, .Control [49] 109] := by
  rw [tokens, scan]
  rfl

theorem scan_bytes (text bytes : List UInt8) (ht : ∀ b ∈ text, b ≠ 27) :
    scan .Ground (text ++ bytes) = text.map .Byte ++ scan .Ground bytes := by
  induction text with
  | nil => rfl
  | cons b text ih =>
      rw [List.cons_append, scan, if_neg (ht b List.mem_cons_self),
        ih (fun c hc => ht c (List.mem_cons_of_mem b hc))]
      rfl

theorem scan_parameters (parameters start bytes : List UInt8) {final : UInt8}
    (hp : ∀ b ∈ parameters, ¬(64 ≤ b ∧ b ≤ 126)) (hf : 64 ≤ final ∧ final ≤ 126) :
    scan (.Control start) (parameters ++ final :: bytes) =
      .Control (start ++ parameters) final :: scan .Ground bytes := by
  induction parameters generalizing start with
  | nil => rw [List.nil_append, scan, if_pos hf, List.append_nil]
  | cons b parameters ih =>
      rw [List.cons_append, scan, if_neg (hp b List.mem_cons_self),
        ih _ (fun c hc => hp c (List.mem_cons_of_mem b hc)), List.append_assoc]
      rfl

theorem scan_control (parameters bytes : List UInt8) {final : UInt8}
    (hp : ∀ b ∈ parameters, ¬(64 ≤ b ∧ b ≤ 126)) (hf : 64 ≤ final ∧ final ≤ 126) :
    tokens (27 :: 91 :: (parameters ++ final :: bytes)) =
      .Control parameters final :: tokens bytes := by
  simpa [tokens, scan] using scan_parameters parameters [] bytes hp hf

theorem scan_body (body start bytes : List UInt8) (hb : ∀ b ∈ body, b ≠ 7 ∧ b ≠ 27) :
    scan (.Command start) (body ++ 27 :: 92 :: bytes) =
      .Command (start ++ body) :: scan .Ground bytes := by
  induction body generalizing start with
  | nil => simp [scan]
  | cons b body ih =>
      have hhead := hb b List.mem_cons_self
      rw [List.cons_append, scan, if_neg hhead.1, if_neg hhead.2,
        ih _ (fun c hc => hb c (List.mem_cons_of_mem b hc)), List.append_assoc]
      rfl

theorem scan_command (body bytes : List UInt8) (hb : ∀ b ∈ body, b ≠ 7 ∧ b ≠ 27) :
    tokens (27 :: 93 :: (body ++ 27 :: 92 :: bytes)) = .Command body :: tokens bytes := by
  simpa [tokens, scan] using scan_body body [] bytes hb

-- What is left of the input when its escape sequences are deleted.
def shown : List Token → List UInt8
  | [] => []
  | .Byte b :: rest => b :: shown rest
  | _ :: rest => shown rest

@[simp] theorem shown_append (first rest : List Token) :
    shown (first ++ rest) = shown first ++ shown rest := by
  induction first with
  | nil => rfl
  | cons token first ih => cases token <;> simp [shown, ih]

theorem shown_bytes (text : List UInt8) : shown (text.map .Byte) = text := by
  induction text with
  | nil => rfl
  | cons b text ih => rw [List.map_cons, shown, ih]

def deleteEscapes (bytes : List UInt8) : List UInt8 := shown (tokens bytes)

-- The hyperlink command: parameters, a semicolon and the target, which is empty to close.
def Token.hyperlink? : Token → Option (List UInt8)
  | .Command (56 :: 59 :: 59 :: target) => some target
  | _ => none

def linkAfter : Bool → List Token → Bool
  | isOpen, [] => isOpen
  | isOpen, token :: rest =>
      match token.hyperlink? with
      | none => linkAfter isOpen rest
      | some target => linkAfter (target != []) rest

theorem linkAfter_append (isOpen : Bool) (first rest : List Token) :
    linkAfter isOpen (first ++ rest) = linkAfter (linkAfter isOpen first) rest := by
  induction first generalizing isOpen with
  | nil => rfl
  | cons token first ih =>
      rw [List.cons_append, linkAfter, linkAfter]
      split <;> exact ih _

-- A select graphic rendition sequence.
def Token.isRendition : Token → Bool
  | .Control _ final => final == 109
  | _ => false

end StompyMux.Library.Terminal
