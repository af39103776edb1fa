import StompyMux.Library.Text

namespace StompyMux.Telnet

open Library.Text

def IAC_BYTE : UInt8 := 255

def dropReturns : List Char → List Char
  | [] => []
  | c :: text =>
      if c = '\r' ∧ text.head? = some '\n' then dropReturns text else c :: dropReturns text

-- `'\n'` becomes `"\r\n"`.
def addReturns (text : List Char) : List Char :=
  text.flatMap (fun c => if c = '\n' then ['\r', '\n'] else [c])

def normalized (text : List Char) : List Char := addReturns (dropReturns text)

def encode (text : List Char) : List UInt8 :=
  (utf8 (normalized text)).flatMap (fun b => if b = IAC_BYTE then [b, b] else [b])

theorem encode_eq (text : List Char) : encode text = utf8 (normalized text) := by
  unfold encode
  have hid : ∀ bytes : List UInt8, (∀ b ∈ bytes, b ≠ IAC_BYTE) →
      bytes.flatMap (fun b => if b = IAC_BYTE then [b, b] else [b]) = bytes := by
    intro bytes hb
    induction bytes with
    | nil => rfl
    | cons b bytes ih =>
        rw [List.flatMap_cons, if_neg (hb b List.mem_cons_self),
          ih (fun c hc => hb c (List.mem_cons_of_mem b hc)), List.singleton_append]
  apply hid
  intro b hb heq
  obtain ⟨c, -, hc⟩ := mem_utf8 _ hb
  have hiac : b.toNat = 255 := by rw [heq]; rfl
  omega

end StompyMux.Telnet
