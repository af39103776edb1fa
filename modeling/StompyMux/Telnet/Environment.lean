import Mathlib.Algebra.Order.Ring.Nat
import Std.Data.TreeMap.Lemmas

namespace StompyMux.Telnet

-- VAR and USERVAR occupy distinct namespaces.
inductive Kind
  | Var
  | UserVar
  deriving DecidableEq

def Kind.rank : Kind → Nat
  | .Var => 0
  | .UserVar => 1

-- Byte ordering within each namespace; it is also the display ordering.
def keyOrder : Kind × List UInt8 → Kind × List UInt8 → Ordering :=
  compareLex (compareOn (fun key => key.1.rank)) (compareOn Prod.snd)

instance : Std.TransCmp keyOrder := inferInstanceAs (Std.TransCmp (compareLex _ _))

theorem Kind.rank_inj {kind other : Kind} (h : kind.rank = other.rank) : kind = other := by
  cases kind <;> cases other <;> first | rfl | cases h

instance : Std.LawfulEqCmp keyOrder where
  eq_of_compare := by
    rintro ⟨kind, name⟩ ⟨kind', name'⟩ h
    simp only [keyOrder, compareLex, compareOn, Ordering.then_eq_eq] at h
    obtain ⟨hk, hn⟩ := h
    rw [Kind.rank_inj (Std.LawfulEqCmp.eq_of_compare hk), Std.LawfulEqCmp.eq_of_compare hn]

abbrev Environment := Std.TreeMap (Kind × List UInt8) (List UInt8) keyOrder

inductive EnvironmentError
  | ExpectedIsOrInfo
  | ExpectedVarOrUserVar
  | TooManyUpdates
  | StorageLimit
  | TrailingEscape
  | FieldLimit
  deriving DecidableEq

def EnvironmentError.message : EnvironmentError → String
  | .ExpectedIsOrInfo => "expected environment IS or INFO"
  | .ExpectedVarOrUserVar => "expected VAR or USERVAR"
  | .TooManyUpdates => "too many environment updates"
  | .StorageLimit => "environment storage limit"
  | .TrailingEscape => "trailing environment escape"
  | .FieldLimit => "environment field limit"

namespace Environment

def MAX_UPDATES : Nat := 64
def MAX_VARIABLES : Nat := 64
def MAX_BYTES : Nat := 65536
def MAX_NAME : Nat := 256
def MAX_VALUE : Nat := 4096

def bytes (environment : Environment) : Nat :=
  (environment.toList.map (fun entry => entry.1.2.length + entry.2.length)).sum

-- Decode escaped bytes up to the next unescaped structural marker; the marker and what
-- follows it are returned unread. `out` holds what has been decoded so far and `escaped`
-- says whether an escape byte came just before.
def read (limit : Nat) : Bool → List UInt8 → List UInt8 →
    Except EnvironmentError (List UInt8 × List UInt8)
  | false, out, [] => .ok (out, [])
  | true, _, [] => .error .TrailingEscape
  | escaped, out, b :: rest =>
      if escaped = false ∧ (b = 0 ∨ b = 1 ∨ b = 3) then .ok (out, b :: rest)
      else if escaped = false ∧ b = 2 then read limit true out rest
      else if (out ++ [b]).length ≤ limit then read limit false (out ++ [b]) rest
      else .error .FieldLimit

def kindOf (b : UInt8) : Option Kind :=
  if b = 0 then some .Var else if b = 3 then some .UserVar else none

-- One variable after its kind byte: the patched storage and the bytes that follow.
def patch (next : Environment) (kind : Kind) (p : List UInt8) :
    Except EnvironmentError (Environment × List UInt8) :=
  match read MAX_NAME false [] p with
  | .error e => .error e
  | .ok (name, 1 :: rest) =>
      match read MAX_VALUE false [] rest with
      | .error e => .error e
      | .ok (value, rest) => .ok (next.insert (kind, name) value, rest)
  | .ok (name, rest) => .ok (next.erase (kind, name), rest)

-- The updates of one message in order; the first argument is how many may still follow.
def patches : Nat → Environment → List UInt8 → Except EnvironmentError Environment
  | _, next, [] => .ok next
  | 0, _, b :: _ =>
      match kindOf b with
      | none => .error .ExpectedVarOrUserVar
      | some _ => .error .TooManyUpdates
  | left + 1, next, b :: rest =>
      match kindOf b with
      | none => .error .ExpectedVarOrUserVar
      | some kind =>
          match patch next kind rest with
          | .error e => .error e
          | .ok (next, rest) =>
              if next.size ≤ MAX_VARIABLES ∧ next.bytes ≤ MAX_BYTES then patches left next rest
              else .error .StorageLimit

-- One IS replacement or INFO patch. Nothing is committed unless all of it is valid.
def update (environment : Environment) : List UInt8 → Except EnvironmentError Environment
  | 0 :: rest => patches MAX_UPDATES ∅ rest
  | 2 :: rest => patches MAX_UPDATES environment rest
  | _ => .error .ExpectedIsOrInfo

def FieldsBounded (environment : Environment) : Prop :=
  ∀ (key : Kind × List UInt8) (value : List UInt8), environment[key]? = some value →
    key.2.length ≤ MAX_NAME ∧ value.length ≤ MAX_VALUE

structure Bounded (environment : Environment) : Prop where
  count : environment.size ≤ MAX_VARIABLES
  bytes : environment.bytes ≤ MAX_BYTES
  fields : environment.FieldsBounded

theorem empty_bounded : Bounded ∅ where
  count := by decide
  bytes := by decide
  fields := by simp [FieldsBounded]

theorem read_length_le (limit : Nat) (escaped : Bool) (out p field rest : List UInt8)
    (hout : out.length ≤ limit) (hr : read limit escaped out p = .ok (field, rest)) :
    field.length ≤ limit := by
  induction p generalizing escaped out with
  | nil =>
      cases escaped with
      | true => cases hr
      | false =>
          cases hr
          exact hout
  | cons b p ih =>
      simp only [read] at hr
      split at hr
      · cases hr
        exact hout
      split at hr
      · exact ih true out hout hr
      split at hr
      · rename_i hlen
        exact ih false (out ++ [b]) hlen hr
      · cases hr

theorem insert_fieldsBounded {environment : Environment} (kind : Kind)
    {name value : List UInt8} (hf : environment.FieldsBounded) (hn : name.length ≤ MAX_NAME)
    (hv : value.length ≤ MAX_VALUE) : FieldsBounded (environment.insert (kind, name) value) := by
  intro key found h
  rw [Std.TreeMap.getElem?_insert] at h
  split at h
  · rename_i hk
    obtain rfl := Std.LawfulEqCmp.eq_of_compare hk
    cases h
    exact ⟨hn, hv⟩
  · exact hf key found h

theorem erase_fieldsBounded {environment : Environment} (key : Kind × List UInt8)
    (hf : environment.FieldsBounded) : FieldsBounded (environment.erase key) := by
  intro other found h
  rw [Std.TreeMap.getElem?_erase] at h
  split at h
  · cases h
  · exact hf other found h

theorem patch_fieldsBounded {next after : Environment} {kind : Kind} {p rest : List UInt8}
    (hf : next.FieldsBounded) (hp : patch next kind p = .ok (after, rest)) :
    after.FieldsBounded := by
  unfold patch at hp
  split at hp
  · cases hp
  · rename_i name tail hname
    split at hp
    · cases hp
    · rename_i value tail' hvalue
      cases hp
      exact insert_fieldsBounded kind hf
        (read_length_le _ _ _ _ _ _ (Nat.zero_le _) hname)
        (read_length_le _ _ _ _ _ _ (Nat.zero_le _) hvalue)
  · cases hp
    exact erase_fieldsBounded _ hf

-- The storage limits are checked after every update of a message.
theorem patches_bounded (left : Nat) (next after : Environment) (p : List UInt8)
    (hb : next.Bounded) (hp : patches left next p = .ok after) : after.Bounded := by
  induction left generalizing next p with
  | zero =>
      cases p with
      | nil =>
          cases hp
          exact hb
      | cons b p =>
          simp only [patches] at hp
          split at hp <;> cases hp
  | succ left ih =>
      cases p with
      | nil =>
          cases hp
          exact hb
      | cons b p =>
          simp only [patches] at hp
          split at hp
          · cases hp
          split at hp
          · cases hp
          rename_i patched rest hpatch
          split at hp
          · rename_i hlimits
            refine ih patched rest ⟨hlimits.1, hlimits.2, ?_⟩ hp
            exact patch_fieldsBounded hb.fields hpatch
          · cases hp

theorem update_bounded (environment after : Environment) (p : List UInt8)
    (hb : environment.Bounded) (hu : environment.update p = .ok after) : after.Bounded := by
  unfold update at hu
  split at hu
  · exact patches_bounded MAX_UPDATES ∅ after _ empty_bounded hu
  · exact patches_bounded MAX_UPDATES environment after _ hb hu
  · cases hu

end Environment

end StompyMux.Telnet
