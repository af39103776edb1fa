import StompyMux.Telnet.Bounds

namespace StompyMux.Telnet.Decoder

open Library.Text

-- Everything learned through options that are taken back when the option ends.
structure Learned where
  environment : Environment
  mxp : Mxp.Client
  width : Nat
  height : Nat
  terminal : List Char
  terminalRaw : List UInt8
  charsetPending : Bool

def learned (d : Decoder) : Learned :=
  ⟨d.environment, d.mxp, d.width, d.height, d.terminal, d.terminalRaw, d.charsetPending⟩

-- `IsDefault` speaks about what belongs to one slot: other slots do not touch it, ending
-- the option establishes it, and data and subnegotiations leave it alone while the option
-- is off.
structure OwnedBy (slot : UInt8 × Side) (IsDefault : Learned → Prop) : Prop where
  enabled : ∀ d other, other ≠ slot → IsDefault d.learned →
    IsDefault (onEnabled d other.1 other.2).1.learned
  disabled : ∀ d other, other ≠ slot → IsDefault d.learned →
    IsDefault (onDisabled d other.1 other.2).learned
  reset : ∀ d, IsDefault (onDisabled d slot.1 slot.2).learned
  data : ∀ d b, (optionState d slot.1 slot.2).enabled = false → IsDefault d.learned →
    IsDefault (Decoder.data d b).1.learned
  sub : ∀ d option p, (optionState d slot.1 slot.2).enabled = false → IsDefault d.learned →
    IsDefault (Decoder.sub d option p).1.learned

def DefaultWhenOff (slot : UInt8 × Side) (IsDefault : Learned → Prop) (d : Decoder) : Prop :=
  (d.optionState slot.1 slot.2).enabled = false → IsDefault d.learned

variable (d : Decoder) (option : UInt8) (p : List UInt8) (b : UInt8)

theorem onEnabled_optionState (side : Side) (slot : UInt8 × Side) :
    (d.onEnabled option side).1.optionState slot.1 slot.2 = d.optionState slot.1 slot.2 := by
  unfold onEnabled
  split_ifs <;> rfl

theorem onDisabled_optionState (side : Side) (slot : UInt8 × Side) :
    (d.onDisabled option side).optionState slot.1 slot.2 = d.optionState slot.1 slot.2 := by
  unfold onDisabled
  split_ifs <;> rfl

theorem endLine_negotiation : (d.endLine b).1.negotiation = d.negotiation := by
  unfold endLine
  split
  · rfl
  · split <;> rfl

theorem data_negotiation : (d.data b).1.negotiation = d.negotiation := by
  unfold data
  split_ifs
  · rfl
  · exact endLine_negotiation _ b
  all_goals rfl

theorem identify_negotiation (name : List UInt8) :
    (d.identify name).negotiation = d.negotiation := by
  unfold identify
  split <;> rfl

theorem sub_negotiation : (d.sub option p).1.negotiation = d.negotiation := by
  simp only [sub]
  split_ifs
  · unfold subEnvironment
    split <;> rfl
  · rfl
  · split <;> rfl
  · exact identify_negotiation d _
  · unfold subCharset
    dsimp only
    split
    · rfl
    · rfl
    · split_ifs <;> rfl
    · rfl
  · rfl

section

variable (slot : UInt8 × Side) (IsDefault : Learned → Prop) (ho : OwnedBy slot IsDefault)

include ho

variable (d : Decoder) (option : UInt8) (b : UInt8)

-- The state of the slot decides: a transition of another slot leaves both the state and the
-- default alone, and a transition of this one either enables it or resets it.
theorem negotiated_default (side : Side)
    (transition : QState × Option Bool) (hd : DefaultWhenOff slot IsDefault d) :
    DefaultWhenOff slot IsDefault
      (d.negotiated (d.negotiation.apply option side transition)).1 := by
  rw [negotiated_apply]
  dsimp only
  by_cases hslot : (option, side) = slot
  · subst hslot
    split_ifs with hsame hon hyes
    · intro h
      simp only [optionState, Negotiator.state_set_self] at h
      exact hd (by rw [hsame]; exact h)
    · intro h
      rw [onEnabled_optionState] at h
      simp only [optionState, Negotiator.state_set_self] at h
      exact absurd hon.1 (by rw [h]; exact Bool.false_ne_true)
    · intro h
      simp only [optionState, Negotiator.state_set_self] at h
      exact absurd hyes (by rw [h]; exact Bool.false_ne_true)
    · exact fun _ => ho.reset _
  · have hstate : (optionState { d with negotiation := d.negotiation.set option side transition.1 }
        slot.1 slot.2) = d.optionState slot.1 slot.2 :=
      Negotiator.state_set_of_ne _ _ (fun h => hslot (Prod.ext h.1.symm h.2.symm))
    split_ifs
    · intro h
      exact hd (hstate ▸ h)
    · intro h
      rw [onEnabled_optionState, hstate] at h
      exact ho.enabled _ (option, side) hslot (hd h)
    · intro h
      exact hd (hstate ▸ h)
    · intro h
      rw [onDisabled_optionState, hstate] at h
      exact ho.disabled _ (option, side) hslot (hd h)

theorem data_default (hd : DefaultWhenOff slot IsDefault d) :
    DefaultWhenOff slot IsDefault (d.data b).1 := by
  intro h
  rw [optionState, data_negotiation] at h
  exact ho.data d b h (hd h)

theorem sub_default (p : List UInt8)
    (hd : DefaultWhenOff slot IsDefault d) : DefaultWhenOff slot IsDefault (d.sub option p).1 := by
  intro h
  rw [optionState, sub_negotiation] at h
  exact ho.sub d option p h (hd h)

theorem subByte_default (payload : List UInt8) (escaped : Bool)
    (b : UInt8) (hd : DefaultWhenOff slot IsDefault d) :
    DefaultWhenOff slot IsDefault (d.subByte option payload escaped b).1 := by
  unfold subByte
  split
  · exact sub_default slot IsDefault ho d option payload hd
  split
  · exact hd
  dsimp only
  split_ifs <;> exact hd

theorem feedByte_default (hd : DefaultWhenOff slot IsDefault d) :
    DefaultWhenOff slot IsDefault (d.feedByte b).1 := by
  have hready : DefaultWhenOff slot IsDefault { d with state := .Data } := hd
  unfold feedByte
  split
  · split
    · exact hd
    · exact data_default slot IsDefault ho _ b hready
  · split
    · exact data_default slot IsDefault ho _ b hready
    split
    · exact hd
    split_ifs <;> exact hd
  · exact negotiated_default slot IsDefault ho _ b _ _ hready
  · split <;> exact hd
  · exact hd
  · exact subByte_default slot IsDefault ho _ _ _ _ b hready

theorem default_preserved : Preserved (DefaultWhenOff slot IsDefault) where
  negotiated := negotiated_default slot IsDefault ho
  flags := fun _ _ _ hd => hd
  feedByte := feedByte_default slot IsDefault ho

end

-- Data changes at most what MXP replies have told, and that only while MXP is on.
theorem data_learned : (d.data b).1.learned = { d.learned with mxp := (d.data b).1.mxp } ∧
      ((d.optionState MXP .Local).enabled = false → (d.data b).1.mxp = d.mxp) := by
  unfold data
  split_ifs
  · exact ⟨rfl, fun _ => rfl⟩
  · unfold endLine
    split
    · exact ⟨rfl, fun _ => rfl⟩
    · split
      · rename_i line _ body hbody
        refine ⟨rfl, fun hoff => ?_⟩
        have hoff' : (optionState { d with afterCr := false } MXP .Local).enabled = false := hoff
        simp [hoff'] at hbody
      · exact ⟨rfl, fun _ => rfl⟩
  all_goals exact ⟨rfl, fun _ => rfl⟩

-- A subnegotiation changes at most what belongs to its own option, and that only while the
-- option is on.
structure SubKeeps (d after : Decoder) : Prop where
  environment : (d.optionState NEW_ENVIRON .Remote).enabled = false →
    after.environment = d.environment
  mxp : after.mxp = d.mxp
  size : (d.optionState NAWS .Remote).enabled = false →
    after.width = d.width ∧ after.height = d.height
  terminal : (d.optionState TTYPE .Remote).enabled = false →
    after.terminal = d.terminal ∧ after.terminalRaw = d.terminalRaw
  charsetPending : (d.optionState CHARSET .Local).enabled = false →
    after.charsetPending = d.charsetPending

theorem SubKeeps.refl : SubKeeps d d :=
  ⟨fun _ => rfl, rfl, fun _ => ⟨rfl, rfl⟩, fun _ => ⟨rfl, rfl⟩, fun _ => rfl⟩

theorem subEnvironment_keeps (hon : (d.optionState NEW_ENVIRON .Remote).enabled = true) :
    SubKeeps d (d.subEnvironment p).1 := by
  unfold subEnvironment
  split
  · exact { SubKeeps.refl d with environment := fun h => absurd h (by simp [hon]) }
  · exact SubKeeps.refl d

theorem subTtype_keeps
    (hon : (d.optionState TTYPE .Remote).enabled = true) : SubKeeps d (d.subTtype p).1 := by
  have hname : ∀ name, SubKeeps d (d.identify name) := by
    intro name
    unfold identify
    split
    · exact { SubKeeps.refl d with }
    · exact { SubKeeps.refl d with terminal := fun h => absurd h (by simp [hon]) }
  exact { hname ((p.drop 1).takeWhile (· != 0)) with }

theorem subCharset_keeps
    (hon : (d.optionState CHARSET .Local).enabled = true) : SubKeeps d (d.subCharset p).1 := by
  unfold subCharset
  dsimp only
  split
  · exact { SubKeeps.refl d with charsetPending := fun h => absurd h (by simp [hon]) }
  · exact { SubKeeps.refl d with charsetPending := fun h => absurd h (by simp [hon]) }
  · split_ifs
    · exact SubKeeps.refl d
    · exact { SubKeeps.refl d with }
    · exact SubKeeps.refl d
  · exact SubKeeps.refl d

theorem sub_keeps : SubKeeps d (d.sub option p).1 := by
  simp only [sub]
  split_ifs with henv hgmcp hnaws httype hcharset
  · exact subEnvironment_keeps d p henv.2
  · exact SubKeeps.refl d
  · split
    · exact { SubKeeps.refl d with size := fun h => absurd h (by simp [hnaws.2.1]) }
    · exact SubKeeps.refl d
  · exact subTtype_keeps d p httype.2.1
  · exact subCharset_keeps d p hcharset.2.1
  · exact SubKeeps.refl d

theorem environment_owned : OwnedBy (NEW_ENVIRON, .Remote) (fun l => l.environment = ∅) where
  enabled := by
    intro d other _ hd
    unfold onEnabled
    split_ifs <;> first | rfl | exact hd
  disabled := by
    intro d other _ hd
    unfold onDisabled
    split_ifs <;> first | rfl | exact hd
  reset := fun _ => rfl
  data := by
    intro d b _ hd
    rw [(data_learned d b).1]
    exact hd
  sub := fun d option p hoff hd => ((sub_keeps d option p).environment hoff).trans hd

theorem mxp_owned : OwnedBy (MXP, .Local) (fun l => l.mxp = .default) where
  enabled := by
    intro d other _ hd
    unfold onEnabled
    split_ifs <;> first | rfl | exact hd
  disabled := by
    intro d other _ hd
    unfold onDisabled
    split_ifs <;> first | rfl | exact hd
  reset := fun _ => rfl
  data := fun d b hoff hd => ((data_learned d b).2 hoff).trans hd
  sub := fun d option p _ hd => (sub_keeps d option p).mxp.trans hd

theorem size_owned : OwnedBy (NAWS, .Remote) (fun l => l.width = 80 ∧ l.height = 25) where
  enabled := by
    intro d other _ hd
    unfold onEnabled
    split_ifs <;> exact hd
  disabled := by
    intro d other _ hd
    unfold onDisabled
    split_ifs <;> first | exact ⟨rfl, rfl⟩ | exact hd
  reset := fun _ => ⟨rfl, rfl⟩
  data := by
    intro d b _ hd
    rw [(data_learned d b).1]
    exact hd
  sub := by
    intro d option p hoff hd
    obtain ⟨hw, hh⟩ := (sub_keeps d option p).size hoff
    exact ⟨hw.trans hd.1, hh.trans hd.2⟩

theorem terminal_owned : OwnedBy (TTYPE, .Remote)
    (fun l => l.terminal = "vt100".toList ∧ l.terminalRaw = utf8 "vt100".toList) where
  enabled := by
    intro d other _ hd
    unfold onEnabled
    split_ifs <;> exact hd
  disabled := by
    intro d other _ hd
    unfold onDisabled
    split_ifs <;> first | exact ⟨rfl, rfl⟩ | exact hd
  reset := fun _ => ⟨rfl, rfl⟩
  data := by
    intro d b _ hd
    rw [(data_learned d b).1]
    exact hd
  sub := by
    intro d option p hoff hd
    obtain ⟨ht, hr⟩ := (sub_keeps d option p).terminal hoff
    exact ⟨ht.trans hd.1, hr.trans hd.2⟩

theorem charset_owned : OwnedBy (CHARSET, .Local) (fun l => l.charsetPending = false) where
  enabled := by
    intro d other hne hd
    unfold onEnabled
    split_ifs <;> exact hd
  disabled := by
    intro d other _ hd
    unfold onDisabled
    split_ifs <;> first | rfl | exact hd
  reset := fun _ => rfl
  data := by
    intro d b _ hd
    rw [(data_learned d b).1]
    exact hd
  sub := fun d option p hoff hd => ((sub_keeps d option p).charsetPending hoff).trans hd

-- Nothing a client said through an option outlives the option.
theorem session_defaults (limits : Limits) (calls : List Call) :
    let d := session limits calls
    ((d.optionState NEW_ENVIRON .Remote).enabled = false → d.environment = ∅) ∧
    ((d.optionState MXP .Local).enabled = false → d.mxp = .default) ∧
    ((d.optionState NAWS .Remote).enabled = false → d.width = 80 ∧ d.height = 25) ∧
    ((d.optionState TTYPE .Remote).enabled = false →
      d.terminal = "vt100".toList ∧ d.terminalRaw = utf8 "vt100".toList) ∧
    ((d.optionState CHARSET .Local).enabled = false → d.charsetPending = false) :=
  ⟨(default_preserved _ _ environment_owned).session limits calls (fun _ => rfl),
    (default_preserved _ _ mxp_owned).session limits calls (fun _ => rfl),
    (default_preserved _ _ size_owned).session limits calls (fun _ => ⟨rfl, rfl⟩),
    (default_preserved _ _ terminal_owned).session limits calls (fun _ => ⟨rfl, rfl⟩),
    (default_preserved _ _ charset_owned).session limits calls (fun _ => rfl)⟩

end StompyMux.Telnet.Decoder
