import StompyMux.Btech.Material
import StompyMux.Impact.Cascade

-- Hardened and reflective armor: what single strikes do and how they add up.
namespace StompyMux.Impact

open Library StompyMux.Btech

variable {Weapon : Type}

section Points

def checkedSub (a b : Nat) : Option Nat := if b ≤ a then some (a - b) else none

-- The same hits with every subtraction checked.
def hardenedHitChecked (amount armor : Nat) (dented : Bool) : Option HardenedHit :=
  let slash := if dented && 0 < armor then 1 else 0
  (checkedSub (armor * 2) slash).bind (fun capacity =>
    if capacity ≤ amount then
      (checkedSub amount capacity).map (fun overflow => ⟨armor, overflow, false⟩)
    else some ⟨(amount + slash) / 2, 0, (amount + slash) % 2 = 1⟩)

def reflectiveHitChecked (kind : DamageClass) (amount armor : Nat) : Option (Option (Nat × Nat)) :=
  match kind with
  | .Ordinary | .ArmorPiercing => some none
  | .Energy => some (some (min (max (amount / 2) (min amount 1)) armor, amount - armor * 2))
  | .AreaEffect | .Impact =>
      if amount * 2 ≤ armor then some (some (amount * 2, 0))
      else (checkedSub amount ((armor + 1) / 2)).map (fun overflow => some (armor, overflow))

variable (amount more armor : Nat) (dented : Bool)

theorem slash_cases : ∃ slash, (if dented && 0 < armor then 1 else 0) = slash ∧
    (slash = 0 ∧ (dented = true → armor = 0) ∨ slash = 1 ∧ dented = true ∧ 0 < armor) := by
  by_cases h : (dented && decide (0 < armor)) = true
  · rw [if_pos h]
    rw [Bool.and_eq_true, decide_eq_true_iff] at h
    exact ⟨1, rfl, .inr ⟨rfl, h⟩⟩
  · rw [if_neg h]
    rw [Bool.and_eq_true, decide_eq_true_iff] at h
    exact ⟨0, rfl, .inl ⟨rfl, fun hdented => by
      have hnone := not_and.mp h hdented
      omega⟩⟩

theorem hardenedHit_checked :
    hardenedHitChecked amount armor dented = some (hardenedHit amount armor dented) := by
  obtain ⟨slash, hslash, hcases⟩ := slash_cases armor dented
  unfold hardenedHitChecked hardenedHit checkedSub
  dsimp only
  rw [hslash, if_pos (by omega), Option.bind_some]
  split <;> rfl

theorem reflectiveHit_checked (kind : DamageClass) :
    reflectiveHitChecked kind amount armor = some (reflectiveHit kind amount armor) := by
  cases kind with
  | Ordinary => rfl
  | ArmorPiercing => rfl
  | Energy => rfl
  | AreaEffect | Impact =>
      unfold reflectiveHitChecked reflectiveHit checkedSub
      dsimp only
      split
      · rfl
      · rw [if_pos (by omega)]
        rfl

-- What holds of every hit: no more goes than is there, and nothing passes armor that is left.
structure Fair (amount armor removed overflow : Nat) : Prop where
  removed_le : removed ≤ armor
  stripped : 0 < overflow → removed = armor
  overflow_le : overflow ≤ amount

theorem hardenedHit_fair : Fair amount armor (hardenedHit amount armor dented).removed
    (hardenedHit amount armor dented).overflow := by
  obtain ⟨slash, hslash, hcases⟩ := slash_cases armor dented
  unfold hardenedHit
  dsimp only
  rw [hslash]
  split
  · exact ⟨Nat.le_refl _, fun _ => rfl, Nat.sub_le _ _⟩
  · refine ⟨?_, fun hpos => absurd hpos (Nat.lt_irrefl 0), Nat.zero_le _⟩
    dsimp only
    omega

theorem reflectiveHit_fair {kind : DamageClass} {hit : Nat × Nat}
    (h : reflectiveHit kind amount armor = some hit) : Fair amount armor hit.1 hit.2 := by
  cases kind with
  | Ordinary | ArmorPiercing => contradiction
  | Energy =>
      cases h
      refine ⟨Nat.min_le_right _ _, ?_, Nat.sub_le _ _⟩
      intro hpos
      omega
  | AreaEffect | Impact =>
      unfold reflectiveHit at h
      dsimp only at h
      split at h
      next hle =>
        cases h
        exact ⟨hle, fun hpos => absurd hpos (Nat.lt_irrefl 0), Nat.zero_le _⟩
      next =>
        cases h
        exact ⟨Nat.le_refl _, fun _ => rfl, Nat.sub_le _ _⟩

-- A slash is left on armor that is left.
theorem hardenedHit_dented (h : (hardenedHit amount armor dented).dented = true) :
    (hardenedHit amount armor dented).removed < armor := by
  obtain ⟨slash, hslash, hcases⟩ := slash_cases armor dented
  unfold hardenedHit at h ⊢
  dsimp only at h ⊢
  rw [hslash] at h ⊢
  split at h
  · contradiction
  next hlt =>
    rw [if_neg hlt]
    dsimp only at h ⊢
    rw [decide_eq_true_iff] at h
    omega

theorem hardenedHit_add {first second whole : HardenedHit}
    (hfirst : first = hardenedHit amount armor dented)
    (hsecond : second = hardenedHit more (armor - first.removed) first.dented)
    (hwhole : whole = hardenedHit (amount + more) armor dented) :
    first.removed + second.removed = whole.removed ∧
      first.overflow + second.overflow = whole.overflow ∧ second.dented = whole.dented := by
  obtain ⟨slash, hslash, hcases⟩ := slash_cases armor dented
  unfold hardenedHit at hfirst hsecond hwhole
  rw [hslash] at hfirst hwhole
  by_cases hspent : armor * 2 - slash ≤ amount
  · rw [if_pos hspent] at hfirst
    rw [if_pos (by omega)] at hwhole
    subst hfirst hwhole
    rw [Nat.sub_self, Bool.false_and, if_neg Bool.false_ne_true, if_pos (by omega)] at hsecond
    subst hsecond
    dsimp only
    refine ⟨by omega, by omega, rfl⟩
  · rw [if_neg hspent] at hfirst
    obtain ⟨later, hlater, hlaterCases⟩ := slash_cases (armor - first.removed) first.dented
    rw [hlater] at hsecond
    subst hfirst
    dsimp only at hsecond hlaterCases
    rw [decide_eq_true_iff] at hlaterCases
    by_cases hrest : armor * 2 - slash ≤ amount + more
    · rw [if_pos hrest] at hwhole
      rw [if_pos (by omega)] at hsecond
      subst hsecond hwhole
      dsimp only
      refine ⟨by omega, by omega, rfl⟩
    · rw [if_neg hrest] at hwhole
      rw [if_neg (by omega)] at hsecond
      subst hsecond hwhole
      dsimp only
      refine ⟨by omega, rfl, ?_⟩
      rw [decide_eq_decide]
      omega

end Points

section Strikes

variable (d : Design Weapon) (m : Mech Weapon) (s : MechSection) (rear : Bool)

-- A strike on one facing as a packet makes it: what the armor does, the armor phase for the points
-- removed and then the slash. What gets through is left; a section that is gone lets all through.
def strike (amount : Nat) (kind : DamageClass) : Mech Weapon × Nat :=
  if m.internal s = 0 then (m, amount)
  else
    let special := armorHit d m s rear amount kind
    let armor := m.damagePhase d s ((special.map ArmorHit.removed).getD amount) (.Armor rear)
    let struck :=
      match special.bind ArmorHit.dented with
      | some dented => markHardenedDent armor.2 (ArmorFacing.struck s rear) dented
      | none => armor.2
    (struck, (special.map ArmorHit.overflow).getD armor.1.remaining)

-- A packet strikes the armor of a section that stands, and then reports the phase.
theorem armorStage_strikes (b : Battlefield Weapon) (p : DamagePacket Weapon) (w : Walk)
    (c : Context Weapon) (hpacket : p.internalOnly = false) (hstands : c.unit.internal w.place ≠ 0) :
    ∃ phase, armorStage b p w c =
      (recordPhase b phase >>= fun _ => pure ⟨phase.absorbed,
        (strike b.design c.unit w.place p.rear w.damage p.damageClass).2⟩ : Cascade Weapon Struck)
        (c.setUnit (strike b.design c.unit w.place p.rear w.damage p.damageClass).1) := by
  have hdent : ∀ (facing : ArmorFacing) (special : Option ArmorHit) (c : Context Weapon),
      dentStage facing special c = .ok () (c.setUnit
        (match special.bind ArmorHit.dented with
          | some dented => markHardenedDent c.unit facing dented
          | none => c.unit)) := by
    intro facing special c
    rcases special with _ | ⟨removed, overflow, _ | dented⟩ <;> rfl
  unfold armorStage strike
  rw [if_neg (by rw [hpacket]; exact Bool.false_ne_true), if_neg hstands,
    Update.bind_ok unit _ c c c.unit rfl]
  rw [Update.bind_ok (damagePhase b _ _ _) _ c _ _ rfl, Update.bind_ok (dentStage _ _) _ _ _ () (hdent _ _ _)]
  exact ⟨_, rfl⟩

def facingArmor (m : Mech Weapon) (facing : ArmorFacing) : Nat := (m.sections facing.place).struck facing

def setFacing (state : SectionState) (facing : ArmorFacing) (left : Nat) : SectionState :=
  if facing.rear then { state with rear := left } else { state with armor := left }

theorem setFacing_internal (state : SectionState) (facing : ArmorFacing) (left : Nat) :
    (setFacing state facing left).internal = state.internal := by
  unfold setFacing
  split <;> rfl

theorem setFacing_struck (state : SectionState) (facing : ArmorFacing) (left : Nat) :
    (setFacing state facing left).struck facing = left := by
  unfold setFacing SectionState.struck
  split <;> rfl

theorem setFacing_other (state : SectionState) (facing other : ArmorFacing) (left : Nat)
    (h : other.rear ≠ facing.rear) :
    (setFacing state facing left).struck other = state.struck other := by
  unfold setFacing SectionState.struck
  cases hrear : facing.rear <;> cases hother : other.rear <;> simp_all

theorem setFacing_again (state : SectionState) (facing : ArmorFacing) (first second : Nat) :
    setFacing (setFacing state facing first) facing second = setFacing state facing second := by
  unfold setFacing
  split <;> rfl

theorem setFacing_same (state : SectionState) (facing : ArmorFacing) :
    setFacing state facing (state.struck facing) = state := by
  unfold setFacing SectionState.struck
  split <;> rfl

theorem protection_eq : m.protection s (.Armor rear) = facingArmor m (ArmorFacing.struck s rear) := rfl

theorem dropDent_effect (n : Mech Weapon) :
    (n.dropDent s (.Armor rear)).sections = n.sections ∧
      (n.dropDent s (.Armor rear)).hardenedDents =
        if n.protection s (.Armor rear) = 0 then n.hardenedDents.erase (ArmorFacing.struck s rear)
        else n.hardenedDents := by
  unfold Mech.dropDent
  dsimp only
  split <;> exact ⟨rfl, rfl⟩

theorem damagePhase_facing (amount : Nat) (hstands : m.internal s ≠ 0) :
    (m.damagePhase d s amount (.Armor rear)).2.sections = Function.update m.sections s
        (setFacing (m.sections s) (ArmorFacing.struck s rear)
          (facingArmor m (ArmorFacing.struck s rear) - amount)) ∧
    (m.damagePhase d s amount (.Armor rear)).2.hardenedDents =
      (if amount ≠ 0 ∧ facingArmor m (ArmorFacing.struck s rear) ≤ amount then
        m.hardenedDents.erase (ArmorFacing.struck s rear) else m.hardenedDents) ∧
    (m.damagePhase d s amount (.Armor rear)).1.remaining =
      amount - facingArmor m (ArmorFacing.struck s rear) := by
  have hset : ∀ value, (m.setProtection s (.Armor rear) value).sections =
      Function.update m.sections s (setFacing (m.sections s) (ArmorFacing.struck s rear) value) :=
    fun value => rfl
  unfold Mech.damagePhase
  by_cases hnone : amount = 0
  · rw [if_pos (.inl hnone), hnone, Nat.sub_zero, if_neg (fun hboth => hboth.1 rfl)]
    refine ⟨?_, rfl, (Nat.zero_sub _).symm⟩
    have hsame := setFacing_same (m.sections s) (ArmorFacing.struck s rear)
    unfold facingArmor
    rw [show (ArmorFacing.struck s rear).place = s from rfl, hsame, Function.update_eq_self]
  · have hstruck : ¬ (amount = 0 ∨ m.internal s = 0) := not_or.mpr ⟨hnone, hstands⟩
    have hkept : ∀ n : Mech Weapon, (n.collapse d s (.Armor rear)).1 = n := by
      intro n
      simp [Mech.collapse]
    have hleft : facingArmor m (ArmorFacing.struck s rear) -
        min (facingArmor m (ArmorFacing.struck s rear)) amount =
          facingArmor m (ArmorFacing.struck s rear) - amount := by omega
    rw [if_neg hstruck]
    dsimp only
    rw [hkept, protection_eq, hleft]
    generalize hstruckUnit : m.setProtection s (.Armor rear)
      (facingArmor m (ArmorFacing.struck s rear) - amount) = n
    have hsections := (Mech.reconcileDamage_material d (n.dropDent s (.Armor rear))).sections
    have hdents := (Mech.reconcileDamage_keeps d (n.dropDent s (.Armor rear))).2.1
    obtain ⟨hdropped, hdent⟩ := dropDent_effect s rear n
    have hprotection : n.protection s (.Armor rear) =
        facingArmor m (ArmorFacing.struck s rear) - amount := by
      rw [← hstruckUnit, Mech.setProtection_protection]
    have hbefore : n.hardenedDents = m.hardenedDents := by
      rw [← hstruckUnit]
      rfl
    refine ⟨?_, ?_, by omega⟩
    · rw [hsections, hdropped, ← hstruckUnit]
      exact hset _
    · rw [hdents, hdent, hprotection, hbefore]
      by_cases hspent : facingArmor m (ArmorFacing.struck s rear) ≤ amount
      · rw [if_pos (by omega), if_pos ⟨hnone, hspent⟩]
      · rw [if_neg (by omega), if_neg (fun hboth => hspent hboth.2)]

-- One facing of a section is left with the given armor, everything else as it was.
def Left (later : Mech Weapon) (armor : Nat) : Prop :=
  later.sections = Function.update m.sections s
    (setFacing (m.sections s) (ArmorFacing.struck s rear) armor)

variable {d m s rear}

theorem Left.internal (later : Mech Weapon) (armor : Nat) (h : Left m s rear later armor) :
    later.internal s = m.internal s := by
  unfold Mech.internal
  rw [h, Function.update_self, setFacing_internal]

theorem Left.armor (later : Mech Weapon) (armor : Nat) (h : Left m s rear later armor) :
    facingArmor later (ArmorFacing.struck s rear) = armor := by
  unfold facingArmor
  rw [h, show (ArmorFacing.struck s rear).place = s from rfl, Function.update_self, setFacing_struck]

theorem Left.again (later last : Mech Weapon) (armor rest : Nat) (h : Left m s rear later armor)
    (hlast : Left later s rear last rest) : Left m s rear last rest := by
  unfold Left at h hlast ⊢
  rw [hlast, h, Function.update_self, setFacing_again, Function.update_idem]

theorem Left.other (later : Mech Weapon) (armor : Nat) (h : Left m s rear later armor)
    (facing : ArmorFacing) (hfacing : facing ≠ ArmorFacing.struck s rear) :
    facingArmor later facing = facingArmor m facing := by
  unfold facingArmor
  rw [h]
  by_cases hplace : facing.place = s
  · rw [hplace, Function.update_self, setFacing_other]
    intro hrear
    apply hfacing
    exact (ArmorFacing.mk.injEq _ _ _ _).mpr ⟨hplace, hrear⟩
  · rw [Function.update_of_ne hplace]

variable (rear) (amount more : Nat) (kind : DamageClass)

theorem strike_gone (hgone : m.internal s = 0) : strike d m s rear amount kind = (m, amount) := by
  unfold strike
  rw [if_pos hgone]

theorem strike_hardened (hhardened : d.hardenedArmor = true) (hkind : kind ≠ .ArmorPiercing)
    (hstands : m.internal s ≠ 0) (hbound : amount ≤ 65535) {hit : HardenedHit}
    (hhit : hit = hardenedHit amount (facingArmor m (ArmorFacing.struck s rear))
      (ArmorFacing.struck s rear ∈ m.hardenedDents)) :
    Left m s rear (strike d m s rear amount kind).1
        (facingArmor m (ArmorFacing.struck s rear) - hit.removed) ∧
      (strike d m s rear amount kind).1.hardenedDents =
        (if hit.dented then insert (ArmorFacing.struck s rear) m.hardenedDents
        else m.hardenedDents.erase (ArmorFacing.struck s rear)) ∧
      (strike d m s rear amount kind).2 = hit.overflow := by
  have hfair := hardenedHit_fair amount (facingArmor m (ArmorFacing.struck s rear))
    (ArmorFacing.struck s rear ∈ m.hardenedDents)
  have hdented := hardenedHit_dented amount (facingArmor m (ArmorFacing.struck s rear))
    (ArmorFacing.struck s rear ∈ m.hardenedDents)
  rw [← hhit] at hfair hdented
  have hoverflow := hfair.overflow_le
  have hspecial : armorHit d m s rear amount kind =
      some ⟨hit.removed, min hit.overflow 65535, some hit.dented⟩ := by
    unfold armorHit
    rw [if_pos hhardened, if_neg hkind, hhit]
    rfl
  obtain ⟨hsections, hdents, -⟩ := damagePhase_facing d m s rear hit.removed hstands
  unfold strike
  rw [if_neg hstands]
  rw [hspecial]
  refine ⟨hsections, ?_, by simp only [Option.map_some, Option.getD_some]; omega⟩
  show (if hit.dented then insert _ _ else Finset.erase _ _) = _
  rw [Option.map_some, Option.getD_some, hdents]
  by_cases hslash : hit.dented = true
  · have hlt := hdented hslash
    rw [if_pos hslash, if_pos hslash, if_neg (by omega)]
  · rw [if_neg hslash, if_neg hslash]
    split
    · rw [Finset.erase_idem]
    · rfl

-- Armor-piercing rounds strike hardened armor as they strike any armor.
theorem strike_piercing (hhardened : d.hardenedArmor = true) (hstands : m.internal s ≠ 0) :
    Left m s rear (strike d m s rear amount .ArmorPiercing).1
        (facingArmor m (ArmorFacing.struck s rear) - amount) ∧
      (strike d m s rear amount .ArmorPiercing).1.hardenedDents =
        (if amount ≠ 0 ∧ facingArmor m (ArmorFacing.struck s rear) ≤ amount then
          m.hardenedDents.erase (ArmorFacing.struck s rear) else m.hardenedDents) ∧
      (strike d m s rear amount .ArmorPiercing).2 =
        amount - facingArmor m (ArmorFacing.struck s rear) := by
  have hspecial : armorHit d m s rear amount .ArmorPiercing = none := by
    unfold armorHit
    rw [if_pos hhardened, if_pos rfl]
  unfold strike
  rw [if_neg hstands]
  rw [hspecial]
  exact damagePhase_facing d m s rear amount hstands

theorem marked_again (facing : ArmorFacing) (dents : Finset ArmorFacing) (first second : Bool) :
    (if second then insert facing (if first then insert facing dents else dents.erase facing)
      else (if first then insert facing dents else dents.erase facing).erase facing) =
      if second then insert facing dents else dents.erase facing := by
  ext other
  by_cases hother : other = facing
  · cases first <;> cases second <;> simp [hother]
  · cases first <;> cases second <;> simp [hother]

theorem strike_add (hhardened : d.hardenedArmor = true) (hbound : amount + more ≤ 65535)
    {first second whole : Mech Weapon × Nat} (hfirst : first = strike d m s rear amount kind)
    (hsecond : second = strike d first.1 s rear more kind)
    (hwhole : whole = strike d m s rear (amount + more) kind) :
    second.1.sections = whole.1.sections ∧ second.1.hardenedDents = whole.1.hardenedDents ∧
      first.2 + second.2 = whole.2 := by
  by_cases hgone : m.internal s = 0
  · rw [strike_gone rear amount kind hgone] at hfirst
    rw [strike_gone rear (amount + more) kind hgone] at hwhole
    subst hfirst hwhole
    rw [strike_gone rear more kind hgone] at hsecond
    subst hsecond
    exact ⟨rfl, rfl, rfl⟩
  by_cases hkind : kind = .ArmorPiercing
  · subst hkind
    obtain ⟨hfirstLeft, hfirstDents, hfirstOver⟩ :=
      strike_piercing rear amount hhardened hgone
    obtain ⟨hwholeLeft, hwholeDents, hwholeOver⟩ :=
      strike_piercing rear (amount + more) hhardened hgone
    rw [← hfirst] at hfirstLeft hfirstDents hfirstOver
    rw [← hwhole] at hwholeLeft hwholeDents hwholeOver
    have hstands : first.1.internal s ≠ 0 := by rw [hfirstLeft.internal]; exact hgone
    obtain ⟨hsecondLeft, hsecondDents, hsecondOver⟩ :=
      strike_piercing rear more hhardened hstands
    rw [← hsecond] at hsecondLeft hsecondDents hsecondOver
    rw [hfirstLeft.armor] at hsecondLeft hsecondDents hsecondOver
    have hboth := hfirstLeft.again _ _ _ _ hsecondLeft
    refine ⟨?_, ?_, by omega⟩
    · rw [hboth, hwholeLeft]
      congr 2
      omega
    · rw [hsecondDents, hwholeDents, hfirstDents]
      by_cases hwhole : amount + more ≠ 0 ∧
          facingArmor m (ArmorFacing.struck s rear) ≤ amount + more
      · rw [if_pos hwhole]
        split_ifs with hmore hamount
        · exact Finset.erase_idem
        · rfl
        · rfl
        · omega
      · rw [if_neg hwhole, if_neg (by omega), if_neg (by omega)]
  · obtain ⟨hfirstLeft, hfirstDents, hfirstOver⟩ :=
      strike_hardened rear amount kind hhardened hkind hgone (by omega) rfl
    obtain ⟨hwholeLeft, hwholeDents, hwholeOver⟩ :=
      strike_hardened rear (amount + more) kind hhardened hkind hgone hbound rfl
    rw [← hfirst] at hfirstLeft hfirstDents hfirstOver
    rw [← hwhole] at hwholeLeft hwholeDents hwholeOver
    have hstands : first.1.internal s ≠ 0 := by rw [hfirstLeft.internal]; exact hgone
    obtain ⟨hsecondLeft, hsecondDents, hsecondOver⟩ :=
      strike_hardened rear more kind hhardened hkind hstands (by omega) rfl
    rw [← hsecond] at hsecondLeft hsecondDents hsecondOver
    generalize hhit : hardenedHit amount (facingArmor m (ArmorFacing.struck s rear))
      (ArmorFacing.struck s rear ∈ m.hardenedDents) = hit at *
    have hslashed : decide (ArmorFacing.struck s rear ∈ first.1.hardenedDents) = hit.dented := by
      rw [hfirstDents]
      cases hit.dented <;> simp
    rw [hfirstLeft.armor, hslashed] at hsecondLeft hsecondDents hsecondOver
    obtain ⟨hremoved, hoverflow, hdented⟩ := hardenedHit_add amount more
      (facingArmor m (ArmorFacing.struck s rear)) (ArmorFacing.struck s rear ∈ m.hardenedDents)
      hhit.symm rfl rfl
    have hboth := hfirstLeft.again _ _ _ _ hsecondLeft
    refine ⟨?_, ?_, by omega⟩
    · rw [hboth, hwholeLeft]
      congr 2
      omega
    · rw [hsecondDents, hwholeDents, hfirstDents, ← hdented, marked_again]

end Strikes

section Dents

def Backed (m : Mech Weapon) : Prop := ∀ facing ∈ m.hardenedDents, 0 < facingArmor m facing

variable (d : Design Weapon) {m : Mech Weapon} {s : MechSection} {rear : Bool}

theorem Backed.left (h : Backed m) (later : Mech Weapon) (armor : Nat)
    (hleft : Left m s rear later armor)
    (hdents : ∀ facing ∈ later.hardenedDents, facing ≠ ArmorFacing.struck s rear →
      facing ∈ m.hardenedDents)
    (hstruck : ArmorFacing.struck s rear ∈ later.hardenedDents → 0 < armor) : Backed later := by
  intro facing hfacing
  by_cases hsame : facing = ArmorFacing.struck s rear
  · rw [hsame, hleft.armor]
    exact hstruck (hsame ▸ hfacing)
  · rw [hleft.other _ _ facing hsame]
    exact h facing (hdents facing hfacing hsame)

theorem Backed.armorPhase (h : Backed m) (amount : Nat) (hstands : m.internal s ≠ 0) :
    Backed (m.damagePhase d s amount (.Armor rear)).2 := by
  obtain ⟨hleft, hdents, -⟩ := damagePhase_facing d m s rear amount hstands
  apply h.left _ _ hleft
  · intro facing hfacing hother
    rw [hdents] at hfacing
    split at hfacing
    · exact Finset.mem_of_mem_erase hfacing
    · exact hfacing
  · intro hslashed
    rw [hdents] at hslashed
    split at hslashed
    next => exact absurd hslashed (Finset.notMem_erase _ _)
    next hkept =>
      have hpos := h _ hslashed
      omega

theorem clearSection_backed (h : Backed m) : Backed (m.clearSection d s) := by
  intro facing hfacing
  obtain ⟨hold, hplace⟩ := Finset.mem_filter.mp hfacing
  have hpos := h facing hold
  unfold facingArmor Mech.clearSection at *
  dsimp only
  rw [Function.update_of_ne hplace]
  exact hpos

theorem clearDestroyedSection_backed (h : Backed m) : Backed (m.clearDestroyedSection d s).1 := by
  have hcleared := clearSection_backed (s := s) d h
  unfold Mech.clearDestroyedSection
  dsimp only
  split
  · exact hcleared
  · split
    · exact clearSection_backed d hcleared
    · exact hcleared

theorem Backed.internalPhase (h : Backed m) (amount : Nat) :
    Backed (m.damagePhase d s amount .Internal).2 := by
  unfold Mech.damagePhase
  split
  · exact h
  · dsimp only
    generalize m.protection s .Internal - min (m.protection s .Internal) amount = value
    have hset : Backed ((m.setProtection s .Internal value).dropDent s .Internal) := by
      intro facing hfacing
      have hpos := h facing hfacing
      show 0 < (Function.update m.sections s { m.sections s with internal := value }
        facing.place).struck facing
      by_cases hplace : facing.place = s
      · rw [hplace, Function.update_self]
        unfold facingArmor at hpos
        rw [hplace] at hpos
        exact hpos
      · rw [Function.update_of_ne hplace]
        exact hpos
    generalize (m.setProtection s .Internal value).dropDent s .Internal = struck at hset
    have hcollapsed : Backed (struck.collapse d s .Internal).1 := by
      unfold Mech.collapse
      split
      · exact clearDestroyedSection_backed d hset
      · exact hset
    intro facing hfacing
    rw [(Mech.reconcileDamage_keeps d _).2.1] at hfacing
    unfold facingArmor
    rw [(Mech.reconcileDamage_material d _).sections]
    exact hcollapsed facing hfacing

theorem Backed.phase (h : Backed m) (amount : Nat) (phase : DamagePhase) :
    Backed (m.damagePhase d s amount phase).2 := by
  cases phase with
  | Internal => exact h.internalPhase d amount
  | Armor rear =>
      by_cases hgone : m.internal s = 0
      · unfold Mech.damagePhase
        rw [if_pos (.inr hgone)]
        exact h
      · exact h.armorPhase d amount hgone

theorem strike_dented {amount : Nat} {kind : DamageClass} (hhardened : d.hardenedArmor = true)
    (hkind : kind ≠ .ArmorPiercing) (hstands : m.internal s ≠ 0) (hbound : amount ≤ 65535)
    (h : ArmorFacing.struck s rear ∈ (strike d m s rear amount kind).1.hardenedDents) :
    0 < facingArmor (strike d m s rear amount kind).1 (ArmorFacing.struck s rear) := by
  obtain ⟨hleft, hdents, -⟩ :=
    strike_hardened rear amount kind hhardened hkind hstands hbound rfl
  have hdented := hardenedHit_dented amount (facingArmor m (ArmorFacing.struck s rear))
    (ArmorFacing.struck s rear ∈ m.hardenedDents)
  rw [hleft.armor]
  rw [hdents] at h
  split at h
  next hslash =>
    have hlt := hdented hslash
    omega
  next => exact absurd h (Finset.notMem_erase _ _)

theorem Backed.strike (h : Backed m) (amount : Nat) (kind : DamageClass) (hbound : amount ≤ 65535) :
    Backed (Impact.strike d m s rear amount kind).1 := by
  by_cases hgone : m.internal s = 0
  · rw [strike_gone rear amount kind hgone]
    exact h
  by_cases hslashing : d.hardenedArmor = true ∧ kind ≠ .ArmorPiercing
  · obtain ⟨hleft, hdents, -⟩ :=
      strike_hardened rear amount kind hslashing.1 hslashing.2 hgone hbound rfl
    apply h.left _ _ hleft
    · intro facing hfacing hother
      rw [hdents] at hfacing
      split at hfacing
      · exact (Finset.mem_insert.mp hfacing).resolve_left hother
      · exact Finset.mem_of_mem_erase hfacing
    · intro hslashed
      have hpos := strike_dented d hslashing.1 hslashing.2 hgone hbound hslashed
      rwa [hleft.armor] at hpos
  · have hplain : (armorHit d m s rear amount kind).bind ArmorHit.dented = none := by
      unfold armorHit
      dsimp only
      split
      next hhardened =>
        rw [if_pos (not_not.mp (not_and.mp hslashing hhardened))]
        rfl
      next =>
        split
        · rfl
        · cases reflectiveHit kind amount ((m.sections s).struck (ArmorFacing.struck s rear)) <;> rfl
    unfold Impact.strike
    rw [if_neg hgone]
    dsimp only
    rw [hplain]
    exact h.armorPhase d _ hgone

end Dents

section Bounds

variable (d : Design Weapon) (m : Mech Weapon) (s : MechSection) (rear : Bool) (amount : Nat)
  (kind : DamageClass)

theorem armorHit_fair {hit : ArmorHit} (h : armorHit d m s rear amount kind = some hit) :
    Fair amount (facingArmor m (ArmorFacing.struck s rear)) hit.removed hit.overflow := by
  unfold armorHit at h
  split at h
  · split at h
    · contradiction
    · cases h
      have hfair := hardenedHit_fair amount (facingArmor m (ArmorFacing.struck s rear))
        (ArmorFacing.struck s rear ∈ m.hardenedDents)
      exact ⟨hfair.removed_le, fun hpos => hfair.stripped (Nat.lt_of_lt_of_le hpos (Nat.min_le_left _ _)),
        Nat.le_trans (Nat.min_le_left _ _) hfair.overflow_le⟩
  · split at h
    · contradiction
    · obtain ⟨pair, hpair, rfl⟩ := Option.map_eq_some_iff.mp h
      have hfair := reflectiveHit_fair amount _ hpair
      exact ⟨hfair.removed_le, fun hpos => hfair.stripped (Nat.lt_of_lt_of_le hpos (Nat.min_le_left _ _)),
        Nat.le_trans (Nat.min_le_left _ _) hfair.overflow_le⟩

theorem strike_stripped (hstands : m.internal s ≠ 0) (h : 0 < (strike d m s rear amount kind).2) :
    facingArmor (strike d m s rear amount kind).1 (ArmorFacing.struck s rear) = 0 := by
  have hmarked : ∀ (n : Mech Weapon) (dented : Option Bool),
      (match dented with
        | some dented => markHardenedDent n (ArmorFacing.struck s rear) dented
        | none => n).sections = n.sections := by
    intro n dented
    cases dented <;> rfl
  unfold strike at h ⊢
  rw [if_neg hstands] at h ⊢
  dsimp only at h ⊢
  unfold facingArmor
  rw [hmarked]
  cases hspecial : armorHit d m s rear amount kind with
  | none =>
      rw [hspecial] at h
      obtain ⟨hleft, -, hremaining⟩ := damagePhase_facing d m s rear amount hstands
      have harmor := Left.armor _ _ hleft
      rw [Option.map_none, Option.getD_none, Option.map_none, Option.getD_none, hremaining] at h
      rw [Option.map_none, Option.getD_none]
      unfold facingArmor at harmor h
      rw [harmor]
      omega
  | some hit =>
      rw [hspecial] at h
      have hfair := armorHit_fair d m s rear amount kind hspecial
      obtain ⟨hleft, -, -⟩ := damagePhase_facing d m s rear hit.removed hstands
      have harmor := Left.armor _ _ hleft
      have hremoved := hfair.stripped h
      rw [Option.map_some, Option.getD_some]
      unfold facingArmor at harmor hremoved
      rw [harmor]
      omega

theorem damagePhase_absorbed (phase : DamagePhase) :
    (m.damagePhase d s amount phase).1.absorbed ≤ m.protection s phase ∧
      (m.damagePhase d s amount phase).1.absorbed ≤ amount := by
  unfold Mech.damagePhase
  split
  · exact ⟨Nat.zero_le _, Nat.zero_le _⟩
  · exact ⟨Nat.min_le_left _ _, Nat.min_le_right _ _⟩

end Bounds

theorem hardened_exact (d : Design Weapon) (m : Mech Weapon) (s : MechSection) (rear : Bool) :
    (d.hardenedArmor = true → ∀ (amount more : Nat) (kind : DamageClass), amount + more ≤ 65535 →
      (strike d (strike d m s rear amount kind).1 s rear more kind).1.sections =
          (strike d m s rear (amount + more) kind).1.sections ∧
        (strike d (strike d m s rear amount kind).1 s rear more kind).1.hardenedDents =
          (strike d m s rear (amount + more) kind).1.hardenedDents ∧
        (strike d m s rear amount kind).2 +
            (strike d (strike d m s rear amount kind).1 s rear more kind).2 =
          (strike d m s rear (amount + more) kind).2) ∧
    (d.hardenedArmor = true → ∀ (amount : Nat) (kind : DamageClass), kind ≠ .ArmorPiercing →
      m.internal s ≠ 0 → amount ≤ 65535 →
      ArmorFacing.struck s rear ∈ (strike d m s rear amount kind).1.hardenedDents →
      0 < facingArmor (strike d m s rear amount kind).1 (ArmorFacing.struck s rear)) ∧
    (Backed m → ∀ (amount : Nat) (kind : DamageClass) (phase : DamagePhase), amount ≤ 65535 →
      Backed (strike d m s rear amount kind).1 ∧ Backed (m.damagePhase d s amount phase).2) ∧
    (∀ (amount : Nat) (kind : DamageClass) (hit : ArmorHit),
      armorHit d m s rear amount kind = some hit →
      hit.removed ≤ facingArmor m (ArmorFacing.struck s rear) ∧ hit.overflow ≤ amount ∧
        (0 < hit.overflow → hit.removed = facingArmor m (ArmorFacing.struck s rear))) ∧
    (∀ (amount : Nat) (kind : DamageClass), m.internal s ≠ 0 →
      0 < (strike d m s rear amount kind).2 →
      facingArmor (strike d m s rear amount kind).1 (ArmorFacing.struck s rear) = 0) ∧
    (∀ (amount armor : Nat) (dented : Bool) (kind : DamageClass) (phase : DamagePhase),
      hardenedHitChecked amount armor dented = some (hardenedHit amount armor dented) ∧
        reflectiveHitChecked kind amount armor = some (reflectiveHit kind amount armor) ∧
        (m.damagePhase d s amount phase).1.absorbed ≤ m.protection s phase ∧
        (m.damagePhase d s amount phase).1.absorbed ≤ amount) := by
  refine ⟨?_, ?_, ?_, ?_, ?_, ?_⟩
  · intro hhardened amount more kind hbound
    exact strike_add rear amount more kind hhardened hbound rfl rfl rfl
  · intro hhardened amount kind hkind hstands hbound h
    exact strike_dented d hhardened hkind hstands hbound h
  · intro h amount kind phase hbound
    exact ⟨h.strike d amount kind hbound, h.phase d amount phase⟩
  · intro amount kind hit h
    have hfair := armorHit_fair d m s rear amount kind h
    exact ⟨hfair.removed_le, hfair.overflow_le, hfair.stripped⟩
  · intro amount kind hstands h
    exact strike_stripped d m s rear amount kind hstands h
  · intro amount armor dented kind phase
    exact ⟨hardenedHit_checked amount armor dented, reflectiveHit_checked amount armor kind,
      damagePhase_absorbed d m s amount phase⟩

def plated : Design Unit := { trainer with specials := ["HARM".toList] }

-- Two points and nine more on a dented rear facing do what eleven do: after the first blow the
-- facing is still dented and armored, and four points get through.
theorem hardened_exact_dented :
    let first := strike plated trainee .LeftTorso true 2 .Ordinary
    let second := strike plated first.1 .LeftTorso true 9 .Ordinary
    let whole := strike plated trainee .LeftTorso true 11 .Ordinary
    (⟨.LeftTorso, true⟩ ∈ first.1.hardenedDents ∧ 0 < facingArmor first.1 ⟨.LeftTorso, true⟩) ∧
      (second.1.sections = whole.1.sections ∧ second.1.hardenedDents = whole.1.hardenedDents) ∧
      first.2 + second.2 = 4 ∧ facingArmor whole.1 ⟨.LeftTorso, true⟩ = 0 ∧ Backed whole.1 := by
  intro first second whole
  obtain ⟨hadd, hdented, hbacked, -, hstripped, -⟩ := hardened_exact plated trainee .LeftTorso true
  obtain ⟨hsections, hdents, hthrough⟩ := hadd (by decide) 2 9 .Ordinary (by decide)
  have hdent : ArmorFacing.struck .LeftTorso true ∈ first.1.hardenedDents := by decide
  have hbacks : Backed trainee := by
    intro facing hfacing
    rw [Finset.mem_singleton.mp hfacing]
    decide
  refine ⟨⟨hdent, hdented (by decide) 2 .Ordinary (by decide) (by decide) (by decide) hdent⟩,
    ⟨hsections, hdents⟩, hthrough.trans (by decide), ?_, ?_⟩
  · exact hstripped 11 .Ordinary (by decide) (by decide)
  · exact (hbacked hbacks 11 .Ordinary (.Armor true) (by decide)).1

end StompyMux.Impact
