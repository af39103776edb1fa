import StompyMux.Btech.Wear

-- The ammunition bins and explosive weapons a unit can still set off.
namespace StompyMux.Btech

inductive Component
  | Weapon (index : Nat)
  | Bin (index : Nat)
  deriving DecidableEq

def CriticalLoss.component : CriticalLoss → Option Component
  | .Weapon index _ => some (.Weapon index)
  | .Ammunition index _ _ => some (.Bin index)
  | .System _ => none

theorem CriticalLoss.component_none {loss : CriticalLoss} (h : loss.component = none) :
    explosionDamage loss = 0 := by
  cases loss with
  | Weapon index damage => contradiction
  | Ammunition index rounds damage => contradiction
  | System system => rfl

variable {Weapon : Type} (d : Design Weapon)

def Component.Holds (location : CriticalLocation) : Component → Prop
  | .Weapon index => ∃ mount, d.loadout.weapons[index]? = some mount ∧ location ∈ mount.criticals
  | .Bin index => ∃ bin, d.loadout.ammunition[index]? = some bin ∧ bin.location = location

namespace Mech

-- A hot-loaded launcher has rounds in its selected supply, or in the plain one it falls back
-- to without its controller.
def HotLoaded [DecidableEq Weapon] (m : Mech Weapon) (index : Nat) (weapon : Weapon) : Prop :=
  m.fireModes index = .Hotload ∧ ∃ mode,
    (mode = m.ammunitionModes index ∨ mode = (m.ammunitionModes index).withMunition .Normal) ∧
      m.hotloadSupply d weapon (d.catalog.hotloadSupplyMode weapon mode)

def Charged [DecidableEq Weapon] (m : Mech Weapon) (index : Nat) (weapon : Weapon) : Prop :=
  0 < d.catalog.weaponExplosionDamage weapon ∨ d.catalog.isBPod weapon ∨
    (d.catalog.isRotary weapon ∧ m.weaponJammed index) ∨ m.HotLoaded d index weapon

def Primed [DecidableEq Weapon] (m : Mech Weapon) : Component → Prop
  | .Weapon index => ∃ mount, d.loadout.weapons[index]? = some mount ∧ m.weaponIntact d index ∧
      ¬ m.explosionDisabled index ∧ m.Charged d index mount.weapon
  | .Bin index => ∃ bin, d.loadout.ammunition[index]? = some bin ∧
      ¬ m.criticalDestroyed bin.location ∧ 0 < m.ammunition index

variable [DecidableEq Weapon] (m n : Mech Weapon)

theorem hotloadSupply_iff (weapon : Weapon) (mode : AmmunitionMode) :
    m.hotloadSupply d weapon mode ↔ ∃ i bin, d.loadout.ammunition[i]? = some bin ∧
      bin.weapon = weapon ∧ bin.mode = mode ∧ 0 < m.ammunition i ∧
        ¬ m.criticalUnavailable bin.location := by
  unfold hotloadSupply
  rw [List.any_eq_true]
  constructor
  · rintro ⟨i, -, hi⟩
    cases hbin : d.loadout.ammunition[i]? with
    | none => simp [hbin] at hi
    | some bin =>
        simp only [hbin, Option.any_some, Bool.and_eq_true, decide_eq_true_eq,
          Bool.not_eq_true'] at hi
        exact ⟨i, bin, hbin, hi.1.1.1, hi.1.1.2, hi.1.2, by simp [hi.2]⟩
  · rintro ⟨i, bin, hbin, hweapon, hmode, hrounds, havailable⟩
    have hlt : i < d.loadout.ammunition.length := (List.getElem?_eq_some_iff.mp hbin).1
    refine ⟨i, List.mem_range.mpr hlt, ?_⟩
    rw [hbin]
    simp [hweapon, hmode, hrounds, havailable]

section

variable (h : Worn d m n)

include h

omit [DecidableEq Weapon] in
theorem Worn.destroyed (location : CriticalLocation) (hd : m.criticalDestroyed location) :
    n.criticalDestroyed location := by
  rw [criticalDestroyed_iff] at hd ⊢
  rcases hd with hlost | hzero
  · exact Or.inl (h.lost hlost)
  · have hle := h.internal location.place
    exact Or.inr (by omega)

theorem Worn.supply {weapon : Weapon} {mode : AmmunitionMode}
    (hs : n.hotloadSupply d weapon mode) : m.hotloadSupply d weapon mode := by
  rw [hotloadSupply_iff] at hs ⊢
  obtain ⟨i, bin, hbin, hweapon, hmode, hrounds, havailable⟩ := hs
  have hle := h.ammunition i
  exact ⟨i, bin, hbin, hweapon, hmode, by omega,
    fun hu => havailable (h.unavailable d m n bin.location hu)⟩

theorem Worn.hotLoaded {index : Nat} {weapon : Weapon} (hl : n.HotLoaded d index weapon) :
    m.HotLoaded d index weapon := by
  obtain ⟨hfire, mode, hmode, hsupply⟩ := hl
  refine ⟨by rwa [h.fire] at hfire, mode, ?_, h.supply d m n hsupply⟩
  rcases h.modes index with hsame | hfallback
  · rwa [hsame] at hmode
  · rw [hfallback, AmmunitionMode.withMunition_normal, or_self] at hmode
    exact Or.inr hmode

theorem Worn.charged {index : Nat} {weapon : Weapon} (hi : n.weaponIntact d index)
    (hc : n.Charged d index weapon) : m.Charged d index weapon := by
  rcases hc with hgauss | hpod | ⟨hrotary, hjammed⟩ | hloaded
  · exact Or.inl hgauss
  · exact Or.inr (Or.inl hpod)
  · refine Or.inr (Or.inr (Or.inl ⟨hrotary, ?_⟩))
    rwa [weaponJammed, h.jammed, h.failures index hi, ← weaponJammed] at hjammed
  · exact Or.inr (Or.inr (Or.inr (h.hotLoaded d m n hloaded)))

theorem Worn.primed (c : Component) (hp : n.Primed d c) : m.Primed d c := by
  cases c with
  | Weapon index =>
      obtain ⟨mount, hmount, hintact, henabled, hcharged⟩ := hp
      refine ⟨mount, hmount, h.intact d m n index hintact, ?_,
        h.charged d m n hintact hcharged⟩
      rwa [explosionDisabled, h.powered, h.failures index hintact, ← explosionDisabled] at henabled
  | Bin index =>
      obtain ⟨bin, hbin, hintact, hrounds⟩ := hp
      have hle := h.ammunition index
      exact ⟨bin, hbin, fun hd => hintact (h.destroyed d m n bin.location hd), by omega⟩

end

theorem charged_of_explosion {index : Nat} {weapon : Weapon}
    (h : 0 < m.weaponExplosion d index weapon) :
    m.weaponIntact d index ∧ ¬ m.explosionDisabled index ∧ m.Charged d index weapon := by
  unfold weaponExplosion at h
  split at h
  · rename_i hready
    rw [Bool.and_eq_true, Bool.not_eq_true'] at hready
    refine ⟨hready.1, by simp [hready.2], ?_⟩
    dsimp only at h
    split at h
    · rename_i hhot
      exact Or.inr (Or.inr (Or.inr ⟨hhot.1, _, Or.inl rfl, hhot.2⟩))
    · split at h
      · rename_i hjam
        have hrotary : d.catalog.isRotary weapon := by
          by_contra hno
          simp [Catalog.jammedExplosionDamage, hno] at hjam
        exact Or.inr (Or.inr (Or.inl ⟨hrotary, hjam.2⟩))
      · split at h
        · rename_i hpod
          exact Or.inr (Or.inl hpod)
        · exact Or.inl h
  · exact absurd h (Nat.lt_irrefl 0)

theorem primed_of_loss {location : CriticalLocation} {loss : CriticalLoss}
    (hl : LossAt d m location loss) (hi : ¬ m.criticalDestroyed location)
    (he : explosionDamage loss ≠ 0) :
    ∃ c, loss.component = some c ∧ c.Holds d location ∧ m.Primed d c := by
  cases hl with
  | Weapon index mount hm hlocation =>
      obtain ⟨hintact, henabled, hcharged⟩ :=
        charged_of_explosion d m (Nat.pos_of_ne_zero he)
      exact ⟨.Weapon index, rfl, ⟨mount, hm, hlocation⟩, mount, hm, hintact, henabled, hcharged⟩
  | Ammunition index bin hb hlocation =>
      have hrounds := d.catalog.ammunitionExplosionDamage_pos (Nat.pos_of_ne_zero he)
      exact ⟨.Bin index, rfl, ⟨bin, hb, hlocation⟩, bin, hb, by rwa [hlocation], hrounds⟩
  | System part hp hlocation => exact absurd rfl he

theorem not_primed_of_destroyed {location : CriticalLocation} {c : Component}
    (hc : c.Holds d location) (hd : m.criticalDestroyed location) : ¬ m.Primed d c := by
  intro hp
  cases c with
  | Weapon index =>
      obtain ⟨mount, hmount, hlocation⟩ := hc
      obtain ⟨-, -, hintact, -, -⟩ := hp
      obtain ⟨other, hother, hslots⟩ := (weaponIntact_iff d m index).mp hintact
      rw [hmount] at hother
      rw [← Option.some.inj hother] at hslots
      exact hslots location hlocation (by rw [criticalUnavailable, hd, Bool.true_or])
  | Bin index =>
      obtain ⟨bin, hbin, hlocation⟩ := hc
      obtain ⟨other, hother, hintact, -⟩ := hp
      rw [hbin] at hother
      rw [← Option.some.inj hother, hlocation] at hintact
      exact hintact hd

-- What a slot's loss sets off can be set off no more.
theorem Loss.not_primed {location : CriticalLocation} {loss : CriticalLoss} {c : Component}
    (h : Loss d m n location loss) (hc : c.Holds d location) : ¬ n.Primed d c := by
  apply not_primed_of_destroyed d n hc
  exact (criticalDestroyed_iff n location).mpr (Or.inl (h.lost d m n location loss))

end Mech

end StompyMux.Btech
