import Mathlib.Data.Finset.Union
import StompyMux.Btech.Unit
import StompyMux.Library.Spending

-- Damage only takes away.
namespace StompyMux.Btech

open Library

namespace Mech

variable {Weapon : Type} (d : Design Weapon)

-- One unit is the other, further worn.
structure Worn (m n : Mech Weapon) : Prop where
  lost : m.lostCriticals ⊆ n.lostCriticals
  internal : ∀ s, n.internal s ≤ m.internal s
  disabled : ∀ s, m.sectionDisabled s → n.sectionDisabled s ∨ n.internal s = 0
  ammunition : ∀ i, n.ammunition i ≤ m.ammunition i
  failures : ∀ i, n.weaponIntact d i → n.weaponFailures i = m.weaponFailures i
  jammed : n.jammedWeapons = m.jammedWeapons
  powered : n.poweredDownWeapons = m.poweredDownWeapons
  fire : n.fireModes = m.fireModes
  modes : ∀ i, n.ammunitionModes i = m.ammunitionModes i ∨
    n.ammunitionModes i = (m.ammunitionModes i).withMunition .Normal
  safe : n.combatSafe = m.combatSafe
  cocoon : m.cocoon = none → n.cocoon = none

theorem Worn.refl (m : Mech Weapon) : Worn d m m where
  lost := Finset.Subset.refl _
  internal := fun _ => Nat.le_refl _
  disabled := fun _ h => Or.inl h
  ammunition := fun _ => Nat.le_refl _
  failures := fun _ _ => rfl
  jammed := rfl
  powered := rfl
  fire := rfl
  modes := fun _ => Or.inl rfl
  safe := rfl
  cocoon := id

variable (m : Mech Weapon) (s : MechSection) (location : CriticalLocation) (loss : CriticalLoss)
  (amount : Nat) (phase : DamagePhase) (index : Nat) (value : Nat)

theorem criticalUnavailable_iff : m.criticalUnavailable location ↔
      location ∈ m.lostCriticals ∨ m.internal location.place = 0 ∨
        m.sectionDisabled location.place := by
  simp [criticalUnavailable, criticalDestroyed, or_assoc]

theorem criticalDestroyed_iff :
    m.criticalDestroyed location ↔ location ∈ m.lostCriticals ∨ m.internal location.place = 0 := by
  simp [criticalDestroyed]

section

variable (m n o : Mech Weapon)

theorem Worn.unavailable (h : Worn d m n) (location : CriticalLocation)
    (hu : m.criticalUnavailable location) : n.criticalUnavailable location := by
  rw [criticalUnavailable_iff] at hu ⊢
  rcases hu with hlost | hzero | hdisabled
  · exact Or.inl (h.lost hlost)
  · have hle := h.internal location.place
    exact Or.inr (Or.inl (by omega))
  · rcases h.disabled location.place hdisabled with hdisabled | hzero
    · exact Or.inr (Or.inr hdisabled)
    · exact Or.inr (Or.inl hzero)

theorem weaponIntact_iff (index : Nat) :
    m.weaponIntact d index ↔ ∃ mount, d.loadout.weapons[index]? = some mount ∧
      ∀ location ∈ mount.criticals, ¬ m.criticalUnavailable location := by
  unfold weaponIntact
  cases d.loadout.weapons[index]? with
  | none => simp
  | some mount => simp

theorem Worn.intact (h : Worn d m n) (index : Nat) (hi : n.weaponIntact d index) :
    m.weaponIntact d index := by
  rw [weaponIntact_iff] at hi ⊢
  obtain ⟨mount, hmount, hslots⟩ := hi
  refine ⟨mount, hmount, ?_⟩
  intro location hlocation hunavailable
  exact hslots location hlocation (h.unavailable d m n location hunavailable)

theorem Worn.trans (h : Worn d m n) (h' : Worn d n o) : Worn d m o where
  lost := h.lost.trans h'.lost
  internal := fun s => (h'.internal s).trans (h.internal s)
  disabled := by
    intro s hs
    rcases h.disabled s hs with hdisabled | hzero
    · exact h'.disabled s hdisabled
    · have hle := h'.internal s
      exact Or.inr (by omega)
  ammunition := fun i => (h'.ammunition i).trans (h.ammunition i)
  failures := fun i hi => (h'.failures i hi).trans (h.failures i (h'.intact d n o i hi))
  jammed := h'.jammed.trans h.jammed
  powered := h'.powered.trans h.powered
  fire := h'.fire.trans h.fire
  modes := by
    intro i
    rcases h'.modes i with hsame | hfallback
    · rw [hsame]
      exact h.modes i
    · rcases h.modes i with hmode | hmode
      · exact Or.inr (by rw [hfallback, hmode])
      · exact Or.inr (by rw [hfallback, hmode, AmmunitionMode.withMunition_normal])
  safe := h'.safe.trans h.safe
  cocoon := fun hm => h'.cocoon (h.cocoon hm)

end

-- Wear of a unit that keeps its failures, its modes and its switches.
structure Frame (m n : Mech Weapon) : Prop where
  failures : n.weaponFailures = m.weaponFailures
  jammed : n.jammedWeapons = m.jammedWeapons
  powered : n.poweredDownWeapons = m.poweredDownWeapons
  fire : n.fireModes = m.fireModes
  modes : n.ammunitionModes = m.ammunitionModes
  safe : n.combatSafe = m.combatSafe
  cocoon : n.cocoon = m.cocoon

theorem Worn.ofFrame {m n : Mech Weapon} (hf : Frame m n)
    (hlost : m.lostCriticals ⊆ n.lostCriticals) (hinternal : ∀ s, n.internal s ≤ m.internal s)
    (hdisabled : ∀ s, m.sectionDisabled s → n.sectionDisabled s ∨ n.internal s = 0)
    (hammunition : ∀ i, n.ammunition i ≤ m.ammunition i) : Worn d m n where
  lost := hlost
  internal := hinternal
  disabled := hdisabled
  ammunition := hammunition
  failures := fun i _ => congrFun hf.failures i
  jammed := hf.jammed
  powered := hf.powered
  fire := hf.fire
  modes := fun i => Or.inl (congrFun hf.modes i)
  safe := hf.safe
  cocoon := fun hm => hf.cocoon.trans hm

-- Reconciling touches no material.
structure SameMaterial (m n : Mech Weapon) : Prop where
  sections : n.sections = m.sections
  lost : n.lostCriticals = m.lostCriticals
  flooded : n.floodedSections = m.floodedSections
  breached : n.breachedSections = m.breachedSections
  ammunition : n.ammunition = m.ammunition

theorem reconcileDamage_material : SameMaterial m (m.reconcileDamage d) := by
  unfold reconcileDamage
  dsimp only
  split
  · exact ⟨rfl, rfl, rfl, rfl, rfl⟩
  · exact ⟨rfl, rfl, rfl, rfl, rfl⟩

section

variable (m n : Mech Weapon)

theorem SameMaterial.internal (h : SameMaterial m n) (s : MechSection) :
    n.internal s = m.internal s := by
  rw [Mech.internal, h.sections, ← Mech.internal]

theorem SameMaterial.disabled (h : SameMaterial m n) (s : MechSection) :
    n.sectionDisabled s = m.sectionDisabled s := by
  rw [sectionDisabled, h.flooded, h.breached, ← sectionDisabled]

theorem SameMaterial.unavailable (h : SameMaterial m n) (location : CriticalLocation) :
    n.criticalUnavailable location = m.criticalUnavailable location := by
  rw [criticalUnavailable, criticalDestroyed, h.lost, h.internal, h.disabled, ← criticalDestroyed,
    ← criticalUnavailable]

theorem SameMaterial.intact (h : SameMaterial m n) (index : Nat) :
    n.weaponIntact d index = m.weaponIntact d index := by
  simp only [weaponIntact, h.unavailable m n]

end

theorem reconcileDamage_failures : (m.reconcileDamage d).weaponFailures index =
      if m.weaponIntact d index then m.weaponFailures index else none := by
  unfold reconcileDamage
  dsimp only
  split <;> rfl

theorem reconcileDamage_worn : Worn d m (m.reconcileDamage d) := by
  have hmaterial := reconcileDamage_material d m
  have hfailures : ∀ i, (m.reconcileDamage d).weaponIntact d i →
      (m.reconcileDamage d).weaponFailures i = m.weaponFailures i := by
    intro i hi
    rw [hmaterial.intact d m _ i] at hi
    rw [reconcileDamage_failures, if_pos hi]
  have hswitches : (m.reconcileDamage d).jammedWeapons = m.jammedWeapons ∧
      (m.reconcileDamage d).poweredDownWeapons = m.poweredDownWeapons ∧
      (m.reconcileDamage d).fireModes = m.fireModes ∧
      (m.reconcileDamage d).ammunitionModes = m.ammunitionModes ∧
      (m.reconcileDamage d).combatSafe = m.combatSafe ∧
      (m.reconcileDamage d).cocoon = m.cocoon := by
    unfold reconcileDamage
    dsimp only
    split <;> exact ⟨rfl, rfl, rfl, rfl, rfl, rfl⟩
  obtain ⟨hjammed, hpowered, hfire, hmodes, hsafe, hcocoon⟩ := hswitches
  exact {
    lost := hmaterial.lost ▸ Finset.Subset.refl _
    internal := fun s => Nat.le_of_eq (hmaterial.internal m _ s)
    disabled := fun s hs => Or.inl (by rwa [hmaterial.disabled m _ s])
    ammunition := fun i => Nat.le_of_eq (congrFun hmaterial.ammunition i)
    failures := hfailures
    jammed := hjammed
    powered := hpowered
    fire := hfire
    modes := fun i => Or.inl (congrFun hmodes i)
    safe := hsafe
    cocoon := fun hm => hcocoon.trans hm }

theorem emptyBins_le (ammunition : Nat → Nat) (i : Nat) :
    emptyBins d s ammunition i ≤ ammunition i := by
  unfold emptyBins
  split
  · exact Nat.zero_le _
  · exact Nat.le_refl _

theorem clearSection_internal (s t : MechSection) :
    (m.clearSection d s).internal t = if t = s then 0 else m.internal t := by
  unfold clearSection internal
  by_cases h : t = s
  · rw [if_pos h, h]
    simp
  · rw [if_neg h]
    simp [h]

theorem clearSection_worn : Worn d m (m.clearSection d s) := by
  have hinternal := clearSection_internal d m s
  have hframe : Frame m (m.clearSection d s) := ⟨rfl, rfl, rfl, rfl, rfl, rfl, rfl⟩
  apply Worn.ofFrame d hframe
  · exact Finset.subset_union_left
  · intro t
    rw [hinternal]
    split
    · exact Nat.zero_le _
    · exact Nat.le_refl _
  · intro t ht
    by_cases h : t = s
    · exact Or.inr (by rw [hinternal, if_pos h])
    · left
      simpa [sectionDisabled, clearSection, h] using ht
  · exact emptyBins_le d s m.ammunition

theorem clearDestroyedSection_worn : Worn d m (m.clearDestroyedSection d s).1 := by
  have hfirst := clearSection_worn d m s
  unfold clearDestroyedSection
  dsimp only
  split
  · exact hfirst
  · rename_i arm harm
    split
    · exact hfirst.trans d m _ _ (clearSection_worn d _ arm)
    · exact hfirst

theorem setSection_internal (s t : MechSection) (state : SectionState) :
    (m.setSection s state).internal t = if t = s then state.internal else m.internal t := by
  unfold setSection internal
  by_cases h : t = s
  · subst h
    simp
  · simp [h]

theorem setProtection_internal (s t : MechSection) (phase : DamagePhase) (value : Nat) :
    (m.setProtection s phase value).internal t =
      if t = s ∧ phase = .Internal then value else m.internal t := by
  unfold setProtection
  rw [setSection_internal]
  by_cases h : t = s
  · subst h
    cases phase with
    | Armor rear =>
        by_cases hrear : (rear && t.isTorso) = true
        · simp [hrear, internal]
        · simp [hrear, internal]
    | Internal => simp
  · simp [h]

theorem setProtection_worn
    (hv : value ≤ m.protection s phase) : Worn d m (m.setProtection s phase value) := by
  have hframe : Frame m (m.setProtection s phase value) := ⟨rfl, rfl, rfl, rfl, rfl, rfl, rfl⟩
  apply Worn.ofFrame d hframe
  · exact Finset.Subset.refl _
  · intro t
    rw [setProtection_internal]
    split
    · rename_i h
      rw [h.1]
      rwa [h.2] at hv
    · exact Nat.le_refl _
  · exact fun t ht => Or.inl ht
  · exact fun i => Nat.le_refl _

theorem dropDent_worn : Worn d m (m.dropDent s phase) := by
  have hself := Worn.refl d m
  unfold dropDent
  split
  · split
    · exact ⟨hself.lost, hself.internal, hself.disabled, hself.ammunition, hself.failures, rfl, rfl,
        rfl, hself.modes, rfl, hself.cocoon⟩
    · exact hself
  · exact hself

theorem collapse_worn : Worn d m (m.collapse d s phase).1 := by
  unfold collapse
  split
  · exact clearDestroyedSection_worn d m s
  · exact Worn.refl d m

theorem damagePhase_worn : Worn d m (m.damagePhase d s amount phase).2 := by
  unfold damagePhase
  split
  · exact Worn.refl d m
  · have hset := setProtection_worn d m s phase
      (m.protection s phase - min (m.protection s phase) amount) (Nat.sub_le _ _)
    have hstruck := hset.trans d m _ _ (dropDent_worn d _ s phase)
    have hcollapsed := hstruck.trans d m _ _ (collapse_worn d _ s phase)
    exact hcollapsed.trans d m _ _ (reconcileDamage_worn d _)

-- The sections that still have structure.
def standing (m : Mech Weapon) : Set MechSection := {s | m.internal s ≠ 0}

theorem Worn.standing (m n : Mech Weapon) (h : Worn d m n) : n.standing ⊆ m.standing := by
  intro s hs hzero
  have hle := h.internal s
  exact hs (by omega)

theorem clearSection_razes : Spends (insert s m.standing) (m.clearSection d s).standing [s] := by
  apply Spends.single
  · exact Set.mem_insert s _
  · simp [Mech.standing, clearSection_internal]
  · exact ((clearSection_worn d m s).standing d m _).trans (Set.subset_insert s _)

-- The section just brought to zero, and an arm that still stood.
theorem clearDestroyedSection_razes :
    Spends (insert s m.standing) (m.clearDestroyedSection d s).1.standing
      (m.clearDestroyedSection d s).2 := by
  have hfirst := clearSection_razes d m s
  unfold clearDestroyedSection
  dsimp only
  split
  · exact hfirst
  · rename_i arm harm
    split
    · rename_i hstands
      have hsecond := clearSection_razes d (m.clearSection d s) arm
      rw [Set.insert_eq_of_mem hstands] at hsecond
      exact hfirst.trans _ _ _ _ _ hsecond
    · exact hfirst

theorem damagePhase_armor (rear : Bool) :
    (m.damagePhase d s amount (.Armor rear)).1.destroyedSections = [] := by
  unfold damagePhase
  split
  · rfl
  · simp [collapse]

theorem damagePhase_razes : Spends m.standing (m.damagePhase d s amount phase).2.standing
      (m.damagePhase d s amount phase).1.destroyedSections := by
  unfold damagePhase
  split
  · exact Spends.refl _
  · rename_i hstruck
    have hset := setProtection_worn d m s phase
      (m.protection s phase - min (m.protection s phase) amount) (Nat.sub_le _ _)
    have hdent := hset.trans d m _ _ (dropDent_worn d _ s phase)
    dsimp only
    generalize ((m.setProtection s phase
      (m.protection s phase - min (m.protection s phase) amount)).dropDent s phase) = struck at hdent
    have hlast := (reconcileDamage_worn d (struck.collapse d s phase).1).standing d _ _
    have hcollapse : Spends m.standing (struck.collapse d s phase).1.standing
        (struck.collapse d s phase).2 := by
      have hinsert : insert s struck.standing ⊆ m.standing :=
        Set.insert_subset (fun hzero => hstruck (Or.inr hzero)) (hdent.standing d m _)
      unfold collapse
      split
      · exact (Spends.ofSubset _ _ hinsert).trans _ _ _ _ _ (clearDestroyedSection_razes d struck s)
      · exact Spends.ofSubset _ _ (hdent.standing d m _)
    have hall := hcollapse.trans _ _ _ _ _ (Spends.ofSubset _ _ hlast)
    rwa [List.append_nil] at hall

theorem damagePhase_total :
    (m.damagePhase d s amount phase).1.absorbed + (m.damagePhase d s amount phase).1.remaining =
      amount := by
  unfold damagePhase
  split
  · exact Nat.zero_add amount
  · exact Nat.add_sub_of_le (Nat.min_le_right _ _)

theorem reconcileDamage_protection :
    (m.reconcileDamage d).protection s phase = m.protection s phase := by
  unfold protection
  rw [(reconcileDamage_material d m).sections]

theorem dropDent_protection (s t : MechSection) (phase other : DamagePhase) :
    (m.dropDent s phase).protection t other = m.protection t other := by
  unfold dropDent
  split
  · split
    · rfl
    · rfl
  · rfl

theorem setProtection_protection : (m.setProtection s phase value).protection s phase = value := by
  cases phase with
  | Internal => simp [setProtection, setSection, protection]
  | Armor rear =>
      by_cases hrear : (rear && s.isTorso) = true
      · simp [setProtection, setSection, protection, hrear]
      · simp [setProtection, setSection, protection, hrear]

-- Damage gets past the armor only when none of it is left.
theorem damagePhase_spent {rear : Bool}
    (hs : m.internal s ≠ 0) (hr : 0 < (m.damagePhase d s amount (.Armor rear)).1.remaining) :
    (m.damagePhase d s amount (.Armor rear)).2.protection s (.Armor rear) = 0 := by
  by_cases hzero : amount = 0
  · have htotal := damagePhase_total d m s amount (.Armor rear)
    omega
  · have hstruck : ¬ (amount = 0 ∨ m.internal s = 0) := by
      rintro (h | h)
      · exact hzero h
      · exact hs h
    unfold damagePhase at hr ⊢
    rw [if_neg hstruck] at hr ⊢
    dsimp only at hr ⊢
    have hcollapse : ∀ n : Mech Weapon, (n.collapse d s (.Armor rear)).1 = n := by
      intro n
      simp [collapse]
    rw [reconcileDamage_protection, hcollapse, dropDent_protection, setProtection_protection]
    omega

-- What is at a slot.
inductive LossAt [DecidableEq Weapon] (m : Mech Weapon) (location : CriticalLocation) :
    CriticalLoss → Prop
  | Weapon (index : Nat) (mount : WeaponMount Weapon) (hm : d.loadout.weapons[index]? = some mount)
      (hl : location ∈ mount.criticals) :
      LossAt m location (.Weapon index (m.weaponExplosion d index mount.weapon))
  | Ammunition (index : Nat) (bin : AmmunitionBin Weapon)
      (hb : d.loadout.ammunition[index]? = some bin) (hl : bin.location = location) :
      LossAt m location (.Ammunition index (m.ammunition index)
        (d.catalog.ammunitionExplosionDamageForMode bin.weapon (m.ammunition index) bin.mode))
  | System (part : SystemCritical) (hp : part ∈ d.loadout.systems) (hl : part.location = location) :
      LossAt m location (.System part.system)

theorem mountAt_spec {mount : WeaponMount Weapon}
    (h : mountAt d location = some index) (hm : d.loadout.weapons[index]? = some mount) :
    location ∈ mount.criticals := by
  obtain ⟨hlt, hmem, -⟩ := List.findIdx?_eq_some_iff_getElem.mp h
  have hget : d.loadout.weapons[index] = mount := by
    rw [List.getElem?_eq_getElem hlt] at hm
    exact Option.some.inj hm
  rw [← hget]
  simpa using hmem

theorem binAt_spec {bin : AmmunitionBin Weapon}
    (h : binAt d location = some index) (hb : d.loadout.ammunition[index]? = some bin) :
    bin.location = location := by
  obtain ⟨hlt, hmem, -⟩ := List.findIdx?_eq_some_iff_getElem.mp h
  have hget : d.loadout.ammunition[index] = bin := by
    rw [List.getElem?_eq_getElem hlt] at hb
    exact Option.some.inj hb
  rw [← hget]
  simpa using hmem

section

variable [DecidableEq Weapon] (m : Mech Weapon) (location : CriticalLocation)

theorem pendingLoss_spec (loss : CriticalLoss) (h : m.pendingLoss d location = .ok loss) :
    LossAt d m location loss := by
  unfold pendingLoss at h
  split at h
  · rename_i index hindex
    split at h
    · rename_i mount hmount
      injection h with h
      subst h
      exact .Weapon index mount hmount (mountAt_spec d location index hindex hmount)
    · contradiction
  · split at h
    · rename_i index hindex
      split at h
      · rename_i bin hbin
        injection h with h
        subst h
        exact .Ammunition index bin hbin (binAt_spec d location index hindex hbin)
      · contradiction
    · split at h
      · rename_i part hpart
        injection h with h
        subst h
        have hlocation := List.find?_some hpart
        exact .System part (List.mem_of_find?_eq_some hpart) (by simpa using hlocation)
      · contradiction

theorem criticalLoss_some {loss : CriticalLoss} (h : m.criticalLoss d location = .ok (some loss)) :
    LossAt d m location loss ∧ ¬ m.criticalDestroyed location := by
  unfold criticalLoss at h
  split at h
  · rename_i pending hpending
    injection h with h
    split at h
    · contradiction
    · rename_i hintact
      injection h with h
      subst h
      exact ⟨pendingLoss_spec d m location _ hpending, hintact⟩
  · contradiction

end

theorem loseSlots_worn (slots : Finset CriticalLocation) : Worn d m (m.loseSlots slots) := by
  have hframe : Frame m (m.loseSlots slots) := ⟨rfl, rfl, rfl, rfl, rfl, rfl, rfl⟩
  apply Worn.ofFrame d hframe
  · exact Finset.subset_union_left
  · exact fun s => Nat.le_refl _
  · exact fun s hs => Or.inl hs
  · exact fun i => Nat.le_refl _

theorem loseGroup_worn {m n : Mech Weapon} {groups : Except Error (List (List CriticalLocation))}
    {location : CriticalLocation} {missing : Error}
    (h : m.loseGroup groups location missing = .ok n) : Worn d m n := by
  unfold loseGroup at h
  split at h
  · contradiction
  · split at h
    · injection h with h
      subst h
      exact loseSlots_worn d m _
    · contradiction

theorem loseSinks_worn {m n : Mech Weapon} {location : CriticalLocation} {loss : CriticalLoss}
    (h : m.loseSinks d location loss = .ok n) : Worn d m n := by
  unfold loseSinks at h
  split at h
  · exact loseGroup_worn d h
  · injection h with h
    subst h
    exact Worn.refl d m

theorem loseJets_worn {m n : Mech Weapon} {location : CriticalLocation} {loss : CriticalLoss}
    (h : m.loseJets d location loss = .ok n) : Worn d m n := by
  unfold loseJets at h
  split at h
  · exact loseGroup_worn d h
  · injection h with h
    subst h
    exact Worn.refl d m

theorem loseMount_worn : Worn d m (m.loseMount d loss) := by
  unfold loseMount
  split
  · split
    · split
      · exact loseSlots_worn d m _
      · exact Worn.refl d m
    · exact Worn.refl d m
  · exact Worn.refl d m

theorem emptyBin_worn : Worn d m (m.emptyBin loss) := by
  cases loss with
  | Weapon index damage => exact Worn.refl d m
  | System system => exact Worn.refl d m
  | Ammunition index rounds damage =>
      have hframe : Frame m (m.emptyBin (.Ammunition index rounds damage)) :=
        ⟨rfl, rfl, rfl, rfl, rfl, rfl, rfl⟩
      apply Worn.ofFrame d hframe
      · exact Finset.Subset.refl _
      · exact fun s => Nat.le_refl _
      · exact fun s hs => Or.inl hs
      · intro i
        show Function.update m.ammunition index 0 i ≤ m.ammunition i
        by_cases h : i = index
        · rw [h, Function.update_self]
          exact Nat.zero_le _
        · rw [Function.update_of_ne h]

theorem dropGuidance_worn {m n : Mech Weapon} {location : CriticalLocation} {loss : CriticalLoss}
    (h : m.dropGuidance d location loss = .ok n) : Worn d m n := by
  have hself := Worn.refl d m
  unfold dropGuidance at h
  split at h
  · split at h
    · contradiction
    · split at h
      · contradiction
      · injection h with h
        subst h
        refine ⟨hself.lost, hself.internal, hself.disabled, hself.ammunition, fun _ _ => rfl, rfl,
          rfl, rfl, ?_, rfl, hself.cocoon⟩
        intro i
        dsimp only
        split
        · unfold fallbackMode
          split
          · exact Or.inr rfl
          · exact Or.inl rfl
        · exact Or.inl rfl
  · injection h with h
    subst h
    exact hself

theorem forgetFailure_worn [DecidableEq Weapon] {m : Mech Weapon} {location : CriticalLocation}
    {loss : CriticalLoss} (hl : LossAt d m location loss) :
    Worn d m ((m.loseSlots {location}).forgetFailure loss) := by
  have hlost := loseSlots_worn d m {location}
  cases hl with
  | Ammunition index bin hb hlocation => exact hlost
  | System part hp hlocation => exact hlost
  | Weapon index mount hm hlocation =>
      refine ⟨hlost.lost, hlost.internal, hlost.disabled, hlost.ammunition, ?_, rfl, rfl, rfl,
        hlost.modes, rfl, hlost.cocoon⟩
      intro i hi
      have hne : i ≠ index := by
        rintro rfl
        obtain ⟨other, hother, hslots⟩ := (weaponIntact_iff d _ i).mp hi
        rw [hm] at hother
        rw [← Option.some.inj hother] at hslots
        refine hslots location hlocation ((criticalUnavailable_iff _ _).mpr (Or.inl ?_))
        exact Finset.mem_union_right _ (Finset.mem_singleton_self location)
      show Function.update m.weaponFailures index none i = m.weaponFailures i
      rw [Function.update_of_ne hne]

-- The stages of losing a slot.
structure Loss [DecidableEq Weapon] (m n : Mech Weapon) (location : CriticalLocation)
    (loss : CriticalLoss) : Prop where
  at' : LossAt d m location loss
  intact : ¬ m.criticalDestroyed location
  stages : ∃ unguided cooled grounded,
    ((m.loseSlots {location}).forgetFailure loss).dropGuidance d location loss = .ok unguided ∧
      (unguided.loseMount d loss).loseSinks d location loss = .ok cooled ∧
      cooled.loseJets d location loss = .ok grounded ∧
      n = (grounded.emptyBin loss).reconcileDamage d

section

variable [DecidableEq Weapon] (m n : Mech Weapon) (location : CriticalLocation)

theorem destroyCritical_cases {result : Option CriticalLoss}
    (h : m.destroyCritical d location = .ok (result, n)) :
    (result = none ∧ n = m) ∨ ∃ loss, result = some loss ∧ Loss d m n location loss := by
  unfold destroyCritical at h
  split at h
  · contradiction
  · injection h with h
    injection h with hresult hn
    exact Or.inl ⟨hresult.symm, hn.symm⟩
  · rename_i loss hloss
    obtain ⟨hat, hintact⟩ := criticalLoss_some d m location hloss
    dsimp only at h
    split at h
    · contradiction
    · rename_i unguided hunguided
      split at h
      · contradiction
      · rename_i cooled hcooled
        split at h
        · contradiction
        · rename_i grounded hgrounded
          injection h with h
          injection h with hresult hn
          exact Or.inr ⟨loss, hresult.symm,
            ⟨hat, hintact, unguided, cooled, grounded, hunguided, hcooled, hgrounded, hn.symm⟩⟩

-- Nothing struck by the loss comes back in its later stages.
theorem Loss.later (loss : CriticalLoss) (h : Loss d m n location loss) :
    Worn d ((m.loseSlots {location}).forgetFailure loss) n := by
  obtain ⟨unguided, cooled, grounded, hunguided, hcooled, hgrounded, rfl⟩ := h.stages
  have hguidance := dropGuidance_worn d hunguided
  have hmount := hguidance.trans d _ _ _ (loseMount_worn d _ loss)
  have hsinks := hmount.trans d _ _ _ (loseSinks_worn d hcooled)
  have hjets := hsinks.trans d _ _ _ (loseJets_worn d hgrounded)
  have hbin := hjets.trans d _ _ _ (emptyBin_worn d _ loss)
  exact hbin.trans d _ _ _ (reconcileDamage_worn d _)

theorem Loss.worn (loss : CriticalLoss) (h : Loss d m n location loss) : Worn d m n :=
  (forgetFailure_worn d h.at').trans d m _ _ (h.later d m n location loss)

theorem Loss.lost (loss : CriticalLoss) (h : Loss d m n location loss) :
    location ∈ n.lostCriticals := by
  apply (h.later d m n location loss).lost
  have hslots : ((m.loseSlots {location}).forgetFailure loss).lostCriticals =
      m.lostCriticals ∪ {location} := by cases loss <;> rfl
  rw [hslots]
  exact Finset.mem_union_right _ (Finset.mem_singleton_self location)

end

end Mech

end StompyMux.Btech
