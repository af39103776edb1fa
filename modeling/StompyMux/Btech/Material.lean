import StompyMux.Btech.Wear

-- What a destroyed section has lost stays lost, over any run of phases and criticals.
namespace StompyMux.Btech

-- A controller of guided missiles, linked to its launcher.
def System.isFireControl : System → Bool
  | .ArtemisIv | .ArtemisV | .ApolloFcs => true
  | _ => false

def Design.Binless {Weapon : Type} (d : Design Weapon) (location : CriticalLocation) : Prop :=
  ∀ bin ∈ d.loadout.ammunition, bin.location ≠ location

-- What construction checks of a definition and of the loadout resolved from it.
structure Design.Validated {Weapon : Type} (d : Design Weapon) : Prop where
  internal : ∀ s, 0 < (d.sections s).internal
  mounts : ∀ mount ∈ d.loadout.weapons, ∀ location ∈ mount.criticals, d.Binless location
  systems : ∀ part ∈ d.loadout.systems, d.Binless part.location
  bins : (d.loadout.ammunition.map AmmunitionBin.location).Nodup
  links : ∀ part ∈ d.loadout.systems, part.system.isFireControl →
    ∃ data link, Mech.dataAt d part.location = some data ∧ fireControlLink data = .ok link
  sinks : d.hasDoubleHeatSinks → ∃ groups, d.loadout.heatSinkGroups d.heatSinkSlots = .ok groups
  jets : d.improvedJumpJets → ∃ groups, d.loadout.jumpJetGroups true = .ok groups

namespace Mech

variable {Weapon : Type} (d : Design Weapon)

-- The cockpit and the power of a destroyed unit.
structure Released (m : Mech Weapon) : Prop where
  power : m.power = .Off
  pilot : m.pilot = none
  targetLock : m.targetLock = none
  selfDestruct : m.selfDestruct = none

-- Nothing is left in a section.
structure Razed (m : Mech Weapon) (s : MechSection) : Prop where
  armor : (m.sections s).armor = 0
  rear : (m.sections s).rear = 0
  slots : ∀ location ∈ d.locations s, location ∈ m.lostCriticals
  bins : ∀ i bin, d.loadout.ammunition[i]? = some bin → bin.location.place = s → m.ammunition i = 0
  beacon : s ∉ m.beacons
  dents : ∀ facing ∈ m.hardenedDents, facing.place ≠ s
  flooded : s ∉ m.floodedSections
  breached : s ∉ m.breachedSections

def BinsLost (m : Mech Weapon) : Prop :=
  ∀ i bin, d.loadout.ammunition[i]? = some bin → bin.location ∈ m.lostCriticals → m.ammunition i = 0

structure Material (m : Mech Weapon) : Prop where
  razed : ∀ s, m.internal s = 0 → Razed d m s
  arm : ∀ s arm, s.arm = some arm → m.internal s = 0 → m.internal arm = 0
  bins : BinsLost d m

structure Sound (m : Mech Weapon) : Prop extends Material d m where
  released : m.isDestroyed d → Released m

-- Nothing of the first unit's losses is undone in the second.
structure Declined (m n : Mech Weapon) : Prop where
  lost : m.lostCriticals ⊆ n.lostCriticals
  armor : ∀ s, (n.sections s).armor ≤ (m.sections s).armor
  internal : ∀ s, (n.sections s).internal ≤ (m.sections s).internal
  rear : ∀ s, (n.sections s).rear ≤ (m.sections s).rear
  ammunition : ∀ i, n.ammunition i ≤ m.ammunition i
  destroyed : m.isDestroyed d → n.isDestroyed d

theorem Declined.refl (m : Mech Weapon) : Declined d m m where
  lost := Finset.Subset.refl _
  armor := fun _ => Nat.le_refl _
  internal := fun _ => Nat.le_refl _
  rear := fun _ => Nat.le_refl _
  ammunition := fun _ => Nat.le_refl _
  destroyed := id

theorem Declined.trans (m n o : Mech Weapon) (h : Declined d m n) (h' : Declined d n o) :
    Declined d m o where
  lost := h.lost.trans h'.lost
  armor := fun s => (h'.armor s).trans (h.armor s)
  internal := fun s => (h'.internal s).trans (h.internal s)
  rear := fun s => (h'.rear s).trans (h.rear s)
  ammunition := fun i => (h'.ammunition i).trans (h.ammunition i)
  destroyed := fun hm => h'.destroyed (h.destroyed hm)

-- The material of a unit as constructed. Such a unit is not destroyed, or was released.
structure Undamaged (m : Mech Weapon) : Prop where
  sections : ∀ s, m.sections s =
    ⟨(d.sections s).armor, (d.sections s).internal, (d.sections s).rear⟩
  lost : m.lostCriticals = ∅
  flooded : m.floodedSections = ∅
  breached : m.breachedSections = ∅
  released : m.isDestroyed d → Released m

variable (m : Mech Weapon) (s : MechSection) (amount : Nat) (phase : DamagePhase) {Part : Type}

theorem Undamaged.sound (hd : d.Validated) (h : Undamaged d m) : Sound d m := by
  have hstands : ∀ s, m.internal s ≠ 0 := by
    intro s hzero
    have hpos := hd.internal s
    rw [internal, h.sections s] at hzero
    dsimp only at hzero
    omega
  refine ⟨⟨?_, ?_, ?_⟩, h.released⟩
  · exact fun s hzero => absurd hzero (hstands s)
  · exact fun s _ _ hzero => absurd hzero (hstands s)
  · intro i bin _ hlost
    rw [h.lost] at hlost
    exact absurd hlost (Finset.notMem_empty _)

-- The pilots and the transport a unit's destruction also asks for.
structure SameCrew (m n : Mech Weapon) : Prop where
  transport : n.transportDestroyed = m.transportDestroyed
  pilot : n.pilotKilled = m.pilotKilled
  character : n.characterPilotKilled = m.characterPilotKilled

theorem SameCrew.trans (m n o : Mech Weapon) (h : SameCrew m n) (h' : SameCrew n o) :
    SameCrew m o where
  transport := h'.transport.trans h.transport
  pilot := h'.pilot.trans h.pilot
  character := h'.character.trans h.character

section

variable (m n : Mech Weapon)

theorem systemsIntact_iff :
    m.systemsIntact ↔ m.lostCriticals = ∅ ∧ (∀ s, ¬ m.sectionDisabled s) ∧ ∀ s, m.internal s ≠ 0 := by
  have hall : MechSection.ALL.all (fun s => 0 < m.internal s) = true ↔ ∀ s, m.internal s ≠ 0 := by
    simp only [List.all_eq_true, decide_eq_true_eq, Nat.pos_iff_ne_zero]
    exact ⟨fun h s => h s (MechSection.mem_all s), fun h s _ => h s⟩
  have hdisabled : (m.floodedSections = ∅ ∧ m.breachedSections = ∅) ↔ ∀ s, ¬ m.sectionDisabled s := by
    simp only [sectionDisabled, Bool.or_eq_true, decide_eq_true_eq, not_or, forall_and,
      Finset.eq_empty_iff_forall_notMem]
  simp only [systemsIntact, Bool.and_eq_true, decide_eq_true_eq, hall, ← hdisabled, and_assoc]

theorem Worn.systemsIntact (h : Worn d m n) (hn : n.systemsIntact) : m.systemsIntact := by
  rw [systemsIntact_iff] at hn ⊢
  obtain ⟨hlost, hdisabled, hstands⟩ := hn
  refine ⟨?_, ?_, ?_⟩
  · exact Finset.subset_empty.mp (hlost ▸ h.lost)
  · intro s hs
    rcases h.disabled s hs with hn | hzero
    · exact hdisabled s hn
    · exact hstands s hzero
  · intro s hzero
    have hle := h.internal s
    exact hstands s (by omega)

theorem Worn.hit (h : Worn d m n) (system : System) (s : MechSection) (slot : Nat)
    (hm : (m.criticalDestroyed ⟨s, slot⟩ ||
      ([System.Engine, .HeatSink, .JumpJet].contains system && m.sectionDisabled s)) = true) :
    (n.criticalDestroyed ⟨s, slot⟩ ||
      ([System.Engine, .HeatSink, .JumpJet].contains system && n.sectionDisabled s)) = true := by
  rw [Bool.or_eq_true, Bool.and_eq_true, criticalDestroyed_iff] at hm ⊢
  rcases hm with (hlost | hzero) | ⟨hsystem, hdisabled⟩
  · exact Or.inl (Or.inl (h.lost hlost))
  · have hle := h.internal s
    dsimp only at hzero
    exact Or.inl (Or.inr (by dsimp only; omega))
  · rcases h.disabled s hdisabled with hn | hzero
    · exact Or.inr ⟨hsystem, hn⟩
    · exact Or.inl (Or.inr hzero)

theorem Worn.systemHits (h : Worn d m n) (system : System) :
    m.systemHits d system ≤ n.systemHits d system := by
  have hfold : ∀ (sections : List MechSection) (f g : MechSection → Nat) (a b : Nat),
      (∀ s, f s ≤ g s) → a ≤ b →
        sections.foldl (fun hits s => hits + f s) a ≤ sections.foldl (fun hits s => hits + g s) b := by
    intro sections f g
    induction sections with
    | nil => exact fun a b _ hab => hab
    | cons s sections ih => exact fun a b hfg hab => ih _ _ hfg (Nat.add_le_add hab (hfg s))
  unfold Mech.systemHits
  by_cases hm : m.systemsIntact
  · rw [if_pos hm]
    exact Nat.zero_le _
  · have hn : ¬ n.systemsIntact := fun hn => hm (h.systemsIntact d m n hn)
    rw [if_neg hm, if_neg hn]
    apply hfold _ _ _ _ _ _ (Nat.le_refl 0)
    intro s
    apply List.Sublist.length_le
    apply List.monotone_filter_right
    intro part hpart
    rw [Bool.and_eq_true] at hpart ⊢
    exact ⟨h.hit d m n system s part.1 hpart.1, hpart.2⟩

theorem isDestroyed_iff :
    m.isDestroyed d ↔ m.transportDestroyed ∨ m.characterPilotKilled ∨ m.pilotKilled ∨
      m.sectionDisabled d.cockpitSection ∨
      (¬ m.systemsIntact ∧ (3 ≤ m.systemHits d .Engine ∨ 0 < m.systemHits d .Cockpit)) ∨
      (¬ d.torsoMountedCockpit ∧ m.internal .Head = 0) ∨ m.internal .CenterTorso = 0 := by
  simp only [isDestroyed, Bool.or_eq_true, Bool.and_eq_true, decide_eq_true_eq, Bool.not_eq_true']
  grind

-- A section that went under with the cockpit is one the unit cannot lose.
theorem Worn.isDestroyed (h : Worn d m n) (hcrew : SameCrew m n) (hm : m.isDestroyed d) :
    n.isDestroyed d := by
  rw [isDestroyed_iff] at hm ⊢
  rw [hcrew.transport, hcrew.character, hcrew.pilot]
  rcases hm with htransport | hcharacter | hpilot | hcockpit | ⟨hintact, hhits⟩ | ⟨hhead, hzero⟩ | hzero
  · exact Or.inl htransport
  · exact Or.inr (Or.inl hcharacter)
  · exact Or.inr (Or.inr (Or.inl hpilot))
  · rcases h.disabled _ hcockpit with hdisabled | hzero
    · exact Or.inr (Or.inr (Or.inr (Or.inl hdisabled)))
    · unfold Design.cockpitSection at hzero
      split at hzero
      · exact Or.inr (Or.inr (Or.inr (Or.inr (Or.inr (Or.inr hzero)))))
      · rename_i hhead
        exact Or.inr (Or.inr (Or.inr (Or.inr (Or.inr (Or.inl ⟨hhead, hzero⟩)))))
  · have hengine := h.systemHits d m n .Engine
    have hseat := h.systemHits d m n .Cockpit
    have hstill : ¬ n.systemsIntact := fun hn => hintact (h.systemsIntact d m n hn)
    exact Or.inr (Or.inr (Or.inr (Or.inr (Or.inl ⟨hstill, by omega⟩))))
  · have hle := h.internal .Head
    exact Or.inr (Or.inr (Or.inr (Or.inr (Or.inr (Or.inl ⟨hhead, by omega⟩)))))
  · have hle := h.internal .CenterTorso
    exact Or.inr (Or.inr (Or.inr (Or.inr (Or.inr (Or.inr (by omega))))))

-- A section with nothing left has nothing left after further wear that marks it no more.
theorem Razed.worn (s : MechSection) (h : Razed d m s) (hworn : Worn d m n)
    (hsections : n.sections s = m.sections s) (hbeacons : n.beacons ⊆ m.beacons)
    (hdents : n.hardenedDents ⊆ m.hardenedDents) (hflooded : n.floodedSections ⊆ m.floodedSections)
    (hbreached : n.breachedSections ⊆ m.breachedSections) : Razed d n s where
  armor := by rw [hsections, h.armor]
  rear := by rw [hsections, h.rear]
  slots := fun location hlocation => hworn.lost (h.slots location hlocation)
  bins := by
    intro i bin hbin hplace
    have hempty := h.bins i bin hbin hplace
    have hle := hworn.ammunition i
    omega
  beacon := fun hs => h.beacon (hbeacons hs)
  dents := fun facing hfacing => h.dents facing (hdents hfacing)
  flooded := fun hs => h.flooded (hflooded hs)
  breached := fun hs => h.breached (hbreached hs)

-- Losing more slots keeps the bins in order where no round is left at them.
theorem BinsLost.worn (h : BinsLost d m) (hworn : Worn d m n)
    (hlost : ∀ i bin, d.loadout.ammunition[i]? = some bin → bin.location ∈ n.lostCriticals →
      bin.location ∈ m.lostCriticals ∨ n.ammunition i = 0) : BinsLost d n := by
  intro i bin hbin hn
  rcases hlost i bin hbin hn with hm | hempty
  · have hempty := h i bin hbin hm
    have hle := hworn.ammunition i
    omega
  · exact hempty

end

theorem clearSection_razed : Razed d (m.clearSection d s) s where
  armor := by simp [clearSection]
  rear := by simp [clearSection]
  slots := fun location hlocation => Finset.mem_union_right _ (List.mem_toFinset.mpr hlocation)
  bins := by
    intro i bin hbin hplace
    simp [clearSection, emptyBins, hbin, hplace]
  beacon := Finset.notMem_erase s m.beacons
  dents := fun facing hfacing => (Finset.mem_filter.mp hfacing).2
  flooded := Finset.notMem_erase s m.floodedSections
  breached := Finset.notMem_erase s m.breachedSections

theorem clearSection_keepsRazed (s t : MechSection) (h : Razed d m t) :
    Razed d (m.clearSection d s) t := by
  by_cases hts : t = s
  · rw [hts]
    exact clearSection_razed d m s
  · apply h.worn d m _ t (clearSection_worn d m s)
    · exact Function.update_of_ne hts _ _
    · exact Finset.erase_subset _ _
    · exact Finset.filter_subset _ _
    · exact Finset.erase_subset _ _
    · exact Finset.erase_subset _ _

theorem clearSection_binsLost (h : BinsLost d m) : BinsLost d (m.clearSection d s) := by
  apply h.worn d m _ (clearSection_worn d m s)
  intro i bin hbin hlost
  rcases Finset.mem_union.mp hlost with hm | hs
  · exact Or.inl hm
  · have hplace := d.mem_locations_place (List.mem_toFinset.mp hs)
    exact Or.inr ((clearSection_razed d m s).bins i bin hbin hplace)

-- The material clauses, but for a section that was just brought to zero.
structure MaterialBut (m : Mech Weapon) (s : MechSection) : Prop where
  razed : ∀ t, t ≠ s → m.internal t = 0 → Razed d m t
  arm : ∀ t arm, t ≠ s → t.arm = some arm → m.internal t = 0 → m.internal arm = 0
  bins : BinsLost d m

theorem MaterialBut.material (h : MaterialBut d m s) (hs : m.internal s ≠ 0) : Material d m where
  razed := by
    intro t hzero
    exact h.razed t (fun hts => hs (hts ▸ hzero)) hzero
  arm := by
    intro t arm harm hzero
    exact h.arm t arm (fun hts => hs (hts ▸ hzero)) harm hzero
  bins := h.bins

theorem arm_arm {s arm : MechSection} (h : s.arm = some arm) : arm.arm = none := by
  cases s <;> simp [MechSection.arm] at h <;> subst h <;> rfl

theorem clearDestroyedSection_material (h : MaterialBut d m s) :
    Material d (m.clearDestroyedSection d s).1 := by
  have hcleared := clearSection_internal d m s
  -- clearing the section itself restores everything but the arm's clause
  have hrazed : ∀ t, (m.clearSection d s).internal t = 0 → Razed d (m.clearSection d s) t := by
    intro t hzero
    by_cases hts : t = s
    · rw [hts]
      exact clearSection_razed d m s
    · rw [hcleared, if_neg hts] at hzero
      exact clearSection_keepsRazed d m s t (h.razed t hts hzero)
  have harms : ∀ t arm, t ≠ s → t.arm = some arm → (m.clearSection d s).internal t = 0 →
      (m.clearSection d s).internal arm = 0 := by
    intro t arm hts harm hzero
    rw [hcleared, if_neg hts] at hzero
    rw [hcleared]
    split
    · rfl
    · exact h.arm t arm hts harm hzero
  have hbins := clearSection_binsLost d m s h.bins
  unfold clearDestroyedSection
  dsimp only
  split
  · rename_i hnone
    refine ⟨hrazed, ?_, hbins⟩
    intro t arm harm hzero
    have hts : t ≠ s := by
      rintro rfl
      rw [hnone] at harm
      contradiction
    exact harms t arm hts harm hzero
  · rename_i arm harm
    split
    · have hboth := clearSection_internal d (m.clearSection d s) arm
      refine ⟨?_, ?_, clearSection_binsLost d _ arm hbins⟩
      · intro t hzero
        by_cases hta : t = arm
        · rw [hta]
          exact clearSection_razed d _ arm
        · rw [hboth, if_neg hta] at hzero
          exact clearSection_keepsRazed d _ arm t (hrazed t hzero)
      · intro t other hother hzero
        rw [hboth] at hzero ⊢
        by_cases hts : t = s
        · rw [hts, harm] at hother
          rw [← Option.some.inj hother, if_pos rfl]
        · have hta : t ≠ arm := by
            rintro rfl
            rw [arm_arm harm] at hother
            contradiction
          rw [if_neg hta] at hzero
          split
          · rfl
          · exact harms t other hts hother hzero
    · rename_i hgone
      refine ⟨hrazed, ?_, hbins⟩
      intro t other hother hzero
      by_cases hts : t = s
      · rw [hts, harm] at hother
        rw [← Option.some.inj hother]
        exact not_not.mp hgone
      · exact harms t other hts hother hzero

theorem dropDent_dents : (m.dropDent s phase).hardenedDents ⊆ m.hardenedDents := by
  unfold dropDent
  split
  · split
    · exact Finset.erase_subset _ _
    · exact Finset.Subset.refl _
  · exact Finset.Subset.refl _

-- What a phase strikes before anything collapses.
def strike (m : Mech Weapon) (s : MechSection) (amount : Nat) (phase : DamagePhase) : Mech Weapon :=
  (m.setProtection s phase (m.protection s phase - min (m.protection s phase) amount)).dropDent s phase

theorem strike_worn : Worn d m (m.strike s amount phase) := by
  have hset := setProtection_worn d m s phase
    (m.protection s phase - min (m.protection s phase) amount) (Nat.sub_le _ _)
  exact hset.trans d m _ _ (dropDent_worn d _ s phase)

theorem strike_keeps : (m.strike s amount phase).sections = (m.setProtection s phase
        (m.protection s phase - min (m.protection s phase) amount)).sections ∧
      (m.strike s amount phase).beacons = m.beacons ∧
      (m.strike s amount phase).floodedSections = m.floodedSections ∧
      (m.strike s amount phase).breachedSections = m.breachedSections ∧
      (m.strike s amount phase).lostCriticals = m.lostCriticals ∧
      SameCrew m (m.strike s amount phase) := by
  unfold strike dropDent
  split
  · split
    · exact ⟨rfl, rfl, rfl, rfl, rfl, rfl, rfl, rfl⟩
    · exact ⟨rfl, rfl, rfl, rfl, rfl, rfl, rfl, rfl⟩
  · exact ⟨rfl, rfl, rfl, rfl, rfl, rfl, rfl, rfl⟩

theorem strike_elsewhere {s t : MechSection} (amount : Nat) (phase : DamagePhase)
    (hts : t ≠ s) : (m.strike s amount phase).sections t = m.sections t := by
  rw [(strike_keeps m s amount phase).1]
  exact Function.update_of_ne hts _ _

theorem strike_materialBut
    (h : Material d m) : MaterialBut d (m.strike s amount phase) s := by
  have hworn := strike_worn d m s amount phase
  obtain ⟨-, hbeacons, hflooded, hbreached, hlost, -⟩ := strike_keeps m s amount phase
  have hdents : (m.strike s amount phase).hardenedDents ⊆ m.hardenedDents :=
    dropDent_dents (m.setProtection s phase _) s phase
  have hinternal : ∀ t, t ≠ s → (m.strike s amount phase).internal t = m.internal t := by
    intro t hts
    rw [internal, strike_elsewhere m amount phase hts, ← internal]
  refine ⟨?_, ?_, ?_⟩
  · intro t hts hzero
    rw [hinternal t hts] at hzero
    exact (h.razed t hzero).worn d m _ t hworn (strike_elsewhere m amount phase hts)
      hbeacons.subset hdents hflooded.subset hbreached.subset
  · intro t arm hts harm hzero
    rw [hinternal t hts] at hzero
    have hle := hworn.internal arm
    have hgone := h.arm t arm harm hzero
    omega
  · apply h.bins.worn d m _ hworn
    intro i bin _ hn
    rw [hlost] at hn
    exact Or.inl hn

theorem collapse_material (h : MaterialBut d m s) (hs : phase ≠ .Internal → m.internal s ≠ 0) :
    Material d (m.collapse d s phase).1 := by
  unfold collapse
  split
  · exact clearDestroyedSection_material d m s h
  · rename_i hstands
    apply h.material
    intro hzero
    by_cases hphase : phase = .Internal
    · exact hstands ⟨hphase, hzero⟩
    · exact hs hphase hzero

theorem reconcileDamage_keeps : (m.reconcileDamage d).beacons = m.beacons ∧
      (m.reconcileDamage d).hardenedDents = m.hardenedDents ∧
      (m.reconcileDamage d).isDestroyed d = m.isDestroyed d := by
  unfold reconcileDamage
  dsimp only
  split
  · exact ⟨rfl, rfl, rfl⟩
  · exact ⟨rfl, rfl, rfl⟩

-- A destroyed unit leaves every phase and every loss without power and crew.
theorem reconcileDamage_released (h : (m.reconcileDamage d).isDestroyed d) :
    Released (m.reconcileDamage d) := by
  rw [(reconcileDamage_keeps d m).2.2] at h
  unfold reconcileDamage
  dsimp only
  split
  · exact ⟨rfl, rfl, rfl, rfl⟩
  · rename_i hstands
    exact (hstands h).elim

theorem reconcileDamage_sound (h : Material d m) : Sound d (m.reconcileDamage d) := by
  have hmaterial := reconcileDamage_material d m
  have hworn := reconcileDamage_worn d m
  obtain ⟨hbeacons, hdents, -⟩ := reconcileDamage_keeps d m
  refine ⟨⟨?_, ?_, ?_⟩, reconcileDamage_released d m⟩
  · intro s hzero
    rw [hmaterial.internal] at hzero
    exact (h.razed s hzero).worn d m _ s hworn (congrFun hmaterial.sections s) hbeacons.subset
      hdents.subset hmaterial.flooded.subset hmaterial.breached.subset
  · intro s arm harm hzero
    rw [hmaterial.internal] at hzero ⊢
    exact h.arm s arm harm hzero
  · apply h.bins.worn d m _ hworn
    intro i bin _ hn
    rw [hmaterial.lost] at hn
    exact Or.inl hn

theorem damagePhase_sound (h : Sound d m) : Sound d (m.damagePhase d s amount phase).2 := by
  unfold damagePhase
  split
  · exact h
  · rename_i hstruck
    have hs : m.internal s ≠ 0 := fun hzero => hstruck (Or.inr hzero)
    have hbut := strike_materialBut d m s amount phase h.toMaterial
    apply reconcileDamage_sound
    apply collapse_material d (m.strike s amount phase) s phase hbut
    intro hphase
    have hinternal : (m.strike s amount phase).internal s = m.internal s := by
      have hset := setProtection_internal m s s phase
        (m.protection s phase - min (m.protection s phase) amount)
      rw [if_neg (fun hboth => hphase hboth.2)] at hset
      rw [internal, (strike_keeps m s amount phase).1, ← internal, hset]
    rw [hinternal]
    exact hs

-- A loss that takes only slots without bins, and leaves the sections as they are.
structure Grazed (m n : Mech Weapon) : Prop where
  sections : n.sections = m.sections
  beacons : n.beacons = m.beacons
  dents : n.hardenedDents = m.hardenedDents
  flooded : n.floodedSections = m.floodedSections
  breached : n.breachedSections = m.breachedSections
  crew : SameCrew m n
  lost : ∀ location ∈ n.lostCriticals, location ∈ m.lostCriticals ∨ d.Binless location

theorem Grazed.refl : Grazed d m m where
  sections := rfl
  beacons := rfl
  dents := rfl
  flooded := rfl
  breached := rfl
  crew := ⟨rfl, rfl, rfl⟩
  lost := fun _ h => Or.inl h

theorem Grazed.trans (m n o : Mech Weapon) (h : Grazed d m n) (h' : Grazed d n o) :
    Grazed d m o where
  sections := h'.sections.trans h.sections
  beacons := h'.beacons.trans h.beacons
  dents := h'.dents.trans h.dents
  flooded := h'.flooded.trans h.flooded
  breached := h'.breached.trans h.breached
  crew := h.crew.trans m n o h'.crew
  lost := by
    intro location ho
    rcases h'.lost location ho with hn | hbinless
    · exact h.lost location hn
    · exact Or.inr hbinless

theorem loseSlots_grazed (slots : Finset CriticalLocation)
    (h : ∀ location ∈ slots, d.Binless location) : Grazed d m (m.loseSlots slots) where
  sections := rfl
  beacons := rfl
  dents := rfl
  flooded := rfl
  breached := rfl
  crew := ⟨rfl, rfl, rfl⟩
  lost := by
    intro location hlost
    rcases Finset.mem_union.mp hlost with hm | hslots
    · exact Or.inl hm
    · exact Or.inr (h location hslots)

theorem dropGuidance_grazed {m n : Mech Weapon} {location : CriticalLocation} {loss : CriticalLoss}
    (h : m.dropGuidance d location loss = .ok n) : Grazed d m n := by
  unfold dropGuidance at h
  split at h
  · split at h
    · contradiction
    · split at h
      · contradiction
      · injection h with h
        subst h
        exact ⟨rfl, rfl, rfl, rfl, rfl, ⟨rfl, rfl, rfl⟩, fun _ hm => Or.inl hm⟩
  · injection h with h
    subst h
    exact Grazed.refl d m

theorem emptyBin_grazed (loss : CriticalLoss) : Grazed d m (m.emptyBin loss) := by
  cases loss with
  | Weapon index damage => exact Grazed.refl d m
  | System system => exact Grazed.refl d m
  | Ammunition index rounds damage =>
      exact ⟨rfl, rfl, rfl, rfl, rfl, ⟨rfl, rfl, rfl⟩, fun _ hm => Or.inl hm⟩

theorem chunks_cons (size fuel : Nat) (head : Part) (parts : List Part) :
    chunks size (fuel + 1) (head :: parts) =
      (head :: parts).take size :: chunks size fuel ((head :: parts).drop size) := rfl

theorem mem_chunks (size fuel : Nat) (parts chunk : List Part) (part : Part)
    (hc : chunk ∈ chunks size fuel parts) (hp : part ∈ chunk) : part ∈ parts := by
  induction fuel generalizing parts with
  | zero => cases parts <;> simp [chunks] at hc
  | succ fuel ih =>
      cases parts with
      | nil => simp [chunks] at hc
      | cons head parts =>
          rw [chunks_cons, List.mem_cons] at hc
          rcases hc with rfl | hc
          · exact List.mem_of_mem_take hp
          · exact List.mem_of_mem_drop (ih _ hc)

theorem exists_chunk (size fuel : Nat) (parts : List Part) (part : Part)
    (hs : 0 < size) (hf : parts.length ≤ fuel) (hp : part ∈ parts) :
    ∃ chunk ∈ chunks size fuel parts, part ∈ chunk := by
  induction fuel generalizing parts with
  | zero =>
      rw [List.length_eq_zero_iff.mp (Nat.le_zero.mp hf)] at hp
      contradiction
  | succ fuel ih =>
      cases parts with
      | nil => contradiction
      | cons head parts =>
          rw [chunks_cons]
          rw [← List.take_append_drop size (head :: parts), List.mem_append] at hp
          rcases hp with htake | hdrop
          · exact ⟨_, List.mem_cons_self, htake⟩
          · have hlength : ((head :: parts).drop size).length ≤ fuel := by
              rw [List.length_drop]
              omega
            obtain ⟨chunk, hchunk, hpart⟩ := ih _ hlength hdrop
            exact ⟨chunk, List.mem_cons_of_mem _ hchunk, hpart⟩

section

variable (hd : d.Validated)

include hd

theorem systemGroups_binless {system : System} {size : Nat} {label : String}
    {groups : List (List CriticalLocation)} {group : List CriticalLocation}
    {location : CriticalLocation} (h : d.loadout.systemGroups system size label = .ok groups)
    (hg : group ∈ groups) (hl : location ∈ group) : d.Binless location := by
  unfold MechLoadout.systemGroups at h
  dsimp only at h
  split at h
  · contradiction
  · split at h
    · contradiction
    · injection h with h
      subst h
      obtain ⟨chunk, hchunk, rfl⟩ := List.mem_map.mp hg
      obtain ⟨part, hpart, rfl⟩ := List.mem_map.mp hl
      have hinstalled := mem_chunks _ _ _ _ _ hchunk hpart
      exact hd.systems part (List.mem_filter.mp hinstalled).1

theorem loseGroup_grazed {m n : Mech Weapon} {system : System} {size : Nat} {label : String}
    {location : CriticalLocation} {missing : Error}
    (h : m.loseGroup (d.loadout.systemGroups system size label) location missing = .ok n) :
    Grazed d m n := by
  unfold loseGroup at h
  split at h
  · contradiction
  · rename_i groups hgroups
    split at h
    · rename_i group hgroup
      injection h with h
      subst h
      apply loseSlots_grazed
      intro slot hslot
      exact systemGroups_binless d hd hgroups
        (List.mem_of_find?_eq_some hgroup) (List.mem_toFinset.mp hslot)
    · contradiction

theorem loseSinks_grazed {m n : Mech Weapon} {location : CriticalLocation} {loss : CriticalLoss}
    (h : m.loseSinks d location loss = .ok n) : Grazed d m n := by
  unfold loseSinks at h
  split at h
  · exact loseGroup_grazed d hd h
  · injection h with h
    subst h
    exact Grazed.refl d m

theorem loseJets_grazed {m n : Mech Weapon} {location : CriticalLocation} {loss : CriticalLoss}
    (h : m.loseJets d location loss = .ok n) : Grazed d m n := by
  unfold loseJets at h
  split at h
  · exact loseGroup_grazed d hd h
  · injection h with h
    subst h
    exact Grazed.refl d m

theorem loseMount_grazed (m : Mech Weapon) (loss : CriticalLoss) :
    Grazed d m (m.loseMount d loss) := by
  unfold loseMount
  split
  · split
    · split
      · rename_i mount hmount
        apply loseSlots_grazed
        intro slot hslot
        exact hd.mounts mount (List.mem_of_getElem? hmount) slot (List.mem_toFinset.mp hslot)
      · exact Grazed.refl d m
    · exact Grazed.refl d m
  · exact Grazed.refl d m

theorem bin_unique {i j : Nat} {bin other : AmmunitionBin Weapon}
    (hi : d.loadout.ammunition[i]? = some bin) (hj : d.loadout.ammunition[j]? = some other)
    (h : bin.location = other.location) : i = j := by
  have hlt := (List.getElem?_eq_some_iff.mp hi).1
  apply (List.getElem?_inj (by rwa [List.length_map]) hd.bins).mp
  rw [List.getElem?_map, List.getElem?_map, hi, hj, Option.map_some, Option.map_some, h]

section

variable [DecidableEq Weapon] (m n : Mech Weapon) (location : CriticalLocation) (loss : CriticalLoss)

theorem Loss.grazed (h : Loss d m n location loss) :
    ∃ grounded, Grazed d (m.loseSlots {location}) grounded ∧
      Worn d m (grounded.emptyBin loss) ∧ n = (grounded.emptyBin loss).reconcileDamage d := by
  obtain ⟨unguided, cooled, grounded, hunguided, hcooled, hgrounded, rfl⟩ := h.stages
  have hforgotten : Grazed d (m.loseSlots {location}) ((m.loseSlots {location}).forgetFailure loss) := by
    cases loss <;> exact ⟨rfl, rfl, rfl, rfl, rfl, ⟨rfl, rfl, rfl⟩, fun _ hm => Or.inl hm⟩
  have hguidance := hforgotten.trans d _ _ _ (dropGuidance_grazed d hunguided)
  have hmount := hguidance.trans d _ _ _ (loseMount_grazed d hd _ loss)
  have hsinks := hmount.trans d _ _ _ (loseSinks_grazed d hd hcooled)
  have hjets := hsinks.trans d _ _ _ (loseJets_grazed d hd hgrounded)
  refine ⟨grounded, hjets, ?_, rfl⟩
  have hstruck := forgetFailure_worn d h.at'
  have hguided := hstruck.trans d _ _ _ (dropGuidance_worn d hunguided)
  have hmounted := hguided.trans d _ _ _ (loseMount_worn d _ loss)
  have hcool := hmounted.trans d _ _ _ (loseSinks_worn d hcooled)
  have hground := hcool.trans d _ _ _ (loseJets_worn d hgrounded)
  exact hground.trans d _ _ _ (emptyBin_worn d _ loss)

theorem Loss.bins (h : Loss d m n location loss) (grounded : Mech Weapon)
    (hg : Grazed d (m.loseSlots {location}) grounded) (i : Nat) (bin : AmmunitionBin Weapon)
    (hbin : d.loadout.ammunition[i]? = some bin) (hlost : bin.location ∈ grounded.lostCriticals) :
    bin.location ∈ m.lostCriticals ∨ (grounded.emptyBin loss).ammunition i = 0 := by
  have hmem := List.mem_of_getElem? hbin
  rcases hg.lost bin.location hlost with hstruck | hbinless
  · rcases Finset.mem_union.mp hstruck with hm | hsame
    · exact Or.inl hm
    · right
      have hlocation := Finset.mem_singleton.mp hsame
      cases h.at' with
      | Weapon index mount hmount hslot =>
          exact absurd hlocation (hd.mounts mount (List.mem_of_getElem? hmount) location hslot bin hmem)
      | System part hpart hslot =>
          exact absurd (hlocation.trans hslot.symm) (hd.systems part hpart bin hmem)
      | Ammunition index other hother hslot =>
          have hi := bin_unique d hd hbin hother (hlocation.trans hslot.symm)
          rw [hi]
          exact Function.update_self _ _ _
  · exact absurd rfl (hbinless bin hmem)

theorem Loss.sound (h : Loss d m n location loss) (hm : Sound d m) : Sound d n := by
  obtain ⟨grounded, hgrazed, hworn, rfl⟩ := h.grazed d hd m n location loss
  have hempty := hgrazed.trans d _ _ _ (emptyBin_grazed d grounded loss)
  have hinternal : ∀ s, (grounded.emptyBin loss).internal s = m.internal s := by
    intro s
    rw [internal, hempty.sections]
    rfl
  apply reconcileDamage_sound
  refine ⟨?_, ?_, ?_⟩
  · intro s hzero
    rw [hinternal] at hzero
    exact (hm.razed s hzero).worn d m _ s hworn (congrFun hempty.sections s) hempty.beacons.subset
      hempty.dents.subset hempty.flooded.subset hempty.breached.subset
  · intro s arm harm hzero
    rw [hinternal] at hzero ⊢
    exact hm.arm s arm harm hzero
  · apply hm.bins.worn d m _ hworn
    intro i bin hbin hlost
    have hsame : (grounded.emptyBin loss).lostCriticals = grounded.lostCriticals := by
      cases loss <;> rfl
    rw [hsame] at hlost
    exact h.bins d hd m _ location loss grounded hgrazed i bin hbin hlost

end

omit hd in
theorem loseGroup_ok (m : Mech Weapon) {system : System} {size : Nat} {label : String}
    {groups : List (List CriticalLocation)} {part : SystemCritical} (missing : Error)
    (hsize : 0 < size) (h : d.loadout.systemGroups system size label = .ok groups)
    (hpart : part ∈ d.loadout.systems) (hsystem : part.system = system) :
    ∃ n, m.loseGroup (d.loadout.systemGroups system size label) part.location missing = .ok n := by
  have hgroup : ∃ group ∈ groups, part.location ∈ group := by
    have hslots : part ∈ d.loadout.systems.filter (fun part => part.system = system) :=
      List.mem_filter.mpr ⟨hpart, by simpa using hsystem⟩
    obtain ⟨chunk, hchunk, hmem⟩ := exists_chunk size _ _ part hsize (Nat.le_refl _) hslots
    unfold MechLoadout.systemGroups at h
    dsimp only at h
    split at h
    · contradiction
    · split at h
      · contradiction
      · injection h with h
        subst h
        exact ⟨_, List.mem_map_of_mem hchunk, List.mem_map_of_mem hmem⟩
  obtain ⟨group, hmem, hlocation⟩ := hgroup
  unfold loseGroup
  rw [h]
  dsimp only
  split
  · exact ⟨_, rfl⟩
  · rename_i hnone
    have hnot := List.find?_eq_none.mp hnone group hmem
    exact absurd (decide_eq_true hlocation) hnot

section

variable [DecidableEq Weapon] (m n : Mech Weapon) (location : CriticalLocation) (loss : CriticalLoss)
  (hat : LossAt d m location loss)

include hat

theorem dropGuidance_ok : ∃ o, n.dropGuidance d location loss = .ok o := by
  unfold dropGuidance
  split
  · rename_i hcontroller
    cases hat with
    | Weapon index mount hmount hslot => simp at hcontroller
    | Ammunition index bin hbin hslot => simp at hcontroller
    | System part hpart hslot =>
        have hkind : part.system.isFireControl = true := by
          simp only [CriticalLoss.System.injEq] at hcontroller
          rcases hcontroller with heq | heq
          · simp [heq, System.isFireControl]
          · simp [heq, System.isFireControl]
        obtain ⟨data, link, hdata, hlink⟩ := hd.links part hpart hkind
        rw [hslot] at hdata
        rw [hdata]
        dsimp only
        rw [hlink]
        exact ⟨_, rfl⟩
  · exact ⟨n, rfl⟩

theorem loseSinks_ok : ∃ o, n.loseSinks d location loss = .ok o := by
  unfold loseSinks
  split
  · rename_i hsinks
    obtain ⟨groups, hgroups⟩ := hd.sinks hsinks.2
    cases hat with
    | Weapon index mount hmount hslot => simp at hsinks
    | Ammunition index bin hbin hslot => simp at hsinks
    | System part hpart hslot =>
        have hsize : 0 < d.heatSinkSlots := by
          unfold Design.heatSinkSlots
          split_ifs <;> omega
        have hsystem : part.system = .HeatSink := by simpa using hsinks.1
        rw [← hslot]
        exact loseGroup_ok d n _ hsize hgroups hpart hsystem
  · exact ⟨n, rfl⟩

theorem loseJets_ok : ∃ o, n.loseJets d location loss = .ok o := by
  unfold loseJets
  split
  · rename_i hjets
    obtain ⟨groups, hgroups⟩ := hd.jets hjets.2
    cases hat with
    | Weapon index mount hmount hslot => simp at hjets
    | Ammunition index bin hbin hslot => simp at hjets
    | System part hpart hslot =>
        have hsystem : part.system = .JumpJet := by simpa using hjets.1
        rw [← hslot]
        exact loseGroup_ok d n _ (by decide) hgroups hpart hsystem
  · exact ⟨n, rfl⟩

end

-- A call that fails has been refused before it changed the unit.
theorem destroyCritical_refused [DecidableEq Weapon] {m : Mech Weapon} {location : CriticalLocation}
    {e : Error} (h : m.destroyCritical d location = .error e) :
    m.criticalLoss d location = .error e := by
  unfold destroyCritical at h
  split at h
  · rename_i cause hrefused
    rw [hrefused]
    injection h with h
    rw [h]
  · contradiction
  · rename_i loss hloss
    obtain ⟨hat, -⟩ := criticalLoss_some d m location hloss
    obtain ⟨unguided, hunguided⟩ :=
      dropGuidance_ok d hd m ((m.loseSlots {location}).forgetFailure loss) location loss hat
    obtain ⟨cooled, hcooled⟩ := loseSinks_ok d hd m (unguided.loseMount d loss) location loss hat
    obtain ⟨grounded, hgrounded⟩ := loseJets_ok d hd m cooled location loss hat
    dsimp only at h
    rw [hunguided] at h
    dsimp only at h
    rw [hcooled] at h
    dsimp only at h
    rw [hgrounded] at h
    contradiction

end

-- A call of either kind.
inductive Blow
  | DamagePhase (place : MechSection) (amount : Nat) (phase : DamagePhase)
  | DestroyCritical (location : CriticalLocation)
  deriving DecidableEq

section

theorem clearSection_declines (m : Mech Weapon) (s t : MechSection) :
    ((m.clearSection d s).sections t).armor ≤ (m.sections t).armor ∧
      ((m.clearSection d s).sections t).rear ≤ (m.sections t).rear := by
  by_cases h : t = s
  · rw [h]
    simp [clearSection]
  · simp [clearSection, h]

theorem clearDestroyedSection_declines (m : Mech Weapon) (s t : MechSection) :
    ((m.clearDestroyedSection d s).1.sections t).armor ≤ (m.sections t).armor ∧
      ((m.clearDestroyedSection d s).1.sections t).rear ≤ (m.sections t).rear := by
  have hfirst := clearSection_declines d m s t
  unfold clearDestroyedSection
  dsimp only
  split
  · exact hfirst
  · rename_i arm harm
    split
    · have hsecond := clearSection_declines d (m.clearSection d s) arm t
      exact ⟨hsecond.1.trans hfirst.1, hsecond.2.trans hfirst.2⟩
    · exact hfirst

theorem strike_declines (m : Mech Weapon) (s t : MechSection) (amount : Nat) (phase : DamagePhase) :
    ((m.strike s amount phase).sections t).armor ≤ (m.sections t).armor ∧
      ((m.strike s amount phase).sections t).rear ≤ (m.sections t).rear := by
  by_cases hts : t = s
  · rw [hts, (strike_keeps m s amount phase).1]
    cases phase with
    | Internal => simp [setProtection, setSection]
    | Armor rear =>
        by_cases hrear : (rear && s.isTorso) = true
        · simp [setProtection, setSection, protection, hrear]
        · simp [setProtection, setSection, protection, hrear]
  · rw [strike_elsewhere m amount phase hts]
    exact ⟨Nat.le_refl _, Nat.le_refl _⟩

theorem collapse_crew (m : Mech Weapon) (s : MechSection) (phase : DamagePhase) :
    SameCrew m (m.collapse d s phase).1 := by
  unfold collapse clearDestroyedSection
  dsimp only
  split
  · split
    · exact ⟨rfl, rfl, rfl⟩
    · split
      · exact ⟨rfl, rfl, rfl⟩
      · exact ⟨rfl, rfl, rfl⟩
  · exact ⟨rfl, rfl, rfl⟩

theorem reconcileDamage_crew (m : Mech Weapon) : SameCrew m (m.reconcileDamage d) := by
  unfold reconcileDamage
  dsimp only
  split
  · exact ⟨rfl, rfl, rfl⟩
  · exact ⟨rfl, rfl, rfl⟩

-- Wear that thickens no armor and touches no pilot.
theorem Declined.ofWorn (m n : Mech Weapon) (h : Worn d m n) (hcrew : SameCrew m n)
    (harmor : ∀ s, (n.sections s).armor ≤ (m.sections s).armor ∧
      (n.sections s).rear ≤ (m.sections s).rear) : Declined d m n where
  lost := h.lost
  armor := fun s => (harmor s).1
  internal := h.internal
  rear := fun s => (harmor s).2
  ammunition := h.ammunition
  destroyed := h.isDestroyed d m n hcrew

theorem damagePhase_declined (m : Mech Weapon) (s : MechSection) (amount : Nat)
    (phase : DamagePhase) : Declined d m (m.damagePhase d s amount phase).2 := by
  apply Declined.ofWorn d m _ (damagePhase_worn d m s amount phase)
  · unfold damagePhase
    split
    · exact ⟨rfl, rfl, rfl⟩
    · obtain ⟨-, -, -, -, -, hstruck⟩ := strike_keeps m s amount phase
      have hcollapsed := hstruck.trans m _ _ (collapse_crew d (m.strike s amount phase) s phase)
      exact hcollapsed.trans m _ _ (reconcileDamage_crew d _)
  · intro t
    unfold damagePhase
    split
    · exact ⟨Nat.le_refl _, Nat.le_refl _⟩
    · have hstruck := strike_declines m s t amount phase
      rw [(reconcileDamage_material d _).sections]
      change ((((m.strike s amount phase).collapse d s phase).1).sections t).armor ≤ _ ∧
        ((((m.strike s amount phase).collapse d s phase).1).sections t).rear ≤ _
      unfold collapse
      split
      · have hcleared := clearDestroyedSection_declines d (m.strike s amount phase) s t
        exact ⟨hcleared.1.trans hstruck.1, hcleared.2.trans hstruck.2⟩
      · exact hstruck

variable [DecidableEq Weapon]

-- A call that is refused leaves the unit as it was.
def suffer (m : Mech Weapon) : Blow → Mech Weapon
  | .DamagePhase s amount phase => (m.damagePhase d s amount phase).2
  | .DestroyCritical location =>
      match m.destroyCritical d location with
      | .ok (_, n) => n
      | .error _ => m

def sufferAll (m : Mech Weapon) (blows : List Blow) : Mech Weapon := blows.foldl (suffer d) m

theorem sufferAll_append (m : Mech Weapon) (blows later : List Blow) :
    m.sufferAll d (blows ++ later) = (m.sufferAll d blows).sufferAll d later :=
  List.foldl_append ..

variable (hd : d.Validated)

include hd

theorem Loss.declined {m n : Mech Weapon} {location : CriticalLocation} {loss : CriticalLoss}
    (h : Loss d m n location loss) : Declined d m n := by
  obtain ⟨grounded, hgrazed, -, hn⟩ := h.grazed d hd m n location loss
  have hempty := hgrazed.trans d _ _ _ (emptyBin_grazed d grounded loss)
  apply Declined.ofWorn d m n (h.worn d m n location loss)
  · rw [hn]
    have hstruck : SameCrew m (m.loseSlots {location}) := ⟨rfl, rfl, rfl⟩
    exact (hstruck.trans m _ _ hempty.crew).trans m _ _ (reconcileDamage_crew d _)
  · intro s
    rw [hn, (reconcileDamage_material d _).sections, hempty.sections]
    exact ⟨Nat.le_refl _, Nat.le_refl _⟩

-- One call keeps the clauses, and undoes nothing.
theorem suffer_sound (m : Mech Weapon) (blow : Blow) (h : Sound d m) :
    Sound d (m.suffer d blow) ∧ Declined d m (m.suffer d blow) := by
  cases blow with
  | DamagePhase s amount phase =>
      exact ⟨damagePhase_sound d m s amount phase h, damagePhase_declined d m s amount phase⟩
  | DestroyCritical location =>
      unfold suffer
      dsimp only
      split
      · rename_i result n hn
        rcases destroyCritical_cases d m n location hn with ⟨-, rfl⟩ | ⟨loss, -, hloss⟩
        · exact ⟨h, Declined.refl d n⟩
        · exact ⟨hloss.sound d hd m n location loss h, hloss.declined d hd⟩
      · exact ⟨h, Declined.refl d m⟩

theorem sufferAll_sound (m : Mech Weapon) (blows : List Blow) (h : Sound d m) :
    Sound d (m.sufferAll d blows) ∧ Declined d m (m.sufferAll d blows) := by
  induction blows generalizing m with
  | nil => exact ⟨h, Declined.refl d m⟩
  | cons blow blows ih =>
      obtain ⟨hsound, hdeclined⟩ := suffer_sound d hd m blow h
      obtain ⟨hlast, hrest⟩ := ih (m.suffer d blow) hsound
      exact ⟨hlast, hdeclined.trans d m _ _ hrest⟩

-- After any run from undamaged material, and between any two of its moments. A call that fails
-- is one that was refused.
theorem material_kept (m : Mech Weapon) (blows later : List Blow) (h : Undamaged d m) :
    Sound d (m.sufferAll d blows) ∧
      Declined d (m.sufferAll d blows) (m.sufferAll d (blows ++ later)) ∧
      ∀ location e, (m.sufferAll d blows).destroyCritical d location = .error e →
        (m.sufferAll d blows).criticalLoss d location = .error e := by
  have hsound := (sufferAll_sound d hd m blows (h.sound d m hd)).1
  refine ⟨hsound, ?_, ?_⟩
  · rw [sufferAll_append]
    exact (sufferAll_sound d hd _ later hsound).2
  · exact fun location e hrefused => destroyCritical_refused d hd hrefused

end

end Mech

-- A torso with a two-slot weapon, its bin in the arm.
def trainer : Design Unit where
  catalog := {
    profile := fun _ => ⟨5, 1⟩
    profileForAmmunition := fun _ _ => ⟨5, 1⟩
    weaponExplosionDamage := fun _ => 0
    isBPod := fun _ => false
    isRotary := fun _ => false
    isMml := fun _ => false
    isPlasma := fun _ => false
    isINarcBeacon := fun _ => false
    armorPiercingPenalty := fun _ => 0 }
  sections := fun s =>
    match s with
    | .LeftTorso => ⟨10, 12, 4, ⟨[(0, ⟨none, ['0']⟩), (1, ⟨none, ['0']⟩)], by decide⟩⟩
    | .LeftArm => ⟨8, 8, 0, ⟨[(0, ⟨none, ['0']⟩)], by decide⟩⟩
    | .CenterTorso => ⟨16, 16, 5, ⟨[(0, ⟨some .Engine, ['-']⟩)], by decide⟩⟩
    | _ => ⟨16, 16, 5, ⟨[], by decide⟩⟩
  specials := []
  loadout := {
    weapons := [⟨(), [⟨.LeftTorso, 0⟩, ⟨.LeftTorso, 1⟩]⟩]
    ammunition := [⟨⟨.LeftArm, 0⟩, (), .Normal⟩]
    systems := [⟨⟨.CenterTorso, 0⟩, .Engine⟩] }

theorem trainer_validated : trainer.Validated where
  internal := by
    intro s
    cases s <;> decide
  mounts := by simp [Design.Binless, trainer]
  systems := by simp [Design.Binless, trainer]
  bins := by decide
  links := by simp [trainer, System.isFireControl]
  sinks := fun h => absurd h (by decide +kernel)
  jets := fun h => absurd h (by decide +kernel)

def trainee : Mech Unit where
  sections := fun s => ⟨(trainer.sections s).armor, (trainer.sections s).internal,
    (trainer.sections s).rear⟩
  lostCriticals := ∅
  ammunition := fun _ => 20
  ammunitionModes := fun _ => .Normal
  fireModes := fun _ => .Normal
  jammedWeapons := ∅
  weaponFailures := fun _ => none
  poweredDownWeapons := ∅
  floodedSections := ∅
  breachedSections := ∅
  hardenedDents := {⟨.LeftTorso, true⟩}
  beacons := {.LeftArm}
  combatSafe := false
  dumping := none
  cocoon := none
  transportDestroyed := false
  pilotKilled := false
  characterPilotKilled := false
  power := .Running
  pilot := some 7
  targetLock := some 9
  selfDestruct := none
  dice := fun _ => 0

theorem trainee_undamaged : Mech.Undamaged trainer trainee where
  sections := fun _ => rfl
  lost := rfl
  flooded := rfl
  breached := rfl
  released := fun h => absurd h (by decide +kernel)

-- The torso goes with its arm and the bin in it, and the engine takes a hit.
theorem trainee_material_kept :
    Mech.Sound trainer (trainee.sufferAll trainer
        [.DamagePhase .LeftTorso 12 .Internal, .DestroyCritical ⟨.CenterTorso, 0⟩]) ∧
      (trainee.sufferAll trainer
        [.DamagePhase .LeftTorso 12 .Internal, .DestroyCritical ⟨.CenterTorso, 0⟩]).ammunition 0 =
          0 := by
  refine ⟨(Mech.material_kept trainer trainer_validated trainee
    [.DamagePhase .LeftTorso 12 .Internal, .DestroyCritical ⟨.CenterTorso, 0⟩] []
    trainee_undamaged).1, ?_⟩
  decide +kernel

end StompyMux.Btech
