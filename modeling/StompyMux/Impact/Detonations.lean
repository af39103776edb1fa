import StompyMux.Impact.Wearing

-- What a cascade sets off, and how often.
namespace StompyMux.Impact

open Library
open StompyMux.Btech

variable {Weapon : Type}

theorem dent_worn (d : Design Weapon) (m : Mech Weapon) (facing : ArmorFacing) (dented : Bool) :
    Mech.Worn d m (markHardenedDent m facing dented) := by
  have hself := Mech.Worn.refl d m
  exact ⟨hself.lost, hself.internal, hself.disabled, hself.ammunition, fun _ _ => rfl, rfl, rfl,
    rfl, hself.modes, rfl, hself.cocoon⟩

-- The components still pending after a section was struck.
def armed (destroyed : Option DestroyedLocation) : List Component :=
  match destroyed with
  | none => []
  | some destroyed => components destroyed.explosive

theorem wearCocoon_worn (d : Design Weapon) (amount : Nat) (m : Mech Weapon) :
    Mech.Worn d m (wearCocoon amount m) := by
  have hself := Mech.Worn.refl d m
  refine ⟨hself.lost, hself.internal, hself.disabled, hself.ammunition, fun _ _ => rfl, rfl, rfl,
    rfl, hself.modes, rfl, ?_⟩
  intro hnone
  rw [wearCocoon, hnone, Option.bind_none]

section

variable [DecidableEq Weapon] (d : Design Weapon) {α β : Type} (pending : List Component)
  (left : β → List Component)

theorem settledAt_unit (f : Mech Weapon → Cascade Weapon β) (c : Context Weapon)
    (h : SettledAt d pending left (f c.unit) c) : SettledAt d pending left (unit >>= f) c := by
  rw [SettledAt, Update.bind_ok unit f c c c.unit rfl, ← SettledAt]
  exact h

theorem settles_after {x : Cascade Weapon α} (f : α → Cascade Weapon β) (hx : Wearing d x)
    (hf : ∀ a, Settles d pending left (f a)) : Settles d pending left (x >>= f) :=
  settles_bind d pending left f (hx.carry d pending x) hf

end

theorem components_cons (slot : CriticalLocation × CriticalLoss)
    (rest : List (CriticalLocation × CriticalLoss)) :
    components (slot :: rest) = slot.2.component.toList ++ components rest := by
  rw [components, components, List.filterMap_cons]
  cases slot.2.component <;> rfl

theorem mem_components (slots : List (CriticalLocation × CriticalLoss)) (i : Component) :
    i ∈ components slots ↔ ∃ slot ∈ slots, slot.2.component = some i := List.mem_filterMap

theorem component_struck {slots : List (CriticalLocation × CriticalLoss)}
    {slot : CriticalLocation × CriticalLoss} {i : Component} (hs : slot ∈ slots)
    (hc : slot.2.component = some i) (hn : (components slots).Nodup) :
    i ∉ components (slots.filter (fun other => other.1 ≠ slot.1)) := by
  induction slots with
  | nil => contradiction
  | cons first rest ih =>
      rw [components_cons, List.nodup_append] at hn
      obtain ⟨-, hrest, hapart⟩ := hn
      rcases List.mem_cons.mp hs with rfl | hs
      · rw [List.filter_cons_of_neg (by simp)]
        intro hi
        have hlater : i ∈ components rest := (List.filter_sublist.filterMap _).subset hi
        exact hapart i (by simp [hc]) i hlater rfl
      · have hlater : i ∈ components rest := (mem_components rest i).mpr ⟨slot, hs, hc⟩
        rw [List.filter_cons]
        split
        · rw [components_cons, List.mem_append]
          rintro (hfirst | hi)
          · exact hapart i hfirst i hlater rfl
          · exact ih hs hrest hi
        · exact ih hs hrest

theorem breakStage_destroyed {b : Battlefield Weapon} {s : MechSection}
    {structural : Nat} {found : Option DestroyedLocation} {c after : Context Weapon}
    {broken : Broken}
    (h : breakStage b s structural found c = .ok broken after) :
    broken.destroyed = found.filter (fun _ => after.unit.internal s = 0) := by
  obtain ⟨phase, struck, -, h⟩ := Update.ok_of_bind _ _ c after broken h
  obtain ⟨-, recorded, -, h⟩ := Update.ok_of_bind _ _ struck after broken h
  injection h with hbroken hafter
  rw [← hbroken, ← hafter]

section

-- A section that water or vacuum disables, with its ammunition spilled.
theorem disabled_worn (d : Design Weapon) (s : MechSection) {m : Mech Weapon}
    {flooded breached : Finset MechSection} (hflooded : m.floodedSections ⊆ flooded)
    (hbreached : m.breachedSections ⊆ breached) :
    Mech.Worn d m ({ m with
      floodedSections := flooded
      breachedSections := breached
      ammunition := Mech.emptyBins d s m.ammunition }.reconcileDamage d) := by
  have hframe : Mech.Frame m { m with
      floodedSections := flooded
      breachedSections := breached
      ammunition := Mech.emptyBins d s m.ammunition } := ⟨rfl, rfl, rfl, rfl, rfl, rfl, rfl⟩
  refine Mech.Worn.trans d m _ _ ?_ (Mech.reconcileDamage_worn d _)
  apply Mech.Worn.ofFrame d hframe
  · exact Finset.Subset.refl _
  · exact fun t => Nat.le_refl _
  · intro t ht
    left
    simp only [Mech.sectionDisabled, Bool.or_eq_true, decide_eq_true_eq] at ht ⊢
    exact ht.imp (fun h => hflooded h) (fun h => hbreached h)
  · exact Mech.emptyBins_le d s m.ammunition

theorem expose_worn (d : Design Weapon) (s : MechSection) (m : Mech Weapon) :
    Mech.Worn d m (expose d s m) :=
  disabled_worn d s (Finset.Subset.refl _) (Finset.subset_insert s _)

theorem floodSection_worn (d : Design Weapon) (underwater : MechSection → Bool) (s : MechSection)
    (m : Mech Weapon) : Mech.Worn d m (floodSection d underwater s m) := by
  unfold floodSection
  split
  · exact disabled_worn d s (Finset.subset_insert s _) (Finset.Subset.refl _)
  · exact Mech.Worn.refl d m

-- A battlefield under water: a section breached by a hit is flooded, and nothing else happens.
def flooding (d : Design Weapon) (underwater : MechSection → Bool) : FallRules d where
  play event m :=
    match event with
    | .Flood s => floodSection d underwater s m
    | _ => m
  worn event m := by
    cases event with
    | Flood s => exact floodSection_worn d underwater s m
    | _ => exact Mech.Worn.refl d m

variable [DecidableEq Weapon] (b : Battlefield Weapon)

theorem wearing_unit : Wearing b.design (unit : Cascade Weapon (Mech Weapon)) :=
  wearing_quiet b.design (quiet_unit b)

theorem wearing_roll (draw : Dice → Nat × Dice) : Wearing b.design (roll draw) :=
  wearing_quiet b.design (quiet_roll b draw)

theorem wearing_spend : Wearing b.design spend := wearing_quiet b.design (quiet_spend b)

theorem wearing_interlude (event : Interlude) : Wearing b.design (interlude b event) :=
  wearing_quiet b.design (quiet_interlude b event)

theorem wearing_record {event : Event} (he : event.component = none) :
    Wearing b.design (record event) := settles_record b.design [] he

omit [DecidableEq Weapon] in
theorem quiet_wear (f : Mech Weapon → Mech Weapon) (hf : ∀ m, Mech.Worn b.design m (f m)) :
    Update.Within (Quiet b.design)
      (modify (fun c => c.setUnit (f c.unit)) : Cascade Weapon Unit) :=
  quiet_modify b _ (fun c => hf c.unit) (fun _ => rfl) (fun _ => rfl) (fun _ => rfl)

theorem wearing_vacuumRoll (penetrating : Bool) : Wearing b.design (vacuumRoll penetrating) := by
  unfold vacuumRoll
  split
  · exact wearing_pure b.design _
  · exact wearing_bind b.design _ (wearing_roll b _) (fun _ => wearing_pure b.design _)

variable (s : MechSection) (m : Mech Weapon)

theorem wearing_checkVacuum (penetrating : Bool) :
    Wearing b.design (checkVacuum b s penetrating) := by
  unfold checkVacuum
  split
  · exact wearing_pure b.design _
  · refine wearing_bind b.design _ (wearing_vacuumRoll b penetrating) (fun breach => ?_)
    intro c
    apply settledAt_unit
    split
    · exact wearing_pure b.design _ c
    · refine settledAt_bind b.design _ _ (wearing_record b rfl c) ?_
      intro _ after hafter
      injection hafter with _ hafter
      subst hafter
      refine settledAt_bind b.design _ _ ?_
        (fun _ t _ => wearing_interlude b _ t)
      have hworn := expose_worn b.design s c.unit
      refine settledAt_ok b.design _ _ rfl (Quiet.wears b.design [] _ _ ?_)
      exact Quiet.ofWorn b.design _ _ hworn rfl rfl rfl

omit [DecidableEq Weapon] in
theorem quiet_ventDent (hit : Option ArmorHit) (absorbed : Nat) :
    Update.Within (Quiet b.design) (ventDent s hit absorbed) := by
  unfold ventDent
  split
  · split
    · exact quiet_wear b _ (fun m => dent_worn b.design m _ _)
    · exact Update.within_pure (quiet_journey b.design) ()
  · exact Update.within_pure (quiet_journey b.design) ()

omit [DecidableEq Weapon] in
theorem quiet_ventArmor (points : Nat) (hit : Option ArmorHit) : Update.Within (Quiet b.design) (do
      let armor ← damagePhase b s points (.Armor true)
      ventDent s hit armor.absorbed
      recordPhase b armor) := by
  intro c
  refine Update.within_bind_of (quiet_journey b.design) _ (quiet_armor b s _ true c) ?_
  intro armor after harmor
  exact Update.within_bind (quiet_journey b.design) _ (quiet_ventDent b s _ _)
    (fun _ => quiet_recordArmor b (armor_destroyed b harmor)) after

omit [DecidableEq Weapon] in
theorem quiet_chooseCritical : Update.Within (Quiet b.design) (chooseCritical b s) := by
  have hjourney := quiet_journey b.design
  refine Update.within_bind hjourney _ (quiet_unit b) (fun m => ?_)
  split
  · exact Update.within_pure hjourney _
  · split
    · exact Update.within_pure hjourney _
    · exact Update.within_bind hjourney _ (quiet_roll b _) (fun _ => Update.within_pure hjourney _)

omit [DecidableEq Weapon] in
theorem quiet_disregarded (vented : Bool) :
    Update.Within (Quiet b.design) (disregarded vented) := by
  have hjourney := quiet_journey b.design
  unfold disregarded
  split
  · exact Update.within_pure hjourney _
  · exact Update.within_bind hjourney _ (quiet_roll b _) (fun _ => Update.within_pure hjourney _)

theorem explosive_spec (locations : List CriticalLocation)
    (found : List (CriticalLocation × CriticalLoss)) (h : explosive b m locations = .ok found) :
    ∀ slot ∈ found, slot.1 ∈ locations ∧ ∃ i, slot.2.component = some i ∧
      i.Holds b.design slot.1 ∧ m.Primed b.design i := by
  induction locations generalizing found with
  | nil =>
      injection h with h
      subst h
      simp
  | cons location rest ih =>
      unfold explosive at h
      split at h
      · contradiction
      · rename_i loss hloss
        split at h
        · contradiction
        · rename_i later hlater
          injection h with h
          subst h
          intro slot hslot
          rcases List.mem_append.mp hslot with hslot | hslot
          · obtain ⟨l, hl, rfl⟩ := List.mem_map.mp hslot
            obtain ⟨hl, hexplosive⟩ := List.mem_filter.mp hl
            rw [Option.mem_toList] at hl
            rw [hl] at hloss
            obtain ⟨hat, hintact⟩ := Mech.criticalLoss_some b.design m location hloss
            exact ⟨List.mem_cons_self,
              Mech.primed_of_loss b.design m hat hintact (by simpa using hexplosive)⟩
          · obtain ⟨hmem, hi⟩ := ih later hlater slot hslot
            exact ⟨List.mem_cons_of_mem location hmem, hi⟩

omit [DecidableEq Weapon] in
theorem mem_candidates_place {s : MechSection} {location : CriticalLocation}
    (h : location ∈ m.criticalCandidates b.design s) : location.place = s := by
  obtain ⟨part, -, rfl⟩ := List.mem_map.mp (List.mem_filter.mp h).1
  rfl

theorem survey_spec (m n : Mech Weapon) (s : MechSection) (found : DestroyedLocation)
    (h : survey b m s = .ok found) (hz : n.internal s = 0) :
    ∀ i ∈ components found.explosive, m.Primed b.design i ∧ ¬ n.Primed b.design i := by
  unfold survey at h
  split at h
  · contradiction
  · rename_i slots hslots
    injection h with h
    subst h
    intro i hi
    obtain ⟨slot, hslot, hcomponent⟩ := (mem_components _ i).mp hi
    obtain ⟨hmem, j, hj, hholds, hprimed⟩ := explosive_spec b m _ slots hslots slot hslot
    rw [hcomponent] at hj
    rw [← Option.some.inj hj] at hholds hprimed
    refine ⟨hprimed, Mech.not_primed_of_destroyed b.design n hholds ?_⟩
    rw [Mech.criticalDestroyed_iff, mem_candidates_place b m hmem]
    exact Or.inr hz

theorem wearing_loseSystem (loss : CriticalLoss) : Wearing b.design (loseSystem b loss) := by
  cases loss with
  | Weapon index damage => exact wearing_pure b.design ()
  | Ammunition index rounds damage => exact wearing_pure b.design ()
  | System system => exact wearing_interlude b _

theorem wearing_unattributed {α : Type} {x : Cascade Weapon α} (h : Wearing b.design x) :
    Wearing b.design (unattributed x) := by
  intro c
  have hx := h { c with attacker := none }
  rw [SettledAt] at hx ⊢
  unfold unattributed
  cases hrun : x { c with attacker := none } with
  | ok a after =>
      rw [hrun] at hx
      exact ⟨hx.worn, rfl, hx.razes, hx.spends⟩
  | error e after =>
      rw [hrun] at hx
      exact ⟨hx.worn, rfl, hx.razes, hx.spends⟩

omit [DecidableEq Weapon] in
theorem quiet_blownOff (damage : Nat) : Update.Within (Quiet b.design) (do
      let phase ← damagePhase b s damage .Internal
      recordPhase b phase) := by
  have hphase := quiet_phase b s damage .Internal (fun _ => pure ())
    (fun _ => Update.within_pure (quiet_journey b.design) ())
  simp only [bind_pure_unit] at hphase
  exact hphase

theorem wearing_modifiedRoll (modifier : Int) : Wearing b.design (modifiedRoll modifier) :=
  wearing_bind b.design _ (wearing_roll b _) (fun _ => wearing_pure b.design _)

theorem wearing_intercept (amount : Nat) : Wearing b.design (intercept amount) := by
  unfold intercept
  refine wearing_bind b.design _ (wearing_unit b) (fun m => ?_)
  split
  · exact wearing_pure b.design _
  · refine wearing_bind b.design _ (wearing_roll b _) (fun roll => ?_)
    split
    · exact wearing_pure b.design _
    · refine wearing_bind b.design _ (wearing_record b rfl) (fun _ => ?_)
      exact wearing_bind b.design _
        (wearing_quiet b.design (quiet_wear b _ (wearCocoon_worn b.design amount)))
        (fun _ => wearing_pure b.design _)

end

section

variable [DecidableEq Weapon] (b : Battlefield Weapon)
  (path : DamagePacket Weapon → Cascade Weapon Course)
  (hpath : ∀ p, Wearing b.design (path p))

include hpath

variable (s : MechSection) (vented : Bool) (count : Nat) (modifiers : List Int)
  (destroyed : DestroyedLocation)

theorem wearing_ventExplosion (damage : Nat) :
    Wearing b.design (ventExplosion b path s damage) := by
  unfold ventExplosion
  refine wearing_bind b.design _ (hpath _) (fun _ => ?_)
  refine wearing_bind b.design _ (wearing_unit b) (fun m => ?_)
  split
  · exact wearing_pure b.design _
  · dsimp only
    split
    · exact wearing_pure b.design _
    · exact wearing_quiet b.design (quiet_ventArmor b s _ _)

theorem wearing_detonate (force : Nat) : Wearing b.design (detonate b path s force) := by
  unfold detonate
  split
  · exact wearing_throw b.design _
  · split
    · exact wearing_ventExplosion b path hpath s force
    · exact wearing_bind b.design _ (hpath _) (fun _ => wearing_pure b.design _)

theorem explode_settles (location : CriticalLocation) (loss : CriticalLoss)
    {pending left : List Component} (hs : left.Sublist pending)
    (hi : explosionDamage loss ≠ 0 → ∀ i, loss.component = some i →
      i ∈ pending ∧ (pending.Nodup → i ∉ left)) :
    Settles b.design pending (fun _ => left) (explode b path location loss) := by
  unfold explode
  split
  · exact settles_pure b.design pending _ () hs
  · rename_i hexplosive
    have hrest : Settles b.design left (fun _ => left) (do
        detonate b path (explosionSection b location loss) (explosionForce b loss)
        interlude b .ExplosionInjury) := by
      apply Wearing.carry
      exact wearing_bind b.design _ (wearing_detonate b path hpath _ _)
        (fun _ => wearing_interlude b _)
    cases hloss : loss.component with
    | none => exact absurd (CriticalLoss.component_none hloss) hexplosive
    | some i =>
        obtain ⟨hmem, hgone⟩ := hi hexplosive i hloss
        refine settles_bind b.design pending _ _ ?_ (fun _ => hrest)
        intro c
        rw [recordDetonation, hloss]
        refine settledAt_ok b.design _ _ rfl ?_
        exact Wears.detonated b.design pending left c i hmem hs hgone

-- A live slot takes its whole mount along before anything goes off.
theorem wearing_loseCritical (location : CriticalLocation) :
    Wearing b.design (loseCritical b path location) := by
  intro c
  apply settledAt_unit
  cases hstruck : c.unit.destroyCritical b.design location with
  | error e => exact wearing_throw b.design e c
  | ok struck =>
      obtain ⟨loss, n⟩ := struck
      rcases Mech.destroyCritical_cases b.design c.unit n location hstruck with
        ⟨rfl, rfl⟩ | ⟨loss, rfl, hloss⟩
      · exact wearing_pure b.design () c
      · have hworn := hloss.worn b.design c.unit n location loss
        -- the component that goes off, if the loss is explosive
        have hrest : ∀ pending, (explosionDamage loss ≠ 0 → ∀ i, loss.component = some i →
            i ∈ pending) → Settles b.design pending (fun _ => []) (do
              pushCritical location loss
              loseSystem b loss
              explode b path location loss) := by
          intro pending hi
          have hexplode := explode_settles b path hpath location loss
            (List.nil_sublist _) (fun he i hc => ⟨hi he i hc, fun _ => List.not_mem_nil⟩)
          refine settles_after b.design pending _ _
            (wearing_quiet b.design (quiet_pushCritical b location loss)) (fun _ => ?_)
          exact settles_after b.design pending _ _ (wearing_loseSystem b loss) (fun _ => hexplode)
        have hset : ∀ pending, Wears b.design [] pending c (c.setUnit n) →
            (explosionDamage loss ≠ 0 → ∀ i, loss.component = some i → i ∈ pending) →
            SettledAt b.design [] (fun _ => []) (do
              setUnit n
              pushCritical location loss
              loseSystem b loss
              explode b path location loss) c := by
          intro pending hwears hi
          exact settledAt_bind b.design _ _
            (settledAt_ok b.design _ _ rfl hwears) (fun _ after _ => hrest pending hi after)
        by_cases hquiet : explosionDamage loss = 0
        · have hwears : Quiet b.design c (c.setUnit n) := Quiet.ofWorn b.design c _ hworn rfl rfl rfl
          exact hset [] (hwears.wears b.design [] _ _) (fun he => absurd hquiet he)
        · obtain ⟨i, hcomponent, hholds, hprimed⟩ :=
            Mech.primed_of_loss b.design c.unit hloss.at' hloss.intact hquiet
          refine hset [i] (Wears.struck b.design c _ i hworn rfl rfl rfl hprimed ?_) ?_
          · exact hloss.not_primed b.design c.unit n hholds
          · intro _ j hj
            rw [hcomponent] at hj
            exact List.mem_singleton.mpr (Option.some.inj hj).symm

theorem wearing_strikeSlots : Wearing b.design (strikeSlots b path s vented count) := by
  induction count with
  | zero => exact wearing_pure b.design ()
  | succ count ih =>
      refine wearing_bind b.design _ (wearing_spend b) (fun _ => ?_)
      refine wearing_bind b.design _ (wearing_quiet b.design (quiet_disregarded b vented))
        (fun skip => ?_)
      split
      · exact ih
      · refine wearing_bind b.design _ (wearing_quiet b.design (quiet_chooseCritical b s))
          (fun location => ?_)
        cases location with
        | none => exact wearing_pure b.design ()
        | some location =>
            exact wearing_bind b.design _ (wearing_loseCritical b path hpath location) (fun _ => ih)

theorem wearing_resolveCriticals (vented : Bool) :
    Wearing b.design (resolveCriticals b path s count vented) := by
  refine wearing_bind b.design _ (wearing_unit b) (fun m => ?_)
  split
  · exact wearing_pure b.design ()
  · split
    · exact wearing_pure b.design ()
    · exact wearing_strikeSlots b path hpath _ vented count

theorem wearing_resolveDeterminingRoll (roll : Nat) (vented : Bool) :
    Wearing b.design (resolveDeterminingRoll b path s roll vented) := by
  unfold resolveDeterminingRoll
  split
  · refine wearing_bind b.design _ (wearing_record b rfl) (fun _ => ?_)
    refine wearing_bind b.design _ (wearing_unit b) (fun m => ?_)
    exact wearing_quiet b.design (quiet_blownOff b s (m.internal s))
  · exact wearing_resolveCriticals b path hpath s _ vented

theorem strikeDestroyed_settles :
    Settles b.design (components destroyed.explosive) (fun after => components after.explosive)
      (strikeDestroyed b path vented count destroyed) := by
  induction count generalizing destroyed with
  | zero => exact settles_pure b.design _ _ destroyed (List.Sublist.refl _)
  | succ count ih =>
      refine settles_after b.design _ _ _ (wearing_spend b) (fun _ => ?_)
      refine settles_after b.design _ _ _ (wearing_quiet b.design (quiet_disregarded b vented))
        (fun skip => ?_)
      split
      · exact ih destroyed
      · split
        · exact settles_pure b.design _ _ destroyed (List.Sublist.refl _)
        · refine settles_after b.design _ _ _ (wearing_roll b _) (fun index => ?_)
          split
          · exact settles_throw b.design _ _ _
          · rename_i location hlocation
            have hsub : (components (destroyed.explosive.filter
                (fun slot => slot.1 ≠ location))).Sublist (components destroyed.explosive) :=
              List.filter_sublist.filterMap _
            split
            · exact settles_drop b.design _ _ hsub (ih ⟨_, _⟩)
            · rename_i place loss hfound
              have hmem := List.mem_of_find?_eq_some hfound
              have hplace : place = location := by simpa using List.find?_some hfound
              subst hplace
              refine settles_after b.design _ _ _
                (wearing_quiet b.design (quiet_pushCritical b place loss)) (fun _ => ?_)
              refine settles_bind b.design _ _ _ ?_ (fun _ => ih ⟨_, _⟩)
              refine explode_settles b path hpath place loss hsub (fun _ i hi => ⟨?_, ?_⟩)
              · exact (mem_components _ i).mpr ⟨_, hmem, hi⟩
              · exact component_struck hmem hi

theorem resolveDestroyedLocationRoll_settles (roll : Nat)
    (destroyed : DestroyedLocation) (vented : Bool) :
    Settles b.design (components destroyed.explosive) (fun after => components after.explosive)
      (resolveDestroyedLocationRoll b path s roll destroyed vented) := by
  unfold resolveDestroyedLocationRoll
  extract_lets count
  refine settles_after b.design _ _ _ (wearing_unit b) (fun m => ?_)
  split
  · exact settles_pure b.design _ _ destroyed (List.Sublist.refl _)
  · exact strikeDestroyed_settles b path hpath vented _ destroyed

theorem destroyedRolls_settles : Settles b.design (components destroyed.explosive) (fun _ => [])
      (destroyedRolls b path s vented modifiers destroyed) := by
  induction modifiers generalizing destroyed with
  | nil => exact settles_pure b.design _ _ () (List.nil_sublist _)
  | cons modifier rest ih =>
      refine settles_after b.design _ _ _ (wearing_modifiedRoll b modifier) (fun roll => ?_)
      exact settles_bind b.design _ _ _
        (resolveDestroyedLocationRoll_settles b path hpath s roll destroyed vented)
        (fun after => ih after)

theorem wearing_survivingRolls : Wearing b.design (survivingRolls b path s vented modifiers) := by
  induction modifiers with
  | nil => exact wearing_pure b.design ()
  | cons modifier rest ih =>
      refine wearing_bind b.design _ (wearing_unit b) (fun m => ?_)
      split
      · exact wearing_pure b.design ()
      · refine wearing_bind b.design _ (wearing_modifiedRoll b modifier) (fun roll => ?_)
        exact wearing_bind b.design _ (wearing_resolveDeterminingRoll b path hpath s roll vented)
          (fun _ => ih)

theorem resolveLocationCriticals_settles (destroyed : Option DestroyedLocation) (vented : Bool) :
    Settles b.design (armed destroyed) (fun _ => [])
      (resolveLocationCriticals b path s modifiers destroyed vented) := by
  cases destroyed with
  | none => exact wearing_survivingRolls b path hpath s vented modifiers
  | some destroyed =>
      unfold resolveLocationCriticals
      dsimp only
      split
      · exact settles_pure b.design _ _ () (List.nil_sublist _)
      · exact destroyedRolls_settles b path hpath s vented modifiers destroyed

end

section

variable [DecidableEq Weapon] (b : Battlefield Weapon)

variable (p : DamagePacket Weapon) (s : MechSection) (w : Walk)

theorem surveyStage_cases (structural : Nat) (c : Context Weapon) :
    (∃ e, surveyStage b s structural c = .error e c) ∨ surveyStage b s structural c = .ok none c ∨
      ∃ found, survey b c.unit s = .ok found ∧
        surveyStage b s structural c = .ok (some found) (c.record (.Surveyed found)) := by
  unfold surveyStage
  rw [Update.bind_ok unit _ c c c.unit rfl]
  split
  · exact Or.inr (Or.inl rfl)
  · cases hfound : survey b c.unit s with
    | error e => exact Or.inl ⟨e, rfl⟩
    | ok found => exact Or.inr (Or.inr ⟨found, rfl, rfl⟩)

omit [DecidableEq Weapon] in
theorem quiet_breakStage (structural : Nat) (found : Option DestroyedLocation) :
    Update.Within (Quiet b.design) (breakStage b s structural found) :=
  quiet_phase b s structural .Internal _ (fun _ =>
    Update.within_bind (quiet_journey b.design) _ (quiet_unit b)
      (fun _ => Update.within_pure (quiet_journey b.design) _))

theorem structureStage_settles (damage : Nat) :
    Settles b.design [] (fun broken => armed broken.destroyed) (structureStage b s damage) := by
  intro c
  apply settledAt_unit
  split
  · exact settles_pure b.design [] _ (⟨none, damage, none⟩ : Broken) (List.Sublist.refl _) c
  · have hbreak := quiet_breakStage b s (Mech.structureDamage b.design damage)
    rcases surveyStage_cases b s (Mech.structureDamage b.design damage) c with
      ⟨e, herror⟩ | hnone | ⟨found, hfound, hsome⟩
    · refine settledAt_error b.design _ _ (Update.bind_error _ _ c herror) ?_
      exact Wears.drop b.design [] [] c (List.Sublist.refl _)
    · rw [SettledAt, Update.bind_ok _ _ c c none hnone]
      split
      · rename_i broken after hrun
        have hquiet := hbreak none c
        rw [Update.after, hrun] at hquiet
        rw [breakStage_destroyed hrun]
        exact hquiet.wears b.design [] _ _
      · rename_i e after hrun
        have hquiet := hbreak none c
        rw [Update.after, hrun] at hquiet
        exact hquiet.wears b.design [] _ _
    · have hquiet := hbreak (some found) (c.record (.Surveyed found))
      have hrecord : Wears b.design [] [] c (c.record (.Surveyed found)) :=
        (wearing_record b rfl) c
      rw [Update.after] at hquiet
      rw [SettledAt, Update.bind_ok _ _ c _ (some found) hsome]
      split
      · rename_i broken after hrun
        rw [hrun] at hquiet
        rw [breakStage_destroyed hrun]
        by_cases hzero : after.unit.internal s = 0
        · have hspec := survey_spec b c.unit after.unit s found hfound hzero
          simp only [Option.filter_some, hzero, decide_true, ↓reduceIte, armed]
          exact Wears.surveyed b.design c after hquiet (fun i hi => (hspec i hi).1)
            (fun i hi => (hspec i hi).2)
        · simp only [Option.filter_some, hzero, decide_false, Bool.false_eq_true, ↓reduceIte, armed]
          exact hrecord.trans b.design [] [] [] _ _ _ (hquiet.wears b.design [] _ _)
      · rename_i e after hrun
        rw [hrun] at hquiet
        exact hrecord.trans b.design [] [] [] _ _ _ (hquiet.wears b.design [] _ _)

omit [DecidableEq Weapon] in
theorem quiet_dentStage (facing : ArmorFacing) (special : Option ArmorHit) :
    Update.Within (Quiet b.design) (dentStage facing special) := by
  unfold dentStage
  split
  · exact quiet_wear b _ (fun m => dent_worn b.design m _ _)
  · exact Update.within_pure (quiet_journey b.design) ()

omit [DecidableEq Weapon] in
theorem quiet_armorStage : Update.Within (Quiet b.design) (armorStage b p w) := by
  have hjourney := quiet_journey b.design
  unfold armorStage
  split
  · exact Update.within_pure hjourney _
  · refine Update.within_bind hjourney _ (quiet_unit b) (fun m => ?_)
    extract_lets special
    intro c
    refine Update.within_bind_of hjourney _ (quiet_armor b w.place _ p.rear c) ?_
    intro armor after harmor
    have hrecord := quiet_recordArmor b (armor_destroyed b harmor)
    have hrest := Update.within_bind hjourney _ hrecord (fun _ => Update.within_pure hjourney
      (⟨armor.absorbed, (special.map ArmorHit.overflow).getD armor.remaining⟩ : Struck))
    exact Update.within_bind hjourney _ (quiet_dentStage b _ special) (fun _ => hrest) after

theorem wearing_vacuumStage (penetrating : Bool)
    (damage : Nat) : Wearing b.design (vacuumStage b p s penetrating damage) := by
  refine wearing_bind b.design _ (wearing_unit b) (fun m => ?_)
  split
  · split
    · exact wearing_pure b.design ()
    · exact wearing_checkVacuum b s false
  · split
    · exact wearing_checkVacuum b s penetrating
    · exact wearing_pure b.design ()

theorem wearing_checkHullBreach : Wearing b.design (checkHullBreach b p w) := by
  refine wearing_bind b.design _ (wearing_unit b) (fun m => ?_)
  split
  · exact wearing_pure b.design ()
  · exact wearing_interlude b _

theorem wearing_headStage : Wearing b.design (headStage b s) := by
  unfold headStage
  split
  · exact wearing_interlude b _
  · exact wearing_pure b.design ()

theorem wearing_plasmaStage : Wearing b.design (plasmaStage p w) := by
  unfold plasmaStage
  split
  · refine wearing_bind b.design _ (wearing_roll b _) (fun heat => wearing_quiet b.design ?_)
    exact quiet_modify b _ (fun _ => Mech.Worn.refl _ _) (fun _ => rfl) (fun _ => rfl) (fun _ => rfl)
  · exact wearing_pure b.design ()

theorem wearing_protects : Wearing b.design (protects b w) := by
  unfold protects
  split
  · exact wearing_pure b.design _
  · exact wearing_quiet b.design (quiet_enterDamage b)

theorem wearing_ignition : Wearing b.design (ignition b s) := by
  refine wearing_bind b.design _ (wearing_unit b) (fun m => ?_)
  split
  · exact wearing_pure b.design _
  · split
    · exact wearing_pure b.design _
    · refine wearing_bind b.design _ (wearing_roll b _) (fun index => ?_)
      extract_lets bin
      split
      · exact wearing_throw b.design _
      · exact wearing_pure b.design _

omit [DecidableEq Weapon] in
theorem endDumping_worn (d : Design Weapon) (i : Nat) (m : Mech Weapon) :
    Mech.Worn d m (endDumping i m) := by
  have hframe : Mech.Frame m (endDumping i m) := ⟨rfl, rfl, rfl, rfl, rfl, rfl, rfl⟩
  apply Mech.Worn.ofFrame d hframe
  · exact Finset.Subset.refl _
  · exact fun t => Nat.le_refl _
  · exact fun t ht => Or.inl ht
  · intro j
    show Function.update m.ammunition i (m.ammunition i - 1) j ≤ m.ammunition j
    by_cases h : j = i
    · rw [h, Function.update_self]
      exact Nat.sub_le _ _
    · rw [Function.update_of_ne h]

end

section

variable [DecidableEq Weapon] (b : Battlefield Weapon)
  (path : DamagePacket Weapon → Cascade Weapon Course)
  (hpath : ∀ p, Wearing b.design (path p))

include hpath

variable (p : DamagePacket Weapon) (w : Walk)

theorem aftermath_settles (penetrating : Bool)
    (modifiers : List Int) (broken : Broken) (later : Walk) :
    Settles b.design (armed broken.destroyed) (fun _ => [])
      (aftermath b path p w penetrating modifiers broken later) := by
  refine settles_bind b.design _ _ _
    (resolveLocationCriticals_settles b path hpath w.place _ broken.destroyed p.vented) (fun _ => ?_)
  refine wearing_bind b.design _ (wearing_checkHullBreach b p w) (fun _ => ?_)
  exact wearing_bind b.design _ (wearing_vacuumStage b p w.place _ _)
    (fun _ => wearing_pure b.design _)

theorem wearing_material : Wearing b.design (material b path p w) := by
  refine wearing_bind b.design _ (wearing_headStage b _) (fun _ => ?_)
  refine wearing_bind b.design _ (wearing_quiet b.design (quiet_armorStage b p w))
    (fun armor => ?_)
  refine wearing_bind b.design _ (wearing_unit b) (fun m => ?_)
  extract_lets armorLeft penetrating
  exact settles_bind b.design [] _ _ (structureStage_settles b w.place _)
    (fun broken => aftermath_settles b path hpath p w _ _ broken _)

theorem wearing_iteration : Wearing b.design (iteration b path p w) := by
  refine wearing_bind b.design _ (wearing_spend b) (fun _ => ?_)
  refine wearing_bind b.design _ (wearing_protects b w) (fun suppressed => ?_)
  split
  · exact wearing_pure b.design _
  · refine wearing_bind b.design _ (wearing_unit b) (fun m => ?_)
    split
    · exact wearing_pure b.design _
    · refine wearing_bind b.design _ (wearing_intercept b _) (fun intercepted => ?_)
      split
      · exact wearing_pure b.design _
      · exact wearing_bind b.design _ (wearing_material b path hpath p w)
          (fun later => wearing_pure b.design _)

theorem wearing_resolveDumpIgnition (s : MechSection) :
    Wearing b.design (resolveDumpIgnition b path s) := by
  refine wearing_bind b.design _ (wearing_ignition b s) (fun found => ?_)
  split
  · exact wearing_pure b.design ()
  · refine wearing_bind b.design _ (wearing_record b rfl) (fun _ => ?_)
    refine wearing_bind b.design _ (wearing_unattributed b (hpath _)) (fun _ => ?_)
    exact wearing_quiet b.design (quiet_modify b _ (fun c => endDumping_worn b.design _ c.unit)
      (fun _ => rfl) (fun _ => rfl) (fun _ => rfl))

theorem wearing_igniteStage : Wearing b.design (igniteStage b path w) := by
  unfold igniteStage
  split
  · exact wearing_pure b.design ()
  · exact wearing_resolveDumpIgnition b path hpath _

theorem wearing_finish : Wearing b.design (finish b path p w) := by
  refine wearing_bind b.design _ (wearing_plasmaStage b p w) (fun _ => ?_)
  exact wearing_bind b.design _ (wearing_igniteStage b path hpath w)
    (fun _ => wearing_pure b.design _)

end

section

variable [DecidableEq Weapon] (b : Battlefield Weapon)

-- On the fuel: nested packets and later sections have less of it.
theorem wearing_walkFrom (fuel : Nat) (p : DamagePacket Weapon) (w : Walk) :
    Wearing b.design (walkFrom b fuel p w) := by
  induction fuel generalizing p w with
  | zero => exact wearing_throw b.design _
  | succ fuel ih =>
      unfold walkFrom
      have hpath : ∀ nested : DamagePacket Weapon,
          Wearing b.design (walkFrom b fuel nested nested.start) := fun nested => ih nested _
      split
      · exact wearing_finish b _ hpath p w
      · refine wearing_bind b.design _ (wearing_iteration b _ hpath p w) (fun flow => ?_)
        cases flow with
        | Return course => exact wearing_pure b.design course
        | Break later => exact wearing_finish b _ hpath p later
        | Next later => exact ih p later

theorem wearing_resolvePacket (hit : Hit) (damage : Nat) (effect : Option (WeaponEffect Weapon))
    (penalty : Nat) : Wearing b.design (resolvePacket b hit damage effect penalty) := by
  refine wearing_bind b.design _ (wearing_quiet b.design (quiet_enterDamage b))
    (fun protects => ?_)
  split
  · exact wearing_pure b.design _
  · split
    · exact wearing_pure b.design _
    · exact wearing_bind b.design _ (wearing_walkFrom b _ _ _) (fun _ => wearing_pure b.design _)

-- What one impact did, from its hit to the last nested explosion.
def impact (m : Mech Weapon) (attacker : Option Nat) (hit : Hit) (damage : Nat)
    (effect : Option (WeaponEffect Weapon)) (penalty : Nat) : Context Weapon :=
  (resolvePacket b hit damage effect penalty).after (Context.start m attacker)

-- Every detonation is of a component that was intact and loaded, and its only one.
def DetonatesOnce (d : Design Weapon) (m : Mech Weapon) (events : List Event) : Prop :=
  (detonations events).Nodup ∧ ∀ i ∈ detonations events, m.Primed d i

theorem impact_detonatesOnce (m : Mech Weapon) (attacker : Option Nat) (hit : Hit) (damage : Nat)
    (effect : Option (WeaponEffect Weapon)) (penalty : Nat)
    (hs : Sparse (impact b m attacker hit damage effect penalty).trace) :
    DetonatesOnce b.design m (impact b m attacker hit damage effect penalty).trace := by
  have hwears := (wearing_resolvePacket b hit damage effect penalty).after b.design _
    (Context.start m attacker)
  obtain ⟨events, htrace, hspends⟩ := hwears.spends
  have hevents : (impact b m attacker hit damage effect penalty).trace = events := htrace
  rw [hevents] at hs ⊢
  obtain ⟨-, hused⟩ := hspends ⟨List.nodup_nil, by simp⟩ hs
  refine ⟨hused.once, fun i hi => ?_⟩
  rcases (hused.taken i hi).1 with hprimed | hpending
  · exact hprimed
  · contradiction

end

-- A Gauss rifle of seven slots in the left torso, and a machine gun's bin in the left arm.
inductive Armament
  | GaussRifle | MachineGun
  deriving DecidableEq

def armory : Catalog Armament where
  profile := fun w => match w with
    | .GaussRifle => ⟨15, 1⟩
    | .MachineGun => ⟨2, 1⟩
  profileForAmmunition := fun w _ => match w with
    | .GaussRifle => ⟨15, 1⟩
    | .MachineGun => ⟨2, 1⟩
  weaponExplosionDamage := fun w => match w with
    | .GaussRifle => 20
    | .MachineGun => 0
  isBPod := fun _ => false
  isRotary := fun _ => false
  isMml := fun _ => false
  isPlasma := fun _ => false
  isINarcBeacon := fun _ => false
  armorPiercingPenalty := fun _ => 0

theorem emptySlots_sorted :
    ([] : List (Nat × CriticalDefinition)).Pairwise (fun a b => a.1 < b.1) := .nil

def emptySlots : Slots := ⟨[], emptySlots_sorted⟩

def oneSlot : Slots := ⟨[(0, ⟨none, []⟩)], by decide⟩

def sevenSlots : Slots := ⟨(List.range 7).map (fun slot => (slot, ⟨none, []⟩)), by decide⟩

def gunner : Design Armament where
  catalog := armory
  sections := fun s =>
    match s with
    | .LeftTorso => ⟨10, 12, 4, sevenSlots⟩
    | .LeftArm => ⟨8, 8, 0, oneSlot⟩
    | _ => ⟨16, 16, 5, emptySlots⟩
  specials := []
  loadout := {
    weapons := [⟨.GaussRifle, (List.range 7).map (fun slot => ⟨.LeftTorso, slot⟩)⟩]
    ammunition := [⟨⟨.LeftArm, 0⟩, .MachineGun, .Normal⟩]
    systems := [] }

-- Undamaged, with dice that always show the same.
def gunnerAt (face : Nat) : Mech Armament where
  sections := fun s => ⟨(gunner.sections s).armor, (gunner.sections s).internal, 4⟩
  lostCriticals := ∅
  ammunition := fun _ => 5
  ammunitionModes := fun _ => .Normal
  fireModes := fun _ => .Normal
  jammedWeapons := ∅
  weaponFailures := fun _ => none
  poweredDownWeapons := ∅
  floodedSections := ∅
  breachedSections := ∅
  hardenedDents := ∅
  beacons := ∅
  combatSafe := false
  dumping := none
  cocoon := none
  transportDestroyed := false
  pilotKilled := false
  characterPilotKilled := false
  power := .Running
  pilot := none
  targetLock := none
  selfDestruct := none
  dice := fun _ => face - 1

def openField : Battlefield Armament := ⟨gunner, none, fun _ => false, false⟩

-- The bin goes off with the arm it is in.
theorem impact_detonatesOnce_bin :
    DetonatesOnce gunner (gunnerAt 4)
      (impact openField (gunnerAt 4) none ⟨.LeftArm, false, false⟩ 16 none 0).trace ∧
    detonations (impact openField (gunnerAt 4) none ⟨.LeftArm, false, false⟩ 16 none 0).trace =
      [.Bin 0, .Weapon 0] := by
  refine ⟨impact_detonatesOnce openField (gunnerAt 4) none ⟨.LeftArm, false, false⟩ 16 none 0 ?_, ?_⟩
  · decide +kernel
  · decide +kernel

-- A structure roll of 12 as the torso goes strikes the rifle three times.
theorem impact_detonates_again :
    ¬ DetonatesOnce gunner (gunnerAt 6)
      (impact openField (gunnerAt 6) none ⟨.LeftTorso, false, false⟩ 22 none 0).trace := by
  have hagain : detonations
      (impact openField (gunnerAt 6) none ⟨.LeftTorso, false, false⟩ 22 none 0).trace =
        [.Weapon 0, .Weapon 0, .Weapon 0] := by decide +kernel
  rintro ⟨honce, -⟩
  rw [hagain] at honce
  revert honce
  decide

end StompyMux.Impact
