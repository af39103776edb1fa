import StompyMux.Impact.Conservation

-- What the dice decide about a unit that is immune to critical hits.
namespace StompyMux.Impact

open Library
open StompyMux.Btech

variable {Weapon : Type}

-- Events that only some dice bring about.
def Event.diced : Event → Bool
  | .BlownOff _ | .Ignited _ | .Intercepted | .Breached _ => true
  | _ => false

def Undiced (events : List Event) : Prop := ∀ event ∈ events, event.diced = false

def withDice (m : Mech Weapon) (dice : Dice) : Mech Weapon := { m with dice := dice }

-- Two units that differ in their dice alone.
def SameBut (m n : Mech Weapon) : Prop := ∃ dice, n = withDice m dice

theorem SameBut.refl (m : Mech Weapon) : SameBut m m := ⟨m.dice, rfl⟩

theorem SameBut.symm (m n : Mech Weapon) (h : SameBut m n) : SameBut n m := by
  obtain ⟨dice, rfl⟩ := h
  exact ⟨m.dice, rfl⟩

theorem SameBut.trans (m n o : Mech Weapon) (h : SameBut m n) (h' : SameBut n o) : SameBut m o := by
  obtain ⟨dice, rfl⟩ := h
  obtain ⟨later, rfl⟩ := h'
  exact ⟨later, rfl⟩

-- Damage looks at no dice.
section

variable (d : Design Weapon) (m : Mech Weapon) (dice : Dice)

theorem withDice_reconcileDamage :
    (withDice m dice).reconcileDamage d = withDice (m.reconcileDamage d) dice := by
  unfold Mech.reconcileDamage
  rw [apply_ite (fun n : Mech Weapon => withDice n dice)]
  rfl

theorem withDice_floodSection (underwater : MechSection → Bool) (s : MechSection) :
    floodSection d underwater s (withDice m dice) = withDice (floodSection d underwater s m) dice := by
  unfold floodSection
  rw [apply_ite (fun n : Mech Weapon => withDice n dice)]
  let flooded := { m with
    floodedSections := insert s m.floodedSections
    ammunition := Mech.emptyBins d s m.ammunition }
  exact if_congr Iff.rfl (withDice_reconcileDamage d flooded dice) rfl

theorem withDice_clearDestroyedSection (s : MechSection) :
    (withDice m dice).clearDestroyedSection d s =
      (withDice (m.clearDestroyedSection d s).1 dice, (m.clearDestroyedSection d s).2) := by
  unfold Mech.clearDestroyedSection
  cases s.arm with
  | none => rfl
  | some arm =>
      dsimp only
      by_cases h : (m.clearSection d s).internal arm ≠ 0
      · rw [if_pos h, if_pos (show ((withDice m dice).clearSection d s).internal arm ≠ 0 from h)]
        rfl
      · rw [if_neg h, if_neg (show ¬ ((withDice m dice).clearSection d s).internal arm ≠ 0 from h)]
        rfl

theorem withDice_dropDent (s : MechSection) (phase : DamagePhase) :
    (withDice m dice).dropDent s phase = withDice (m.dropDent s phase) dice := by
  cases phase with
  | Internal => rfl
  | Armor rear =>
      unfold Mech.dropDent
      dsimp only
      by_cases h : m.protection s (.Armor rear) = 0
      · rw [if_pos h, if_pos (show (withDice m dice).protection s (.Armor rear) = 0 from h)]
        rfl
      · rw [if_neg h, if_neg (show ¬ (withDice m dice).protection s (.Armor rear) = 0 from h)]

theorem withDice_collapse (s : MechSection) (phase : DamagePhase) :
    (withDice m dice).collapse d s phase =
      (withDice (m.collapse d s phase).1 dice, (m.collapse d s phase).2) := by
  unfold Mech.collapse
  by_cases h : phase = .Internal ∧ m.internal s = 0
  · rw [if_pos h, if_pos (show phase = .Internal ∧ (withDice m dice).internal s = 0 from h)]
    exact withDice_clearDestroyedSection d m dice s
  · rw [if_neg h, if_neg (show ¬ (phase = .Internal ∧ (withDice m dice).internal s = 0) from h)]

theorem withDice_damagePhase (s : MechSection) (amount : Nat) (phase : DamagePhase) :
    (withDice m dice).damagePhase d s amount phase =
      ((m.damagePhase d s amount phase).1, withDice (m.damagePhase d s amount phase).2 dice) := by
  unfold Mech.damagePhase
  by_cases h : amount = 0 ∨ m.internal s = 0
  · rw [if_pos h, if_pos (show amount = 0 ∨ (withDice m dice).internal s = 0 from h)]
    rfl
  · rw [if_neg h, if_neg (show ¬ (amount = 0 ∨ (withDice m dice).internal s = 0) from h)]
    dsimp only
    have hset : ∀ value, (withDice m dice).setProtection s phase value =
        withDice (m.setProtection s phase value) dice := fun _ => rfl
    rw [hset, withDice_dropDent, withDice_collapse, withDice_reconcileDamage]
    rfl

end

structure Alike (c c' : Context Weapon) : Prop where
  unit : SameBut c.unit c'.unit
  attacker : c'.attacker = c.attacker
  work : c'.work = c.work

theorem Alike.trans (c c' c'' : Context Weapon) (h : Alike c c') (h' : Alike c' c'') :
    Alike c c'' where
  unit := h.unit.trans _ _ _ h'.unit
  attacker := h'.attacker.trans h.attacker
  work := h'.work.trans h.work

theorem Alike.symm (c c' : Context Weapon) (h : Alike c c') : Alike c' c where
  unit := h.unit.symm
  attacker := h.attacker.symm
  work := h.work.symm

def Clean (c : Context Weapon) : Prop := Undiced c.trace

-- Both runs go the same way, whatever the dice, unless an event was diced.
abbrev Twins {α β : Type} (S : α → β → Prop) (x : Cascade Weapon α) (y : Cascade Weapon β) : Prop :=
  Update.Twin Alike Clean S x y

-- The program succeeds and changes no more than the dice, unless an event was diced.
def Steady {α : Type} (Q : α → Prop) (x : Cascade Weapon α) : Prop :=
  ∀ c, Clean (x.after c) → ∃ a after, x c = .ok a after ∧ Q a ∧ Alike c after

abbrev Tidy {α : Type} (x : Cascade Weapon α) : Prop := Update.Tidy Clean x

section

variable {α β : Type}

theorem Steady.twins {Q : α → Prop} {P : β → Prop} {x : Cascade Weapon α} {y : Cascade Weapon β}
    (hx : Steady Q x) (hy : Steady P y) : Twins (fun a b => Q a ∧ P b) x y := by
  intro c c' hc hclean hclean'
  obtain ⟨a, after, hrun, ha, hafter⟩ := hx c hclean
  obtain ⟨b, after', hrun', hb, hafter'⟩ := hy c' hclean'
  exact Or.inl ⟨a, b, after, after', hrun, hrun', ⟨ha, hb⟩,
    (hafter.symm.trans _ _ _ hc).trans _ _ _ hafter'⟩

theorem steady_pure {Q : α → Prop} {a : α} (h : Q a) : Steady Q (pure a : Cascade Weapon α) :=
  fun c _ => ⟨a, c, rfl, h, SameBut.refl _, rfl, rfl⟩

theorem steady_bind {Q : α → Prop} {T : β → Prop} {x : Cascade Weapon α}
    {f : α → Cascade Weapon β} (hx : Steady Q x) (hf : ∀ a, Q a → Steady T (f a))
    (tf : ∀ a, Tidy (f a)) : Steady T (x >>= f) := by
  intro c hclean
  obtain ⟨a, after, hrun, ha, hafter⟩ := hx c (Update.tidy_first tf hclean)
  rw [Update.after, Update.bind_ok x f c after a hrun, ← Update.after] at hclean
  obtain ⟨b, last, hlast, hb, halike⟩ := hf a ha after hclean
  exact ⟨b, last, (Update.bind_ok x f c after a hrun).trans hlast, hb, hafter.trans _ _ _ halike⟩

theorem steady_record {event : Event} (he : event.diced = true) (Q : α → Prop)
    (f : Unit → Cascade Weapon α) (tf : ∀ a, Tidy (f a)) : Steady Q (record event >>= f) := by
  intro c hclean
  have hrecord : Clean (c.record event) := Update.tidy_first tf hclean
  have hdiced := hrecord event (List.mem_append_right _ (List.mem_singleton_self event))
  rw [he] at hdiced
  contradiction

theorem Settles.tidy [DecidableEq Weapon] (d : Design Weapon) (pending : List Component)
    (left : α → List Component) (x : Cascade Weapon α) (h : Settles d pending left x) : Tidy x := by
  intro c hclean event hevent
  have hc := h c
  rw [SettledAt] at hc
  rw [Update.after] at hclean
  split at hc
  · rename_i a after hrun
    obtain ⟨events, htrace, -⟩ := hc.spends
    rw [hrun] at hclean
    exact hclean event (htrace ▸ List.mem_append_left _ hevent)
  · rename_i e after hrun
    obtain ⟨events, htrace, -⟩ := hc.spends
    rw [hrun] at hclean
    exact hclean event (htrace ▸ List.mem_append_left _ hevent)

theorem Wearing.tidy [DecidableEq Weapon] (d : Design Weapon) (x : Cascade Weapon α)
    (h : Wearing d x) : Tidy x := Settles.tidy d [] (fun _ => []) x h

theorem steady_unit : Steady (fun _ => True) (unit : Cascade Weapon (Mech Weapon)) :=
  fun c _ => ⟨c.unit, c, rfl, trivial, SameBut.refl _, rfl, rfl⟩

theorem steady_roll (draw : Dice → Nat × Dice) (Q : Nat → Prop) (hq : ∀ dice, Q (draw dice).1) :
    Steady Q (roll draw : Cascade Weapon Nat) :=
  fun _ _ => ⟨_, _, rfl, hq _, ⟨_, rfl⟩, rfl, rfl⟩

end

theorem tidy_pure {α : Type} (a : α) : Tidy (pure a : Cascade Weapon α) := fun _ h => h

theorem steady_dice (draw : Dice → Nat × Dice) :
    Steady (fun _ => True) (roll draw : Cascade Weapon Nat) :=
  steady_roll draw _ (fun _ => trivial)

theorem steady_modifiedRoll (modifier : Int) :
    Steady (fun _ => True) (modifiedRoll modifier : Cascade Weapon Nat) :=
  steady_bind (steady_dice _) (fun _ _ => steady_pure trivial) (fun _ => tidy_pure _)

theorem steady_vacuumRoll (penetrating : Bool) :
    Steady (fun _ => True) (vacuumRoll penetrating : Cascade Weapon Bool) := by
  unfold vacuumRoll
  split
  · exact steady_pure trivial
  · exact steady_bind (steady_dice _) (fun _ _ => steady_pure trivial)
      (fun _ => tidy_pure _)

theorem tidy_dice (draw : Dice → Nat × Dice) : Tidy (roll draw : Cascade Weapon Nat) :=
  fun _ h => h

theorem tidy_record (event : Event) : Tidy (record event : Cascade Weapon Unit) :=
  fun _ h other hother => h other (List.mem_append_left _ hother)

theorem steady_plasmaStage (p : DamagePacket Weapon) (w : Walk) :
    Steady (fun _ => True) (plasmaStage p w) := by
  unfold plasmaStage
  split
  · refine steady_bind (steady_dice _) (fun heat _ => ?_) (fun heat c h => h)
    exact fun c _ => ⟨(), _, rfl, trivial, SameBut.refl _, rfl, rfl⟩
  · exact steady_pure trivial

theorem steady_intercept (amount : Nat) :
    Steady (fun r => r = false) (intercept amount : Cascade Weapon Bool) := by
  have hbreach : Tidy (do
      modify (fun c => c.setUnit (wearCocoon amount c.unit))
      return true : Cascade Weapon Bool) := fun c h => h
  have hrolled : ∀ roll : Nat, Tidy (if roll ≤ 8 then return false
      else do
        record .Intercepted
        modify (fun c => c.setUnit (wearCocoon amount c.unit))
        return true : Cascade Weapon Bool) := by
    intro roll
    split
    · exact tidy_pure _
    · exact Update.tidy_bind _ (tidy_record _) (fun _ => hbreach)
  refine steady_bind steady_unit (fun m _ => ?_) (fun m => ?_)
  · split
    · exact steady_pure rfl
    · refine steady_bind (steady_dice _) (fun roll _ => ?_) hrolled
      split
      · exact steady_pure rfl
      · exact steady_record rfl _ _ (fun _ => hbreach)
  · split
    · exact tidy_pure _
    · exact Update.tidy_bind _ (tidy_dice _) hrolled

section

variable (b : Battlefield Weapon)

theorem mem_dumpBins [DecidableEq Weapon] {m : Mech Weapon} {selection : DumpSelection Weapon}
    {i : Nat} (h : i ∈ dumpBins b m selection) :
    ∃ bin, b.design.loadout.ammunition[i]? = some bin := by
  have hbin : b.design.loadout.ammunition[i]?.any (fun bin =>
      DumpSelection.matchesBin selection bin && 0 < m.ammunition i &&
        !m.criticalUnavailable bin.location) = true := by
    unfold dumpBins at h
    split at h
    · exact (List.mem_filter.mp (List.mem_reverse.mp h)).2
    · exact (List.mem_filter.mp (List.mem_reverse.mp h)).2
    · exact (List.mem_filter.mp h).2
    · exact (List.mem_filter.mp h).2
  cases hget : b.design.loadout.ammunition[i]? with
  | none => simp [hget] at hbin
  | some bin => exact ⟨bin, rfl⟩

-- Whatever bin the dice choose, it exists.
theorem steady_ignition [DecidableEq Weapon] (s : MechSection) :
    Steady (fun _ => True) (ignition b s) := by
  refine steady_bind steady_unit (fun m _ => ?_) (fun m => ?_)
  · split
    · exact steady_pure trivial
    · rename_i selection hselection
      split
      · exact steady_pure trivial
      · rename_i hbins
        have hlength : 0 < (dumpBins b m selection).length := List.length_pos_iff.mpr hbins
        refine steady_bind (Q := fun i => i - 1 < (dumpBins b m selection).length)
          (steady_roll _ _ (fun dice => Nat.mod_lt _ hlength)) (fun index hindex => ?_) (fun index => ?_)
        · extract_lets bin
          obtain ⟨found, hfound⟩ := mem_dumpBins b (List.getElem_mem hindex)
          have hbin : bin = some (dumpBins b m selection)[index - 1] :=
            List.getElem?_eq_getElem hindex
          rw [hbin, Option.bind_some, hfound]
          exact steady_pure trivial
        · extract_lets bin
          split
          · exact fun c h => h
          · exact tidy_pure _
  · split
    · exact tidy_pure _
    · split
      · exact tidy_pure _
      · refine Update.tidy_bind _ (tidy_dice _) (fun index => ?_)
        extract_lets bin
        split
        · exact fun c h => h
        · exact tidy_pure _

end

-- An immune unit takes no critical hits.
section

variable [DecidableEq Weapon] (b : Battlefield Weapon) (himmune : b.design.critProof = true)
  (path : DamagePacket Weapon → Cascade Weapon Course)
  (hpath : ∀ p, Wearing b.design (path p))

include himmune hpath

omit [DecidableEq Weapon] hpath in
theorem immune_critProof (m : Mech Weapon) : immune b m = true := by
  rw [immune, himmune, Bool.or_true]

omit hpath in
theorem steady_resolveCriticals (s : MechSection) (count : Nat) (vented : Bool) :
    Steady (fun _ => True) (resolveCriticals b path s count vented) := by
  intro c hclean
  refine ⟨(), c, ?_, trivial, SameBut.refl _, rfl, rfl⟩
  unfold resolveCriticals
  rw [Update.bind_ok unit _ c c c.unit rfl, if_pos (Or.inr (immune_critProof b himmune c.unit))]
  rfl

omit hpath in
theorem steady_resolveDeterminingRoll (s : MechSection) (roll : Nat) (vented : Bool) :
    Steady (fun _ => True) (resolveDeterminingRoll b path s roll vented) := by
  unfold resolveDeterminingRoll
  split
  · apply steady_record rfl
    intro _
    apply Wearing.tidy b.design
    refine wearing_bind b.design _ (wearing_unit b) (fun m => ?_)
    exact wearing_quiet b.design (quiet_blownOff b s (m.internal s))
  · exact steady_resolveCriticals b himmune path s _ vented

theorem steady_survivingRolls (s : MechSection) (vented : Bool) (modifiers : List Int) :
    Steady (fun _ => True) (survivingRolls b path s vented modifiers) := by
  induction modifiers with
  | nil => exact steady_pure trivial
  | cons modifier rest ih =>
      have hrest : ∀ roll, Tidy (do
          resolveDeterminingRoll b path s roll vented
          survivingRolls b path s vented rest) := by
        intro roll
        apply Wearing.tidy b.design
        exact wearing_bind b.design _ (wearing_resolveDeterminingRoll b path hpath s roll vented)
          (fun _ => wearing_survivingRolls b path hpath s vented rest)
      refine steady_bind steady_unit (fun m _ => ?_) (fun m => ?_)
      · split
        · exact steady_pure trivial
        · refine steady_bind (steady_modifiedRoll modifier) (fun roll _ => ?_) hrest
          exact steady_bind (steady_resolveDeterminingRoll b himmune path s roll vented)
            (fun _ _ => ih)
            (fun _ => (wearing_survivingRolls b path hpath s vented rest).tidy b.design _)
      · split
        · exact tidy_pure _
        · exact Update.tidy_bind _ ((wearing_modifiedRoll b modifier).tidy b.design _) hrest

omit hpath in
omit [DecidableEq Weapon] in
theorem steady_resolveDestroyedLocationRoll (s : MechSection) (roll : Nat)
    (destroyed : DestroyedLocation) (vented : Bool) :
    Steady (fun after => after = destroyed)
      (resolveDestroyedLocationRoll b path s roll destroyed vented) := by
  intro c hclean
  refine ⟨destroyed, c, ?_, rfl, SameBut.refl _, rfl, rfl⟩
  unfold resolveDestroyedLocationRoll
  rw [Update.bind_ok unit _ c c c.unit rfl, if_pos (Or.inr (immune_critProof b himmune c.unit))]
  rfl

theorem steady_destroyedRolls (s : MechSection) (vented : Bool) (modifiers : List Int)
    (destroyed : DestroyedLocation) :
    Steady (fun _ => True) (destroyedRolls b path s vented modifiers destroyed) := by
  induction modifiers generalizing destroyed with
  | nil => exact steady_pure trivial
  | cons modifier rest ih =>
      have htail : ∀ after, Tidy (destroyedRolls b path s vented rest after) := fun after =>
        (destroyedRolls_settles b path hpath s vented rest after).tidy b.design _ _ _
      have hrest : ∀ roll, Tidy (do
          let destroyed ← resolveDestroyedLocationRoll b path s roll destroyed vented
          destroyedRolls b path s vented rest destroyed) := fun roll =>
        Update.tidy_bind _ ((resolveDestroyedLocationRoll_settles b path hpath s roll destroyed
          vented).tidy b.design _ _ _) htail
      refine steady_bind (steady_modifiedRoll modifier) (fun roll _ => ?_) hrest
      exact steady_bind
        (steady_resolveDestroyedLocationRoll b himmune path s roll destroyed vented)
        (fun after _ => ih after) htail

theorem steady_resolveLocationCriticals (s : MechSection) (modifiers : List Int)
    (destroyed : Option DestroyedLocation) (vented : Bool) :
    Steady (fun _ => True) (resolveLocationCriticals b path s modifiers destroyed vented) := by
  unfold resolveLocationCriticals
  split
  · split
    · exact steady_pure trivial
    · exact steady_destroyedRolls b himmune path hpath s vented modifiers _
  · exact steady_survivingRolls b himmune path hpath s vented modifiers

end

theorem steady_checkVacuum [DecidableEq Weapon] (b : Battlefield Weapon) (s : MechSection)
    (penetrating : Bool) : Steady (fun _ => True) (checkVacuum b s penetrating) := by
  have hbreach : ∀ n : Mech Weapon, Tidy (do
      setUnit n
      interlude b (.Exposure s)) := fun n =>
    Update.tidy_bind _ (fun c h => h) (fun _ => (wearing_interlude b _).tidy b.design _)
  unfold checkVacuum
  split
  · exact steady_pure trivial
  · refine steady_bind (steady_vacuumRoll penetrating) (fun breach _ => ?_)
      (fun breach => ?_)
    · refine steady_bind steady_unit (fun m _ => ?_) (fun m => ?_)
      · split
        · exact steady_pure trivial
        · exact steady_record rfl _ _ (fun _ => hbreach _)
      · split
        · exact tidy_pure _
        · exact Update.tidy_bind _ (tidy_record _) (fun _ => hbreach _)
    · refine Update.tidy_bind _ (fun c h => h) (fun m => ?_)
      split
      · exact tidy_pure _
      · exact Update.tidy_bind _ (tidy_record _) (fun _ => hbreach _)

theorem steady_vacuumStage [DecidableEq Weapon] (b : Battlefield Weapon) (p : DamagePacket Weapon)
    (s : MechSection) (penetrating : Bool) (damage : Nat) :
    Steady (fun _ => True) (vacuumStage b p s penetrating damage) := by
  have hsteady : ∀ m : Mech Weapon, Steady (fun _ => True) (if p.internalOnly then
      if m.internal s = 0 then pure () else checkVacuum b s false
    else if ¬ penetrating ∨ (damage = 0 ∧ m.internal s ≠ 0) then checkVacuum b s penetrating
    else pure ()) := by
    intro m
    split
    · split
      · exact steady_pure trivial
      · exact steady_checkVacuum b s false
    · split
      · exact steady_checkVacuum b s penetrating
      · exact steady_pure trivial
  refine steady_bind steady_unit (fun m _ => hsteady m) (fun m => ?_)
  split
  · split
    · exact tidy_pure _
    · exact (wearing_checkVacuum b s false).tidy b.design _
  · split
    · exact (wearing_checkVacuum b s penetrating).tidy b.design _
    · exact tidy_pure _

theorem steady_resolveDumpIgnition [DecidableEq Weapon] (b : Battlefield Weapon)
    (path : DamagePacket Weapon → Cascade Weapon Course)
    (hpath : ∀ p, Wearing b.design (path p)) (s : MechSection) :
    Steady (fun _ => True) (resolveDumpIgnition b path s) := by
  have hignited : ∀ found : DumpIgnition, Tidy (do
      let _ ← unattributed (path { DamagePacket.blast s found.damage with
        directHit := true, internalOnly := false, rear := true })
      modify (fun c => { c.setUnit (endDumping found.binIndex c.unit) with
        report := { c.report with dumpIgnitions := c.report.dumpIgnitions ++ [found] } })) :=
    fun found => Update.tidy_bind _
      ((wearing_unattributed b (hpath _)).tidy b.design _) (fun _ c h => h)
  refine steady_bind (steady_ignition b s) (fun found _ => ?_) (fun found => ?_)
  · split
    · exact steady_pure trivial
    · exact steady_record rfl _ _ (fun _ => hignited _)
  · split
    · exact tidy_pure _
    · exact Update.tidy_bind _ (tidy_record _) (fun _ => hignited _)

theorem steady_finish [DecidableEq Weapon] (b : Battlefield Weapon)
    (path : DamagePacket Weapon → Cascade Weapon Course)
    (hpath : ∀ p, Wearing b.design (path p)) (p : DamagePacket Weapon) (w : Walk) :
    Steady (fun course => course = ⟨w.visits, .Stopped, w.place, w.damage⟩) (finish b path p w) := by
  have hreturn : ∀ _ : Unit, Tidy (do
      igniteStage b path w
      return ⟨w.visits, .Stopped, w.place, w.damage⟩ : Cascade Weapon Course) := fun _ =>
    Update.tidy_bind _ ((wearing_igniteStage b path hpath w).tidy b.design _)
      (fun _ => tidy_pure _)
  refine steady_bind (steady_plasmaStage p w) (fun _ _ => ?_) hreturn
  refine steady_bind (Q := fun _ => True) ?_ (fun _ _ => steady_pure rfl) (fun _ => tidy_pure _)
  unfold igniteStage
  split
  · exact steady_pure trivial
  · exact steady_resolveDumpIgnition b path hpath _

-- Battlefield rules that look at no dice either.
def Deterministic (b : Battlefield Weapon) : Prop :=
  ∀ rules, b.rules = some rules → ∀ event m n, SameBut m n →
    SameBut (rules.play event m) (rules.play event n)

-- Water looks at no dice.
theorem flooding_deterministic (d : Design Weapon) (underwater : MechSection → Bool)
    (complex : Option Nat → Bool) (vacuum : Bool) :
    Deterministic ⟨d, some (flooding d underwater), complex, vacuum⟩ := by
  intro rules hrules event m n hmn
  cases hrules
  obtain ⟨dice, rfl⟩ := hmn
  cases event with
  | Flood s => exact ⟨dice, withDice_floodSection d m dice underwater s⟩
  | _ => exact ⟨dice, rfl⟩

section

variable (b : Battlefield Weapon) (hrules : Deterministic b)

theorem twins_unit : Twins SameBut (unit : Cascade Weapon (Mech Weapon)) unit :=
  fun c c' hc _ _ => Or.inl ⟨c.unit, c'.unit, c, c', rfl, rfl, hc.unit, hc⟩

theorem twins_modify (f g : Context Weapon → Context Weapon)
    (h : ∀ c c', Alike c c' → Alike (f c) (g c')) :
    Twins Eq (modify f : Cascade Weapon Unit) (modify g) :=
  fun c c' hc _ _ => Or.inl ⟨(), (), f c, g c', rfl, rfl, rfl, h c c' hc⟩

theorem twins_spend : Twins Eq (spend : Cascade Weapon Unit) spend := by
  intro c c' hc _ _
  unfold spend
  by_cases hwork : 0 < c.work
  · rw [if_pos hwork, if_pos (by rwa [hc.work])]
    exact Or.inl ⟨(), (), _, _, rfl, rfl, rfl, hc.unit, hc.attacker, by rw [hc.work]⟩
  · rw [if_neg hwork, if_neg (by rwa [hc.work])]
    exact Or.inr ⟨_, c, c', rfl, rfl, hc⟩

theorem twins_lift {α : Type} (x : Except Error α) :
    Twins Eq (liftExcept x : Cascade Weapon α) (liftExcept x) := by
  intro c c' hc _ _
  cases x with
  | ok a => exact Or.inl ⟨a, a, c, c', rfl, rfl, rfl, hc⟩
  | error e => exact Or.inr ⟨e, c, c', rfl, rfl, hc⟩

theorem twins_record (event : Event) : Twins Eq (record event : Cascade Weapon Unit) (record event) :=
  twins_modify _ _ (fun _ _ hc => ⟨hc.unit, hc.attacker, hc.work⟩)

theorem twins_damagePhase (s : MechSection) (damage : Nat) (phase : DamagePhase) :
    Twins Eq (damagePhase b s damage phase) (damagePhase b s damage phase) := by
  intro c c' hc _ _
  obtain ⟨dice, hdice⟩ := hc.unit
  have hphase := withDice_damagePhase b.design c.unit dice s damage phase
  refine Or.inl ⟨_, _, _, _, rfl, rfl, ?_, ⟨dice, ?_⟩, hc.attacker, hc.work⟩
  · rw [hdice, hphase]
  · show (c'.unit.damagePhase b.design s damage phase).2 = _
    rw [hdice, hphase]
    rfl

include hrules

theorem twins_interlude (event : Interlude) : Twins Eq (interlude b event) (interlude b event) := by
  apply twins_modify
  intro c c' hc
  cases hb : b.rules with
  | none => exact hc
  | some rules => exact ⟨hrules rules hb event _ _ hc.unit, hc.attacker, hc.work⟩

end

-- Both runs do the same first, then the same for the common result.
theorem twins_bind {α β : Type} {x : Cascade Weapon α} {f : α → Cascade Weapon β}
    (hx : Twins Eq x x) (hf : ∀ a, Twins Eq (f a) (f a)) (tf : ∀ a, Tidy (f a)) :
    Twins Eq (x >>= f) (x >>= f) :=
  Update.twin_bind Eq f f hx (fun a _ h => h ▸ hf a) tf tf

-- What follows a steady part cannot tell the runs apart.
theorem twins_steady {α : Type} {x : Cascade Weapon Unit} (f : Unit → Cascade Weapon α)
    (hx : Steady (fun _ => True) x) (hf : Twins Eq (f ()) (f ())) (tf : Tidy (f ())) :
    Twins Eq (x >>= f) (x >>= f) :=
  Update.twin_bind Eq f f (hx.twins hx) (fun _ _ _ => hf) (fun _ => tf) (fun _ => tf)

theorem twins_roll (draw : Dice → Nat × Dice) :
    Twins (fun _ _ => True ∧ True) (roll draw : Cascade Weapon Nat) (roll draw) :=
  (steady_dice draw).twins (steady_dice draw)

section

variable [DecidableEq Weapon] (b : Battlefield Weapon)

theorem tidy_quiet {α : Type} {x : Cascade Weapon α} (h : Update.Within (Quiet b.design) x) :
    Tidy x := (wearing_quiet b.design h).tidy b.design x

omit [DecidableEq Weapon] in
theorem twins_enterDamage : Twins Eq (enterDamage b) (enterDamage b) := by
  have hrest : ∀ _ : Nat, Tidy (do
      let c ← get
      return c.unit.combatSafe || b.complex c.attacker : Cascade Weapon Bool) := fun _ c h => h
  refine Update.twin_bind Eq _ _ (twins_roll _) (fun _ _ _ => ?_) hrest hrest
  intro c c' hc _ _
  refine Or.inl ⟨_, _, c, c', rfl, rfl, ?_, hc⟩
  obtain ⟨dice, hdice⟩ := hc.unit
  rw [hc.attacker, hdice]
  rfl

omit [DecidableEq Weapon] in
theorem twins_protects (w : Walk) : Twins Eq (protects b w) (protects b w) := by
  unfold protects
  split
  · exact Update.twin_pure _ _ _ rfl
  · exact twins_enterDamage b

variable (hrules : Deterministic b)

include hrules

theorem twins_loseSections (sections : List MechSection) :
    Twins Eq (loseSections b sections) (loseSections b sections) := by
  induction sections with
  | nil => exact Update.twin_pure _ _ _ rfl
  | cons s rest ih =>
      exact twins_bind (twins_interlude b hrules _) (fun _ => ih)
        (fun _ => tidy_quiet b (quiet_loseSections b rest))

theorem twins_recordPhase (phase : DamageResult) :
    Twins Eq (recordPhase b phase) (recordPhase b phase) := by
  refine twins_bind (twins_modify _ _ (fun _ _ hc => ⟨hc.unit, hc.attacker, hc.work⟩))
    (fun _ => ?_) (fun _ => tidy_quiet b (quiet_aftermath b phase))
  exact twins_bind (twins_loseSections b hrules _) (fun _ => twins_interlude b hrules _)
    (fun _ => tidy_quiet b (quiet_interlude b _))

omit [DecidableEq Weapon] in
theorem twins_headStage (s : MechSection) : Twins Eq (headStage b s) (headStage b s) := by
  unfold headStage
  split
  · exact twins_interlude b hrules _
  · exact Update.twin_pure _ _ _ rfl

omit hrules in
theorem tidy_recordPhase (phase : DamageResult) : Tidy (recordPhase b phase) :=
  Update.tidy_bind _ (fun _ h => h) (fun _ => tidy_quiet b (quiet_aftermath b phase))

omit [DecidableEq Weapon] hrules in
theorem twins_dentStage (facing : ArmorFacing) (special : Option ArmorHit) :
    Twins Eq (dentStage facing special : Cascade Weapon Unit) (dentStage facing special) := by
  unfold dentStage
  split
  · apply twins_modify
    intro c c' hc
    obtain ⟨dice, hdice⟩ := hc.unit
    refine ⟨⟨dice, ?_⟩, hc.attacker, hc.work⟩
    show markHardenedDent c'.unit _ _ = _
    rw [hdice]
    rfl
  · exact Update.twin_pure _ _ _ rfl

theorem twins_armorStage (p : DamagePacket Weapon) (w : Walk) :
    Twins Eq (armorStage b p w) (armorStage b p w) := by
  unfold armorStage
  split
  · exact Update.twin_pure _ _ _ rfl
  · have hrecord : ∀ (special : Option ArmorHit) (armor : DamageResult), Tidy (do
        recordPhase b armor
        return (⟨armor.absorbed, (special.map ArmorHit.overflow).getD armor.remaining⟩ : Struck)) :=
      fun special armor => Update.tidy_bind _ (tidy_recordPhase b armor)
        (fun _ => tidy_pure _)
    have hrest : ∀ (special : Option ArmorHit) (armor : DamageResult), Tidy (do
        dentStage (ArmorFacing.struck w.place p.rear) special
        recordPhase b armor
        return (⟨armor.absorbed, (special.map ArmorHit.overflow).getD armor.remaining⟩ : Struck)) :=
      fun special armor => Update.tidy_bind _ (tidy_quiet b (quiet_dentStage b _ special))
        (fun _ => hrecord special armor)
    have hphase : ∀ special : Option ArmorHit, Tidy (do
        let armor ← damagePhase b w.place ((special.map ArmorHit.removed).getD w.damage) (.Armor p.rear)
        dentStage (ArmorFacing.struck w.place p.rear) special
        recordPhase b armor
        return (⟨armor.absorbed, (special.map ArmorHit.overflow).getD armor.remaining⟩ : Struck)) :=
      fun special => Update.tidy_bind _ (fun c h => h) (hrest special)
    refine Update.twin_bind Eq _ _ twins_unit (fun m n hmn => ?_) (fun m => hphase _)
      (fun m => hphase _)
    obtain ⟨dice, rfl⟩ := hmn
    show Twins Eq _ (do
        let armor ← damagePhase b w.place
          (((armorHit b.design m w.place p.rear w.damage p.damageClass).map ArmorHit.removed).getD
            w.damage) (.Armor p.rear)
        dentStage (ArmorFacing.struck w.place p.rear)
          (armorHit b.design m w.place p.rear w.damage p.damageClass)
        recordPhase b armor
        return (⟨armor.absorbed, ((armorHit b.design m w.place p.rear w.damage
          p.damageClass).map ArmorHit.overflow).getD armor.remaining⟩ : Struck))
    refine twins_bind (twins_damagePhase b _ _ _) (fun armor => ?_) (hrest _)
    refine twins_bind (twins_dentStage _ _) (fun _ => ?_) (fun _ => hrecord _ armor)
    exact twins_bind (twins_recordPhase b hrules armor) (fun _ => Update.twin_pure _ _ _ rfl)
      (fun _ => tidy_pure _)

omit hrules in
theorem withDice_survey (m : Mech Weapon) (dice : Dice) (s : MechSection) :
    survey b (withDice m dice) s = survey b m s := by
  have hexplosive : ∀ locations, explosive b (withDice m dice) locations = explosive b m locations := by
    intro locations
    induction locations with
    | nil => rfl
    | cons location rest ih =>
        unfold explosive
        rw [ih]
        rfl
  unfold survey
  rw [show (withDice m dice).criticalCandidates b.design s = m.criticalCandidates b.design s from rfl,
    hexplosive]

omit hrules in
theorem tidy_breakStage (s : MechSection) (structural : Nat) (found : Option DestroyedLocation) :
    Tidy (breakStage b s structural found) := tidy_quiet b (quiet_breakStage b s structural found)

omit hrules in
theorem twins_surveyStage (s : MechSection) (structural : Nat) :
    Twins Eq (surveyStage b s structural) (surveyStage b s structural) := by
  have hrest : ∀ m : Mech Weapon, Tidy (if structural < m.internal s then return none
      else do
        let found ← liftExcept (survey b m s)
        record (.Surveyed found)
        return some found : Cascade Weapon (Option DestroyedLocation)) := by
    intro m
    split
    · exact tidy_pure _
    · refine Update.tidy_bind _ (tidy_quiet b (quiet_lift b _)) (fun found => ?_)
      exact Update.tidy_bind _ (tidy_record _) (fun _ => tidy_pure _)
  refine Update.twin_bind Eq _ _ twins_unit (fun m n hmn => ?_) hrest hrest
  obtain ⟨dice, rfl⟩ := hmn
  rw [withDice_survey]
  have hlast : ∀ found : DestroyedLocation, Tidy (do
      record (.Surveyed found)
      return some found : Cascade Weapon (Option DestroyedLocation)) := fun found =>
    Update.tidy_bind _ (tidy_record _) (fun _ => tidy_pure _)
  by_cases h : structural < m.internal s
  · rw [if_pos h, if_pos (show structural < (withDice m dice).internal s from h)]
    exact Update.twin_pure _ _ _ rfl
  · rw [if_neg h, if_neg (show ¬ structural < (withDice m dice).internal s from h)]
    refine twins_bind (twins_lift _) (fun found => ?_) hlast
    exact twins_bind (twins_record _) (fun _ => Update.twin_pure _ _ _ rfl)
      (fun _ => tidy_pure _)

theorem twins_breakStage (s : MechSection) (structural : Nat) (found : Option DestroyedLocation) :
    Twins Eq (breakStage b s structural found) (breakStage b s structural found) := by
  have hread : ∀ phase : DamageResult, Tidy (do
      let m ← unit
      return (⟨some phase.absorbed, phase.remaining, found.filter (fun _ => m.internal s = 0)⟩ :
        Broken) : Cascade Weapon Broken) := fun phase c h => h
  have hrest : ∀ phase : DamageResult, Tidy (do
      recordPhase b phase
      let m ← unit
      return (⟨some phase.absorbed, phase.remaining, found.filter (fun _ => m.internal s = 0)⟩ :
        Broken)) := fun phase =>
    Update.tidy_bind _ (tidy_recordPhase b phase) (fun _ => hread phase)
  refine twins_bind (twins_damagePhase b _ _ _) (fun phase => ?_) hrest
  refine twins_bind (twins_recordPhase b hrules phase) (fun _ => ?_) (fun _ => hread phase)
  refine Update.twin_bind Eq _ _ twins_unit (fun m n hmn => ?_) (fun m => tidy_pure _)
    (fun m => tidy_pure _)
  obtain ⟨dice, rfl⟩ := hmn
  exact Update.twin_pure _ _ _ rfl

theorem twins_structureStage (s : MechSection) (damage : Nat) :
    Twins Eq (structureStage b s damage) (structureStage b s damage) := by
  have hbreak : ∀ found, Tidy (breakStage b s (Mech.structureDamage b.design damage) found) :=
    tidy_breakStage b s _
  have hrest : ∀ m : Mech Weapon, Tidy (if damage = 0 ∨ m.internal s = 0 then
      return (⟨none, damage, none⟩ : Broken)
      else do
        let structural := Mech.structureDamage b.design damage
        let found ← surveyStage b s structural
        breakStage b s structural found) := by
    intro m
    split
    · exact tidy_pure _
    · refine Update.tidy_bind _ ?_ hbreak
      intro c h
      rcases surveyStage_cases b s (Mech.structureDamage b.design damage) c with
        ⟨e, hrun⟩ | hrun | ⟨found, -, hrun⟩
      · rwa [Update.after, hrun] at h
      · rwa [Update.after, hrun] at h
      · rw [Update.after, hrun] at h
        exact fun event hevent => h event (List.mem_append_left _ hevent)
  refine Update.twin_bind Eq _ _ twins_unit (fun m n hmn => ?_) hrest hrest
  obtain ⟨dice, rfl⟩ := hmn
  by_cases h : damage = 0 ∨ m.internal s = 0
  · rw [if_pos h, if_pos (show damage = 0 ∨ (withDice m dice).internal s = 0 from h)]
    exact Update.twin_pure _ _ _ rfl
  · rw [if_neg h, if_neg (show ¬ (damage = 0 ∨ (withDice m dice).internal s = 0) from h)]
    exact twins_bind (twins_surveyStage b s _) (fun found => twins_breakStage b hrules s _ found)
      hbreak

theorem twins_checkHullBreach (p : DamagePacket Weapon) (w : Walk) :
    Twins Eq (checkHullBreach b p w) (checkHullBreach b p w) := by
  have hrest : ∀ m : Mech Weapon, Tidy (if ¬ (p.directHit ∧ w.original) ∨ m.internal w.place = 0 then
      pure () else interlude b (.HullBreach w.place)) := by
    intro m
    split
    · exact tidy_pure _
    · exact tidy_quiet b (quiet_interlude b _)
  refine Update.twin_bind Eq _ _ twins_unit (fun m n hmn => ?_) hrest hrest
  obtain ⟨dice, rfl⟩ := hmn
  by_cases h : ¬ (p.directHit ∧ w.original) ∨ m.internal w.place = 0
  · rw [if_pos h, if_pos (show ¬ (p.directHit ∧ w.original) ∨
      (withDice m dice).internal w.place = 0 from h)]
    exact Update.twin_pure _ _ _ rfl
  · rw [if_neg h, if_neg (show ¬ (¬ (p.directHit ∧ w.original) ∨
      (withDice m dice).internal w.place = 0) from h)]
    exact twins_interlude b hrules _

end

section

variable [DecidableEq Weapon] (b : Battlefield Weapon) (hrules : Deterministic b)
  (himmune : b.design.critProof = true) (path : DamagePacket Weapon → Cascade Weapon Course)
  (hpath : ∀ p, Wearing b.design (path p))

include hpath

theorem tidy_aftermath (p : DamagePacket Weapon) (w : Walk) (penetrating : Bool)
    (modifiers : List Int) (broken : Broken) (later : Walk) :
    Tidy (aftermath b path p w penetrating modifiers broken later) :=
  (aftermath_settles b path hpath p w penetrating modifiers broken later).tidy b.design _ _ _

include hrules himmune

theorem twins_aftermath (p : DamagePacket Weapon) (w : Walk) (penetrating : Bool)
    (modifiers : List Int) (broken : Broken) (later : Walk) :
    Twins Eq (aftermath b path p w penetrating modifiers broken later)
      (aftermath b path p w penetrating modifiers broken later) := by
  have hvacuum : Tidy (do
      vacuumStage b p w.place penetrating broken.left
      return later) :=
    Update.tidy_bind _ ((wearing_vacuumStage b p w.place _ _).tidy b.design _)
      (fun _ => tidy_pure _)
  have hhull : Tidy (do
      checkHullBreach b p w
      vacuumStage b p w.place penetrating broken.left
      return later) :=
    Update.tidy_bind _ ((wearing_checkHullBreach b p w).tidy b.design _) (fun _ => hvacuum)
  refine twins_steady _ (steady_resolveLocationCriticals b himmune path hpath w.place modifiers
    broken.destroyed p.vented) ?_ hhull
  refine twins_bind (twins_checkHullBreach b hrules p w) (fun _ => ?_) (fun _ => hvacuum)
  exact twins_steady _ (steady_vacuumStage b p w.place penetrating broken.left)
    (Update.twin_pure _ _ _ rfl) (tidy_pure _)

theorem twins_material (p : DamagePacket Weapon) (w : Walk) :
    Twins Eq (material b path p w) (material b path p w) := by
  have hstructure : ∀ (armor : Struck) (m : Mech Weapon), Tidy (do
      let broken ← structureStage b w.place armor.left
      aftermath b path p w (!p.internalOnly && 0 < armor.left)
        (rolls b p w (0 < armor.absorbed) broken.absorbed.isSome) broken { w with
          damage := broken.left
          announced := false
          tac := false
          original := false
          plasmaReturns := w.plasmaReturns + 1
          ignition := if p.ignites w.place then some w.place else w.ignition
          visits := w.visits ++ [⟨w.place, armor.absorbed,
            (m.sections w.place).struck (ArmorFacing.struck w.place p.rear), broken.absorbed⟩] }) :=
    fun armor m => Update.tidy_bind _
      ((structureStage_settles b w.place armor.left).tidy b.design _ _ _)
      (fun broken => tidy_aftermath b path hpath p w _ _ broken _)
  have harmor : ∀ armor : Struck, Tidy (do
      let m ← unit
      let broken ← structureStage b w.place armor.left
      aftermath b path p w (!p.internalOnly && 0 < armor.left)
        (rolls b p w (0 < armor.absorbed) broken.absorbed.isSome) broken { w with
          damage := broken.left
          announced := false
          tac := false
          original := false
          plasmaReturns := w.plasmaReturns + 1
          ignition := if p.ignites w.place then some w.place else w.ignition
          visits := w.visits ++ [⟨w.place, armor.absorbed,
            (m.sections w.place).struck (ArmorFacing.struck w.place p.rear), broken.absorbed⟩] }) :=
    fun armor => Update.tidy_bind _ (fun c h => h) (hstructure armor)
  refine twins_bind (twins_headStage b hrules w.place) (fun _ => ?_) (fun _ =>
    Update.tidy_bind _ (tidy_quiet b (quiet_armorStage b p w)) harmor)
  refine twins_bind (twins_armorStage b hrules p w) (fun armor => ?_) harmor
  refine Update.twin_bind Eq _ _ twins_unit (fun m n hmn => ?_) (hstructure armor)
    (hstructure armor)
  obtain ⟨dice, rfl⟩ := hmn
  exact twins_bind (twins_structureStage b hrules w.place armor.left)
    (fun broken => twins_aftermath b hrules himmune path hpath p w _ _ broken _)
    (fun broken => tidy_aftermath b path hpath p w _ _ broken _)

theorem twins_iteration (p : DamagePacket Weapon) (w : Walk) :
    Twins Eq (iteration b path p w) (iteration b path p w) := by
  have hmaterial : ∀ intercepted : Bool, Tidy (if intercepted then
      return .Return ⟨w.visits, .Intercepted, w.place, w.damage⟩
      else do
        let w ← material b path p w
        return transferOn b p w : Cascade Weapon Flow) := by
    intro intercepted
    split
    · exact tidy_pure _
    · exact Update.tidy_bind _ ((wearing_material b path hpath p w).tidy b.design _)
        (fun _ => tidy_pure _)
  have hstanding : ∀ m : Mech Weapon, Tidy (if m.internal w.place = 0 then return passThrough b p w
      else do
        let intercepted ← intercept w.damage
        if intercepted then return .Return ⟨w.visits, .Intercepted, w.place, w.damage⟩
        else do
          let w ← material b path p w
          return transferOn b p w) := by
    intro m
    split
    · exact tidy_pure _
    · exact Update.tidy_bind _ ((wearing_intercept b _).tidy b.design _) hmaterial
  have hentered : ∀ suppressed : Bool, Tidy (if suppressed then
      return .Return ⟨w.visits, .Suppressed, w.place, w.damage⟩
      else do
        let m ← unit
        if m.internal w.place = 0 then return passThrough b p w
        else do
          let intercepted ← intercept w.damage
          if intercepted then return .Return ⟨w.visits, .Intercepted, w.place, w.damage⟩
          else do
            let w ← material b path p w
            return transferOn b p w) := by
    intro suppressed
    split
    · exact tidy_pure _
    · exact Update.tidy_bind _ (fun c h => h) hstanding
  refine twins_bind twins_spend (fun _ => ?_) (fun _ =>
    Update.tidy_bind _ ((wearing_protects b w).tidy b.design _) hentered)
  refine twins_bind (twins_protects b w) (fun suppressed => ?_) hentered
  split
  · exact Update.twin_pure _ _ _ rfl
  · refine Update.twin_bind Eq _ _ twins_unit (fun m n hmn => ?_) hstanding hstanding
    obtain ⟨dice, rfl⟩ := hmn
    by_cases hs : m.internal w.place = 0
    · rw [if_pos hs, if_pos (show (withDice m dice).internal w.place = 0 from hs)]
      exact Update.twin_pure _ _ _ rfl
    · rw [if_neg hs, if_neg (show ¬ (withDice m dice).internal w.place = 0 from hs)]
      have hintercept : Steady (fun r => r = false) (intercept w.damage : Cascade Weapon Bool) :=
        steady_intercept w.damage
      refine Update.twin_bind Eq _ _ (hintercept.twins hintercept) (fun r r' hr => ?_)
        hmaterial hmaterial
      obtain ⟨rfl, rfl⟩ := hr
      exact twins_bind (twins_material b hrules himmune path hpath p w)
        (fun later => Update.twin_pure _ _ _ rfl) (fun _ => tidy_pure _)

omit hrules himmune in
theorem twins_finish (p : DamagePacket Weapon) (w : Walk) :
    Twins Eq (finish b path p w) (finish b path p w) := by
  intro c c' hc hclean hclean'
  have hsteady := steady_finish b path hpath p w
  rcases hsteady.twins hsteady c c' hc hclean hclean' with
    ⟨course, course', after, after', hrun, hrun', ⟨rfl, rfl⟩, halike⟩ | herror
  · exact Or.inl ⟨_, _, after, after', hrun, hrun', rfl, halike⟩
  · exact Or.inr herror

end

section

variable [DecidableEq Weapon] (b : Battlefield Weapon) (hrules : Deterministic b)
  (himmune : b.design.critProof = true)

include hrules himmune

theorem twins_walkFrom (fuel : Nat) (p : DamagePacket Weapon) (w : Walk) :
    Twins Eq (walkFrom b fuel p w) (walkFrom b fuel p w) := by
  induction fuel generalizing p w with
  | zero => exact Update.twin_throw _ _
  | succ fuel ih =>
      have hpath : ∀ nested : DamagePacket Weapon,
          Wearing b.design (walkFrom b fuel nested nested.start) :=
        fun nested => wearing_walkFrom b fuel nested _
      unfold walkFrom
      split
      · exact twins_finish b _ hpath p w
      · refine twins_bind (twins_iteration b hrules himmune _ hpath p w) (fun flow => ?_)
          (fun flow => ?_)
        · cases flow with
          | Return course => exact Update.twin_pure _ _ _ rfl
          | Break later => exact twins_finish b _ hpath p later
          | Next later => exact ih p later
        · cases flow with
          | Return course => exact tidy_pure course
          | Break later => exact (wearing_finish b _ hpath p later).tidy b.design _
          | Next later => exact (wearing_walkFrom b fuel p later).tidy b.design _

theorem twins_resolvePacket (hit : Hit) (damage : Nat) (effect : Option (WeaponEffect Weapon))
    (penalty : Nat) :
    Twins Eq (resolvePacket b hit damage effect penalty)
      (resolvePacket b hit damage effect penalty) := by
  refine twins_bind (twins_enterDamage b) (fun suppressed => ?_) (fun suppressed => ?_)
  · split
    · exact Update.twin_pure _ _ _ rfl
    · split
      · exact Update.twin_pure _ _ _ rfl
      · exact twins_bind (twins_walkFrom b hrules himmune _ _ _)
          (fun _ => Update.twin_pure _ _ _ rfl) (fun _ => tidy_pure _)
  · split
    · exact tidy_pure _
    · split
      · exact tidy_pure _
      · exact Update.tidy_bind _ ((wearing_walkFrom b _ _ _).tidy b.design _)
          (fun _ => tidy_pure _)

end

-- A weapon hit as its attack resolves it.
structure Shot (Weapon : Type) where
  attacker : Option Nat
  hit : Hit
  damage : Nat
  effect : Option (WeaponEffect Weapon)
  penalty : Nat

section

variable [DecidableEq Weapon] (b : Battlefield Weapon)

def Shot.cascade (shot : Shot Weapon) (m : Mech Weapon) :
    EStateM.Result Error (Context Weapon) (Option Course) :=
  resolvePacket b shot.hit shot.damage shot.effect shot.penalty (Context.start m shot.attacker)

-- A destroyed unit takes no further hits, and a cascade that fails is rolled back.
def Shot.strike (shot : Shot Weapon) (m : Mech Weapon) : Mech Weapon :=
  if m.isDestroyed b.design then m
  else
    match shot.cascade b m with
    | .ok _ after => after.unit
    | .error _ _ => m

def Shot.events (shot : Shot Weapon) (m : Mech Weapon) : List Event :=
  if m.isDestroyed b.design then []
  else
    match shot.cascade b m with
    | .ok _ after => after.trace
    | .error _ after => after.trace

-- Hits one after another, with everything that happened.
def strikeAll : List (Shot Weapon) → Mech Weapon → Mech Weapon × List Event
  | [], m => (m, [])
  | shot :: rest, m =>
      ((strikeAll rest (shot.strike b m)).1,
        shot.events b m ++ (strikeAll rest (shot.strike b m)).2)

variable (hrules : Deterministic b) (himmune : b.design.critProof = true)

include hrules himmune

theorem strike_alike {shot : Shot Weapon} {m n : Mech Weapon} (h : SameBut m n)
    (hm : Undiced (shot.events b m)) (hn : Undiced (shot.events b n)) :
    SameBut (shot.strike b m) (shot.strike b n) := by
  obtain ⟨dice, rfl⟩ := h
  by_cases hd : m.isDestroyed b.design = true
  · have hd' : (withDice m dice).isDestroyed b.design = true := hd
    rw [Shot.strike, Shot.strike, if_pos hd, if_pos hd']
    exact ⟨dice, rfl⟩
  · have hd' : ¬ (withDice m dice).isDestroyed b.design = true := hd
    rw [Shot.events, if_neg hd] at hm
    rw [Shot.events, if_neg hd'] at hn
    rw [Shot.strike, Shot.strike, if_neg hd, if_neg hd']
    have hstart : Alike (Context.start m shot.attacker) (Context.start (withDice m dice) shot.attacker) :=
      ⟨⟨dice, rfl⟩, rfl, rfl⟩
    have hclean : ∀ k, Undiced (match shot.cascade b k with
        | .ok _ after => after.trace
        | .error _ after => after.trace) → Clean ((resolvePacket b shot.hit shot.damage shot.effect
          shot.penalty).after (Context.start k shot.attacker)) := by
      intro k hk
      unfold Shot.cascade at hk
      unfold Update.after Clean
      split at hk
      · rename_i hrun
        rwa [hrun]
      · rename_i hrun
        rwa [hrun]
    have htwins := twins_resolvePacket b hrules himmune shot.hit shot.damage shot.effect shot.penalty
      _ _ hstart (hclean m hm) (hclean _ hn)
    unfold Shot.cascade
    rcases htwins with ⟨_, _, after, after', hrun, hrun', -, halike⟩ | ⟨_, _, _, hrun, hrun', -⟩
    · rw [hrun, hrun']
      exact halike.unit
    · rw [hrun, hrun']
      exact ⟨dice, rfl⟩

-- An immune unit fares the same under any two dice, as long as no limb is blown off.
theorem strikeAll_alike (shots : List (Shot Weapon)) (m n : Mech Weapon) (h : SameBut m n)
    (hm : Undiced (strikeAll b shots m).2) (hn : Undiced (strikeAll b shots n).2) :
    SameBut (strikeAll b shots m).1 (strikeAll b shots n).1 := by
  induction shots generalizing m n with
  | nil => exact h
  | cons shot rest ih =>
      have hfirst : ∀ k, Undiced (strikeAll b (shot :: rest) k).2 → Undiced (shot.events b k) :=
        fun k hk event he => hk event (List.mem_append_left _ he)
      have hlater : ∀ k, Undiced (strikeAll b (shot :: rest) k).2 →
          Undiced (strikeAll b rest (shot.strike b k)).2 :=
        fun k hk event he => hk event (List.mem_append_right _ he)
      exact ih _ _ (strike_alike b hrules himmune h (hfirst m hm) (hfirst n hn))
        (hlater m hm) (hlater n hn)

-- Whatever the dice show, the same hits leave an immune unit with the same armor, structure,
-- slots and rounds.
theorem strikeAll_immune (shots : List (Shot Weapon)) (m : Mech Weapon) (dice dice' : Dice)
    (h : Undiced (strikeAll b shots (withDice m dice)).2)
    (h' : Undiced (strikeAll b shots (withDice m dice')).2) :
    (strikeAll b shots (withDice m dice)).1.sections =
        (strikeAll b shots (withDice m dice')).1.sections ∧
      (strikeAll b shots (withDice m dice)).1.lostCriticals =
        (strikeAll b shots (withDice m dice')).1.lostCriticals ∧
      (strikeAll b shots (withDice m dice)).1.ammunition =
        (strikeAll b shots (withDice m dice')).1.ammunition := by
  obtain ⟨last, hlast⟩ := strikeAll_alike b hrules himmune shots (withDice m dice)
    (withDice m dice') ⟨dice', rfl⟩ h h'
  rw [hlast]
  exact ⟨rfl, rfl, rfl⟩

end

def critProofGunner : Design Armament := { gunner with specials := ["CritProof_Tech".toList] }

-- Its left arm is under water.
def proofField : Battlefield Armament :=
  ⟨critProofGunner, some (flooding critProofGunner fun s => s = .LeftArm), fun _ => false, false⟩

-- Twelve points on the left arm leave four of its structure.
def armShot : Shot Armament := ⟨none, ⟨.LeftArm, false, false⟩, 12, none, 0⟩

def torsoShot : Shot Armament := ⟨none, ⟨.LeftTorso, false, true⟩, 22, none, 0⟩

instance (events : List Event) : Decidable (Undiced events) :=
  inferInstanceAs (Decidable (∀ event ∈ events, event.diced = false))

-- Rolls of 2 and of 8 do nothing to it, also where the rifle is lost with its torso. The first
-- blow floods the arm.
theorem strikeAll_immune_arm : .LeftArm ∈ (strikeAll proofField [armShot]
      (withDice (gunnerAt 1) (fun _ => 0))).1.floodedSections ∧
    (strikeAll proofField [armShot, torsoShot] (withDice (gunnerAt 1) (fun _ => 0))).1.sections =
      (strikeAll proofField [armShot, torsoShot] (withDice (gunnerAt 1) (fun _ => 3))).1.sections := by
  have hrules : Deterministic proofField := flooding_deterministic critProofGunner _ _ false
  exact ⟨by decide, (strikeAll_immune proofField hrules (by decide) [armShot, torsoShot] (gunnerAt 1)
    (fun _ => 0) (fun _ => 3) (by decide +kernel) (by decide +kernel)).1⟩

-- A roll of 12 still blows the arm off.
theorem strikeAll_not_immune : proofField.design.critProof = true ∧
    ¬ ((strikeAll proofField [armShot] (withDice (gunnerAt 1) (fun _ => 0))).1.sections =
      (strikeAll proofField [armShot] (withDice (gunnerAt 1) (fun _ => 5))).1.sections) := by
  refine ⟨by decide, fun h => ?_⟩
  have hlow : (strikeAll proofField [armShot] (withDice (gunnerAt 1) (fun _ => 0))).1.internal
      .LeftArm = 4 := by decide +kernel
  have hhigh : (strikeAll proofField [armShot] (withDice (gunnerAt 1) (fun _ => 5))).1.internal
      .LeftArm = 0 := by decide +kernel
  unfold Mech.internal at hlow hhigh
  rw [h, hhigh] at hlow
  contradiction

end StompyMux.Impact
