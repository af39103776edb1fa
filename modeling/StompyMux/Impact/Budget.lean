import Mathlib.Data.Finset.Card
import Mathlib.Algebra.BigOperators.Group.Finset.Basic
import Mathlib.Algebra.Order.BigOperators.Group.Finset
import StompyMux.Impact.Detonations

-- A cascade ends within its work: every explosion costs the unit a live slot.
namespace StompyMux.Impact

open Library
open StompyMux.Btech

variable {Weapon : Type}

section

variable (d : Design Weapon)

def slots : Finset CriticalLocation :=
  MechSection.ALL.toFinset.biUnion (fun s => (d.locations s).toFinset)

def liveSlots (m : Mech Weapon) : Finset CriticalLocation :=
  (slots d).filter (fun location => ¬ m.criticalDestroyed location)

def live (c : Context Weapon) : Nat := (liveSlots d c.unit).card

def Fitted (chassis : MechChassis) : Prop :=
  ∀ s, ∀ slot ∈ (d.sections s).criticals.keys, slot < chassis.criticalSlots s

variable (chassis : MechChassis) (m : Mech Weapon) (s : MechSection) (location : CriticalLocation)

theorem mem_slots :
    location ∈ slots d ↔ location.slot ∈ (d.sections location.place).criticals.keys := by
  unfold slots Design.locations
  simp only [Finset.mem_biUnion, List.mem_toFinset, List.mem_map]
  constructor
  · rintro ⟨s, -, slot, hslot, rfl⟩
    exact hslot
  · intro h
    exact ⟨location.place, MechSection.mem_all _, location.slot, h, rfl⟩

theorem card_locations_le (h : Fitted d chassis) (s : MechSection) :
    (d.locations s).toFinset.card ≤ chassis.criticalSlots s := by
  have hlength : (d.sections s).criticals.keys.length ≤ chassis.criticalSlots s := by
    have hsubset : (d.sections s).criticals.keys.toFinset ⊆
        Finset.range (chassis.criticalSlots s) := by
      intro slot hslot
      exact Finset.mem_range.mpr (h s slot (List.mem_toFinset.mp hslot))
    have hcard := Finset.card_le_card hsubset
    rwa [List.toFinset_card_of_nodup (d.sections s).criticals.keys_nodup, Finset.card_range] at hcard
  calc (d.locations s).toFinset.card ≤ (d.locations s).length := List.toFinset_card_le _
    _ = (d.sections s).criticals.keys.length := by rw [Design.locations, List.length_map]
    _ ≤ chassis.criticalSlots s := hlength

theorem card_slots_le (h : Fitted d chassis) : (slots d).card ≤ 78 := by
  have hnodup : MechSection.ALL.Nodup := by decide
  calc (slots d).card ≤ MechSection.ALL.toFinset.sum (fun s => (d.locations s).toFinset.card) :=
        Finset.card_biUnion_le
    _ ≤ MechSection.ALL.toFinset.sum chassis.criticalSlots :=
        Finset.sum_le_sum (fun s _ => card_locations_le d chassis h s)
    _ = (MechSection.ALL.map chassis.criticalSlots).sum := List.sum_toFinset _ hnodup
    _ ≤ 78 := chassis.criticalSlots_total

theorem live_le (h : Fitted d chassis) (c : Context Weapon) :
    live d c ≤ 78 := (Finset.card_filter_le _ _).trans (card_slots_le d chassis h)

theorem mem_liveSlots :
    location ∈ liveSlots d m ↔ location ∈ slots d ∧ ¬ m.criticalDestroyed location :=
  Finset.mem_filter

theorem liveSlots_worn [DecidableEq Weapon] {m n : Mech Weapon} (h : Mech.Worn d m n) :
    liveSlots d n ⊆ liveSlots d m := by
  intro location hlocation
  obtain ⟨hslot, hintact⟩ := (mem_liveSlots d n location).mp hlocation
  exact (mem_liveSlots d m location).mpr ⟨hslot, fun hd => hintact (h.destroyed d m n location hd)⟩

theorem live_worn [DecidableEq Weapon] {c after : Context Weapon}
    (h : Mech.Worn d c.unit after.unit) : live d after ≤ live d c :=
  Finset.card_le_card (liveSlots_worn d h)

theorem live_lost [DecidableEq Weapon] (c after : Context Weapon)
    (h : Mech.Worn d c.unit after.unit) (location : CriticalLocation)
    (hl : location ∈ liveSlots d c.unit) (hd : after.unit.criticalDestroyed location) :
    live d after + 1 ≤ live d c := by
  have hgone : location ∉ liveSlots d after.unit :=
    fun hlive => ((mem_liveSlots d _ _).mp hlive).2 hd
  have hsubset : insert location (liveSlots d after.unit) ⊆ liveSlots d c.unit :=
    Finset.insert_subset hl (liveSlots_worn d h)
  have hcard := Finset.card_le_card hsubset
  rwa [Finset.card_insert_of_notMem hgone] at hcard

theorem candidates_live (h : location ∈ m.criticalCandidates d s) : location ∈ liveSlots d m := by
  obtain ⟨hmem, hintact⟩ := List.mem_filter.mp h
  obtain ⟨part, hpart, rfl⟩ := List.mem_map.mp hmem
  refine (mem_liveSlots d m _).mpr ⟨(mem_slots d _).mpr ?_, by simpa using hintact⟩
  exact List.mem_map.mpr ⟨part, (List.mem_filter.mp hpart).1, rfl⟩

theorem candidates_nodup : (m.criticalCandidates d s).Nodup := by
  have hlocations : d.locations s =
      (d.sections s).criticals.entries.map (fun part => (⟨s, part.1⟩ : CriticalLocation)) := by
    rw [Design.locations, Slots.keys, List.map_map]
    rfl
  have hsub : (m.criticalCandidates d s).Sublist (d.locations s) := by
    rw [hlocations]
    exact List.filter_sublist.trans (List.filter_sublist.map _)
  exact (d.locations_nodup s).sublist hsub

end

-- What one section step may cost beyond the slots it uses up, and what a whole packet may.
def STEP : Nat := 10

def PACKET : Nat := 30

-- Errors other than that of the work counter and that of the fuel.
def Benign (e : Error) : Prop := e ≠ WORK_LIMIT ∧ e ≠ OUT_OF_FUEL

section

variable {α β : Type}

-- The program spends nothing.
def Free (x : Cascade Weapon α) : Prop := ∀ c,
  match x c with
  | .ok _ after => after.work = c.work
  | .error e after => after.work = c.work ∧ Benign e

theorem free_pure (a : α) : Free (pure a : Cascade Weapon α) := fun _ => rfl

theorem free_throw {e : Error} (h : Benign e) : Free (throw e : Cascade Weapon α) :=
  fun _ => ⟨rfl, h⟩

theorem free_bind {x : Cascade Weapon α} {f : α → Cascade Weapon β} (hx : Free x)
    (hf : ∀ a, Free (f a)) : Free (x >>= f) := by
  intro c
  have hc := hx c
  cases hrun : x c with
  | error e after =>
      rw [hrun] at hc
      rw [Update.bind_error x f c hrun]
      exact hc
  | ok a after =>
      rw [hrun] at hc
      have hrest := hf a after
      rw [Update.bind_ok x f c after a hrun]
      rwa [hc] at hrest

theorem free_modify (f : Context Weapon → Context Weapon) (h : ∀ c, (f c).work = c.work) :
    Free (modify f : Cascade Weapon Unit) := h

theorem free_unit : Free (unit : Cascade Weapon (Mech Weapon)) := fun _ => rfl

theorem free_get : Free (get : Cascade Weapon (Context Weapon)) := fun _ => rfl

theorem free_roll (draw : Dice → Nat × Dice) : Free (roll draw : Cascade Weapon Nat) :=
  fun _ => rfl

theorem free_record (event : Event) : Free (record event : Cascade Weapon Unit) := fun _ => rfl

theorem free_lift (x : Except Error α) (h : ∀ e, x = .error e → Benign e) :
    Free (liftExcept x : Cascade Weapon α) := by
  intro c
  cases x with
  | ok a => rfl
  | error e => exact ⟨rfl, h e rfl⟩

end

section

variable (d : Design Weapon) {α β : Type}

-- With less than `work` left, the program gets by on `cost` and the live and pending slots it
-- uses up, whatever else has to remain.
def Affords (work cost pending : Nat) (left : α → Nat) (x : Cascade Weapon α) : Prop :=
  ∀ c rest, c.work < work → rest + cost + PACKET * (live d c + pending) ≤ c.work →
    match x c with
    | .ok a after => rest + PACKET * (live d after + left a) ≤ after.work ∧ after.work ≤ c.work
    | .error e after => rest ≤ after.work ∧ Benign e

variable (work cost later pending : Nat)

theorem affords_mono {less more : Nat} {left : α → Nat} {x : Cascade Weapon α} (hw : less ≤ work)
    (hc : cost ≤ more) (h : Affords d work cost pending left x) :
    Affords d less more pending left x := by
  intro c rest hwork hrest
  exact h c rest (by omega) (by omega)

theorem affords_pure (left : α → Nat) (a : α) (h : left a ≤ pending) :
    Affords d work cost pending left (pure a : Cascade Weapon α) := by
  intro c rest _ hrest
  have hle : PACKET * (live d c + left a) ≤ PACKET * (live d c + pending) :=
    Nat.mul_le_mul_left _ (by omega)
  exact ⟨by omega, Nat.le_refl _⟩

theorem affords_throw (left : α → Nat) (e : Error) (h : Benign e) :
    Affords d work cost pending left (throw e : Cascade Weapon α) := by
  intro c rest _ hrest
  exact ⟨by omega, h⟩

theorem affords_drop {fewer : Nat} {left : α → Nat} {x : Cascade Weapon α} (hl : fewer ≤ pending)
    (h : Affords d work cost fewer left x) : Affords d work cost pending left x := by
  intro c rest hwork hrest
  have hle : PACKET * (live d c + fewer) ≤ PACKET * (live d c + pending) :=
    Nat.mul_le_mul_left _ (by omega)
  exact h c rest hwork (by omega)

variable (middle : α → Nat) (left : β → Nat) (x : Cascade Weapon α) (f : α → Cascade Weapon β)

-- What follows may rely on the value it follows.
theorem affords_bind_of (hx : Affords d work cost pending middle x)
    (hf : ∀ a c after, x c = .ok a after → Affords d work later (middle a) left (f a)) :
    Affords d work (cost + later) pending left (x >>= f) := by
  intro c rest hwork hrest
  have hfirst := hx c (rest + later) hwork (by omega)
  cases hrun : x c with
  | error e after =>
      rw [hrun] at hfirst
      rw [Update.bind_error x f c hrun]
      exact ⟨by omega, hfirst.2⟩
  | ok a after =>
      rw [hrun] at hfirst
      have hsecond := hf a c after hrun after rest (by omega) (by omega)
      rw [Update.bind_ok x f c after a hrun]
      revert hsecond
      cases f a after with
      | error e last => exact fun hsecond => hsecond
      | ok b last => exact fun hsecond => ⟨hsecond.1, hsecond.2.trans hfirst.2⟩

theorem affords_bind (hx : Affords d work cost pending middle x)
    (hf : ∀ a, Affords d work later (middle a) left (f a)) :
    Affords d work (cost + later) pending left (x >>= f) :=
  affords_bind_of d work cost later pending middle left x f hx (fun a _ _ _ => hf a)

-- The first part gets by on what it uses up.
theorem affords_seq (hx : Affords d work 0 pending middle x)
    (hf : ∀ a, Affords d work cost (middle a) left (f a)) :
    Affords d work cost pending left (x >>= f) := by
  have hall := affords_bind d work 0 cost pending middle left x f hx hf
  rwa [Nat.zero_add] at hall

theorem affords_spend (f : Unit → Cascade Weapon β) (hf : Affords d work cost pending left (f ())) :
    Affords d (work + 1) (cost + 1) pending left (spend >>= f) := by
  intro c rest hwork hrest
  have hpositive : 0 < c.work := by omega
  have hspend : spend c = .ok () { c with work := c.work - 1 } := by
    rw [spend, if_pos hpositive]
  rw [Update.bind_ok spend f c _ () hspend]
  have hlive : live d { c with work := c.work - 1 } = live d c := rfl
  have hrest' := hf { c with work := c.work - 1 } rest (by dsimp only; omega)
    (by rw [hlive]; dsimp only; omega)
  revert hrest'
  cases f () { c with work := c.work - 1 } with
  | error e last => exact fun h => h
  | ok b last => exact fun h => ⟨h.1, h.2.trans (Nat.sub_le _ _)⟩

theorem affords_carry (h : Affords d work cost 0 (fun _ => 0) x) :
    Affords d work cost pending (fun _ => pending) x := by
  intro c rest hwork hrest
  rw [Nat.mul_add] at hrest
  have hcarried := h c (rest + PACKET * pending) hwork (by rw [Nat.add_zero]; omega)
  revert hcarried
  cases x c with
  | error e after => exact fun hcarried => ⟨by omega, hcarried.2⟩
  | ok a after =>
      intro hcarried
      show rest + PACKET * (live d after + pending) ≤ after.work ∧ after.work ≤ c.work
      rw [Nat.mul_add]
      dsimp only at hcarried
      rw [Nat.add_zero] at hcarried
      exact ⟨by omega, hcarried.2⟩

theorem affords_pay {less : Nat} {x : Cascade Weapon α} (hl : less + 1 ≤ pending)
    (h : Affords d work PACKET 0 (fun _ => 0) x) :
    Affords d work 0 pending (fun _ => less) x := by
  intro c rest hwork hrest
  have hpaid : PACKET * (live d c + (less + 1)) ≤ PACKET * (live d c + pending) :=
    Nat.mul_le_mul_left _ (by omega)
  have hsplit : PACKET * (live d c + (less + 1)) = PACKET + PACKET * (live d c + less) := by
    rw [← Nat.add_assoc, Nat.mul_succ, Nat.add_comm]
  exact affords_carry d work PACKET less x h c rest hwork (by omega)

variable [DecidableEq Weapon]

theorem affords_worn
    (hw : ∀ c a after, x c = .ok a after → Mech.Worn d c.unit after.unit) (hx : Free x) :
    Affords d work cost pending (fun _ => pending) x := by
  intro c rest _ hrest
  have hfree := hx c
  cases hrun : x c with
  | error e after =>
      rw [hrun] at hfree
      obtain ⟨hwork, hbenign⟩ := hfree
      exact ⟨by omega, hbenign⟩
  | ok a after =>
      rw [hrun] at hfree
      have hlive := live_worn d (hw c a after hrun)
      have hle : PACKET * (live d after + pending) ≤ PACKET * (live d c + pending) :=
        Nat.mul_le_mul_left _ (by omega)
      show rest + PACKET * (live d after + pending) ≤ after.work ∧ after.work ≤ c.work
      exact ⟨by omega, by omega⟩

theorem affords_free (hw : Wearing d x) (hx : Free x) :
    Affords d work cost pending (fun _ => pending) x := by
  refine affords_worn d work cost pending x (fun c a after hrun => ?_) hx
  have hwears := hw c
  rw [SettledAt, hrun] at hwears
  exact hwears.worn

theorem affords_after_of (hw : Wearing d x) (hx : Free x)
    (hf : ∀ a c after, x c = .ok a after → Affords d work cost pending left (f a)) :
    Affords d work cost pending left (x >>= f) := by
  have hall := affords_bind_of d work 0 cost pending (fun _ => pending) left x f
    (affords_free d work 0 pending x hw hx) hf
  rwa [Nat.zero_add] at hall

theorem affords_after
    (hw : Wearing d x) (hx : Free x) (hf : ∀ a, Affords d work cost pending left (f a)) :
    Affords d work cost pending left (x >>= f) :=
  affords_after_of d work cost pending left x f hw hx (fun a _ _ _ => hf a)

end

section

variable (b : Battlefield Weapon)

theorem free_interlude (event : Interlude) : Free (interlude b event) := by
  apply free_modify
  intro c
  cases b.rules with
  | none => rfl
  | some rules => rfl

theorem free_enterDamage : Free (enterDamage b) :=
  free_bind (free_roll _) (fun _ => free_bind free_get (fun _ => free_pure _))

variable (p : DamagePacket Weapon) (s : MechSection) (w : Walk) (penetrating : Bool)

theorem free_damagePhase (damage : Nat) (phase : DamagePhase) :
    Free (damagePhase b s damage phase) := fun _ => rfl

theorem free_loseSections (sections : List MechSection) : Free (loseSections b sections) := by
  induction sections with
  | nil => exact free_pure ()
  | cons s rest ih => exact free_bind (free_interlude b _) (fun _ => ih)

theorem free_recordPhase (phase : DamageResult) : Free (recordPhase b phase) :=
  free_bind (free_modify _ (fun _ => rfl)) (fun _ =>
    free_bind (free_loseSections b _) (fun _ => free_interlude b _))

theorem free_vacuumRoll : Free (vacuumRoll penetrating : Cascade Weapon Bool) := by
  unfold vacuumRoll
  split
  · exact free_pure _
  · exact free_bind (free_roll _) (fun _ => free_pure _)

theorem free_checkVacuum : Free (checkVacuum b s penetrating) := by
  unfold checkVacuum
  split
  · exact free_pure ()
  · refine free_bind (free_vacuumRoll _) (fun breach => ?_)
    refine free_bind free_unit (fun m => ?_)
    split
    · exact free_pure ()
    · refine free_bind (free_record _) (fun _ => ?_)
      exact free_bind (free_modify _ (fun _ => rfl)) (fun _ => free_interlude b _)

theorem free_intercept (amount : Nat) : Free (intercept amount : Cascade Weapon Bool) := by
  refine free_bind free_unit (fun m => ?_)
  split
  · exact free_pure _
  · refine free_bind (free_roll _) (fun roll => ?_)
    split
    · exact free_pure _
    · refine free_bind (free_record _) (fun _ => ?_)
      exact free_bind (free_modify _ (fun _ => rfl)) (fun _ => free_pure _)

theorem free_modifiedRoll (modifier : Int) :
    Free (modifiedRoll modifier : Cascade Weapon Nat) :=
  free_bind (free_roll _) (fun _ => free_pure _)

theorem free_chooseCritical : Free (chooseCritical b s) := by
  refine free_bind free_unit (fun m => ?_)
  split
  · exact free_pure _
  · split
    · exact free_pure _
    · exact free_bind (free_roll _) (fun _ => free_pure _)

theorem free_disregarded (vented : Bool) : Free (disregarded vented : Cascade Weapon Bool) := by
  unfold disregarded
  split
  · exact free_pure _
  · exact free_bind (free_roll _) (fun _ => free_pure _)

theorem free_loseSystem (loss : CriticalLoss) : Free (loseSystem b loss) := by
  cases loss with
  | Weapon index damage => exact free_pure ()
  | Ammunition index rounds damage => exact free_pure ()
  | System system => exact free_interlude b _

theorem free_dentStage (facing : ArmorFacing) (special : Option ArmorHit) :
    Free (dentStage facing special : Cascade Weapon Unit) := by
  unfold dentStage
  split
  · exact free_modify _ (fun _ => rfl)
  · exact free_pure ()

theorem free_ventDent (hit : Option ArmorHit) (absorbed : Nat) :
    Free (ventDent s hit absorbed : Cascade Weapon Unit) := by
  unfold ventDent
  split
  · split
    · exact free_modify _ (fun _ => rfl)
    · exact free_pure ()
  · exact free_pure ()

theorem free_headStage : Free (headStage b s) := by
  unfold headStage
  split
  · exact free_interlude b _
  · exact free_pure ()

theorem free_armorStage : Free (armorStage b p w) := by
  unfold armorStage
  split
  · exact free_pure _
  · refine free_bind free_unit (fun m => ?_)
    refine free_bind (free_damagePhase b _ _ _) (fun armor => ?_)
    refine free_bind (free_dentStage _ _) (fun _ => ?_)
    exact free_bind (free_recordPhase b armor) (fun _ => free_pure _)

theorem free_breakStage (structural : Nat) (found : Option DestroyedLocation) :
    Free (breakStage b s structural found) :=
  free_bind (free_damagePhase b _ _ _) (fun phase =>
    free_bind (free_recordPhase b phase) (fun _ =>
      free_bind free_unit (fun _ => free_pure _)))

theorem free_checkHullBreach : Free (checkHullBreach b p w) := by
  refine free_bind free_unit (fun m => ?_)
  split
  · exact free_pure ()
  · exact free_interlude b _

theorem free_vacuumStage (damage : Nat) : Free (vacuumStage b p s penetrating damage) := by
  refine free_bind free_unit (fun m => ?_)
  split
  · split
    · exact free_pure ()
    · exact free_checkVacuum b s false
  · split
    · exact free_checkVacuum b s penetrating
    · exact free_pure ()

theorem free_plasmaStage : Free (plasmaStage p w) := by
  unfold plasmaStage
  split
  · exact free_bind (free_roll _) (fun _ => free_modify _ (fun _ => rfl))
  · exact free_pure ()

theorem free_protects : Free (protects b w) := by
  unfold protects
  split
  · exact free_pure _
  · exact free_enterDamage b

theorem free_ignition [DecidableEq Weapon] (s : MechSection) : Free (ignition b s) := by
  refine free_bind free_unit (fun m => ?_)
  split
  · exact free_pure _
  · split
    · exact free_pure _
    · refine free_bind (free_roll _) (fun index => ?_)
      extract_lets bin
      split
      · exact free_throw ⟨by decide, by decide⟩
      · exact free_pure _

end

-- The errors of a critical loss are others.
section

variable (d : Design Weapon) (m : Mech Weapon) (location : CriticalLocation)

variable (loss : CriticalLoss) (e : Error)

theorem fireControlLink_benign {data : List Char} {e : Error}
    (h : fireControlLink data = .error e) : Benign e := by
  unfold fireControlLink at h
  split at h
  · injection h with h
    rw [← h]
    exact ⟨by decide, by decide⟩
  · split at h
    · injection h with h
      rw [← h]
      exact ⟨by decide, by decide⟩
    · injection h with h
      rw [← h]
      exact ⟨by decide, by decide⟩
    · contradiction

theorem dropGuidance_benign (h : m.dropGuidance d location loss = .error e) : Benign e := by
  unfold Mech.dropGuidance at h
  split at h
  · split at h
    · injection h with h
      rw [← h]
      exact ⟨by decide, by decide⟩
    · split at h
      · rename_i cause hcause
        injection h with h
        rw [← h]
        exact fireControlLink_benign hcause
      · contradiction
  · contradiction

theorem systemGroups_benign {system : System} {size : Nat} {label : String} {e : Error}
    (hi : Benign ("Incomplete " ++ label ++ " installation"))
    (hc : Benign ("Incomplete or inconsistent " ++ label ++ " criticals"))
    (h : d.loadout.systemGroups system size label = .error e) : Benign e := by
  unfold MechLoadout.systemGroups at h
  dsimp only at h
  split at h
  · injection h with h
    rwa [← h]
  · split at h
    · injection h with h
      rwa [← h]
    · contradiction

theorem loseGroup_benign {groups : Except Error (List (List CriticalLocation))} {missing e : Error}
    (hg : ∀ cause, groups = .error cause → Benign cause) (hm : Benign missing)
    (h : m.loseGroup groups location missing = .error e) : Benign e := by
  unfold Mech.loseGroup at h
  split at h
  · rename_i cause
    injection h with h
    rw [← h]
    exact hg cause rfl
  · split at h
    · contradiction
    · injection h with h
      rwa [← h]

theorem loseSinks_benign (h : m.loseSinks d location loss = .error e) : Benign e := by
  unfold Mech.loseSinks at h
  split at h
  · refine loseGroup_benign m location (fun cause hcause => ?_) ⟨by decide, by decide⟩ h
    exact systemGroups_benign d ⟨by decide, by decide⟩ ⟨by decide, by decide⟩ hcause
  · contradiction

theorem loseJets_benign (h : m.loseJets d location loss = .error e) : Benign e := by
  unfold Mech.loseJets at h
  split at h
  · refine loseGroup_benign m location (fun cause hcause => ?_) ⟨by decide, by decide⟩ h
    exact systemGroups_benign d ⟨by decide, by decide⟩ ⟨by decide, by decide⟩ hcause
  · contradiction

variable [DecidableEq Weapon]

theorem pendingLoss_benign (h : m.pendingLoss d location = .error e) : Benign e := by
  unfold Mech.pendingLoss at h
  split at h
  · split at h
    · contradiction
    · injection h with h
      rw [← h]
      exact ⟨by decide, by decide⟩
  · split at h
    · split at h
      · contradiction
      · injection h with h
        rw [← h]
        exact ⟨by decide, by decide⟩
    · split at h
      · contradiction
      · injection h with h
        rw [← h]
        exact ⟨by decide, by decide⟩

theorem criticalLoss_benign (h : m.criticalLoss d location = .error e) : Benign e := by
  unfold Mech.criticalLoss at h
  split at h
  · contradiction
  · rename_i cause hcause
    injection h with h
    rw [← h]
    exact pendingLoss_benign d m location cause hcause

theorem destroyCritical_benign (h : m.destroyCritical d location = .error e) : Benign e := by
  unfold Mech.destroyCritical at h
  split at h
  · rename_i cause hcause
    injection h with h
    rw [← h]
    exact criticalLoss_benign d m location cause hcause
  · contradiction
  · rename_i loss hloss
    dsimp only at h
    split at h
    · rename_i cause hcause
      injection h with h
      rw [← h]
      exact dropGuidance_benign d _ location loss cause hcause
    · split at h
      · rename_i cause hcause
        injection h with h
        rw [← h]
        exact loseSinks_benign d _ location loss cause hcause
      · split at h
        · rename_i cause hcause
          injection h with h
          rw [← h]
          exact loseJets_benign d _ location loss cause hcause
        · contradiction

end

section

variable [DecidableEq Weapon] (b : Battlefield Weapon)

variable (m : Mech Weapon) (s : MechSection) (damage : Nat)

theorem explosive_benign (locations : List CriticalLocation) (e : Error)
    (h : explosive b m locations = .error e) : Benign e := by
  induction locations generalizing e with
  | nil => contradiction
  | cons location rest ih =>
      unfold explosive at h
      split at h
      · rename_i cause hcause
        injection h with h
        rw [← h]
        exact criticalLoss_benign b.design m location cause hcause
      · split at h
        · rename_i cause hcause
          injection h with h
          rw [← h]
          exact ih cause hcause
        · contradiction

theorem survey_benign (e : Error) (h : survey b m s = .error e) : Benign e := by
  unfold survey at h
  split at h
  · rename_i cause hcause
    injection h with h
    rw [← h]
    exact explosive_benign b m _ cause hcause
  · contradiction

theorem free_surveyStage (structural : Nat) : Free (surveyStage b s structural) := by
  refine free_bind free_unit (fun m => ?_)
  split
  · exact free_pure _
  · refine free_bind (free_lift _ (fun e he => survey_benign b m s e he)) (fun found => ?_)
    exact free_bind (free_record _) (fun _ => free_pure _)

theorem free_structureStage : Free (structureStage b s damage) := by
  refine free_bind free_unit (fun m => ?_)
  split
  · exact free_pure _
  · exact free_bind (free_surveyStage b s _) (fun found => free_breakStage b s _ found)

-- Explosive slots are listed in the order of the candidates, each at most once.
theorem explosive_sublist (locations : List CriticalLocation)
    (found : List (CriticalLocation × CriticalLoss)) (h : explosive b m locations = .ok found) :
    (found.map Prod.fst).Sublist locations := by
  induction locations generalizing found with
  | nil =>
      injection h with h
      subst h
      exact List.Sublist.refl _
  | cons location rest ih =>
      unfold explosive at h
      split at h
      · contradiction
      · rename_i loss hloss
        split at h
        · contradiction
        · rename_i later hlater
          injection h with h
          subst h
          have hrest := ih later hlater
          cases loss with
          | none => exact hrest.cons location
          | some l =>
              by_cases hl : explosionDamage l ≠ 0
              · simpa [hl] using hrest
              · simpa [hl] using hrest.cons location

theorem live_surveyed {c after : Context Weapon} {s : MechSection} {found : DestroyedLocation}
    (hw : Mech.Worn b.design c.unit after.unit) (hf : survey b c.unit s = .ok found)
    (hz : after.unit.internal s = 0) :
    live b.design after + found.explosive.length ≤ live b.design c := by
  unfold survey at hf
  split at hf
  · contradiction
  · rename_i slots hslots
    injection hf with hf
    subst hf
    have hsub := explosive_sublist b c.unit _ slots hslots
    have hnodup : (slots.map Prod.fst).Nodup :=
      (candidates_nodup b.design c.unit s).sublist hsub
    have hdisjoint : Disjoint (liveSlots b.design after.unit) (slots.map Prod.fst).toFinset := by
      rw [Finset.disjoint_left]
      intro location hlive hmem
      have hplace := mem_candidates_place b c.unit (hsub.subset (List.mem_toFinset.mp hmem))
      apply ((mem_liveSlots _ _ _).mp hlive).2
      rw [Mech.criticalDestroyed_iff, hplace]
      exact Or.inr hz
    have hall : liveSlots b.design after.unit ∪ (slots.map Prod.fst).toFinset ⊆
        liveSlots b.design c.unit := by
      apply Finset.union_subset (liveSlots_worn _ hw)
      intro location hmem
      exact candidates_live b.design c.unit s location (hsub.subset (List.mem_toFinset.mp hmem))
    have hcard := Finset.card_le_card hall
    rwa [Finset.card_union_of_disjoint hdisjoint, List.toFinset_card_of_nodup hnodup,
      List.length_map] at hcard

-- How many slots of a destroyed section may still go off.
def pendingSlots (destroyed : Option DestroyedLocation) : Nat :=
  match destroyed with
  | none => 0
  | some destroyed => destroyed.explosive.length

theorem structureStage_pending {c after : Context Weapon}
    {broken : Broken} (h : structureStage b s damage c = .ok broken after) :
    live b.design after + pendingSlots broken.destroyed ≤ live b.design c := by
  have hworn : Mech.Worn b.design c.unit after.unit := by
    have hsettled := structureStage_settles b s damage c
    rw [SettledAt, h] at hsettled
    exact hsettled.worn
  unfold structureStage at h
  rw [Update.bind_ok unit _ c c c.unit rfl] at h
  split at h
  · injection h with h _
    subst h
    exact live_worn b.design hworn
  · rcases surveyStage_cases b s (Mech.structureDamage b.design damage) c with
      ⟨e, herror⟩ | hnone | ⟨found, hfound, hsome⟩
    · rw [Update.bind_error _ _ c herror] at h
      contradiction
    · rw [Update.bind_ok _ _ c c none hnone] at h
      rw [breakStage_destroyed h]
      exact live_worn b.design hworn
    · rw [Update.bind_ok _ _ c _ (some found) hsome] at h
      rw [breakStage_destroyed h]
      by_cases hzero : after.unit.internal s = 0
      · simp only [Option.filter_some, hzero, decide_true, ↓reduceIte, pendingSlots]
        exact live_surveyed b hworn hfound hzero
      · simp only [Option.filter_some, hzero, decide_false, Bool.false_eq_true, ↓reduceIte,
          pendingSlots]
        exact live_worn b.design hworn

theorem affords_structureStage (work cost : Nat) (s : MechSection) (damage : Nat) :
    Affords b.design work cost 0 (fun broken => pendingSlots broken.destroyed)
      (structureStage b s damage) := by
  intro c rest _ hrest
  have hfree := free_structureStage b s damage c
  cases hrun : structureStage b s damage c with
  | error e after =>
      rw [hrun] at hfree
      obtain ⟨hwork, hbenign⟩ := hfree
      exact ⟨by omega, hbenign⟩
  | ok broken after =>
      rw [hrun] at hfree
      have hpending := structureStage_pending b s damage hrun
      have hle : PACKET * (live b.design after + pendingSlots broken.destroyed) ≤
          PACKET * (live b.design c + 0) := Nat.mul_le_mul_left _ (by omega)
      show rest + PACKET * (live b.design after + pendingSlots broken.destroyed) ≤ after.work ∧
        after.work ≤ c.work
      exact ⟨by omega, by omega⟩

end

theorem chooseCritical_slot {b : Battlefield Weapon} {s : MechSection} {c after : Context Weapon}
    {location : CriticalLocation} (h : chooseCritical b s c = .ok (some location) after) :
    location ∈ slots b.design := by
  unfold chooseCritical at h
  rw [Update.bind_ok unit _ c c c.unit rfl] at h
  split at h
  · injection h with h _
    contradiction
  · split at h
    · injection h with h _
      contradiction
    · obtain ⟨index, rolled, -, h⟩ := Update.ok_of_bind _ _ c after (some location) h
      injection h with h _
      have hmem := List.mem_of_getElem? h
      exact ((mem_liveSlots _ _ _).mp (candidates_live b.design c.unit s location hmem)).1

section

variable [DecidableEq Weapon] (b : Battlefield Weapon) (work : Nat)
  (path : DamagePacket Weapon → Cascade Weapon Course)
  (haffords : ∀ p, p.weaponEffect = none → Affords b.design work PACKET 0 (fun _ => 0) (path p))

include haffords

variable (s : MechSection) (p : DamagePacket Weapon) (w : Walk) (roll : Nat) (vented : Bool)
  (modifiers : List Int) (count : Nat) (destroyed : DestroyedLocation)

theorem affords_ventExplosion (damage : Nat) :
    Affords b.design work PACKET 0 (fun _ => 0) (ventExplosion b path s damage) := by
  refine affords_bind b.design work PACKET 0 0 (fun _ => 0) _ _ _ (haffords _ rfl) (fun _ => ?_)
  refine affords_after b.design work 0 0 _ _ _ (wearing_unit b) free_unit (fun m => ?_)
  split
  · exact affords_pure b.design work 0 0 _ _ (Nat.le_refl 0)
  · extract_lets hit points
    split
    · exact affords_pure b.design work 0 0 _ _ (Nat.le_refl 0)
    · have hwearing : Wearing b.design (do
          let armor ← damagePhase b s points (.Armor true)
          ventDent s hit armor.absorbed
          recordPhase b armor) := wearing_quiet b.design (quiet_ventArmor b s points hit)
      refine affords_free b.design work 0 0 _ hwearing ?_
      exact free_bind (free_damagePhase b _ _ _) (fun armor =>
        free_bind (free_ventDent s hit _) (fun _ => free_recordPhase b armor))

theorem affords_detonate (force : Nat) :
    Affords b.design work PACKET 0 (fun _ => 0) (detonate b path s force) := by
  unfold detonate
  split
  · refine affords_mono b.design work 0 0 (Nat.le_refl _) (Nat.zero_le _) ?_
    exact affords_free b.design work 0 0 _ (wearing_throw b.design _)
      (free_throw ⟨by decide, by decide⟩)
  · split
    · exact affords_ventExplosion b work path haffords s force
    · exact affords_bind b.design work PACKET 0 0 (fun _ => 0) _ _ _ (haffords _ rfl)
        (fun _ => affords_pure b.design work 0 0 _ _ (Nat.le_refl 0))

omit haffords in
theorem affords_recordDetonation (pending : Nat) (loss : CriticalLoss) :
    Affords b.design work 0 pending (fun _ => pending)
      (recordDetonation loss : Cascade Weapon Unit) := by
  unfold recordDetonation
  split
  · refine affords_worn b.design work 0 pending _ (fun c a after hrun => ?_) (free_record _)
    injection hrun with _ hafter
    rw [← hafter]
    exact Mech.Worn.refl _ _
  · exact affords_pure b.design work 0 pending _ () (Nat.le_refl _)

theorem affords_explode (location : CriticalLocation) (loss : CriticalLoss) {pending less : Nat}
    (hl : less ≤ pending) (he : explosionDamage loss ≠ 0 → less + 1 ≤ pending) :
    Affords b.design work 0 pending (fun _ => less) (explode b path location loss) := by
  unfold explode
  split
  · exact affords_pure b.design work 0 pending _ () hl
  · rename_i hexplosive
    apply affords_pay b.design work pending (he hexplosive)
    have hlast := affords_bind b.design work PACKET 0 0 (fun _ => 0) _ _ _
      (affords_detonate b work path haffords (explosionSection b location loss)
        (explosionForce b loss))
      (fun _ => affords_free b.design work 0 0 _ (wearing_interlude b .ExplosionInjury)
        (free_interlude b _))
    exact affords_seq b.design work PACKET 0 (fun _ => 0) _ _ _
      (affords_recordDetonation b work 0 loss) (fun _ => hlast)

-- Losing a live slot frees the work its explosion may take.
theorem affords_loseCritical {location : CriticalLocation} (hl : location ∈ slots b.design) :
    Affords b.design work 0 0 (fun _ => 0) (loseCritical b path location) := by
  intro c rest hwork hrest
  unfold loseCritical
  rw [Update.bind_ok unit _ c c c.unit rfl]
  cases hstruck : c.unit.destroyCritical b.design location with
  | error e =>
      have hbenign := destroyCritical_benign b.design c.unit location e hstruck
      exact ⟨by omega, hbenign⟩
  | ok struck =>
      obtain ⟨loss, n⟩ := struck
      rcases Mech.destroyCritical_cases b.design c.unit n location hstruck with
        ⟨rfl, rfl⟩ | ⟨loss, rfl, hloss⟩
      · exact ⟨by omega, Nat.le_refl _⟩
      · have hlost := live_lost b.design c (c.setUnit n) (hloss.worn b.design c.unit n location loss)
          location ((mem_liveSlots _ _ _).mpr ⟨hl, hloss.intact⟩)
          ((Mech.criticalDestroyed_iff n location).mpr
            (Or.inl (hloss.lost b.design c.unit n location loss)))
        have hle : PACKET * (live b.design (c.setUnit n) + 1) ≤ PACKET * (live b.design c + 0) :=
          Nat.mul_le_mul_left _ (by omega)
        have hrest' : Affords b.design work 0 1 (fun _ => 0) (do
            pushCritical location loss
            loseSystem b loss
            explode b path location loss) := by
          refine affords_after b.design work 0 1 _ _ _ (wearing_quiet b.design
            (quiet_pushCritical b location loss)) (free_modify _ (fun _ => rfl)) (fun _ => ?_)
          refine affords_after b.design work 0 1 _ _ _ (wearing_loseSystem b loss)
            (free_loseSystem b loss) (fun _ => ?_)
          exact affords_explode b work path haffords location loss (Nat.zero_le 1)
            (fun _ => Nat.le_refl 1)
        exact hrest' (c.setUnit n) rest hwork (by show _ ≤ c.work; omega)

theorem affords_strikeSlots :
    Affords b.design work count 0 (fun _ => 0) (strikeSlots b path s vented count) := by
  induction count with
  | zero => exact affords_pure b.design work 0 0 _ () (Nat.le_refl 0)
  | succ count ih =>
      refine affords_mono b.design (work + 1) (count + 1) 0 (Nat.le_succ work)
        (Nat.le_refl _) (affords_spend b.design work count 0 _ _ ?_)
      refine affords_after b.design work count 0 _ _ _
        (wearing_quiet b.design (quiet_disregarded b vented)) (free_disregarded vented)
        (fun skip => ?_)
      split
      · exact ih
      · refine affords_after_of b.design work count 0 _ _ _
          (wearing_quiet b.design (quiet_chooseCritical b s)) (free_chooseCritical b s)
          (fun location c after hchosen => ?_)
        cases location with
        | none => exact affords_pure b.design work count 0 _ () (Nat.le_refl 0)
        | some location =>
            have hslot := chooseCritical_slot hchosen
            exact affords_seq b.design work count 0 (fun _ => 0) _ _ _
              (affords_loseCritical b work path haffords hslot) (fun _ => ih)

theorem affords_resolveCriticals (vented : Bool) :
    Affords b.design work count 0 (fun _ => 0) (resolveCriticals b path s count vented) := by
  refine affords_after b.design work count 0 _ _ _ (wearing_unit b) free_unit (fun m => ?_)
  split
  · exact affords_pure b.design work count 0 _ () (Nat.le_refl 0)
  · split
    · exact affords_pure b.design work count 0 _ () (Nat.le_refl 0)
    · exact affords_strikeSlots b work path haffords _ vented count

omit [DecidableEq Weapon] haffords in
theorem criticalCount_le : criticalCount roll ≤ 3 := by
  unfold criticalCount
  split <;> omega

theorem affords_resolveDeterminingRoll :
    Affords b.design work 3 0 (fun _ => 0) (resolveDeterminingRoll b path s roll vented) := by
  unfold resolveDeterminingRoll
  split
  · refine affords_after b.design work 3 0 _ _ _ (wearing_record b rfl) (free_record _)
      (fun _ => ?_)
    refine affords_after b.design work 3 0 _ _ _ (wearing_unit b) free_unit (fun m => ?_)
    exact affords_free b.design work 3 0 _ (wearing_quiet b.design (quiet_blownOff b s _))
      (free_bind (free_damagePhase b _ _ _) (fun phase => free_recordPhase b phase))
  · exact affords_mono b.design work _ 0 (Nat.le_refl work) (criticalCount_le roll)
      (affords_resolveCriticals b work path haffords s _ vented)

theorem affords_survivingRolls : Affords b.design work (3 * modifiers.length) 0 (fun _ => 0)
      (survivingRolls b path s vented modifiers) := by
  induction modifiers with
  | nil => exact affords_pure b.design work 0 0 _ () (Nat.le_refl 0)
  | cons modifier rest ih =>
      refine affords_after b.design work _ 0 _ _ _ (wearing_unit b) free_unit (fun m => ?_)
      split
      · exact affords_pure b.design work _ 0 _ () (Nat.le_refl 0)
      · refine affords_after b.design work _ 0 _ _ _ (wearing_modifiedRoll b modifier)
          (free_modifiedRoll modifier) (fun roll => ?_)
        have hall := affords_bind b.design work 3 _ 0 (fun _ => 0) _ _ _
          (affords_resolveDeterminingRoll b work path haffords s roll vented) (fun _ => ih)
        rwa [List.length_cons, Nat.mul_succ, Nat.add_comm]

theorem affords_strikeDestroyed :
    Affords b.design work count destroyed.explosive.length (fun after => after.explosive.length)
      (strikeDestroyed b path vented count destroyed) := by
  induction count generalizing destroyed with
  | zero => exact affords_pure b.design work 0 _ _ destroyed (Nat.le_refl _)
  | succ count ih =>
      refine affords_mono b.design (work + 1) (count + 1) _ (Nat.le_succ work)
        (Nat.le_refl _) (affords_spend b.design work count _ _ _ ?_)
      refine affords_after b.design work count _ _ _ _
        (wearing_quiet b.design (quiet_disregarded b vented)) (free_disregarded vented)
        (fun skip => ?_)
      split
      · exact ih destroyed
      · split
        · exact affords_pure b.design work count _ _ destroyed (Nat.le_refl _)
        · refine affords_after b.design work count _ _ _ _ (wearing_roll b _) (free_roll _)
            (fun index => ?_)
          split
          · exact affords_throw b.design work count _ _ _ ⟨by decide, by decide⟩
          · rename_i location hlocation
            have hle : (destroyed.explosive.filter (fun slot => slot.1 ≠ location)).length ≤
                destroyed.explosive.length := List.length_filter_le _ _
            split
            · exact affords_drop b.design work count _ hle (ih ⟨_, _⟩)
            · rename_i place loss hfound
              have hplace : place = location := by simpa using List.find?_some hfound
              have hmem := List.mem_of_find?_eq_some hfound
              have hless : (destroyed.explosive.filter (fun slot => slot.1 ≠ location)).length + 1 ≤
                  destroyed.explosive.length := by
                have hlt : (destroyed.explosive.filter (fun slot => slot.1 ≠ location)).length <
                    destroyed.explosive.length :=
                  List.length_filter_lt_length_iff_exists.mpr ⟨_, hmem, by simp [hplace]⟩
                omega
              refine affords_after b.design work count _ _ _ _
                (wearing_quiet b.design (quiet_pushCritical b location loss))
                (free_modify _ (fun _ => rfl)) (fun _ => ?_)
              have hnext := ih ⟨destroyed.candidates.eraseIdx (index - 1),
                destroyed.explosive.filter (fun slot => slot.1 ≠ location)⟩
              exact affords_seq b.design work count _ _ _ _ _
                (affords_explode b work path haffords location loss hle (fun _ => hless))
                (fun _ => hnext)

theorem affords_resolveDestroyedLocationRoll (vented : Bool) :
    Affords b.design work 3 destroyed.explosive.length (fun after => after.explosive.length)
      (resolveDestroyedLocationRoll b path s roll destroyed vented) := by
  unfold resolveDestroyedLocationRoll
  extract_lets count
  have hcount : count ≤ 3 := by
    show (if roll = 12 ∧ blownOffByTwelve s then 0 else criticalCount roll) ≤ 3
    split
    · exact Nat.zero_le 3
    · exact criticalCount_le roll
  refine affords_after b.design work 3 _ _ _ _ (wearing_unit b) free_unit (fun m => ?_)
  split
  · exact affords_pure b.design work 3 _ _ destroyed (Nat.le_refl _)
  · exact affords_mono b.design work count _ (Nat.le_refl work) hcount
      (affords_strikeDestroyed b work path haffords vented count destroyed)

theorem affords_destroyedRolls :
    Affords b.design work (3 * modifiers.length) destroyed.explosive.length (fun _ => 0)
      (destroyedRolls b path s vented modifiers destroyed) := by
  induction modifiers generalizing destroyed with
  | nil => exact affords_pure b.design work 0 _ _ () (Nat.zero_le _)
  | cons modifier rest ih =>
      refine affords_after b.design work _ _ _ _ _ (wearing_modifiedRoll b modifier)
        (free_modifiedRoll modifier) (fun roll => ?_)
      have hall := affords_bind b.design work 3 _ _ _ _ _ _
        (affords_resolveDestroyedLocationRoll b work path haffords s roll destroyed vented)
        (fun after => ih after)
      rwa [List.length_cons, Nat.mul_succ, Nat.add_comm]

theorem affords_resolveLocationCriticals (destroyed : Option DestroyedLocation) (vented : Bool) :
    Affords b.design work (3 * modifiers.length) (pendingSlots destroyed) (fun _ => 0)
      (resolveLocationCriticals b path s modifiers destroyed vented) := by
  cases destroyed with
  | none => exact affords_survivingRolls b work path haffords s vented modifiers
  | some destroyed =>
      unfold resolveLocationCriticals
      dsimp only
      split
      · exact affords_pure b.design work _ _ _ () (Nat.zero_le _)
      · exact affords_destroyedRolls b work path haffords s vented modifiers destroyed

theorem affords_aftermath (penetrating : Bool)
    (modifiers : List Int) (broken : Broken) (later : Walk) :
    Affords b.design work (3 * modifiers.length) (pendingSlots broken.destroyed) (fun _ => 0)
      (aftermath b path p w penetrating modifiers broken later) := by
  have hlast : Affords b.design work 0 0 (fun _ => 0) (do
      checkHullBreach b p w
      vacuumStage b p w.place penetrating broken.left
      return later) := by
    refine affords_after b.design work 0 0 _ _ _ (wearing_checkHullBreach b p w)
      (free_checkHullBreach b p w) (fun _ => ?_)
    refine affords_after b.design work 0 0 _ _ _ (wearing_vacuumStage b p _ _ _)
      (free_vacuumStage b p _ _ _) (fun _ => ?_)
    exact affords_pure b.design work 0 0 _ later (Nat.le_refl 0)
  exact affords_bind b.design work (3 * modifiers.length) 0 _ (fun _ => 0) _ _ _
    (affords_resolveLocationCriticals b work path haffords w.place modifiers broken.destroyed
      p.vented) (fun _ => hlast)

omit [DecidableEq Weapon] haffords in
theorem rolls_length (armorDamaged structureDamaged : Bool) :
    (rolls b p w armorDamaged structureDamaged).length ≤ 3 := by
  have htac : ∀ value : Int, (if w.tac then [value] else []).length ≤ 1 := by
    intro value
    split <;> simp
  have hstructure : ∀ value : Int, (if structureDamaged then [value] else []).length ≤ 1 := by
    intro value
    split <;> simp
  unfold rolls
  rw [List.length_append, List.length_append]
  show _ ≤ 1 + 1 + 1
  refine Nat.add_le_add (Nat.add_le_add (htac _) ?_) (hstructure _)
  -- an armor-piercing hit rolls once more
  split
  · split <;> simp
  · simp

theorem affords_material : Affords b.design work 9 0 (fun _ => 0) (material b path p w) := by
  refine affords_after b.design work 9 0 _ _ _ (wearing_headStage b _) (free_headStage b _)
    (fun _ => ?_)
  refine affords_after b.design work 9 0 _ _ _ (wearing_quiet b.design (quiet_armorStage b p w))
    (free_armorStage b p w) (fun armor => ?_)
  refine affords_after b.design work 9 0 _ _ _ (wearing_unit b) free_unit (fun m => ?_)
  extract_lets armorLeft penetrating
  refine affords_seq b.design work 9 0 _ _ _ _
    (affords_structureStage b work 0 w.place armor.left) (fun broken => ?_)
  have hrolls := rolls_length b p w (0 < armor.absorbed) broken.absorbed.isSome
  exact affords_mono b.design work _ _ (Nat.le_refl work) (by omega)
    (affords_aftermath b work path haffords p w _ _ broken _)

omit [DecidableEq Weapon] haffords in
theorem affords_unattributed {cost : Nat} {x : Cascade Weapon Course}
    (h : Affords b.design work cost 0 (fun _ => 0) x) :
    Affords b.design work cost 0 (fun _ => 0) (unattributed x) := by
  intro c rest hwork hrest
  have hx := h { c with attacker := none } rest hwork hrest
  unfold unattributed
  cases hrun : x { c with attacker := none } with
  | ok course after =>
      rw [hrun] at hx
      exact hx
  | error e after =>
      rw [hrun] at hx
      exact hx

theorem affords_igniteStage :
    Affords b.design work PACKET 0 (fun _ => 0) (igniteStage b path w) := by
  unfold igniteStage
  split
  · exact affords_pure b.design work PACKET 0 _ () (Nat.le_refl 0)
  · refine affords_after b.design work PACKET 0 _ _ _ (wearing_ignition b _) (free_ignition b _)
      (fun found => ?_)
    split
    · exact affords_pure b.design work PACKET 0 _ () (Nat.le_refl 0)
    · refine affords_after b.design work PACKET 0 _ _ _ (wearing_record b rfl) (free_record _)
        (fun _ => ?_)
      refine affords_bind b.design work PACKET 0 0 (fun _ => 0) _ _ _
        (affords_unattributed b work (haffords _ rfl)) (fun _ => ?_)
      exact affords_worn b.design work 0 0 _
        (fun c _ after hrun => by
          injection hrun with _ hafter
          rw [← hafter]
          exact endDumping_worn b.design _ c.unit)
        (free_modify _ (fun _ => rfl))

theorem affords_finish : Affords b.design work PACKET 0 (fun _ => 0) (finish b path p w) := by
  refine affords_after b.design work PACKET 0 _ _ _ (wearing_plasmaStage b p w)
    (free_plasmaStage p w) (fun _ => ?_)
  exact affords_bind b.design work PACKET 0 0 (fun _ => 0) _ _ _
    (affords_igniteStage b work path haffords w)
    (fun _ => affords_pure b.design work 0 0 _ _ (Nat.le_refl 0))

-- A packet that ignites nothing ends for free.
omit haffords in
theorem affords_finish_cold (cost : Nat) (p : DamagePacket Weapon) {w : Walk}
    (hw : w.ignition = none) : Affords b.design work cost 0 (fun _ => 0) (finish b path p w) := by
  refine affords_after b.design work cost 0 _ _ _ (wearing_plasmaStage b p w)
    (free_plasmaStage p w) (fun _ => ?_)
  unfold igniteStage
  rw [hw]
  exact affords_pure b.design work cost 0 _ _ (Nat.le_refl 0)

end

-- A section step once its work is spent.
def spentStep [DecidableEq Weapon] (b : Battlefield Weapon)
    (path : DamagePacket Weapon → Cascade Weapon Course) (p : DamagePacket Weapon) (w : Walk) :
    Cascade Weapon Flow := do
  let suppressed ← protects b w
  if suppressed then return .Return ⟨w.visits, .Suppressed, w.place, w.damage⟩
  else do
    let m ← unit
    if m.internal w.place = 0 then return passThrough b p w
    else do
      let intercepted ← intercept w.damage
      if intercepted then return .Return ⟨w.visits, .Intercepted, w.place, w.damage⟩
      else do
        let w ← material b path p w
        return transferOn b p w

-- A packet without a weapon's effect ignites nothing on its way.
def Cold (p : DamagePacket Weapon) (w : Walk) : Prop := p.weaponEffect = none ∧ w.ignition = none

-- The step goes one section inward at a time.
def Onward (p : DamagePacket Weapon) (w : Walk) : Flow → Prop
  | .Return _ => True
  | .Break later => Cold p w → Cold p later
  | .Next later => later.place.depth + 1 = w.place.depth ∧ (Cold p w → Cold p later)

theorem ignites_none (p : DamagePacket Weapon) (h : p.weaponEffect = none) (s : MechSection) :
    p.ignites s = false := by
  unfold DamagePacket.ignites
  rw [h, Bool.and_false]

section

variable [DecidableEq Weapon] (b : Battlefield Weapon)
  (path : DamagePacket Weapon → Cascade Weapon Course) (p : DamagePacket Weapon) (w : Walk)
  (c after : Context Weapon)

theorem iteration_eq : iteration b path p w = (spend >>= fun _ => spentStep b path p w) := rfl

theorem material_later {later : Walk} (h : material b path p w c = .ok later after) :
    later.place = w.place ∧ (Cold p w → Cold p later) := by
  obtain ⟨-, entered, -, h⟩ := Update.ok_of_bind _ _ c after later h
  obtain ⟨armor, armored, -, h⟩ := Update.ok_of_bind _ _ entered after later h
  rw [Update.bind_ok unit _ armored armored armored.unit rfl] at h
  obtain ⟨broken, struck, -, h⟩ := Update.ok_of_bind _ _ armored after later h
  obtain ⟨-, resolved, -, h⟩ := Update.ok_of_bind _ _ struck after later h
  obtain ⟨-, checked, -, h⟩ := Update.ok_of_bind _ _ resolved after later h
  obtain ⟨-, aired, -, h⟩ := Update.ok_of_bind _ _ checked after later h
  injection h with h _
  subst h
  refine ⟨rfl, fun hcold => ⟨hcold.1, ?_⟩⟩
  simp only [ignites_none p hcold.1, Bool.false_eq_true, ↓reduceIte]
  exact hcold.2

omit [DecidableEq Weapon] in
theorem passThrough_onward : Onward p w (passThrough b p w) := by
  unfold passThrough
  split
  · exact fun hcold => hcold
  · split
    · exact fun hcold => hcold
    · rename_i next hnext
      exact ⟨MechSection.depth_transfer hnext, fun hcold => hcold⟩

omit [DecidableEq Weapon] in
theorem transferOn_onward {later : Walk} (hplace : later.place = w.place)
    (hcold : Cold p w → Cold p later) : Onward p w (transferOn b p later) := by
  unfold transferOn
  split
  · exact hcold
  · split
    · exact hcold
    · rename_i next hnext
      rw [hplace] at hnext
      exact ⟨MechSection.depth_transfer hnext, hcold⟩

theorem spentStep_onward {flow : Flow} (h : spentStep b path p w c = .ok flow after) :
    Onward p w flow := by
  obtain ⟨suppressed, entered, -, h⟩ := Update.ok_of_bind _ _ c after flow h
  split at h
  · injection h with h _
    subst h
    trivial
  · rw [Update.bind_ok unit _ entered entered entered.unit rfl] at h
    split at h
    · injection h with h _
      subst h
      exact passThrough_onward b p w
    · obtain ⟨intercepted, cut, -, h⟩ := Update.ok_of_bind _ _ entered after flow h
      split at h
      · injection h with h _
        subst h
        trivial
      · obtain ⟨later, resolved, hmaterial, h⟩ := Update.ok_of_bind _ _ cut after flow h
        obtain ⟨hplace, hcold⟩ := material_later b path p w cut resolved hmaterial
        injection h with h _
        subst h
        exact transferOn_onward b p w hplace hcold

end

section

variable [DecidableEq Weapon] (b : Battlefield Weapon) (work : Nat)
  (path : DamagePacket Weapon → Cascade Weapon Course)
  (haffords : ∀ p, p.weaponEffect = none → Affords b.design work PACKET 0 (fun _ => 0) (path p))

include haffords

theorem affords_spentStep (p : DamagePacket Weapon) (w : Walk) :
    Affords b.design work 9 0 (fun _ => 0) (spentStep b path p w) := by
  refine affords_after b.design work 9 0 _ _ _ (wearing_protects b w) (free_protects b w)
    (fun suppressed => ?_)
  split
  · exact affords_pure b.design work 9 0 _ _ (Nat.le_refl 0)
  · refine affords_after b.design work 9 0 _ _ _ (wearing_unit b) free_unit (fun m => ?_)
    split
    · exact affords_pure b.design work 9 0 _ _ (Nat.le_refl 0)
    · refine affords_after b.design work 9 0 _ _ _ (wearing_intercept b _) (free_intercept _)
        (fun intercepted => ?_)
      split
      · exact affords_pure b.design work 9 0 _ _ (Nat.le_refl 0)
      · exact affords_bind b.design work 9 0 0 (fun _ => 0) _ _ _
          (affords_material b work path haffords p w)
          (fun later => affords_pure b.design work 0 0 _ _ (Nat.le_refl 0))

-- One section step: its unit of work, up to three rolls, and what follows it.
theorem affords_iteration (later : Nat) (p : DamagePacket Weapon) (w : Walk)
    (f : Flow → Cascade Weapon Course)
    (hf : ∀ flow, Onward p w flow → Affords b.design work later 0 (fun _ => 0) (f flow)) :
    Affords b.design (work + 1) (STEP + later) 0 (fun _ => 0) (iteration b path p w >>= f) := by
  rw [iteration_eq, bind_assoc]
  have hstep := affords_bind_of b.design work 9 later 0 (fun _ => 0) (fun _ => 0) _ f
    (affords_spentStep b work path haffords p w)
    (fun flow c after hrun => hf flow (spentStep_onward b path p w c after hrun))
  have hall := affords_spend b.design work (9 + later) 0 _ (fun _ => spentStep b path p w >>= f)
    hstep
  rwa [show 9 + later + 1 = STEP + later by unfold STEP; omega] at hall

end

section

variable [DecidableEq Weapon] (b : Battlefield Weapon)

variable (fuel : Nat) (p : DamagePacket Weapon)

-- On the fuel, which is more than the work left: every section step spends both.
theorem affords_walkFrom_cold (w : Walk) (h : Cold p w) :
    Affords b.design fuel (STEP * w.place.depth) 0 (fun _ => 0) (walkFrom b fuel p w) := by
  induction fuel generalizing p w with
  | zero => exact fun c rest hwork _ => absurd hwork (Nat.not_lt_zero _)
  | succ fuel ih =>
      have haffords : ∀ nested : DamagePacket Weapon, nested.weaponEffect = none →
          Affords b.design fuel PACKET 0 (fun _ => 0) (walkFrom b fuel nested nested.start) := by
        intro nested hnested
        have hdepth : STEP * nested.start.place.depth ≤ PACKET :=
          Nat.mul_le_mul_left STEP (MechSection.depth_le _)
        exact affords_mono b.design fuel _ 0 (Nat.le_refl _) hdepth
          (ih nested _ ⟨hnested, rfl⟩)
      unfold walkFrom
      split
      · exact affords_finish_cold b (fuel + 1) _ _ p h.2
      · have hdepth : 0 < w.place.depth := by cases w.place <;> decide
        have hcost : STEP + STEP * (w.place.depth - 1) = STEP * w.place.depth := by
          unfold STEP
          omega
        rw [← hcost]
        refine affords_iteration b fuel _ haffords _ p w _ (fun flow hflow => ?_)
        cases flow with
        | Return course => exact affords_pure b.design fuel _ 0 _ course (Nat.le_refl 0)
        | Break later => exact affords_finish_cold b fuel _ _ p (hflow h).2
        | Next later =>
            have hnext := ih p later (hflow.2 h)
            rwa [show later.place.depth = w.place.depth - 1 by have := hflow.1; omega] at hnext

theorem affords_packet (h : p.weaponEffect = none) :
    Affords b.design fuel PACKET 0 (fun _ => 0) (walkFrom b fuel p p.start) :=
  affords_mono b.design fuel _ 0 (Nat.le_refl _)
    (Nat.mul_le_mul_left STEP (MechSection.depth_le p.place))
    (affords_walkFrom_cold b fuel p p.start ⟨h, rfl⟩)

theorem affords_walkFrom (w : Walk) :
    Affords b.design (fuel - 1) (STEP * w.place.depth + PACKET) 0 (fun _ => 0)
      (walkFrom b fuel p w) := by
  induction fuel generalizing p w with
  | zero => exact fun c rest hwork _ => absurd hwork (Nat.not_lt_zero _)
  | succ fuel ih =>
      have haffords : ∀ nested : DamagePacket Weapon, nested.weaponEffect = none →
          Affords b.design fuel PACKET 0 (fun _ => 0) (walkFrom b fuel nested nested.start) :=
        fun nested hnested => affords_packet b fuel nested hnested
      rw [Nat.add_sub_cancel]
      unfold walkFrom
      split
      · exact affords_mono b.design fuel PACKET 0 (Nat.le_refl _) (Nat.le_add_left _ _)
          (affords_finish b fuel _ haffords p w)
      · have hdepth : 0 < w.place.depth := by cases w.place <;> decide
        have hcost : STEP + (STEP * (w.place.depth - 1) + PACKET) =
            STEP * w.place.depth + PACKET := by
          unfold STEP
          omega
        rw [← hcost]
        cases fuel with
        | zero => exact fun c rest hwork _ => absurd hwork (Nat.not_lt_zero _)
        | succ work =>
            have hless : ∀ nested : DamagePacket Weapon, nested.weaponEffect = none →
                Affords b.design work PACKET 0 (fun _ => 0)
                  (walkFrom b (work + 1) nested nested.start) :=
              fun nested hnested => affords_mono b.design (work + 1) PACKET 0
                (Nat.le_succ work) (Nat.le_refl _) (haffords nested hnested)
            refine affords_iteration b work _ hless _ p w _ (fun flow hflow => ?_)
            cases flow with
            | Return course => exact affords_pure b.design work _ 0 _ course (Nat.le_refl 0)
            | Break later =>
                exact affords_mono b.design work PACKET 0 (Nat.le_refl _)
                  (Nat.le_add_left _ _) (affords_finish b work _ hless p later)
            | Next later =>
                have hnext := ih p later
                rw [Nat.add_sub_cancel] at hnext
                rwa [show later.place.depth = w.place.depth - 1 by
                  have := hflow.1
                  omega] at hnext

theorem affords_resolvePacket (hit : Hit) (damage : Nat) (effect : Option (WeaponEffect Weapon))
    (penalty : Nat) : Affords b.design (FUEL - 1) (2 * PACKET) 0 (fun _ => 0)
      (resolvePacket b hit damage effect penalty) := by
  refine affords_after b.design _ _ 0 _ _ _ (wearing_quiet b.design (quiet_enterDamage b))
    (free_enterDamage b) (fun suppressed => ?_)
  split
  · exact affords_pure b.design _ _ 0 _ _ (Nat.le_refl 0)
  · split
    · exact affords_pure b.design _ _ 0 _ _ (Nat.le_refl 0)
    · have hdepth : STEP * hit.place.depth + PACKET ≤ 2 * PACKET := by
        have hle := MechSection.depth_le hit.place
        unfold STEP PACKET
        omega
      have hwalk := affords_walkFrom b FUEL (DamagePacket.ofHit hit damage effect penalty)
        (DamagePacket.ofHit hit damage effect penalty).start
      refine affords_mono b.design (FUEL - 1) _ 0 (Nat.le_refl _)
        hdepth ?_
      exact affords_bind b.design (FUEL - 1) _ 0 0 (fun _ => 0) _ _ _ hwalk
        (fun _ => affords_pure b.design _ 0 0 _ _ (Nat.le_refl 0))

-- However a cascade ends, its work did not run out.
structure WithinWork {α : Type} (result : EStateM.Result Error (Context Weapon) α) : Prop where
  ends : ∀ a after, result = .ok a after → 0 < after.work
  fails : ∀ e after, result = .error e after → 0 < after.work ∧ e ≠ WORK_LIMIT ∧ e ≠ OUT_OF_FUEL

theorem impact_withinWork (chassis : MechChassis) (hf : Fitted b.design chassis)
    (m : Mech Weapon) (attacker : Option Nat) (hit : Hit) (damage : Nat)
    (effect : Option (WeaponEffect Weapon)) (penalty : Nat) :
    WithinWork (resolvePacket b hit damage effect penalty (Context.start m attacker)) := by
  have hlive : live b.design (Context.start m attacker) ≤ 78 := live_le b.design chassis hf _
  have hstart : (Context.start m attacker : Context Weapon).work = WORK := rfl
  have hcost : 1 + 2 * PACKET + PACKET * (live b.design (Context.start m attacker) + 0) ≤ WORK := by
    unfold PACKET WORK
    omega
  have hafford := affords_resolvePacket b hit damage effect penalty (Context.start m attacker) 1
    (by rw [hstart]; decide) (hstart ▸ hcost)
  constructor
  · intro course after hrun
    rw [hrun] at hafford
    exact Nat.lt_of_lt_of_le Nat.zero_lt_one (Nat.le_trans (Nat.le_add_right 1 _) hafford.1)
  · intro e after hrun
    rw [hrun] at hafford
    exact hafford

theorem gunner_fitted : Fitted gunner .Biped := by
  intro s slot hslot
  cases s <;> revert slot <;> decide

theorem impact_withinWork_arm :
    WithinWork (resolvePacket openField ⟨.LeftArm, false, false⟩ 40 none 0
      (Context.start (gunnerAt 5) none)) :=
  impact_withinWork openField .Biped gunner_fitted (gunnerAt 5) none ⟨.LeftArm, false, false⟩ 40
    none 0

end

end StompyMux.Impact
