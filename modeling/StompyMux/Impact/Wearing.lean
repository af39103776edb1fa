import StompyMux.Impact.Cascade

-- What every program of a cascade may do to the unit and leave in its records.
namespace StompyMux.Impact

open Library
open StompyMux.Btech

variable {Weapon : Type}

def Event.component : Event → Option Component
  | .Detonated c => some c
  | _ => none

def detonations (events : List Event) : List Component := events.filterMap Event.component

def components (slots : List (CriticalLocation × CriticalLoss)) : List Component :=
  slots.filterMap (fun slot => slot.2.component)

-- No section the hits destroyed held two live slots of one explosive weapon.
def Sparse (events : List Event) : Prop :=
  ∀ survey, .Surveyed survey ∈ events → (components survey.explosive).Nodup

def Event.sparse : Event → Bool
  | .Surveyed survey => (components survey.explosive).Nodup
  | _ => true

theorem sparse_iff (events : List Event) : Sparse events ↔ events.all Event.sparse := by
  rw [List.all_eq_true]
  constructor
  · intro h event he
    cases event with
    | Surveyed survey => exact decide_eq_true (h survey he)
    | _ => rfl
  · intro h survey hs
    exact of_decide_eq_true (h _ hs)

instance (events : List Event) : Decidable (Sparse events) :=
  decidable_of_iff _ (sparse_iff events).symm

theorem sparse_append (events more : List Event) :
    Sparse (events ++ more) ↔ Sparse events ∧ Sparse more := by
  unfold Sparse
  constructor
  · intro h
    exact ⟨fun survey hs => h survey (List.mem_append_left more hs),
      fun survey hs => h survey (List.mem_append_right events hs)⟩
  · rintro ⟨hevents, hmore⟩ survey hs
    rcases List.mem_append.mp hs with hs | hs
    · exact hevents survey hs
    · exact hmore survey hs

theorem detonations_append (events more : List Event) :
    detonations (events ++ more) = detonations events ++ detonations more :=
  List.filterMap_append

-- Components that are struck but have not gone off yet.
structure Armed (pending : List Component) (live : Set Component) : Prop where
  once : pending.Nodup
  gone : ∀ i ∈ pending, i ∉ live

theorem Armed.sublist (pending left : List Component) (live later : Set Component)
    (h : Armed pending live) (hs : left.Sublist pending) (hl : later ⊆ live) :
    Armed left later :=
  ⟨h.once.sublist hs, fun i hi hlater => h.gone i (hs.subset hi) (hl hlater)⟩

def razed (phases : List DamageResult) : List MechSection :=
  phases.flatMap DamageResult.destroyedSections

section

variable (d : Design Weapon)

-- The new phases destroyed standing sections, each once.
def Razes (c after : Context Weapon) : Prop :=
  ∃ phases, after.report.phases = c.report.phases ++ phases ∧
    Spends c.unit.standing after.unit.standing (razed phases)

-- The unit is worn and nothing is set off.
structure Quiet (c after : Context Weapon) : Prop where
  worn : Mech.Worn d c.unit after.unit
  attacker : after.attacker = c.attacker
  trace : after.trace = c.trace
  razes : Razes c after

theorem Razes.ofWorn (c after : Context Weapon) (hw : Mech.Worn d c.unit after.unit)
    (hp : after.report.phases = c.report.phases) : Razes c after :=
  ⟨[], by rw [hp, List.append_nil], Spends.ofSubset _ _ (hw.standing d _ _)⟩

theorem Razes.trans (c after last : Context Weapon) (h : Razes c after) (h' : Razes after last) :
    Razes c last := by
  obtain ⟨phases, hphases, hspends⟩ := h
  obtain ⟨more, hmore, hspends'⟩ := h'
  refine ⟨phases ++ more, by rw [hmore, hphases, List.append_assoc], ?_⟩
  rw [razed, List.flatMap_append]
  exact hspends.trans _ _ _ _ _ hspends'

theorem Quiet.ofWorn (c after : Context Weapon) (hw : Mech.Worn d c.unit after.unit)
    (ha : after.attacker = c.attacker) (ht : after.trace = c.trace)
    (hp : after.report.phases = c.report.phases) : Quiet d c after :=
  ⟨hw, ha, ht, Razes.ofWorn d c after hw hp⟩

theorem quiet_journey : Journey (Quiet d) where
  refl := fun c => Quiet.ofWorn d c c (Mech.Worn.refl d c.unit) rfl rfl rfl
  trans := fun c after last h h' =>
    ⟨h.worn.trans d _ _ _ h'.worn, h'.attacker.trans h.attacker, h'.trace.trans h.trace, h.razes.trans c after last h'.razes⟩

variable [DecidableEq Weapon]

def primed (c : Context Weapon) : Set Component := {i | c.unit.Primed d i}

-- The unit is worn, and what went off was primed or pending, once each.
structure Wears (pending left : List Component) (c after : Context Weapon) : Prop where
  worn : Mech.Worn d c.unit after.unit
  attacker : after.attacker = c.attacker
  razes : Razes c after
  spends : ∃ events, after.trace = c.trace ++ events ∧
    (Armed pending (primed d c) → Sparse events → Armed left (primed d after) ∧
      Spends (primed d c ∪ {i | i ∈ pending}) (primed d after ∪ {i | i ∈ left})
        (detonations events))

variable (pending left final : List Component) (c after last : Context Weapon)

theorem Wears.trans (h : Wears d pending left c after) (h' : Wears d left final after last) :
    Wears d pending final c last := by
  obtain ⟨events, htrace, hspends⟩ := h.spends
  obtain ⟨more, htrace', hspends'⟩ := h'.spends
  refine ⟨h.worn.trans d _ _ _ h'.worn, h'.attacker.trans h.attacker,
    h.razes.trans c after last h'.razes, events ++ more, ?_, ?_⟩
  · rw [htrace', htrace, List.append_assoc]
  · intro harmed hsparse
    obtain ⟨hevents, hmore⟩ := (sparse_append events more).mp hsparse
    obtain ⟨hleft, hused⟩ := hspends harmed hevents
    obtain ⟨hfinal, hused'⟩ := hspends' hleft hmore
    rw [detonations_append]
    exact ⟨hfinal, hused.trans _ _ _ _ _ hused'⟩

theorem primed_worn (h : Mech.Worn d c.unit after.unit) : primed d after ⊆ primed d c :=
  fun i hi => h.primed d _ _ i hi

theorem Wears.silent (events : List Event) (hs : left.Sublist pending)
    (hw : Mech.Worn d c.unit after.unit) (ha : after.attacker = c.attacker) (hr : Razes c after)
    (ht : after.trace = c.trace ++ events) (he : detonations events = []) :
    Wears d pending left c after := by
  refine ⟨hw, ha, hr, events, ht, ?_⟩
  intro harmed _
  have hprimed := primed_worn d c after hw
  refine ⟨harmed.sublist pending left _ _ hs hprimed, ?_⟩
  rw [he]
  exact Spends.ofSubset _ _ (Set.union_subset_union hprimed (fun i hi => hs.subset hi))

theorem Quiet.wears (h : Quiet d c after) : Wears d pending pending c after :=
  Wears.silent d pending pending c after [] (List.Sublist.refl _) h.worn h.attacker
    h.razes (by rw [h.trace, List.append_nil]) rfl

theorem Wears.drop (hs : left.Sublist pending) : Wears d pending left c c :=
  Wears.silent d pending left c c [] hs (Mech.Worn.refl d c.unit) rfl
    ((quiet_journey d).refl c).razes (List.append_nil c.trace).symm rfl

theorem Wears.carry (h : Wears d [] [] c after) : Wears d pending pending c after := by
  obtain ⟨events, htrace, hspends⟩ := h.spends
  refine ⟨h.worn, h.attacker, h.razes, events, htrace, ?_⟩
  intro harmed hsparse
  have hprimed := primed_worn d c after h.worn
  obtain ⟨-, hused⟩ := hspends ⟨List.nodup_nil, by simp⟩ hsparse
  simp only [List.not_mem_nil, Set.ofPred_false, Set.union_empty] at hused
  exact ⟨harmed.sublist pending pending _ _ (List.Sublist.refl _) hprimed,
    hused.carry _ _ _ _ harmed.gone⟩

theorem Wears.detonated (i : Component) (hi : i ∈ pending) (hs : left.Sublist pending)
    (hn : pending.Nodup → i ∉ left) : Wears d pending left c (c.record (.Detonated i)) := by
  have hself : Mech.Worn d c.unit (c.record (.Detonated i)).unit := Mech.Worn.refl d c.unit
  refine ⟨hself, rfl, Razes.ofWorn d c _ hself rfl, [.Detonated i], rfl, ?_⟩
  intro harmed _
  refine ⟨harmed.sublist pending left _ _ hs (Set.Subset.refl _), ?_⟩
  apply Spends.single
  · exact Or.inr hi
  · rintro (hprimed | hleft)
    · exact harmed.gone i hi hprimed
    · exact hn harmed.once hleft
  · exact Set.union_subset_union_right _ (fun j hj => hs.subset hj)

theorem Wears.struck (i : Component) (hw : Mech.Worn d c.unit after.unit)
    (ha : after.attacker = c.attacker) (ht : after.trace = c.trace) (hp : after.report.phases = c.report.phases)
    (hi : i ∈ primed d c) (hn : i ∉ primed d after) : Wears d [] [i] c after := by
  refine ⟨hw, ha, Razes.ofWorn d c after hw hp, [], by rw [ht, List.append_nil], ?_⟩
  intro _ _
  refine ⟨⟨List.nodup_singleton i, ?_⟩, ?_⟩
  · intro j hj
    rwa [List.mem_singleton.mp hj]
  · apply Spends.ofSubset
    rintro j (hj | hj)
    · exact Or.inl (primed_worn d c after hw hj)
    · rw [Set.mem_ofPred_eq, List.mem_singleton] at hj
      exact Or.inl (hj ▸ hi)

theorem Wears.surveyed {found : DestroyedLocation}
    (hq : Quiet d (c.record (.Surveyed found)) after)
    (hi : ∀ i ∈ components found.explosive, i ∈ primed d c)
    (hn : ∀ i ∈ components found.explosive, i ∉ primed d after) :
    Wears d [] (components found.explosive) c after := by
  have hrazes : Razes c after := hq.razes
  refine ⟨hq.worn, hq.attacker, hrazes, [.Surveyed found], hq.trace, ?_⟩
  intro _ hsparse
  refine ⟨⟨hsparse found (List.mem_singleton_self _), hn⟩, ?_⟩
  apply Spends.ofSubset
  rintro i (hprimed | hfound)
  · exact Or.inl (primed_worn d c after hq.worn hprimed)
  · exact Or.inl (hi i hfound)

end

section

variable [DecidableEq Weapon] (d : Design Weapon) {α β : Type}

-- What the program does from a context: of what is pending it leaves what its result says.
def SettledAt (pending : List Component) (left : α → List Component) (x : Cascade Weapon α)
    (c : Context Weapon) : Prop :=
  match x c with
  | .ok a after => Wears d pending (left a) c after
  | .error _ after => Wears d pending [] c after

def Settles (pending : List Component) (left : α → List Component) (x : Cascade Weapon α) : Prop :=
  ∀ c, SettledAt d pending left x c

-- Nothing is pending before or after.
def Wearing (x : Cascade Weapon α) : Prop := Settles d [] (fun _ => []) x

theorem settledAt_ok {pending : List Component} (left : α → List Component)
    (x : Cascade Weapon α) {c after : Context Weapon} {a : α} (hx : x c = .ok a after)
    (h : Wears d pending (left a) c after) : SettledAt d pending left x c := by
  rwa [SettledAt, hx]

theorem settledAt_error {pending : List Component} (left : α → List Component)
    (x : Cascade Weapon α) {c after : Context Weapon} {e : Error} (hx : x c = .error e after)
    (h : Wears d pending [] c after) : SettledAt d pending left x c := by
  rwa [SettledAt, hx]

theorem settledAt_bind {pending : List Component} {middle : α → List Component}
    (left : β → List Component) {x : Cascade Weapon α} (f : α → Cascade Weapon β)
    {c : Context Weapon} (hx : SettledAt d pending middle x c)
    (hf : ∀ a after, x c = .ok a after → SettledAt d (middle a) left (f a) after) :
    SettledAt d pending left (x >>= f) c := by
  cases h : x c with
  | error e after =>
      rw [SettledAt, h] at hx
      exact settledAt_error d left _ (Update.bind_error x f c h) hx
  | ok a after =>
      rw [SettledAt, h] at hx
      have hrest := hf a after h
      rw [SettledAt] at hrest ⊢
      rw [Update.bind_ok x f c after a h]
      split
      · rename_i hlast
        rw [hlast] at hrest
        exact hx.trans d _ _ _ _ _ _ hrest
      · rename_i hlast
        rw [hlast] at hrest
        exact hx.trans d _ _ _ _ _ _ hrest

variable (pending : List Component) (left : β → List Component)

theorem settles_bind {middle : α → List Component} {x : Cascade Weapon α}
    (f : α → Cascade Weapon β) (hx : Settles d pending middle x)
    (hf : ∀ a, Settles d (middle a) left (f a)) : Settles d pending left (x >>= f) :=
  fun c => settledAt_bind d left f (hx c) (fun a after _ => hf a after)

theorem settles_drop {middle : List Component} (hs : middle.Sublist pending)
    {x : Cascade Weapon β} (hx : Settles d middle left x) : Settles d pending left x := by
  intro c
  have hc := hx c
  have hdrop := Wears.drop d pending middle c hs
  rw [SettledAt] at hc ⊢
  split
  · rename_i hrun
    rw [hrun] at hc
    exact hdrop.trans d _ _ _ _ _ _ hc
  · rename_i hrun
    rw [hrun] at hc
    exact hdrop.trans d _ _ _ _ _ _ hc

-- The result may say that less is left.
theorem settles_pure (b : β) (h : (left b).Sublist pending) :
    Settles d pending left (pure b : Cascade Weapon β) :=
  fun c => settledAt_ok d left _ rfl (Wears.drop d pending (left b) c h)

theorem settles_throw (e : Error) : Settles d pending left (throw e : Cascade Weapon β) :=
  fun c => settledAt_error d left _ rfl
    (Wears.drop d pending [] c (List.nil_sublist _))

theorem settles_quiet (x : Cascade Weapon α) (h : Update.Within (Quiet d) x) :
    Settles d pending (fun _ => pending) x := by
  intro c
  have hc := h c
  rw [Update.after] at hc
  rw [SettledAt]
  split
  · rename_i hx
    rw [hx] at hc
    exact hc.wears d pending _ _
  · rename_i hx
    rw [hx] at hc
    exact (hc.wears d pending _ _).trans d _ _ _ _ _ _
      (Wears.drop d pending [] _ (List.nil_sublist _))

theorem Wearing.carry (x : Cascade Weapon α) (h : Wearing d x) :
    Settles d pending (fun _ => pending) x := by
  intro c
  have hc := h c
  rw [SettledAt] at hc ⊢
  split
  · rename_i hx
    rw [hx] at hc
    exact hc.carry d pending _ _
  · rename_i hx
    rw [hx] at hc
    exact (hc.carry d pending _ _).trans d _ _ _ _ _ _
      (Wears.drop d pending [] _ (List.nil_sublist _))

theorem Wearing.after (x : Cascade Weapon α) (h : Wearing d x) (c : Context Weapon) :
    Wears d [] [] c (x.after c) := by
  have hc := h c
  rw [SettledAt] at hc
  rw [Update.after]
  split
  · rename_i hx
    rwa [hx] at hc
  · rename_i hx
    rwa [hx] at hc

theorem settles_record {event : Event} (he : event.component = none) :
    Settles d pending (fun _ => pending) (record event : Cascade Weapon Unit) := by
  intro c
  have hself := Mech.Worn.refl d c.unit
  refine settledAt_ok d _ _ rfl ?_
  exact Wears.silent d pending pending c _ [event] (List.Sublist.refl _) hself rfl
    (Razes.ofWorn d c _ hself rfl) rfl (by simp [detonations, he])

theorem wearing_pure (a : α) : Wearing d (pure a : Cascade Weapon α) :=
  settles_pure d [] _ a (List.nil_sublist _)

theorem wearing_throw (e : Error) : Wearing d (throw e : Cascade Weapon α) :=
  settles_throw d [] _ e

theorem wearing_bind {x : Cascade Weapon α} (f : α → Cascade Weapon β) (hx : Wearing d x)
    (hf : ∀ a, Wearing d (f a)) : Wearing d (x >>= f) :=
  settles_bind d [] _ f hx hf

theorem wearing_quiet {x : Cascade Weapon α} (h : Update.Within (Quiet d) x) : Wearing d x :=
  settles_quiet d [] x h

end

section

variable (b : Battlefield Weapon)

theorem quiet_modify (f : Context Weapon → Context Weapon)
    (hw : ∀ c, Mech.Worn b.design c.unit (f c).unit) (ha : ∀ c, (f c).attacker = c.attacker)
    (ht : ∀ c, (f c).trace = c.trace)
    (hp : ∀ c, (f c).report.phases = c.report.phases) :
    Update.Within (Quiet b.design) (modify f : Cascade Weapon Unit) :=
  Update.within_modify f (fun c => Quiet.ofWorn b.design c (f c) (hw c) (ha c) (ht c) (hp c))

theorem quiet_unit : Update.Within (Quiet b.design) (unit : Cascade Weapon (Mech Weapon)) :=
  fun c => (quiet_journey b.design).refl c

theorem quiet_roll (draw : Dice → Nat × Dice) : Update.Within (Quiet b.design) (roll draw) := by
  intro c
  have hself := Mech.Worn.refl b.design c.unit
  exact Quiet.ofWorn b.design c _ ⟨hself.lost, hself.internal, hself.disabled, hself.ammunition,
    fun _ _ => rfl, rfl, rfl, rfl, hself.modes, rfl, hself.cocoon⟩ rfl rfl rfl

theorem quiet_spend : Update.Within (Quiet b.design) spend := by
  intro c
  have hself := Mech.Worn.refl b.design c.unit
  unfold Update.after spend
  split
  · rename_i h
    split at h
    · injection h with _ h
      subst h
      exact Quiet.ofWorn b.design c _ hself rfl rfl rfl
    · contradiction
  · rename_i h
    split at h
    · contradiction
    · injection h with _ h
      subst h
      exact Quiet.ofWorn b.design c _ hself rfl rfl rfl

theorem quiet_lift {α : Type} (x : Except Error α) :
    Update.Within (Quiet b.design) (liftExcept x) := by
  intro c
  cases x with
  | ok a => exact (quiet_journey b.design).refl c
  | error e => exact (quiet_journey b.design).refl c

theorem quiet_interlude (event : Interlude) :
    Update.Within (Quiet b.design) (interlude b event) := by
  apply quiet_modify
  · intro c
    cases b.rules with
    | none => exact Mech.Worn.refl _ _
    | some rules => exact rules.worn event c.unit
  · intro c
    cases b.rules with
    | none => rfl
    | some rules => rfl
  · intro c
    cases b.rules with
    | none => rfl
    | some rules => rfl
  · intro c
    cases b.rules with
    | none => rfl
    | some rules => rfl

theorem quiet_enterDamage : Update.Within (Quiet b.design) (enterDamage b) :=
  Update.within_bind (quiet_journey b.design) _ (quiet_roll b _) (fun _ =>
    Update.within_bind (quiet_journey b.design) _
      (Update.within_get (quiet_journey b.design))
      (fun _ => Update.within_pure (quiet_journey b.design) _))

theorem quiet_loseSections (sections : List MechSection) :
    Update.Within (Quiet b.design) (loseSections b sections) := by
  induction sections with
  | nil => exact Update.within_pure (quiet_journey b.design) ()
  | cons s rest ih =>
      exact Update.within_bind (quiet_journey b.design) _ (quiet_interlude b _) (fun _ => ih)

theorem quiet_pushCritical (location : CriticalLocation) (loss : CriticalLoss) :
    Update.Within (Quiet b.design) (pushCritical location loss) :=
  quiet_modify b _ (fun _ => Mech.Worn.refl _ _) (fun _ => rfl) (fun _ => rfl) (fun _ => rfl)

-- The rest of recording a phase, once its destroyed sections are reported.
theorem quiet_aftermath (phase : DamageResult) :
    Update.Within (Quiet b.design) (do
      loseSections b phase.destroyedSections
      interlude b (.Flood phase.place)) :=
  Update.within_bind (quiet_journey b.design) _ (quiet_loseSections b _)
    (fun _ => quiet_interlude b _)

theorem quiet_recordArmor {phase : DamageResult} (h : phase.destroyedSections = []) :
    Update.Within (Quiet b.design) (recordPhase b phase) := by
  refine Update.within_bind (quiet_journey b.design) _ ?_ (fun _ => quiet_aftermath b phase)
  refine Update.within_modify _ (fun c => ?_)
  refine ⟨Mech.Worn.refl _ _, rfl, rfl, [phase], rfl, ?_⟩
  rw [razed, List.flatMap_cons, h]
  exact Spends.refl _

theorem quiet_armor (s : MechSection) (damage : Nat) (rear : Bool) :
    Update.Within (Quiet b.design) (damagePhase b s damage (.Armor rear)) :=
  fun c => Quiet.ofWorn b.design c _
    (Mech.damagePhase_worn b.design c.unit s damage (.Armor rear)) rfl rfl rfl

theorem armor_destroyed {s : MechSection} {damage : Nat} {rear : Bool} {c after : Context Weapon}
    {phase : DamageResult} (h : damagePhase b s damage (.Armor rear) c = .ok phase after) :
    phase.destroyedSections = [] := by
  injection h with h _
  rw [← h]
  exact Mech.damagePhase_armor b.design c.unit s damage rear

theorem quiet_phase {α : Type} (s : MechSection) (damage : Nat) (phase : DamagePhase)
    (next : DamageResult → Cascade Weapon α)
    (hn : ∀ r, Update.Within (Quiet b.design) (next r)) :
    Update.Within (Quiet b.design) (do
      let r ← damagePhase b s damage phase
      recordPhase b r
      next r) := by
  intro c
  have hworn := Mech.damagePhase_worn b.design c.unit s damage phase
  have hspends := Mech.damagePhase_razes b.design c.unit s damage phase
  let r := (c.unit.damagePhase b.design s damage phase).1
  let struck : Context Weapon := c.setUnit (c.unit.damagePhase b.design s damage phase).2
  let reported : Context Weapon :=
    { struck with report := { struck.report with phases := struck.report.phases ++ [r] } }
  have hreported : Quiet b.design c reported := by
    refine ⟨hworn, rfl, rfl, [r], rfl, ?_⟩
    rw [razed, List.flatMap_cons, List.flatMap_nil, List.append_nil]
    exact hspends
  have hrest : Update.Within (Quiet b.design) (do
      loseSections b r.destroyedSections
      interlude b (.Flood r.place)
      next r) :=
    Update.within_bind (quiet_journey b.design) _ (quiet_loseSections b _) (fun _ =>
      Update.within_bind (quiet_journey b.design) _ (quiet_interlude b _) (fun _ => hn r))
  have hrun : (do
      let r ← damagePhase b s damage phase
      recordPhase b r
      next r) c = (do
      loseSections b r.destroyedSections
      interlude b (.Flood r.place)
      next r) reported := by
    rw [Update.bind_ok _ _ c struck r rfl, recordPhase, bind_assoc,
      Update.bind_ok _ _ struck reported () rfl, bind_assoc]
  have hlast := (quiet_journey b.design).trans _ _ _ hreported (hrest reported)
  rwa [Update.after, ← hrun, ← Update.after] at hlast

end

end StompyMux.Impact
