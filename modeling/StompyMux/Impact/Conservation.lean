import StompyMux.Impact.Detonations

-- Where the damage of a hit goes on its way inward.
namespace StompyMux.Impact

open Library
open StompyMux.Btech

variable {Weapon : Type}

def Visit.taken (v : Visit) : Nat := v.armor + v.internal.getD 0

def taken (visits : List Visit) : Nat := (visits.map Visit.taken).sum

theorem taken_append (visits : List Visit) (v : Visit) :
    taken (visits ++ [v]) = taken visits + v.taken := by
  simp [taken]

-- What the visits took and what is left add up, along the transfer chain and once in each section.
structure Conserved (place : MechSection) (damage : Nat) (course : Course) : Prop where
  total : taken course.visits + course.left = damage
  reaches : course.ending = .Stopped
  -- only the head and the center torso let damage go to waste
  overflow : 0 < course.left → course.last.damageTransfer = none
  order : (course.visits.map Visit.place).Sublist place.chain
  once : (course.visits.map Visit.place).Nodup
  armorFirst : ∀ v ∈ course.visits, v.internal.isSome → v.armorLeft = 0

structure Along (place : MechSection) (damage : Nat) (w : Walk) : Prop where
  total : taken w.visits + w.damage = damage
  order : (w.visits.map Visit.place ++ w.place.chain).Sublist place.chain
  armorFirst : ∀ v ∈ w.visits, v.internal.isSome → v.armorLeft = 0

-- The walk of a hit at its end.
structure Arrived (place : MechSection) (damage : Nat) (w : Walk) : Prop where
  total : taken w.visits + w.damage = damage
  overflow : 0 < w.damage → w.place.damageTransfer = none
  order : (w.visits.map Visit.place).Sublist place.chain
  armorFirst : ∀ v ∈ w.visits, v.internal.isSome → v.armorLeft = 0

theorem Along.arrived (place : MechSection) (damage : Nat) (w : Walk) (h : Along place damage w)
    (ho : 0 < w.damage → w.place.damageTransfer = none) : Arrived place damage w where
  total := h.total
  overflow := ho
  order := (List.sublist_append_left _ _).trans h.order
  armorFirst := h.armorFirst

-- Ordinary material: no points count in a way of their own.
structure Plain (d : Design Weapon) : Prop where
  hardened : d.hardenedArmor = false
  reflective : d.reflectiveArmor = false
  reinforced : d.reinforcedStructure = false
  composite : d.compositeStructure = false

theorem Plain.armorHit (d : Design Weapon) (h : Plain d) (m : Mech Weapon) (s : MechSection)
    (rear : Bool) (amount : Nat) (kind : DamageClass) : armorHit d m s rear amount kind = none := by
  simp [Impact.armorHit, h.hardened, h.reflective]

theorem Plain.structureDamage (d : Design Weapon) (h : Plain d) (amount : Nat) :
    Mech.structureDamage d amount = amount := by
  simp [Mech.structureDamage, h.reinforced, h.composite]

-- Nothing around the unit keeps the packet from it.
structure Exposed (b : Battlefield Weapon) (c : Context Weapon) : Prop where
  mortal : c.unit.combatSafe = false
  outside : b.complex c.attacker = false

-- A cocoon that takes the packet is on record, and one that does not leaves the material as it was.
theorem intercept_spec {c after : Context Weapon} {amount : Nat} {r : Bool}
    (h : intercept amount c = .ok r after) (hmissed : .Intercepted ∉ after.trace) :
    r = false ∧ ∀ s, after.unit.internal s = c.unit.internal s := by
  unfold intercept at h
  rw [Update.bind_ok unit _ c c c.unit rfl] at h
  split at h
  · injection h with hr hafter
    exact ⟨hr.symm, fun s => hafter ▸ rfl⟩
  · obtain ⟨roll, rolled, hroll, h⟩ := Update.ok_of_bind _ _ c after r h
    have hunit : ∀ s, rolled.unit.internal s = c.unit.internal s := by
      intro s
      injection hroll with _ hrolled
      rw [← hrolled]
      rfl
    split at h
    · injection h with hr hafter
      exact ⟨hr.symm, hafter ▸ hunit⟩
    · obtain ⟨_, recorded, hrecord, h⟩ := Update.ok_of_bind _ _ rolled after r h
      injection hrecord with _ hrecorded
      injection h with _ hafter
      rw [← hafter, ← hrecorded] at hmissed
      exact absurd (List.mem_append_right _ (List.mem_singleton_self _)) hmissed

theorem breakStage_spec {b : Battlefield Weapon} {s : MechSection} {damage : Nat}
    {found : Option DestroyedLocation} {c after : Context Weapon} {broken : Broken}
    (h : breakStage b s damage found c = .ok broken after) :
    broken.absorbed.getD 0 + broken.left = damage := by
  obtain ⟨phase, struck, hphase, h⟩ := Update.ok_of_bind _ _ c after broken h
  obtain ⟨-, recorded, -, h⟩ := Update.ok_of_bind _ _ struck after broken h
  injection hphase with hphase _
  injection h with h _
  subst h hphase
  exact Mech.damagePhase_total b.design c.unit s damage .Internal

section

variable [DecidableEq Weapon] (b : Battlefield Weapon) {α : Type} (c after : Context Weapon)

theorem Exposed.later (x : Cascade Weapon α) (hx : Wearing b.design x) (a : α)
    (h : x c = .ok a after) (he : Exposed b c) : Exposed b after := by
  have hwears := hx c
  rw [SettledAt, h] at hwears
  refine ⟨hwears.worn.safe.trans he.mortal, ?_⟩
  rw [hwears.attacker]
  exact he.outside

-- What is on record stays on record.
theorem kept_trace {x : Cascade Weapon α} (hx : Wearing b.design x) {a : α} {event : Event}
    (h : x c = .ok a after) (hmissed : event ∉ after.trace) : event ∉ c.trace := by
  have hwears := hx c
  rw [SettledAt, h] at hwears
  obtain ⟨events, htrace, -⟩ := hwears.spends
  rw [htrace] at hmissed
  exact fun hevent => hmissed (List.mem_append_left _ hevent)

omit [DecidableEq Weapon] in
theorem enterDamage_spec {r : Bool} (h : enterDamage b c = .ok r after) :
    r = (after.unit.combatSafe || b.complex after.attacker) := by
  obtain ⟨roll, rolled, -, h⟩ := Update.ok_of_bind _ _ c after r h
  injection h with h hafter
  rw [← h, ← hafter]

theorem enterDamage_exposed (r : Bool) (h : enterDamage b c = .ok r after) (he : Exposed b c) :
    r = false := by
  have hafter := he.later b c after _ (wearing_quiet b.design (quiet_enterDamage b)) r h
  rw [enterDamage_spec b c after h, hafter.mortal, hafter.outside]
  rfl

theorem protects_exposed {w : Walk} {r : Bool} (h : protects b w c = .ok r after)
    (he : Exposed b c) : r = false := by
  unfold protects at h
  split at h
  · injection h with h _
    exact h.symm
  · exact enterDamage_exposed b c after r h he

end

-- Without battlefield rules nothing happens between the phases.
section

variable (b : Battlefield Weapon) (hrules : b.rules = none)

include hrules

theorem interlude_none (event : Interlude) (c : Context Weapon) :
    interlude b event c = .ok () c := by
  unfold interlude
  rw [hrules]
  rfl

theorem loseSections_none (sections : List MechSection) (c : Context Weapon) :
    loseSections b sections c = .ok () c := by
  induction sections with
  | nil => rfl
  | cons s rest ih =>
      rw [loseSections, Update.bind_ok _ _ c c () (interlude_none b hrules _ c)]
      exact ih

theorem recordPhase_none (phase : DamageResult) (c : Context Weapon) :
    recordPhase b phase c =
      .ok () { c with report := { c.report with phases := c.report.phases ++ [phase] } } := by
  change (loseSections b phase.destroyedSections >>= fun _ => interlude b (.Flood phase.place))
    { c with report := { c.report with phases := c.report.phases ++ [phase] } } = _
  rw [Update.bind_ok _ _ _ _ () (loseSections_none b hrules _ _)]
  exact interlude_none b hrules _ _

theorem headStage_none (s : MechSection) (c : Context Weapon) : headStage b s c = .ok () c := by
  unfold headStage
  split
  · exact interlude_none b hrules _ c
  · rfl

variable (hplain : Plain b.design)

include hplain

theorem armorStage_spec {p : DamagePacket Weapon} {w : Walk} {c after : Context Weapon} {r : Struck}
    (hp : p.internalOnly = false) (hs : c.unit.internal w.place ≠ 0)
    (h : armorStage b p w c = .ok r after) :
    r.absorbed + r.left = w.damage ∧
      (0 < r.left →
        (after.unit.sections w.place).struck (ArmorFacing.struck w.place p.rear) = 0) := by
  unfold armorStage at h
  rw [if_neg (by simp [hp]), Update.bind_ok unit _ c c c.unit rfl, hplain.armorHit] at h
  obtain ⟨armor, struck, hphase, h⟩ := Update.ok_of_bind _ _ c after r h
  injection hphase with harmor hstruck
  obtain ⟨_, dented, hdent, h⟩ := Update.ok_of_bind _ _ struck after r h
  injection hdent with _ hdent
  obtain ⟨_, recorded, hrecord, h⟩ := Update.ok_of_bind _ _ dented after r h
  rw [recordPhase_none b hrules] at hrecord
  injection hrecord with _ hrecord
  injection h with hr hafter
  subst hr hafter hrecord hdent hstruck harmor
  refine ⟨Mech.damagePhase_total b.design c.unit w.place w.damage (.Armor p.rear), ?_⟩
  intro hleft
  have hspent := Mech.damagePhase_spent b.design c.unit w.place w.damage hs hleft
  unfold Mech.protection at hspent
  exact hspent

omit hrules in
theorem structureStage_spec [DecidableEq Weapon] {s : MechSection} {damage : Nat}
    {c after : Context Weapon} {broken : Broken}
    (h : structureStage b s damage c = .ok broken after) :
    broken.absorbed.getD 0 + broken.left = damage ∧ (broken.absorbed.isSome → 0 < damage) := by
  unfold structureStage at h
  rw [Update.bind_ok unit _ c c c.unit rfl] at h
  split at h
  · injection h with h _
    subst h
    exact ⟨Nat.zero_add damage, fun hsome => by contradiction⟩
  · rename_i hdamage
    rw [hplain.structureDamage] at h
    obtain ⟨found, surveyed, -, h⟩ := Update.ok_of_bind _ _ c after broken h
    refine ⟨breakStage_spec h, fun _ => ?_⟩
    omega

theorem material_spec [DecidableEq Weapon] {path : DamagePacket Weapon → Cascade Weapon Course}
    {p : DamagePacket Weapon} {w later : Walk} {c after : Context Weapon}
    (hp : p.internalOnly = false) (hs : c.unit.internal w.place ≠ 0)
    (h : material b path p w c = .ok later after) :
    later.place = w.place ∧ ∃ v : Visit, later.visits = w.visits ++ [v] ∧ v.place = w.place ∧
      v.taken + later.damage = w.damage ∧ (v.internal.isSome → v.armorLeft = 0) := by
  unfold material at h
  rw [Update.bind_ok _ _ c c () (headStage_none b hrules _ c)] at h
  obtain ⟨armor, armored, harmor, h⟩ := Update.ok_of_bind _ _ c after later h
  obtain ⟨htotal, hspent⟩ := armorStage_spec b hrules hplain hp hs harmor
  rw [Update.bind_ok unit _ armored armored armored.unit rfl] at h
  obtain ⟨broken, struck, hbroken, h⟩ := Update.ok_of_bind _ _ armored after later h
  obtain ⟨hleft, hsome⟩ := structureStage_spec b hplain hbroken
  obtain ⟨-, resolved, -, h⟩ := Update.ok_of_bind _ _ struck after later h
  obtain ⟨-, checked, -, h⟩ := Update.ok_of_bind _ _ resolved after later h
  obtain ⟨-, aired, -, h⟩ := Update.ok_of_bind _ _ checked after later h
  injection h with h _
  subst h
  refine ⟨rfl, _, rfl, rfl, ?_, fun hinternal => hspent (hsome hinternal)⟩
  show armor.absorbed + broken.absorbed.getD 0 + broken.left = w.damage
  omega

end

section

variable (b : Battlefield Weapon) (p : DamagePacket Weapon) (place : MechSection) (damage : Nat)

theorem contained_hit (s : MechSection) (hi : p.internalOnly = false) (ht : p.transfer = true) :
    contained b p s = false := by
  simp [contained, hi, ht]

-- Where a walk stands after a section.
def Follows : Flow → Prop
  | .Return _ => False
  | .Break w => Arrived place damage w
  | .Next w => Along place damage w

theorem passThrough_follows (w : Walk) (hi : p.internalOnly = false) (ht : p.transfer = true)
    (hw : Along place damage w) : Follows place damage (passThrough b p w) := by
  unfold passThrough
  rw [contained_hit b p w.place hi ht, if_neg Bool.false_ne_true]
  split
  · rename_i hnone
    exact hw.arrived place damage w (fun _ => hnone)
  · rename_i next hnext
    refine ⟨hw.total, ?_, hw.armorFirst⟩
    have horder := hw.order
    rw [MechSection.chain_eq w.place, hnext] at horder
    exact ((List.sublist_cons_self _ _).append_left _).trans horder

theorem transferOn_follows {w later : Walk} {v : Visit} (hi : p.internalOnly = false)
    (ht : p.transfer = true) (hw : Along place damage w) (hplace : later.place = w.place)
    (hvisits : later.visits = w.visits ++ [v]) (hv : v.place = w.place)
    (htaken : v.taken + later.damage = w.damage)
    (harmor : v.internal.isSome → v.armorLeft = 0) :
    Follows place damage (transferOn b p later) := by
  have htotal : taken later.visits + later.damage = damage := by
    rw [hvisits, taken_append, Nat.add_assoc, htaken]
    exact hw.total
  have hfirst : ∀ u ∈ later.visits, u.internal.isSome → u.armorLeft = 0 := by
    intro u hu
    rw [hvisits] at hu
    rcases List.mem_append.mp hu with hu | hu
    · exact hw.armorFirst u hu
    · rw [List.mem_singleton.mp hu]
      exact harmor
  have horder : (later.visits.map Visit.place ++
      ((w.place.damageTransfer.map MechSection.chain).getD [])).Sublist place.chain := by
    have hbefore := hw.order
    rw [MechSection.chain_eq w.place] at hbefore
    rw [hvisits, List.map_append, List.map_singleton, hv, List.append_assoc]
    exact hbefore
  unfold transferOn
  rw [contained_hit b p later.place hi ht, if_neg Bool.false_ne_true]
  split
  · rename_i hnone
    rw [hplace] at hnone
    rw [hnone, Option.map_none, Option.getD_none, List.append_nil] at horder
    exact ⟨htotal, fun _ => hplace ▸ hnone, horder, hfirst⟩
  · rename_i next hnext
    rw [hplace] at hnext
    rw [hnext, Option.map_some, Option.getD_some] at horder
    exact ⟨htotal, horder, hfirst⟩

theorem finish_course [DecidableEq Weapon] {path : DamagePacket Weapon → Cascade Weapon Course}
    {w : Walk} (hw : Arrived place damage w) {c after : Context Weapon} {course : Course}
    (h : finish b path p w c = .ok course after) : Conserved place damage course := by
  obtain ⟨-, heated, -, h⟩ := Update.ok_of_bind _ _ c after course h
  obtain ⟨-, ignited, -, h⟩ := Update.ok_of_bind _ _ heated after course h
  injection h with h _
  subst h
  exact ⟨hw.total, rfl, hw.overflow, hw.order, place.chain_nodup.sublist hw.order, hw.armorFirst⟩

end

section

variable [DecidableEq Weapon] (b : Battlefield Weapon) (hrules : b.rules = none)
  (hplain : Plain b.design)

include hrules hplain

theorem iteration_follows {path : DamagePacket Weapon → Cascade Weapon Course}
    (hpath : ∀ nested, Wearing b.design (path nested)) {p : DamagePacket Weapon} (hi : p.internalOnly = false) (ht : p.transfer = true)
    {place : MechSection} {damage : Nat} {w : Walk} (hw : Along place damage w)
    {c after : Context Weapon} {flow : Flow} (he : Exposed b c)
    (h : iteration b path p w c = .ok flow after) (hmissed : .Intercepted ∉ after.trace) :
    Follows place damage flow := by
  obtain ⟨_, spent, hspend, h⟩ := Update.ok_of_bind _ _ c after flow h
  have hspent := he.later b c spent _ (wearing_spend b) () hspend
  obtain ⟨suppressed, entered, hprotects, h⟩ := Update.ok_of_bind _ _ spent after flow h
  rw [protects_exposed b spent entered hprotects hspent, if_neg Bool.false_ne_true,
    Update.bind_ok unit _ entered entered entered.unit rfl] at h
  split at h
  · injection h with h _
    subst h
    exact passThrough_follows b p place damage w hi ht hw
  · rename_i hs
    obtain ⟨intercepted, met, hmet, h⟩ := Update.ok_of_bind _ _ entered after flow h
    split at h
    · rename_i htaken
      injection h with _ hafter
      rw [(intercept_spec hmet (hafter ▸ hmissed)).1] at htaken
      contradiction
    · obtain ⟨later, resolved, hmaterial, h⟩ := Update.ok_of_bind _ _ met after flow h
      injection h with h hafter
      have hclear := kept_trace b met resolved (wearing_material b path hpath p w) hmaterial
        (hafter ▸ hmissed)
      rw [← (intercept_spec hmet hclear).2 w.place] at hs
      obtain ⟨hplace, v, hvisits, hv, htaken, harmor⟩ :=
        material_spec b hrules hplain hi hs hmaterial
      rw [← h]
      exact transferOn_follows b p place damage hi ht hw hplace hvisits hv htaken harmor

theorem walkFrom_conserves (p : DamagePacket Weapon) (hi : p.internalOnly = false)
    (ht : p.transfer = true) (place : MechSection) (damage fuel : Nat) (w : Walk)
    (hw : Along place damage w) (c after : Context Weapon) (course : Course) (he : Exposed b c)
    (h : walkFrom b fuel p w c = .ok course after) (hmissed : .Intercepted ∉ after.trace) :
    Conserved place damage course := by
  induction fuel generalizing w c with
  | zero => contradiction
  | succ fuel ih =>
      unfold walkFrom at h
      split at h
      · rename_i hzero
        have harrived := hw.arrived place damage w (fun hpos => by omega)
        exact finish_course b p place damage harrived h
      · obtain ⟨flow, passed, hflow, h⟩ := Update.ok_of_bind _ _ c after course h
        have hpath : ∀ nested : DamagePacket Weapon,
            Wearing b.design (walkFrom b fuel nested nested.start) :=
          fun nested => wearing_walkFrom b fuel nested _
        have hpassed := he.later b c passed _ (wearing_iteration b _ hpath p w) flow hflow
        have hfollows := iteration_follows b hrules hplain hpath hi ht hw he hflow
        cases flow with
        | Return early =>
            injection h with _ hafter
            exact absurd (hfollows (hafter ▸ hmissed)) id
        | Break later =>
            exact finish_course b p place damage
              (hfollows (kept_trace b passed after (wearing_finish b _ hpath p later) h hmissed)) h
        | Next later =>
            exact ih later
              (hfollows (kept_trace b passed after (wearing_walkFrom b fuel p later) h hmissed))
              passed hpassed h

end

section

variable [DecidableEq Weapon] (b : Battlefield Weapon)

-- The course of an impact that succeeded and was not suppressed.
def impactCourse (m : Mech Weapon) (attacker : Option Nat) (hit : Hit) (damage : Nat)
    (effect : Option (WeaponEffect Weapon)) (penalty : Nat) : Option Course :=
  match resolvePacket b hit damage effect penalty (Context.start m attacker) with
  | .ok course _ => course
  | .error _ _ => none

theorem impact_razes (m : Mech Weapon) (attacker : Option Nat) (hit : Hit) (damage : Nat)
    (effect : Option (WeaponEffect Weapon)) (penalty : Nat) :
    (razed (impact b m attacker hit damage effect penalty).report.phases).Nodup := by
  have hwears := (wearing_resolvePacket b hit damage effect penalty).after b.design _
    (Context.start m attacker)
  obtain ⟨phases, hphases, hspends⟩ := hwears.razes
  have hall : (impact b m attacker hit damage effect penalty).report.phases = phases := hphases
  rw [hall]
  exact hspends.once

-- A hit that no cocoon takes goes inward along the chain, and all its damage is accounted for.
theorem impact_conserves (hrules : b.rules = none) (hplain : Plain b.design) (m : Mech Weapon)
    (attacker : Option Nat) (hit : Hit) (damage : Nat) (effect : Option (WeaponEffect Weapon))
    (penalty : Nat)
    (hmissed : .Intercepted ∉ (impact b m attacker hit damage effect penalty).trace) :
    (∀ course, impactCourse b m attacker hit damage effect penalty = some course →
      Conserved hit.place damage course) ∧
    (razed (impact b m attacker hit damage effect penalty).report.phases).Nodup := by
  refine ⟨?_, impact_razes b m attacker hit damage effect penalty⟩
  intro course hcourse
  unfold impactCourse at hcourse
  split at hcourse
  · rename_i after hrun
    subst hcourse
    unfold impact Update.after at hmissed
    rw [hrun] at hmissed
    obtain ⟨suppressed, entered, henter, hrun⟩ :=
      Update.ok_of_bind _ _ (Context.start m attacker) after (some course) hrun
    have hsuppressed := enterDamage_spec b _ entered henter
    split at hrun
    · injection hrun with hrun _
      contradiction
    · rename_i hopen
      rw [hsuppressed, Bool.not_eq_true, Bool.or_eq_false_iff] at hopen
      have he : Exposed b entered := ⟨hopen.1, hopen.2⟩
      split at hrun
      · injection hrun with hrun _
        contradiction
      · obtain ⟨walked, last, hwalk, hrun⟩ := Update.ok_of_bind _ _ entered after (some course) hrun
        injection hrun with hrun hafter
        rw [← Option.some.inj hrun]
        have hstart : Along hit.place damage (DamagePacket.ofHit hit damage effect penalty).start :=
          ⟨Nat.zero_add damage, List.Sublist.refl _, by simp [DamagePacket.start]⟩
        exact walkFrom_conserves b hrules hplain _ rfl rfl hit.place damage FUEL _ hstart entered last
          walked he hwalk (hafter ▸ hmissed)
  · contradiction

-- The arm's bin and the rifle behind it go off and destroy the whole chain before the last four
-- points arrive.
theorem impact_conserves_arm :
    impactCourse openField (gunnerAt 4) none ⟨.LeftArm, false, false⟩ 20 none 0 =
      some ⟨[⟨.LeftArm, 8, 0, some 8⟩], .Stopped, .CenterTorso, 4⟩ ∧
    Conserved .LeftArm 20
      ⟨[⟨.LeftArm, 8, 0, some 8⟩], .Stopped, .CenterTorso, 4⟩ := by
  have hcourse : impactCourse openField (gunnerAt 4) none ⟨.LeftArm, false, false⟩ 20 none 0 =
      some ⟨[⟨.LeftArm, 8, 0, some 8⟩], .Stopped, .CenterTorso, 4⟩ := by
    decide +kernel
  have hplain : Plain openField.design := ⟨rfl, rfl, rfl, rfl⟩
  have hpassed : ((impact openField (gunnerAt 4) none ⟨.LeftArm, false, false⟩ 20 none 0).trace.all
      fun | .Intercepted => false | _ => true) = true := by
    decide +kernel
  exact ⟨hcourse, (impact_conserves openField rfl hplain (gunnerAt 4) none
    ⟨.LeftArm, false, false⟩ 20 none 0
    fun hmem => Bool.false_ne_true (List.all_eq_true.mp hpassed _ hmem)).1 _ hcourse⟩

end

end StompyMux.Impact
