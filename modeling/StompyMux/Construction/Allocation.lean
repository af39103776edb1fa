import StompyMux.Construction.Resolve

-- Every occupied slot belongs to one component.
namespace StompyMux.Construction

open Library Library.Fallible Library.Text

def MechLoadout.components (loadout : MechLoadout) : List (List CriticalLocation) :=
  loadout.weapons.map WeaponMount.criticals ++
    loadout.ammunition.map (fun bin => [bin.location]) ++
      loadout.systems.map (fun system => [system.location])

def MechLoadout.listed (loadout : MechLoadout) : List CriticalLocation := loadout.components.flatten

def Extends (template : MechTemplate) (parent location : CriticalLocation) : Prop :=
  ∃ critical, template.critical? location = some critical ∧ isSplitProxy critical.equipment = true ∧
    parseSplitLink critical.data = .ok parent

-- The slot names the weapon, or is a marker that extends it.
def Holds (template : MechTemplate) (mount : WeaponMount) (location : CriticalLocation) : Prop :=
  (∃ critical, template.critical? location = some critical ∧
    Weapon.parse critical.equipment = .ok mount.weapon) ∨
    ∃ first, mount.criticals.head? = some first ∧ Extends template first location

structure Mounted (template : MechTemplate) (mount : WeaponMount) : Prop where
  count : mount.criticals.length = mount.weapon.profile.criticalSlots
  holds : ∀ location ∈ mount.criticals, Holds template mount location

section

variable (template : MechTemplate)

theorem mem_slots (location : CriticalLocation) (critical : CriticalDefinition) :
    (location, critical) ∈ template.slots ↔ template.critical? location = some critical := by
  unfold MechTemplate.slots MechTemplate.critical? sectionSlots
  rw [List.mem_flatMap, Option.bind_eq_some_iff]
  constructor
  · rintro ⟨⟨part, layout⟩, hentry, hslot⟩
    obtain ⟨⟨slot, found⟩, hfound, heq⟩ := List.mem_map.mp hslot
    injection heq with hlocation hcritical
    subst hlocation hcritical
    exact ⟨layout, (template.sections.get?_eq_some_iff part layout).mpr hentry,
      (layout.criticals.get?_eq_some_iff slot found).mpr hfound⟩
  · rintro ⟨layout, hlayout, hcritical⟩
    refine ⟨(location.part, layout), (template.sections.get?_eq_some_iff _ _).mp hlayout, ?_⟩
    exact List.mem_map.mpr ⟨(location.slot, critical),
      (layout.criticals.get?_eq_some_iff _ _).mp hcritical, rfl⟩

theorem slots_nodup : (template.slots.map Prod.fst).Nodup := by
  unfold MechTemplate.slots
  rw [List.map_flatMap]
  apply List.nodup_flatMap.mpr
  constructor
  · intro entry _
    unfold sectionSlots
    rw [List.map_map]
    have hkeys : (entry.2.criticals.keys.map (fun slot => (⟨entry.1, slot⟩ : CriticalLocation))).Nodup := by
      apply entry.2.criticals.keys_nodup.map
      intro a b h
      injection h
    unfold OrderedMap.keys at hkeys
    rwa [List.map_map] at hkeys
  · apply template.sections.sorted.imp
    intro a b hlt location ha hb
    have hpart : ∀ entry : MechSection × SectionDefinition,
        location ∈ (sectionSlots entry.1 entry.2).map Prod.fst → location.part = entry.1 := by
      intro entry hmem
      unfold sectionSlots at hmem
      rw [List.map_map] at hmem
      obtain ⟨slot, -, rfl⟩ := List.mem_map.mp hmem
      rfl
    rw [← hpart a ha, ← hpart b hb] at hlt
    exact absurd hlt (lt_irrefl _)

end

-- All extension slots that no mount has taken.
def Links.flat (links : Links) : List CriticalLocation := links.values.flatten

theorem Links.flat_remove (links : Links) (parent : CriticalLocation) :
    (flat links).Perm ((links.get? parent).getD [] ++ flat (links.remove parent)) := by
  cases h : links.get? parent with
  | none =>
      rw [links.remove_absent parent h]
      exact List.Perm.refl _
  | some extension =>
      have hperm := (links.values_remove parent extension h).flatten
      exact hperm

theorem Links.flat_insert (links : Links) (parent : CriticalLocation)
    (extension : List CriticalLocation) :
    (flat (links.insert parent extension)).Perm (extension ++ flat (links.remove parent)) := by
  have hperm := flat_remove (links.insert parent extension) parent
  rw [OrderedMap.get?_insert, if_pos rfl, OrderedMap.remove_insert] at hperm
  exact hperm

section

variable (template : MechTemplate)

def isMarker (entry : CriticalLocation × CriticalDefinition) : Bool := isSplitProxy entry.2.equipment

-- The links of the markers read so far.
structure Linked (seen : List (CriticalLocation × CriticalDefinition)) (links : Links) : Prop where
  markers : (Links.flat links).Perm ((seen.filter isMarker).map Prod.fst)
  extend : ∀ parent extension, links.get? parent = some extension →
    ∀ location ∈ extension, Extends template parent location

theorem linkMarker_linked {seen : List (CriticalLocation × CriticalDefinition)}
    {marker : CriticalLocation × CriticalDefinition} (hm : marker ∈ template.slots)
    {links later : Links} (hl : Linked template seen links)
    (h : linkMarker template links marker = .ok later) :
    Linked template (seen ++ [marker]) later := by
  unfold linkMarker at h
  split at h
  · rename_i hplain
    injection h with h
    subst h
    refine ⟨?_, hl.extend⟩
    have hnot : isMarker marker = false := by simpa [isMarker] using hplain
    rw [List.filter_append, List.filter_cons_of_neg (by rw [hnot]; exact Bool.false_ne_true),
      List.filter_nil, List.append_nil]
    exact hl.markers
  · rename_i hproxy
    have hyes : isMarker marker = true := by simpa [isMarker] using hproxy
    obtain ⟨parent, hparent, h⟩ := ok_of_bind h
    obtain ⟨-, h⟩ := ok_of_ensure h
    obtain ⟨primary, -, h⟩ := ok_of_bind h
    obtain ⟨weapon, -, h⟩ := ok_of_bind h
    obtain ⟨-, h⟩ := ok_of_ensure h
    obtain ⟨-, h⟩ := ok_of_ensure h
    injection h with h
    subst h
    constructor
    · have hinsert := Links.flat_insert links parent ((links.get? parent).getD [] ++ [marker.1])
      have hremove := Links.flat_remove links parent
      rw [List.filter_append, List.filter_cons_of_pos hyes, List.filter_nil, List.map_append,
        List.map_singleton]
      have hmove : ((links.get? parent).getD [] ++ [marker.1] ++ Links.flat (links.remove parent)).Perm
          ((links.get? parent).getD [] ++ Links.flat (links.remove parent) ++ [marker.1]) := by
        rw [List.append_assoc, List.append_assoc]
        exact List.perm_append_comm.append_left _
      have hback := hremove.symm.trans hl.markers
      exact (hinsert.trans hmove).trans (hback.append_right _)
    · intro other extension hget location hlocation
      rw [OrderedMap.get?_insert] at hget
      split at hget
      · rename_i hsame
        subst hsame
        injection hget with hget
        rw [← hget] at hlocation
        rcases List.mem_append.mp hlocation with hold | hnew
        · cases hbefore : links.get? other with
          | none =>
              rw [hbefore] at hold
              contradiction
          | some before =>
              rw [hbefore] at hold
              exact hl.extend other before hbefore location hold
        · rw [List.mem_singleton.mp hnew]
          exact ⟨marker.2, (mem_slots template marker.1 marker.2).mp hm, hyes, hparent⟩
      · exact hl.extend other extension hget location hlocation

theorem splitCriticals_linked {links : Links} (h : splitCriticals template = .ok links) :
    Linked template template.slots links := by
  obtain ⟨found, hfound, h⟩ := ok_of_bind h
  obtain ⟨-, h⟩ := ok_of_ensure h
  injection h with h
  subst h
  refine foldlM_keeps (Linked template) ?_ ?_ hfound
  · intro before marker after links later hslots hl hstep
    apply linkMarker_linked template _ hl hstep
    rw [hslots]
    exact List.mem_append_right _ List.mem_cons_self
  · constructor
    · exact List.Perm.refl _
    · intro parent extension hget
      contradiction

end

-- What mounts, bins, systems and open links hold.
def Progress.held (p : Progress) : List CriticalLocation := p.loadout.listed ++ Links.flat p.split

section

variable (p : Progress)

theorem held_addBin (bin : AmmunitionBin) : (p.addBin bin).held.Perm (bin.location :: p.held) := by
  unfold Progress.held MechLoadout.listed MechLoadout.components Progress.addBin
  simp only [List.map_append, List.flatten_append, List.map_singleton,
    List.append_assoc, List.singleton_append]
  rw [← List.append_assoc, ← List.append_assoc _ _ (_ ++ Links.flat p.split)]
  exact List.perm_middle

theorem held_addSystem (system : SystemCritical) :
    (p.addSystem system).held.Perm (system.location :: p.held) := by
  unfold Progress.held MechLoadout.listed MechLoadout.components Progress.addSystem
  simp only [List.map_append, List.flatten_append, List.map_singleton, List.flatten_singleton]
  rw [← List.append_assoc, List.append_assoc _ [system.location]]
  exact List.perm_middle

theorem held_addMount (location : CriticalLocation) (mount : WeaponMount) (taken : List Nat) :
    (p.addMount location mount taken).held.Perm
      (taken.map (fun slot => ⟨location.part, slot⟩) ++ p.held) := by
  have hflat := Links.flat_remove p.split location
  unfold Progress.held MechLoadout.listed MechLoadout.components Progress.addMount
  simp only [List.map_append, List.flatten_append, List.map_singleton, List.flatten_singleton,
    List.append_assoc]
  have hbins := List.perm_append_comm_assoc ((p.split.get? location).getD [])
    (p.loadout.ammunition.map (fun bin => [bin.location])).flatten
    ((p.loadout.systems.map (fun system => [system.location])).flatten ++
      Links.flat (p.split.remove location))
  have hsystems := List.perm_append_comm_assoc ((p.split.get? location).getD [])
    (p.loadout.systems.map (fun system => [system.location])).flatten
    (Links.flat (p.split.remove location))
  have hrest := hbins.trans ((hsystems.trans (hflat.symm.append_left _)).append_left _)
  exact (List.perm_append_comm_assoc _ _ _).trans ((hrest.append_left _).append_left _)

end

def Marker (template : MechTemplate) (location : CriticalLocation) : Prop :=
  ∃ critical, template.critical? location = some critical ∧ isSplitProxy critical.equipment = true

-- What is held is what was reached and every marker, each once.
structure Allocation (template : MechTemplate) (reached : CriticalLocation → Prop) (p : Progress) :
    Prop where
  distinct : p.held.Nodup
  held : ∀ location, location ∈ p.held ↔ reached location ∨ Marker template location
  mounted : ∀ mount ∈ p.loadout.weapons, Mounted template mount
  extend : ∀ parent extension, p.split.get? parent = some extension →
    ∀ location ∈ extension, Extends template parent location

-- A weapon takes a run of free slots from its first one on, each naming it again, and with its
-- markers it has as many as it needs.
structure Placed (layout : SectionDefinition) (part : MechSection) (slot : Nat)
    (critical : CriticalDefinition) (p q : Progress) (weapon : Weapon) (mount : WeaponMount)
    (size : Nat) : Prop where
  parsed : Weapon.parse critical.equipment = .ok weapon
  same : mount.weapon = weapon
  positive : 0 < size
  count : size + ((p.split.get? ⟨part, slot⟩).getD []).length = weapon.profile.criticalSlots
  free : ∀ other ∈ List.range' slot size, other ∉ p.consumed
  named : ∀ other ∈ List.range' slot size, ∃ found, layout.criticals.get? other = some found ∧
    eqIgnoreAsciiCase found.equipment critical.equipment = true
  after : q = p.addMount ⟨part, slot⟩ mount (List.range' slot size)

section

variable (template : MechTemplate)

theorem Allocation.congr (reached other : CriticalLocation → Prop) (p : Progress)
    (h : Allocation template reached p)
    (hsame : ∀ location, reached location ∨ Marker template location ↔
      other location ∨ Marker template location) : Allocation template other p :=
  ⟨h.distinct, fun location => (h.held location).trans (hsame location), h.mounted, h.extend⟩

theorem Allocation.grow (reached : CriticalLocation → Prop) (p q : Progress)
    (fresh : List CriticalLocation) (h : Allocation template reached p)
    (hheld : q.held.Perm (fresh ++ p.held)) (hdistinct : fresh.Nodup)
    (hfresh : ∀ location ∈ fresh, ¬ reached location ∧ ¬ Marker template location)
    (hmounted : ∀ mount ∈ q.loadout.weapons, Mounted template mount)
    (hextend : ∀ parent extension, q.split.get? parent = some extension →
      ∀ location ∈ extension, Extends template parent location) :
    Allocation template (fun location => reached location ∨ location ∈ fresh) q := by
  refine ⟨?_, ?_, hmounted, hextend⟩
  · rw [hheld.nodup_iff, List.nodup_append]
    refine ⟨hdistinct, h.distinct, ?_⟩
    intro location hin other hother heq
    subst heq
    rcases (h.held location).mp hother with hreached | hmarker
    · exact (hfresh location hin).1 hreached
    · exact (hfresh location hin).2 hmarker
  · intro location
    rw [hheld.mem_iff, List.mem_append, h.held]
    constructor
    · rintro (hin | hreached | hmarker)
      · exact Or.inl (Or.inr hin)
      · exact Or.inl (Or.inl hreached)
      · exact Or.inr hmarker
    · rintro ((hreached | hin) | hmarker)
      · exact Or.inr (Or.inl hreached)
      · exact Or.inl hin
      · exact Or.inr (Or.inr hmarker)

-- Slots reached: those of earlier sections, and in this one the visited and the taken.
def Reached (before : CriticalLocation → Prop) (part : MechSection) (visited consumed : List Nat)
    (location : CriticalLocation) : Prop :=
  before location ∨ location.part = part ∧ (location.slot ∈ visited ∨ location.slot ∈ consumed)

variable (before : CriticalLocation → Prop) (part : MechSection) (layout : SectionDefinition)
  (visited : List Nat) (slot : Nat) (critical : CriticalDefinition) (p q : Progress)
  (hlayout : template.sections.get? part = some layout)
  (hbefore : ∀ location, before location → location.part ≠ part)
  (hcritical : layout.criticals.get? slot = some critical)
  (hvisited : ∀ other ∈ visited, other < slot) (hslot : slot ∉ p.consumed)
  (hproxy : isSplitProxy critical.equipment = false)
  (hp : Allocation template (Reached before part visited p.consumed) p)

include hlayout hbefore hvisited in
theorem not_reached {other : Nat} (hle : slot ≤ other) (hfree : other ∉ p.consumed)
    {found : CriticalDefinition} (hfound : layout.criticals.get? other = some found)
    (hplain : isSplitProxy found.equipment = false) :
    ¬ Reached before part visited p.consumed ⟨part, other⟩ ∧ ¬ Marker template ⟨part, other⟩ := by
  constructor
  · rintro (hseen | ⟨-, hold | htaken⟩)
    · exact hbefore _ hseen rfl
    · have hlt := hvisited other hold
      omega
    · exact hfree htaken
  · rintro ⟨marker, hmarker, hyes⟩
    unfold MechTemplate.critical? at hmarker
    rw [hlayout, Option.bind_some, hfound] at hmarker
    injection hmarker with hmarker
    rw [← hmarker, hplain] at hyes
    contradiction

include hlayout hbefore hcritical hvisited hslot hproxy hp

theorem Allocation.one (hheld : q.held.Perm (⟨part, slot⟩ :: p.held))
    (hweapons : q.loadout.weapons = p.loadout.weapons) (hsplit : q.split = p.split)
    (hconsumed : q.consumed = p.consumed) :
    Allocation template (Reached before part (visited ++ [slot]) q.consumed) q := by
  have hgrown := hp.grow template _ p q [⟨part, slot⟩] hheld (List.nodup_singleton _) (by
    intro location hin
    rw [List.mem_singleton.mp hin]
    exact not_reached template before part layout visited slot p hlayout hbefore hvisited
      (Nat.le_refl _) hslot hcritical hproxy) (by rw [hweapons]; exact hp.mounted)
    (by rw [hsplit]; exact hp.extend)
  apply hgrown.congr
  intro location
  apply or_congr_left
  rw [List.mem_singleton, hconsumed]
  unfold Reached
  rw [CriticalLocation.mk.injEq, List.mem_append, List.mem_singleton]
  tauto

omit hlayout hbefore hcritical hvisited hslot hproxy hp in
theorem placeWeapon_placed (h : placeWeapon layout ⟨part, slot⟩ critical p = .ok q) :
    ∃ weapon mount size, Placed layout part slot critical p q weapon mount size := by
  obtain ⟨weapon, hweapon, h⟩ := ok_of_bind h
  obtain ⟨-, h⟩ := ok_of_ensure h
  obtain ⟨mount, hmount, h⟩ := ok_of_bind h
  obtain ⟨-, h⟩ := ok_of_ensure h
  obtain ⟨hcount, h⟩ := ok_of_ensure h
  obtain ⟨-, h⟩ := ok_of_ensure h
  obtain ⟨-, h⟩ := ok_of_ensure h
  obtain ⟨hrun, h⟩ := ok_of_ensure h
  rw [decide_eq_true_eq] at hcount
  injection h with h
  refine ⟨weapon, mount, _, hweapon, ?_, by omega, Nat.sub_add_cancel hcount.le, ?_, ?_, h.symm⟩
  · obtain ⟨-, hmount⟩ := ok_of_ensure hmount
    obtain ⟨-, hmount⟩ := ok_of_ensure hmount
    obtain ⟨-, hmount⟩ := ok_of_ensure hmount
    obtain ⟨-, hmount⟩ := ok_of_ensure hmount
    injection hmount with hmount
    rw [← hmount]
    rfl
  · intro other hother hin
    have hmatch := List.all_eq_true.mp hrun other hother
    rw [Bool.and_eq_true, List.contains_iff_mem.mpr hin] at hmatch
    exact absurd hmatch.1 (by decide)
  · intro other hother
    have hmatch := List.all_eq_true.mp hrun other hother
    rw [Bool.and_eq_true] at hmatch
    cases hfound : layout.criticals.get? other with
    | none =>
        rw [hfound] at hmatch
        exact absurd hmatch.2 Bool.false_ne_true
    | some found =>
        rw [hfound] at hmatch
        have hboth : (continues critical found && decide (found.data = critical.data)) = true :=
          hmatch.2
        unfold continues at hboth
        rw [Bool.and_eq_true, Bool.and_eq_true] at hboth
        exact ⟨found, rfl, hboth.1.1⟩

section

variable {weapon : Weapon} {mount : WeaponMount} {size : Nat}
  (h : Placed layout part slot critical p q weapon mount size)

include h

omit hbefore hcritical hvisited hslot hproxy in
-- Its own slots name the weapon, and the others extend the first of them.
theorem Placed.mounted : Mounted template { mount with
    criticals := (List.range' slot size).map (fun other => ⟨part, other⟩) ++
      (p.split.get? ⟨part, slot⟩).getD [] } := by
  have hcount := h.count
  constructor
  · dsimp only
    rw [List.length_append, List.length_map, List.length_range', h.same, hcount]
  · intro location hlocation
    rcases List.mem_append.mp hlocation with hown | hextended
    · obtain ⟨other, hother, rfl⟩ := List.mem_map.mp hown
      obtain ⟨found, hfound, hname⟩ := h.named other hother
      refine Or.inl ⟨found, ?_, ?_⟩
      · unfold MechTemplate.critical?
        rw [hlayout, Option.bind_some, hfound]
      · rw [h.same]
        apply Weapon.parse_congr _ h.parsed
        rw [eqIgnoreAsciiCase_iff] at hname ⊢
        exact hname.symm
    · refine Or.inr ⟨⟨part, slot⟩, ?_, ?_⟩
      · obtain ⟨rest, hrest⟩ : ∃ rest, size = rest + 1 := ⟨size - 1, by have := h.positive; omega⟩
        rw [hrest, List.range'_succ]
        rfl
      · cases hlinks : p.split.get? ⟨part, slot⟩ with
        | none =>
            rw [hlinks] at hextended
            contradiction
        | some links =>
            rw [hlinks] at hextended
            exact hp.extend _ links hlinks location hextended

omit hcritical hslot hp in
theorem Placed.unreached (other : Nat) (hother : other ∈ List.range' slot size) :
    ¬ Reached before part visited p.consumed ⟨part, other⟩ ∧ ¬ Marker template ⟨part, other⟩ := by
  obtain ⟨found, hfound, hname⟩ := h.named other hother
  refine not_reached template before part layout visited slot p hlayout hbefore hvisited
    (List.mem_range'_1.mp hother).1 (h.free other hother) hfound ?_
  rw [eqIgnoreAsciiCase_iff] at hname
  unfold isSplitProxy eqIgnoreAsciiCase at hproxy ⊢
  rw [hname]
  exact hproxy

omit hlayout hbefore hcritical hvisited hslot hproxy hp in
-- The first slot taken is the one just visited.
theorem Placed.reached (location : CriticalLocation) :
    Reached before part visited p.consumed location ∨
        location ∈ (List.range' slot size).map (fun other => (⟨part, other⟩ : CriticalLocation)) ↔
      Reached before part (visited ++ [slot]) (p.consumed ++ List.range' slot size) location := by
  have hfirst : slot ∈ List.range' slot size :=
    List.mem_range'_1.mpr ⟨Nat.le_refl _, by have := h.positive; omega⟩
  obtain ⟨at', other⟩ := location
  unfold Reached
  rw [List.mem_map, List.mem_append, List.mem_append, List.mem_singleton]
  dsimp only
  constructor
  · rintro ((hseen | ⟨hpart, hold | hin⟩) | ⟨taken, hin, heq⟩)
    · exact Or.inl hseen
    · exact Or.inr ⟨hpart, Or.inl (Or.inl hold)⟩
    · exact Or.inr ⟨hpart, Or.inr (Or.inl hin)⟩
    · injection heq with hpart hsame
      exact Or.inr ⟨hpart.symm, Or.inr (Or.inr (hsame ▸ hin))⟩
  · rintro (hseen | ⟨hpart, (hold | hsame) | hin | hin⟩)
    · exact Or.inl (Or.inl hseen)
    · exact Or.inl (Or.inr ⟨hpart, Or.inl hold⟩)
    · exact Or.inr ⟨slot, hfirst, by rw [hpart, hsame]⟩
    · exact Or.inl (Or.inr ⟨hpart, Or.inr hin⟩)
    · exact Or.inr ⟨other, hin, by rw [hpart]⟩

end

omit hcritical hslot in
theorem Allocation.weapon (h : placeWeapon layout ⟨part, slot⟩ critical p = .ok q)
    (hkeys : ∀ other ∈ p.consumed, other ∈ layout.criticals.keys) :
    Allocation template (Reached before part (visited ++ [slot]) q.consumed) q ∧
      ∀ other ∈ q.consumed, other ∈ layout.criticals.keys := by
  obtain ⟨weapon, mount, size, hplaced⟩ := placeWeapon_placed part layout slot critical p q h
  have hmounted := hplaced.mounted template before part layout visited slot critical p q hlayout hp
  have hfree := hplaced.unreached template before part layout visited slot critical p q hlayout
    hbefore hvisited hproxy
  have hreached := hplaced.reached before part layout visited slot critical p q
  have hheld := held_addMount p ⟨part, slot⟩ mount (List.range' slot size)
  rw [hplaced.after]
  constructor
  · have hgrown := hp.grow template _ p _ _ hheld
      (List.Nodup.map (fun a b hab => by injection hab) (List.nodup_range' 1)) (by
        intro location hin
        obtain ⟨other, hother, rfl⟩ := List.mem_map.mp hin
        exact hfree other hother)
      (by
        intro one hone
        rcases List.mem_append.mp hone with hold | hnew
        · exact hp.mounted one hold
        · rw [List.mem_singleton.mp hnew]
          exact hmounted)
      (by
        intro parent links hlinks
        change (p.split.remove _).get? parent = some links at hlinks
        rw [OrderedMap.get?_remove] at hlinks
        split at hlinks
        · contradiction
        · exact hp.extend parent links hlinks)
    exact hgrown.congr template _ _ _ fun location => or_congr_left (hreached location)
  · intro other hother
    rcases List.mem_append.mp hother with hold | hnew
    · exact hkeys other hold
    · obtain ⟨found, hfound, -⟩ := hplaced.named other hnew
      rw [OrderedMap.mem_keys_iff, hfound]
      rfl

theorem Allocation.place (h : place layout ⟨part, slot⟩ critical p = .ok q)
    (hkeys : ∀ other ∈ p.consumed, other ∈ layout.criticals.keys) :
    Allocation template (Reached before part (visited ++ [slot]) q.consumed) q ∧
      ∀ other ∈ q.consumed, other ∈ layout.criticals.keys := by
  have hone := hp.one template before part layout visited slot critical p
  unfold Construction.place at h
  split at h
  · obtain ⟨bin, hbin, h⟩ := ok_of_bind h
    injection h with h
    have hlocation : bin.location = ⟨part, slot⟩ := by
      obtain ⟨weapon, -, hbin⟩ := ok_of_bind hbin
      obtain ⟨configured, -, hbin⟩ := ok_of_bind hbin
      obtain ⟨rounds, -, hbin⟩ := ok_of_bind hbin
      obtain ⟨-, hbin⟩ := ok_of_ensure hbin
      injection hbin with hbin
      rw [← hbin]
    subst h
    have hheld := held_addBin p bin
    rw [hlocation] at hheld
    exact ⟨hone _ hlayout hbefore hcritical hvisited hslot hproxy hheld rfl rfl rfl, hkeys⟩
  · obtain ⟨-, h⟩ := ok_of_ensure h
    split at h
    · exact hp.weapon template before part layout visited slot critical p q hlayout hbefore
        hvisited hproxy h hkeys
    · obtain ⟨-, h⟩ := ok_of_ensure h
      obtain ⟨installation, -, h⟩ := ok_of_bind h
      obtain ⟨system, hsystem, h⟩ := ok_of_bind h
      injection h with h
      have hlocation : system.location = ⟨part, slot⟩ := by
        unfold SystemCritical.resolve at hsystem
        split at hsystem
        · cases hlinks : machineGunArrayLinks critical.data with
          | ok links =>
              rw [hlinks] at hsystem
              injection hsystem with hsystem
              rw [← hsystem]
          | error e =>
              rw [hlinks] at hsystem
              contradiction
        · injection hsystem with hsystem
          rw [← hsystem]
      subst h
      have hheld := held_addSystem p system
      rw [hlocation] at hheld
      exact ⟨hone _ hlayout hbefore hcritical hvisited hslot hproxy hheld rfl rfl rfl, hkeys⟩

end

section

variable (template : MechTemplate) (chassis : MechChassis)

-- A section is gone through from the first slot to the last.
theorem visitSection_allocation {before : CriticalLocation → Prop} {part : MechSection}
    {layout : SectionDefinition} {p q : Progress}
    (hlayout : template.sections.get? part = some layout)
    (hbefore : ∀ location, before location → location.part ≠ part)
    (hp : Allocation template before p)
    (h : visitSection Construction.place chassis p (part, layout) = .ok q) :
    Allocation template (fun location => before location ∨
      location.part = part ∧ (layout.criticals.get? location.slot).isSome) q := by
  have hrun := foldlM_keeps
    (fun visited p => Allocation template (Reached before part (visited.map Prod.fst) p.consumed) p ∧
      ∀ other ∈ p.consumed, other ∈ layout.criticals.keys) ?_ ?_ h
  · obtain ⟨hlast, hkeys⟩ := hrun
    apply hlast.congr
    intro location
    apply or_congr_left
    apply or_congr_right
    apply and_congr_right
    intro _
    rw [← OrderedMap.mem_keys_iff]
    constructor
    · rintro (hvisited | hconsumed)
      · exact hvisited
      · exact hkeys _ hconsumed
    · exact Or.inl
  · rintro visited ⟨slot, critical⟩ after p' q' hentries ⟨hp', hkeys⟩ hstep
    have hmem : (slot, critical) ∈ layout.criticals.entries := by
      rw [hentries]
      exact List.mem_append_right _ List.mem_cons_self
    have hcritical := (layout.criticals.get?_eq_some_iff slot critical).mpr hmem
    have hsorted := layout.criticals.sorted
    rw [hentries] at hsorted
    have hvisited : ∀ other ∈ visited.map Prod.fst, other < slot := by
      intro other hother
      obtain ⟨entry, hentry, rfl⟩ := List.mem_map.mp hother
      exact (List.pairwise_append.mp hsorted).2.2 entry hentry _ List.mem_cons_self
    rw [List.map_append, List.map_singleton]
    unfold visit at hstep
    split at hstep
    · rename_i hskip
      injection hstep with hstep
      subst hstep
      refine ⟨hp'.congr template _ _ _ ?_, hkeys⟩
      intro location
      unfold Reached
      rw [List.mem_append, List.mem_singleton]
      rw [Bool.or_eq_true, List.contains_iff_mem] at hskip
      constructor
      · rintro ((hseen | ⟨hpart, hold | hin⟩) | hmarker)
        · exact Or.inl (Or.inl hseen)
        · exact Or.inl (Or.inr ⟨hpart, Or.inl (Or.inl hold)⟩)
        · exact Or.inl (Or.inr ⟨hpart, Or.inr hin⟩)
        · exact Or.inr hmarker
      · rintro ((hseen | ⟨hpart, (hold | hsame) | hin⟩) | hmarker)
        · exact Or.inl (Or.inl hseen)
        · exact Or.inl (Or.inr ⟨hpart, Or.inl hold⟩)
        · subst hpart hsame
          rcases hskip with htaken | hproxy
          · exact Or.inl (Or.inr ⟨rfl, Or.inr htaken⟩)
          · refine Or.inr ⟨critical, ?_, hproxy⟩
            unfold MechTemplate.critical?
            rw [hlayout, Option.bind_some, hcritical]
        · exact Or.inl (Or.inr ⟨hpart, Or.inr hin⟩)
        · exact Or.inr hmarker
    · rename_i hplaced
      rw [Bool.not_eq_true, Bool.or_eq_false_iff] at hplaced
      have hslot : slot ∉ p'.consumed := by
        intro hin
        have hcontains := List.contains_iff_mem.mpr hin
        rw [hplaced.1] at hcontains
        contradiction
      exact hp'.place template before part layout _ slot critical p' q' hlayout hbefore hcritical
        hvisited hslot hplaced.2 (ok_of_withContext hstep) hkeys
  · refine ⟨?_, fun other hother => absurd hother List.not_mem_nil⟩
    have hsame := hp.congr template _ (Reached before part [] []) p (by
      intro location
      unfold Reached
      simp)
    exact ⟨hsame.distinct, hsame.held, hsame.mounted, hsame.extend⟩

theorem splitCriticals_allocation {links : Links} (h : splitCriticals template = .ok links) :
    Allocation template (fun _ => False) ⟨⟨[], [], []⟩, links, []⟩ := by
  have hlinked := splitCriticals_linked template h
  refine ⟨?_, ?_, fun mount hmount => absurd hmount List.not_mem_nil, hlinked.extend⟩
  · have hnodup : ((template.slots.filter isMarker).map Prod.fst).Nodup :=
      (slots_nodup template).sublist (List.filter_sublist.map _)
    exact hlinked.markers.nodup_iff.mpr hnodup
  · intro location
    have hmem : location ∈ Links.flat links ↔ Marker template location := by
      rw [hlinked.markers.mem_iff, List.mem_map]
      constructor
      · rintro ⟨⟨found, critical⟩, hfound, rfl⟩
        obtain ⟨hslot, hmarker⟩ := List.mem_filter.mp hfound
        exact ⟨critical, (mem_slots template found critical).mp hslot, hmarker⟩
      · rintro ⟨critical, hcritical, hmarker⟩
        exact ⟨(location, critical),
          List.mem_filter.mpr ⟨(mem_slots template location critical).mpr hcritical, hmarker⟩, rfl⟩
    rw [false_or, ← hmem]
    rfl

theorem walk_allocation {loadout : MechLoadout}
    (h : walk Construction.place chassis template = .ok loadout) :
    loadout.listed.Nodup ∧
      (∀ location, location ∈ loadout.listed ↔ (template.critical? location).isSome) ∧
      ∀ mount ∈ loadout.weapons, Mounted template mount := by
  obtain ⟨split, hsplit, h⟩ := ok_of_bind h
  obtain ⟨p, hp, h⟩ := ok_of_bind h
  obtain ⟨hempty, h⟩ := ok_of_ensure h
  injection h with h
  have hrun := foldlM_keeps
    (fun before p => Allocation template (fun location => ∃ entry ∈ before,
      location.part = entry.1 ∧ (entry.2.criticals.get? location.slot).isSome) p) ?_ ?_ hp
  · have hheld : p.held = loadout.listed := by
      unfold Progress.held Links.flat OrderedMap.values
      rw [List.isEmpty_iff.mp hempty, h]
      exact List.append_nil _
    refine ⟨hheld ▸ hrun.distinct, ?_, h ▸ hrun.mounted⟩
    intro location
    rw [← hheld, hrun.held]
    unfold MechTemplate.critical?
    constructor
    · rintro (⟨entry, hentry, hpart, hsome⟩ | ⟨critical, hcritical, -⟩)
      · have hget := (template.sections.get?_eq_some_iff entry.1 entry.2).mpr hentry
        rw [hpart, hget]
        exact hsome
      · unfold MechTemplate.critical? at hcritical
        rw [hcritical]
        rfl
    · intro hsome
      cases hlayout : template.sections.get? location.part with
      | none =>
          rw [hlayout] at hsome
          contradiction
      | some layout =>
          rw [hlayout] at hsome
          exact Or.inl ⟨(location.part, layout),
            (template.sections.get?_eq_some_iff _ layout).mp hlayout, rfl, hsome⟩
  · rintro before ⟨part, layout⟩ after p' q' hentries hp' hstep
    have hmem : (part, layout) ∈ template.sections.entries := by
      rw [hentries]
      exact List.mem_append_right _ List.mem_cons_self
    have hsorted := template.sections.sorted
    rw [hentries] at hsorted
    have hearlier : ∀ location : CriticalLocation, (∃ entry ∈ before, location.part = entry.1 ∧
        (entry.2.criticals.get? location.slot).isSome) → location.part ≠ part := by
      rintro location ⟨entry, hentry, hpart, -⟩ hsame
      have hlt := (List.pairwise_append.mp hsorted).2.2 entry hentry _ List.mem_cons_self
      rw [← hpart, hsame] at hlt
      exact absurd hlt (lt_irrefl _)
    have hnext := visitSection_allocation template chassis
      ((template.sections.get?_eq_some_iff part layout).mpr hmem) hearlier hp' hstep
    apply hnext.congr
    intro location
    apply or_congr_left
    simp only [List.mem_append, List.mem_singleton]
    constructor
    · rintro (⟨entry, hentry, hfound⟩ | hfound)
      · exact ⟨entry, Or.inl hentry, hfound⟩
      · exact ⟨(part, layout), Or.inr rfl, hfound⟩
    · rintro ⟨entry, hentry | rfl, hfound⟩
      · exact Or.inl ⟨entry, hentry, hfound⟩
      · exact Or.inr hfound
  · apply (splitCriticals_allocation template hsplit).congr
    intro location
    simp

end

theorem countP_flatten {pieces : List (List CriticalLocation)} {location : CriticalLocation}
    (hn : pieces.flatten.Nodup) (hin : location ∈ pieces.flatten) :
    pieces.countP (fun piece => piece.contains location) = 1 := by
  induction pieces with
  | nil => contradiction
  | cons piece pieces ih =>
      rw [List.flatten_cons] at hn hin
      obtain ⟨-, hrest, hapart⟩ := List.nodup_append.mp hn
      rw [List.countP_cons]
      by_cases hpiece : location ∈ piece
      · have hnone : pieces.countP (fun piece => piece.contains location) = 0 := by
          apply List.countP_eq_zero.mpr
          intro other hother hcontains
          have hlater := List.mem_flatten.mpr ⟨other, hother, List.contains_iff_mem.mp hcontains⟩
          exact hapart location hpiece location hlater rfl
        rw [hnone, if_pos (List.contains_iff_mem.mpr hpiece)]
      · rcases List.mem_append.mp hin with hmem | hmem
        · exact absurd hmem hpiece
        · rw [ih hrest hmem, if_neg (fun hcontains => hpiece (List.contains_iff_mem.mp hcontains))]

-- Each occupied slot is in one weapon, bin or system, nothing else is listed, and a weapon lists
-- as many slots as it needs, each of which holds it.
theorem MechLoadout.resolve_allocates (template : MechTemplate) (loadout : MechLoadout)
    (h : resolve template = .ok loadout) :
    (∀ location, (template.critical? location).isSome →
      loadout.weapons.countP (fun mount => mount.criticals.contains location) +
        loadout.ammunition.countP (fun bin => bin.location = location) +
        loadout.systems.countP (fun system => system.location = location) = 1) ∧
    (∀ location ∈ loadout.listed, (template.critical? location).isSome) ∧
    ∀ mount ∈ loadout.weapons, mount.criticals.Nodup ∧
      mount.criticals.length = mount.weapon.profile.criticalSlots ∧
      ∀ location ∈ mount.criticals, Holds template mount location := by
  obtain ⟨chassis, -, h⟩ := ok_of_bind h
  obtain ⟨found, hfound, h⟩ := ok_of_bind h
  obtain ⟨-, h⟩ := ok_of_ensure h
  obtain ⟨-, h⟩ := ok_of_ensure h
  obtain ⟨-, -, h⟩ := ok_of_bind h
  obtain ⟨-, -, h⟩ := ok_of_bind h
  injection h with h
  subst h
  obtain ⟨hnodup, hlisted, hmounted⟩ := walk_allocation template chassis hfound
  refine ⟨?_, fun location hin => (hlisted location).mp hin, ?_⟩
  · intro location hoccupied
    have hcount := countP_flatten hnodup ((hlisted location).mpr hoccupied)
    unfold components at hcount
    rw [List.countP_append, List.countP_append, List.countP_map, List.countP_map, List.countP_map]
      at hcount
    rw [← hcount]
    congr 1
    · congr 1
      apply List.countP_congr
      intro bin _
      simp [eq_comm]
    · apply List.countP_congr
      intro system _
      simp [eq_comm]
  · intro mount hmount
    have hpiece : mount.criticals ∈ found.components :=
      List.mem_append_left _ (List.mem_append_left _ (List.mem_map_of_mem hmount))
    have hsub : mount.criticals.Sublist found.listed := List.sublist_flatten_of_mem hpiece
    exact ⟨hnodup.sublist hsub, (hmounted mount hmount).count, (hmounted mount hmount).holds⟩

theorem MechLoadout.resolve_allocates_splitMech : ∃ loadout, resolve splitMech = .ok loadout ∧
    loadout.weapons.length = 3 ∧ ∀ mount ∈ loadout.weapons,
      mount.criticals.length = mount.weapon.profile.criticalSlots := by
  obtain ⟨loadout, hresolve, hweapons⟩ := resolve_splitMech
  have ⟨_, _, hmounts⟩ := resolve_allocates splitMech loadout hresolve
  exact ⟨loadout, hresolve, hweapons, fun mount hmount => (hmounts mount hmount).2.1⟩

end StompyMux.Construction
