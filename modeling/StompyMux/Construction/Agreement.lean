import StompyMux.Construction.Resolve

-- What the strict resolver accepts, the administrative one resolves alike.
namespace StompyMux.Construction

open Library Library.Fallible Library.Text

namespace AmmunitionMode

-- The spellings that select ammunition.
theorem fromFlag_known {weapon : Weapon} {flag : String} {mode : AmmunitionMode}
    (h : fromFlag weapon flag = some mode) : flag ∈ contractAmmunitionModes ∧ flag ∈ precedence ∧
      (flag ≠ "MML_LRM" → mode.isMmlLrm = false) := by
  unfold fromFlag at h
  split at h
  all_goals
    first
    | contradiction
    | (split at h
       all_goals
         first
         | contradiction
         | (injection h with h
            subst h
            decide))
    | (injection h with h
       subst h
       decide)

theorem withMmlFamily_short {weapon : Weapon} {mode : AmmunitionMode} (hm : weapon.isMml = true)
    (hs : mode.supports weapon = true) (hl : mode.isMmlLrm = false) :
    mode.withMmlFamily false = some mode := by
  have hcases : weapon ∈ [Weapon.Mml3, .Mml5, .Mml7, .Mml9] := List.contains_iff_mem.mp hm
  have hall : ∀ weapon ∈ [Weapon.Mml3, .Mml5, .Mml7, .Mml9], mode.supports weapon = true →
      mode.withMmlFamily false = some mode := by
    cases mode
    all_goals
      first
      | contradiction
      | decide
  exact hall weapon hcases hs

section

variable (weapon : Weapon)

def candidates : List String := precedence.filter (fun flag => !weapon.isMml || flag != "MML_LRM")

variable (flags : List String) (flag : String) (mode : AmmunitionMode)

theorem mem_candidates (hp : flag ∈ precedence)
    (hf : weapon.isMml = true → flag ≠ "MML_LRM") : flag ∈ candidates weapon := by
  apply List.mem_filter.mpr ⟨hp, ?_⟩
  cases hm : weapon.isMml with
  | false => rfl
  | true => simpa using hf hm

-- One flag that counts decides.
theorem find_candidate (hc : flag ∈ candidates weapon)
    (hin : flag ∈ flags) (hone : ∀ other ∈ candidates weapon, other ∈ flags → other = flag) :
    (candidates weapon).find? (fun flag => flags.contains flag) = some flag := by
  cases hfind : (candidates weapon).find? (fun flag => flags.contains flag) with
  | none =>
      have habsent := List.find?_eq_none.mp hfind flag hc
      exact absurd (List.contains_iff_mem.mpr hin) habsent
  | some other =>
      have hother := hone other (List.mem_of_find?_eq_some hfind)
        (List.contains_iff_mem.mp (List.find?_some hfind))
      rw [hother]

theorem initialSelection_of_find
    (hfind : (candidates weapon).find? (fun flag => flags.contains flag) = some flag)
    (hflag : fromFlag weapon flag = some mode) : initialSelection weapon flags =
      if !weapon.isMml then mode else ((mode.withMmlFamily (flags.contains "MML_LRM")).or
        (Normal.withMmlFamily (flags.contains "MML_LRM"))).getD Normal := by
  unfold candidates at hfind
  unfold initialSelection
  rw [hfind, Option.bind_some, hflag]
  rfl

theorem initialSelection_of_none (hnone : ∀ flag ∈ candidates weapon, flag ∉ flags) :
    initialSelection weapon flags = if !weapon.isMml then Normal
      else ((Normal.withMmlFamily (flags.contains "MML_LRM")).or
        (Normal.withMmlFamily (flags.contains "MML_LRM"))).getD Normal := by
  have hfind : (candidates weapon).find? (fun flag => flags.contains flag) = none := by
    apply List.find?_eq_none.mpr
    intro flag hflag hin
    exact hnone flag hflag (List.contains_iff_mem.mp hin)
  unfold candidates at hfind
  unfold initialSelection
  rw [hfind]
  rfl

theorem initialSelection_nil : initialSelection weapon [] = Normal := by
  rw [initialSelection_of_none weapon [] (fun flag _ => List.not_mem_nil)]
  cases weapon.isMml with
  | false => rfl
  | true => decide

theorem initialSelection_single
    (hflag : fromFlag weapon flag = some mode) (hs : mode.supports weapon = true) :
    initialSelection weapon [flag] = mode := by
  obtain ⟨-, hp, hl⟩ := fromFlag_known hflag
  by_cases hfamily : weapon.isMml = true ∧ flag = "MML_LRM"
  · obtain ⟨hm, rfl⟩ := hfamily
    have hnone : ∀ other ∈ candidates weapon, other ∉ ["MML_LRM"] := by
      intro other hother hin
      have hkept := (List.mem_filter.mp hother).2
      rw [List.mem_singleton.mp hin, hm] at hkept
      contradiction
    rw [initialSelection_of_none weapon _ hnone, hm]
    injection hflag
  · have hc : flag ∈ candidates weapon := by
      apply mem_candidates weapon flag hp
      intro hm heq
      exact hfamily ⟨hm, heq⟩
    have hfind := find_candidate weapon [flag] flag hc (List.mem_singleton_self flag)
      (fun other _ hin => List.mem_singleton.mp hin)
    rw [initialSelection_of_find weapon [flag] flag mode hfind hflag]
    cases hm : weapon.isMml with
    | false => rfl
    | true =>
        have hne : flag ≠ "MML_LRM" := fun heq => hfamily ⟨hm, heq⟩
        have hlong : [flag].contains "MML_LRM" = false := by simpa using Ne.symm hne
        rw [hlong, withMmlFamily_short hm hs (hl hne)]
        rfl

theorem initialSelection_paired {special : String}
    {mode ranged : AmmunitionMode} (hm : weapon.isMml = true) (hne : special ≠ "MML_LRM")
    (hflags : ∀ flag, flag ∈ flags ↔ flag = "MML_LRM" ∨ flag = special)
    (hflag : fromFlag weapon special = some mode) (hr : mode.withMmlFamily true = some ranged) :
    initialSelection weapon flags = ranged := by
  obtain ⟨-, hp, -⟩ := fromFlag_known hflag
  have hc : special ∈ candidates weapon := mem_candidates weapon special hp (fun _ => hne)
  have hfind := find_candidate weapon flags special hc ((hflags special).mpr (Or.inr rfl)) (by
    intro other hother hin
    rcases (hflags other).mp hin with rfl | hsame
    · have hkept := (List.mem_filter.mp hother).2
      rw [hm] at hkept
      contradiction
    · exact hsame)
  have hlong : flags.contains "MML_LRM" = true :=
    List.contains_iff_mem.mpr ((hflags _).mpr (Or.inl rfl))
  rw [initialSelection_of_find weapon flags special mode hfind hflag, hm, hlong, hr]
  rfl

theorem initialSelection_of_fromFlags (hn : flags.Nodup) (h : fromFlags weapon flags = .ok mode) :
    initialSelection weapon flags = mode ∧
      ∀ flag ∈ flags, flag ∈ contractAmmunitionModes ∧ AmmunitionBin.firedBy weapon flag = true := by
  unfold fromFlags at h
  split at h
  · rename_i hnil
    injection h with h
    subst hnil h
    exact ⟨initialSelection_nil weapon, fun flag hflag => absurd hflag List.not_mem_nil⟩
  · have hsome := ok_of_ofOption h
    rcases Option.or_eq_some_iff.mp hsome with hsingle | ⟨-, hpaired⟩
    · unfold single at hsingle
      split at hsingle
      · rename_i flag hnonempty
        obtain ⟨hflag, hs⟩ := Option.filter_eq_some_iff.mp hsingle
        refine ⟨initialSelection_single weapon flag mode hflag hs, ?_⟩
        intro other hother
        rw [List.mem_singleton.mp hother]
        refine ⟨(fromFlag_known hflag).1, ?_⟩
        unfold AmmunitionBin.firedBy
        rw [hflag]
        dsimp only
        rw [hs, Bool.true_or]
      · contradiction
    · unfold paired at hpaired
      split at hpaired
      · rename_i first second hnonempty
        split at hpaired
        · rename_i hfamily
          rw [Bool.and_eq_true] at hfamily
          obtain ⟨hm, hlong⟩ := hfamily
          obtain ⟨special, hfind, hrest⟩ := Option.bind_eq_some_iff.mp hpaired
          obtain ⟨round, hflag, hr⟩ := Option.bind_eq_some_iff.mp hrest
          have hne : special ≠ "MML_LRM" := by simpa using List.find?_some hfind
          have hin : special ∈ [first, second] := List.mem_of_find?_eq_some hfind
          have hlong' : "MML_LRM" ∈ [first, second] := List.contains_iff_mem.mp hlong
          have hflags : ∀ flag, flag ∈ [first, second] ↔ flag = "MML_LRM" ∨ flag = special := by
            intro flag
            simp only [List.mem_cons, List.not_mem_nil, or_false] at hin hlong' ⊢
            grind
          refine ⟨initialSelection_paired weapon _ hm hne hflags hflag hr, ?_⟩
          intro flag hmem
          rcases (hflags flag).mp hmem with rfl | rfl
          · refine ⟨by decide, ?_⟩
            unfold AmmunitionBin.firedBy
            rw [hm]
            simp [fromFlag]
          · refine ⟨(fromFlag_known hflag).1, ?_⟩
            unfold AmmunitionBin.firedBy
            rw [hflag]
            dsimp only
            rw [hm, hr]
            simp
        · contradiction
      · contradiction

end

end AmmunitionMode

theorem ammunitionMode_not_fire {flag : String} (h : flag ∈ contractAmmunitionModes) :
    isContractFireMode flag = false := by
  have hall : ∀ flag ∈ contractAmmunitionModes, isContractFireMode flag = false := by decide
  exact hall flag h

namespace AmmunitionBin

theorem configuration_agrees {weapon : Weapon} {flags : List String}
    {result : Nat × Bool × AmmunitionMode} (h : configuration weapon flags = .ok result) :
    configurationContract weapon flags = .ok result := by
  obtain ⟨hrounds, h⟩ := ok_of_ensure h
  obtain ⟨hnodup, h⟩ := ok_of_ensure h
  obtain ⟨hhalf, h⟩ := ok_of_ensure h
  obtain ⟨hhot, h⟩ := ok_of_ensure h
  obtain ⟨mode, hmode, h⟩ := ok_of_bind h
  have hdistinct : flags.Nodup := of_decide_eq_true hnodup
  obtain ⟨hselected, hknown⟩ := AmmunitionMode.initialSelection_of_fromFlags weapon _ mode
    (hdistinct.filter _) hmode
  have hsame : flags.filter (fun mode => !isContractFireMode mode) =
      flags.filter (fun mode => !(["Halfton", "Hotload"].contains mode)) := by
    apply List.filter_congr
    intro flag hflag
    by_cases hlot : ["Halfton", "Hotload"].contains flag = true
    · have hfire : isContractFireMode flag = true := by
        have hall : ∀ flag ∈ ["Halfton", "Hotload"], isContractFireMode flag = true := by decide
        exact hall flag (List.contains_iff_mem.mp hlot)
      rw [hfire, hlot]
    · have hammunition := hknown flag (List.mem_filter.mpr ⟨hflag, by simpa using hlot⟩)
      rw [ammunitionMode_not_fire hammunition.1, eq_false_of_ne_true hlot]
  have hallKnown : (flags.filter (fun mode => !isContractFireMode mode)).all
      isContractAmmunitionMode = true := by
    rw [hsame, List.all_eq_true]
    exact fun flag hflag => List.contains_iff_mem.mpr (hknown flag hflag).1
  have hallFired : (flags.filter (fun mode => !isContractFireMode mode)).all (firedBy weapon) = true := by
    rw [hsame, List.all_eq_true]
    exact fun flag hflag => (hknown flag hflag).2
  unfold configurationContract
  dsimp only
  rw [hrounds, hnodup, hallKnown, hallFired, hhalf, hhot, hsame, hselected]
  exact h

theorem fromCritical_agrees (name : List Char) (critical : CriticalDefinition)
    (location : CriticalLocation) (bin : AmmunitionBin) (h : fromCritical name critical location = .ok bin) :
    fromCriticalContract name critical location = .ok bin := by
  obtain ⟨weapon, hweapon, h⟩ := ok_of_bind h
  obtain ⟨result, hresult, h⟩ := ok_of_bind h
  unfold fromCriticalContract fromConfiguration
  rw [hweapon]
  show (configurationContract weapon critical.modes >>= _) = _
  rw [configuration_agrees hresult]
  exact h

end AmmunitionBin

namespace WeaponMount

theorem admits_contract {weapon : Weapon} {mode : String} (h : admits weapon mode = true) :
    isContractMode mode = true := by
  unfold admits at h
  simp only [Bool.or_eq_true, Bool.and_eq_true, beq_iff_eq] at h
  unfold isContractMode
  rw [Bool.or_eq_true]
  have hrotary : ∀ mode ∈ rotaryModes, isContractFireMode mode = true := by decide
  have hshot : ∀ mode ∈ ["OneShot", "OneShot_Used"], isContractFireMode mode = true := by decide
  rcases h with (((((((rfl | ⟨rfl, -⟩) | ⟨rfl, -⟩) | ⟨rfl, -⟩) | ⟨rfl, -⟩) | h) | ⟨rfl, -⟩) | ⟨h, -⟩) |
    ⟨h, -⟩
  · exact Or.inl (by decide)
  · exact Or.inl (by decide)
  · exact Or.inl (by decide)
  · exact Or.inl (by decide)
  · exact Or.inl (by decide)
  · right
    cases hflag : AmmunitionMode.fromFlag weapon mode with
    | none =>
        rw [hflag] at h
        contradiction
    | some round =>
        exact List.contains_iff_mem.mpr (AmmunitionMode.fromFlag_known hflag).1
  · exact Or.inl (by decide)
  · exact Or.inl (hrotary mode (List.contains_iff_mem.mp h))
  · exact Or.inl (hshot mode (List.contains_iff_mem.mp h))

theorem fromCritical_agrees (weapon : Weapon) (critical : CriticalDefinition)
    (criticals : List CriticalLocation) (mount : WeaponMount)
    (h : fromCritical weapon critical criticals = .ok mount) :
    fromCriticalContract weapon critical criticals = .ok mount := by
  obtain ⟨-, h⟩ := ok_of_ensure h
  obtain ⟨hmodes, h⟩ := ok_of_ensure h
  obtain ⟨-, h⟩ := ok_of_ensure h
  obtain ⟨-, h⟩ := ok_of_ensure h
  rw [Bool.and_eq_true, List.all_eq_true] at hmodes
  have hcontract : (decide critical.modes.Nodup && critical.modes.all isContractMode) = true := by
    rw [Bool.and_eq_true, List.all_eq_true]
    exact ⟨hmodes.1, fun mode hmode => admits_contract (hmodes.2 mode hmode)⟩
  unfold fromCriticalContract
  rw [hcontract]
  exact h

end WeaponMount

-- A run at the low end of an ascending list comes first.
theorem take_ascending (slots : List Nat) (start count : Nat) (hsorted : slots.Pairwise (· < ·))
    (hlow : ∀ slot ∈ slots, start ≤ slot) (hrun : ∀ i < count, start + i ∈ slots) :
    slots.take count = List.range' start count := by
  induction count generalizing slots start with
  | zero => rfl
  | succ count ih =>
      cases slots with
      | nil =>
          have hstart := hrun 0 (Nat.succ_pos _)
          contradiction
      | cons slot slots =>
          obtain ⟨hfirst, hrest⟩ := List.pairwise_cons.mp hsorted
          have hslot : slot = start := by
            have hle := hlow slot List.mem_cons_self
            rcases List.mem_cons.mp (hrun 0 (Nat.succ_pos _)) with heq | hlater
            · omega
            · have hlt := hfirst _ hlater
              omega
          subst hslot
          rw [List.take_succ_cons, List.range'_succ, ih slots (slot + 1) hrest]
          · exact fun other hother => hfirst other hother
          · intro i hi
            rcases List.mem_cons.mp (hrun (i + 1) (by omega)) with heq | hlater
            · omega
            · rwa [Nat.add_assoc, Nat.add_comm 1 i]

section

variable (definition : SectionDefinition) (location : CriticalLocation)
  (critical : CriticalDefinition) (p q : Progress)

-- A complete contiguous run is what matching slots in authored order give.
theorem placeWeapon_agrees (h : placeWeapon definition location critical p = .ok q) :
    ∃ weapon, Weapon.parse critical.equipment = .ok weapon ∧
      placeWeaponContract definition location critical p weapon = .ok q := by
  obtain ⟨weapon, hweapon, h⟩ := ok_of_bind h
  obtain ⟨-, h⟩ := ok_of_ensure h
  obtain ⟨mount, hmount, h⟩ := ok_of_bind h
  obtain ⟨hsplit, h⟩ := ok_of_ensure h
  obtain ⟨hcount, h⟩ := ok_of_ensure h
  obtain ⟨-, h⟩ := ok_of_ensure h
  obtain ⟨-, h⟩ := ok_of_ensure h
  obtain ⟨hrun, h⟩ := ok_of_ensure h
  refine ⟨weapon, hweapon, ?_⟩
  have htaken : ((definition.criticals.entries.filter (fun entry =>
      location.slot ≤ entry.1 && !p.consumed.contains entry.1 && continues critical entry.2)).map
        Prod.fst).take (weapon.profile.criticalSlots - ((p.split.get? location).getD []).length) =
      List.range' location.slot
        (weapon.profile.criticalSlots - ((p.split.get? location).getD []).length) := by
    apply take_ascending
    · have hsorted : definition.criticals.keys.Pairwise (· < ·) :=
        List.pairwise_map.mpr definition.criticals.sorted
      exact hsorted.sublist (List.filter_sublist.map _)
    · intro slot hslot
      obtain ⟨entry, hentry, rfl⟩ := List.mem_map.mp hslot
      have hmatch := (List.mem_filter.mp hentry).2
      simp only [Bool.and_eq_true, decide_eq_true_eq] at hmatch
      exact hmatch.1.1
    · intro i hi
      have hslot := List.all_eq_true.mp hrun (location.slot + i) (List.mem_range'_1.mpr ⟨by omega, by omega⟩)
      rw [Bool.and_eq_true] at hslot
      cases hpart : definition.criticals.get? (location.slot + i) with
      | none =>
          rw [hpart] at hslot
          simp at hslot
      | some part =>
          rw [hpart] at hslot
          have hboth : (continues critical part && decide (part.data = critical.data)) = true := hslot.2
          rw [Bool.and_eq_true] at hboth
          apply List.mem_map.mpr
          refine ⟨(location.slot + i, part), List.mem_filter.mpr ⟨?_, ?_⟩, rfl⟩
          · exact (definition.criticals.get?_eq_some_iff _ part).mp hpart
          · rw [hslot.1, hboth.1, Bool.and_true, Bool.and_true, decide_eq_true_eq]
            omega
  rw [decide_eq_true_eq] at hcount
  unfold placeWeaponContract
  rw [WeaponMount.fromCritical_agrees weapon critical [] mount hmount]
  show (ensure _ _ >>= _) = _
  rw [hsplit, ensure_true_bind, decide_eq_true hcount, ensure_true_bind]
  dsimp only
  rw [htaken, List.length_range', decide_eq_true (by omega), Bool.true_or]
  exact h

theorem place_agrees (h : place definition location critical p = .ok q) :
    placeContract definition location critical p = .ok q := by
  unfold place at h
  unfold placeContract
  split at h
  · rename_i name hname
    obtain ⟨bin, hbin, h⟩ := ok_of_bind h
    rw [AmmunitionBin.fromCritical_agrees name critical location bin hbin]
    exact h
  · rename_i hnone
    obtain ⟨hdata, h⟩ := ok_of_ensure h
    rw [hdata, Bool.or_true, ensure_true_bind]
    split at h
    · rename_i hweapon
      obtain ⟨weapon, hparse, hplaced⟩ := placeWeapon_agrees definition location critical p q h
      rw [if_pos hweapon, hparse]
      exact hplaced
    · rename_i hsystem
      obtain ⟨hmodes, h⟩ := ok_of_ensure h
      obtain ⟨installation, hinstallation, h⟩ := ok_of_bind h
      rw [if_neg hsystem, ok_of_ofOption hinstallation]
      rw [hmodes]
      exact h

end

theorem walk_agrees {chassis : MechChassis} {template : MechTemplate} {loadout : MechLoadout}
    (h : walk place chassis template = .ok loadout) : walk placeContract chassis template = .ok loadout := by
  obtain ⟨split, hsplit, h⟩ := ok_of_bind h
  obtain ⟨p, hp, h⟩ := ok_of_bind h
  have hrun := foldlM_agrees (visitSection placeContract chassis) (by
      intro entry _ b c hvisit
      refine foldlM_agrees _ ?_ hvisit
      intro slot _ before after hslot
      unfold visit at hslot ⊢
      split at hslot
      · rename_i hskip
        rw [if_pos hskip]
        exact hslot
      · rename_i hplaced
        rw [if_neg hplaced, place_agrees _ _ _ _ _ (ok_of_withContext hslot)]
        rfl) hp
  unfold walk
  rw [hsplit]
  show (template.sections.entries.foldlM (visitSection placeContract chassis)
    ⟨⟨[], [], []⟩, split, []⟩ >>= _) = _
  rw [hrun]
  exact h

theorem MechLoadout.resolve_agrees (template : MechTemplate) (loadout : MechLoadout)
    (h : resolve template = .ok loadout) : resolveContract template = .ok loadout := by
  obtain ⟨chassis, hchassis, h⟩ := ok_of_bind h
  obtain ⟨found, hfound, h⟩ := ok_of_bind h
  obtain ⟨-, h⟩ := ok_of_ensure h
  obtain ⟨-, h⟩ := ok_of_ensure h
  obtain ⟨-, -, h⟩ := ok_of_bind h
  obtain ⟨-, -, h⟩ := ok_of_bind h
  injection h with h
  subst h
  unfold resolveContract
  rw [hchassis]
  exact walk_agrees hfound

theorem MechLoadout.resolve_agrees_splitMech : ∃ loadout, resolve splitMech = .ok loadout ∧
    loadout.weapons.length = 3 ∧ resolveContract splitMech = .ok loadout := by
  obtain ⟨loadout, hresolve, hweapons⟩ := resolve_splitMech
  exact ⟨loadout, hresolve, hweapons, resolve_agrees splitMech loadout hresolve⟩

end StompyMux.Construction
