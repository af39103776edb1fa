import StompyMux.Woodland.Sweep

-- Why the fires and the smoke on a map die out.
namespace StompyMux.Woodland

open Library Library.Fallible
open StompyMux.Map

def Wind.valid (wind : Wind) : Prop := (0 ≤ wind.direction ∧ wind.direction < 360) ∧
  0 ≤ wind.speed ∧ wind.speed ≤ 2 ^ 15 - 1

namespace StoredMap

section Second

variable {map : StoredMap} (hsound : map.Sound [])

variable (effect : Decoration) (j : Nat)

theorem get?_ageFires :
    map.ageFires.decorations.get? j = (map.decorations.get? j).map Decoration.aged :=
  map.decorations.get?_mapEntries _ j

theorem mem_dueFires_iff : j ∈ map.dueFires ↔
    ∃ effect, map.decorations.get? j = some effect ∧ effect.timedFire = true ∧ effect.aged.isDue = true := by
  unfold dueFires
  rw [List.mem_map]
  constructor
  · rintro ⟨⟨k, effect⟩, hmem, rfl⟩
    obtain ⟨hentry, hdue⟩ := List.mem_filter.mp hmem
    rw [Bool.and_eq_true] at hdue
    exact ⟨effect, (map.decorations.get?_eq_some_iff k effect).mpr hentry, hdue⟩
  · rintro ⟨effect, hget, htimed, hdue⟩
    refine ⟨(j, effect), List.mem_filter.mpr ⟨(map.decorations.get?_eq_some_iff j effect).mp hget, ?_⟩, rfl⟩
    rw [Bool.and_eq_true]
    exact ⟨htimed, hdue⟩

theorem dueFires_nodup : map.dueFires.Nodup :=
  map.decorations.keys_nodup.sublist (List.filter_sublist.map _)

theorem aged_same : effect.aged.kind = effect.kind ∧ effect.aged.order = effect.order := by
  unfold Decoration.aged
  split
  · split <;> exact ⟨rfl, rfl⟩
  · exact ⟨rfl, rfl⟩

theorem aged_spec (hvalid : effect.valid = true) (htimed : effect.timedFire = true) :
    (effect.aged.isDue = true → effect.aged.Due) ∧ (effect.aged.isDue = false → effect.aged.valid = true) := by
  obtain ⟨horder, hremaining, hpositive, hpermanent, hspread, hkind⟩ := effect.valid_iff.mp hvalid
  obtain ⟨hfire, hleft⟩ := effect.timedFire_iff.mp htimed
  obtain ⟨hkind', horder'⟩ := aged_same effect
  cases hnext : effect.nextSpread with
  | some seconds =>
    obtain ⟨hone, hsixty⟩ := hspread seconds hnext
    have haged : effect.aged = { effect with nextSpread := some (UInt16.ofNat (seconds.toNat - 1)) } := by
      unfold Decoration.aged
      rw [if_pos htimed, hnext]
    have hsmall : (UInt16.ofNat (seconds.toNat - 1)).toNat = seconds.toNat - 1 :=
      UInt16.toNat_ofNat_of_lt' (lt_of_le_of_lt (Nat.sub_le _ _) seconds.toNat_lt)
    have hle : seconds.toNat ≤ 60 := UInt16.le_iff_toNat_le.mp hsixty
    have hzero : effect.aged.isDue = true ↔ UInt16.ofNat (seconds.toNat - 1) = 0 := by
      rw [haged]
      unfold Decoration.isDue
      simp [hleft]
    refine ⟨fun hdue => ?_, fun hdue => ?_⟩
    · rw [haged]
      exact ⟨hfire, horder, .inl ⟨hleft, congrArg some (hzero.mp hdue)⟩⟩
    · have hmore : UInt16.ofNat (seconds.toNat - 1) ≠ 0 := fun h => by
        rw [hzero.mpr h] at hdue
        contradiction
      have hmore' : (UInt16.ofNat (seconds.toNat - 1)).toNat ≠ 0 := fun h => hmore (UInt16.toNat_inj.mp h)
      rw [haged]
      refine (Decoration.valid_iff _).mpr ⟨horder, hremaining, .inr ⟨hfire, rfl⟩, fun h => absurd h hleft,
        fun later hlater => ?_, .inl hfire⟩
      cases hlater
      exact ⟨UInt16.le_iff_toNat_le.mpr (Nat.one_le_iff_ne_zero.mpr hmore'),
        UInt16.le_iff_toNat_le.mpr (by rw [hsmall]; exact le_trans (Nat.sub_le _ _) hle)⟩
  | none =>
    have haged : effect.aged = { effect with remaining := max (effect.remaining - 1) (-2 ^ 63) } := by
      unfold Decoration.aged
      rw [if_pos htimed, hnext]
    have hbelow : 0 ≤ effect.remaining := hpositive.resolve_right fun h => by
      rw [hnext] at h
      exact absurd h.2 (by decide)
    have hzero : effect.aged.isDue = true ↔ effect.aged.remaining = 0 := by
      rw [haged]
      unfold Decoration.isDue
      simp [hnext]
    have hless : effect.aged.remaining = effect.remaining - 1 := by
      rw [haged]
      dsimp only
      omega
    have hnone : effect.aged.nextSpread = none := by
      rw [haged]
      exact hnext
    refine ⟨fun hdue => ⟨hkind'.trans hfire, horder' ▸ horder, .inr ⟨hzero.mp hdue, hnone⟩⟩, fun hdue => ?_⟩
    refine (Decoration.valid_iff _).mpr ⟨horder' ▸ horder, by omega, .inl (by omega), fun _ => hnone,
      fun later hlater => ?_, .inl (hkind'.trans hfire)⟩
    rw [hnone] at hlater
    contradiction

theorem isFire_aged : effect.aged.isFire = effect.isFire := by
  unfold Decoration.isFire
  rw [(aged_same effect).1]

theorem aged_untimed (h : effect.timedFire = false) : effect.aged = effect := by
  unfold Decoration.aged
  rw [h]
  rfl

include hsound

theorem Sound.age : map.ageFires.Sound map.dueFires := by
  have hold : ∀ j effect, map.ageFires.decorations.get? j = some effect →
      ∃ young, map.decorations.get? j = some young ∧ effect = young.aged := by
    intro j effect hj
    rw [get?_ageFires] at hj
    obtain ⟨young, hyoung, rfl⟩ := Option.map_eq_some_iff.mp hj
    exact ⟨young, hyoung, rfl⟩
  refine ⟨hsound.dimensions, hsound.terrain, hsound.statics, hsound.dice, hsound.wind, ?_, ?_, ?_, ?_⟩
  · intro j effect hj
    obtain ⟨young, hyoung, -⟩ := hold j effect hj
    exact hsound.placed j young hyoung
  · intro j effect k other hj hk hfire horder
    obtain ⟨young, hyoung, rfl⟩ := hold j effect hj
    obtain ⟨young', hyoung', rfl⟩ := hold k other hk
    rw [isFire_aged, isFire_aged] at hfire
    rw [(aged_same young).2, (aged_same young').2] at horder
    exact hsound.apart j young k young' hyoung hyoung' hfire horder
  · intro j effect hj hdone
    obtain ⟨young, hyoung, rfl⟩ := hold j effect hj
    have hvalid := hsound.settled j young hyoung List.not_mem_nil
    cases htimed : young.timedFire with
    | false =>
      rw [aged_untimed young htimed]
      exact hvalid
    | true =>
      refine (aged_spec young hvalid htimed).2 ?_
      rw [← Bool.not_eq_true]
      exact fun hdue => hdone ((mem_dueFires_iff j).mpr ⟨young, hyoung, htimed, hdue⟩)
  · intro j hj
    obtain ⟨young, hyoung, htimed, hdue⟩ := (mem_dueFires_iff j).mp hj
    refine ⟨young.aged, ?_, (aged_spec young (hsound.settled j young hyoung List.not_mem_nil) htimed).1 hdue⟩
    rw [get?_ageFires, hyoung]
    rfl

theorem Sound.site_age :
    (map.ageFires.site j).potential Decoration.longest ≤ (map.site j).potential Decoration.longest ∧
      ∀ effect, map.decorations.get? j = some effect → effect.timedFire = true →
        (map.ageFires.site j).potential Decoration.longest + 1 ≤ (map.site j).potential Decoration.longest := by
  have hwoods : map.ageFires.woodsAt j = map.woodsAt j := rfl
  unfold site
  rw [hwoods, get?_ageFires]
  cases hget : map.decorations.get? j with
  | none => exact ⟨le_refl _, fun effect h => by contradiction⟩
  | some effect =>
    have hvalid := hsound.settled j effect hget List.not_mem_nil
    rw [Option.map_some, Option.bind_some, Option.bind_some, isFire_aged]
    cases hfire : effect.isFire with
    | false =>
      refine ⟨le_refl _, fun other hother htimed => ?_⟩
      cases hother
      unfold Decoration.timedFire at htimed
      rw [hfire] at htimed
      contradiction
    | true =>
      rw [if_pos rfl, if_pos rfl]
      have hless : effect.timedFire = true → effect.aged.clock + 1 ≤ effect.clock := effect.clock_aged hvalid
      refine ⟨?_, fun other hother htimed => ?_⟩
      · have hle : effect.aged.clock + 0 ≤ effect.clock := by
          cases htimed : effect.timedFire with
          | true => exact le_trans (Nat.le_add_right _ 1) (hless htimed)
          | false =>
            rw [aged_untimed effect htimed]
            exact le_refl _
        exact Library.Site.potential_run _ _ hle
      · cases hother
        exact Library.Site.potential_run _ _ (hless htimed)

theorem Sound.potential_age : map.ageFires.potential ≤ map.potential :=
  Library.Site.total_le_of _ _ _ _ fun j _ => (hsound.site_age j).1

theorem Sound.potential_age_lt (hpending : map.firePending = true) :
    map.ageFires.potential + 1 ≤ map.potential := by
  obtain ⟨effect, heffect, htimed⟩ := List.any_eq_true.mp hpending
  obtain ⟨j, hj⟩ := (mem_values_iff effect).mp heffect
  exact Library.Site.total_drop _ _ _ _ (hsound.placed j effect hj) (fun k _ _ => (hsound.site_age k).1)
    ((hsound.site_age j).2 effect hj htimed)

-- The work reaches every fire that is due, with what it relies on.
theorem Sound.reached (hroom : map.Room map.potential) (before after : List Nat)
    (hdue : map.dueFires = before ++ after) :
    ∃ sweep, before.foldlM Sweep.work ⟨map.ageFires, []⟩ = .ok sweep ∧
      sweep.Worked map.ageFires after sweep.map.potential ∧ sweep.map.potential ≤ map.ageFires.potential := by
  have hnodup := map.dueFires_nodup
  rw [hdue] at hnodup
  have hroom' : map.ageFires.Room map.ageFires.potential := by
    refine ⟨(hroom.mono hsound.potential_age).1, fun j effect hj => ?_⟩
    rw [get?_ageFires] at hj
    obtain ⟨young, hyoung, rfl⟩ := Option.map_eq_some_iff.mp hj
    rw [(aged_same young).2]
    exact (hroom.mono hsound.potential_age).2 j young hyoung
  have hstep : ∀ done j left sweep, before = done ++ j :: left →
      (∀ rest, before ++ after = done ++ rest → sweep.Worked map.ageFires rest sweep.map.potential ∧
        sweep.map.potential ≤ map.ageFires.potential) →
      ∃ later, Sweep.work sweep j = .ok later ∧ ∀ rest, before ++ after = (done ++ [j]) ++ rest →
        later.Worked map.ageFires rest later.map.potential ∧ later.map.potential ≤ map.ageFires.potential := by
    intro done j left sweep hitems h
    have hrest : before ++ after = done ++ j :: (left ++ after) := by
      rw [hitems, List.append_assoc]
      rfl
    obtain ⟨hworked, hle⟩ := h _ hrest
    have hnew : j ∉ left ++ after := by
      rw [hrest] at hnodup
      exact (List.nodup_cons.mp (List.nodup_append.mp hnodup).2.1).1
    obtain ⟨later, hlater, hworked', hle'⟩ := hworked.work hnew
    refine ⟨later, hlater, fun rest heq => ?_⟩
    rw [hrest, List.append_assoc] at heq
    have hsame : left ++ after = rest := (List.cons.inj (List.append_cancel_left heq)).2
    exact ⟨hsame ▸ hworked', le_trans hle' hle⟩
  have hstart : ∀ rest, before ++ after = [] ++ rest →
      (⟨map.ageFires, []⟩ : Sweep).Worked map.ageFires rest map.ageFires.potential ∧
        map.ageFires.potential ≤ map.ageFires.potential := by
    intro rest heq
    have hsame : map.dueFires = rest := hdue.trans heq
    refine ⟨⟨hsame ▸ hsound.age, hroom', rfl, fun _ _ => rfl, fun _ h => by contradiction,
      fun _ h => by contradiction, fun _ _ h _ => h⟩, le_refl _⟩
  obtain ⟨sweep, hrun, h⟩ := foldlM_succeeds _ Sweep.work before hstep ⟨map.ageFires, []⟩ hstart
  obtain ⟨hworked, hle⟩ := h after rfl
  exact ⟨sweep, hrun, hworked, hle⟩

theorem Sound.blow (wind : Wind) (hwind : wind.valid) : (map.blow wind).Sound [] :=
  ⟨hsound.dimensions, hsound.terrain, hsound.statics, hsound.dice, hwind, hsound.placed, hsound.apart,
    hsound.settled, hsound.pending⟩

end Second

section Smoke

variable {map : StoredMap}

theorem cleared_some {effect later : Decoration} (h : effect.cleared = some later) :
    later.kind = effect.kind ∧ later.order = effect.order ∧ later.nextSpread = effect.nextSpread ∧
      (later = effect ∧ (effect.kind = .Smoke → effect.remaining = 0) ∨
        effect.kind = .Smoke ∧ 0 < later.remaining ∧
          later.remaining = max (effect.remaining - 1) (-2 ^ 63)) := by
  unfold Decoration.cleared at h
  split at h
  · rename_i hstays
    cases h
    refine ⟨rfl, rfl, rfl, .inl ⟨rfl, fun hkind => ?_⟩⟩
    simpa [hkind] using hstays
  · rename_i hticks
    dsimp only at h
    split at h
    · rename_i hleft
      cases h
      refine ⟨rfl, rfl, rfl, .inr ⟨?_, hleft, rfl⟩⟩
      by_contra hkind
      simp [hkind] at hticks
    · contradiction

theorem cleared_other {effect : Decoration} (h : effect.kind ≠ .Smoke) : effect.cleared = some effect := by
  unfold Decoration.cleared
  rw [if_pos (by simp [h])]

theorem cleared_permanent {effect : Decoration} (h : effect.remaining = 0) : effect.cleared = some effect := by
  unfold Decoration.cleared
  rw [if_pos (by simp [h])]

theorem get?_advanceSmoke (hvalid : ∀ j effect, map.decorations.get? j = some effect → effect.valid = true)
    (j : Nat) : map.advanceSmoke.decorations.get? j = (map.decorations.get? j).bind Decoration.cleared := by
  unfold advanceSmoke
  cases hpending : map.smokePending with
  | false =>
    -- no light smoke has any time left
    rw [Bool.not_false, if_pos rfl]
    cases hget : map.decorations.get? j with
    | none => rfl
    | some effect =>
      rw [Option.bind_some]
      by_cases hkind : effect.kind = .Smoke
      · have hidle : effect.timedSmoke = false := by
          rw [← Bool.not_eq_true]
          intro htimed
          have : map.smokePending = true := List.any_eq_true.mpr ⟨effect, (mem_values_iff effect).mpr ⟨j, hget⟩, htimed⟩
          rw [hpending] at this
          contradiction
        obtain ⟨-, -, hpositive, -⟩ := effect.valid_iff.mp (hvalid j effect hget)
        have hnonneg : 0 ≤ effect.remaining := hpositive.resolve_right fun h => by
          rw [hkind] at h
          exact absurd h.1 (by decide)
        unfold Decoration.timedSmoke at hidle
        simp [hkind] at hidle
        exact (cleared_permanent (le_antisymm hidle hnonneg)).symm
      · exact (cleared_other hkind).symm
  | true =>
    rw [Bool.not_true, if_neg Bool.false_ne_true]
    rw [OrderedMap.get?_mapEntries, OrderedMap.get?_retain]
    cases hget : map.decorations.get? j with
    | none => rfl
    | some effect =>
      rw [Option.bind_some]
      cases hcleared : effect.cleared with
      | none => simp [Option.filter, hcleared]
      | some later => simp [Option.filter, hcleared]

theorem firePending_iff : map.firePending = true ↔
    ∃ j effect, map.decorations.get? j = some effect ∧ effect.timedFire = true := by
  unfold firePending
  rw [List.any_eq_true]
  constructor
  · rintro ⟨effect, hmem, htimed⟩
    obtain ⟨j, hj⟩ := (mem_values_iff effect).mp hmem
    exact ⟨j, effect, hj, htimed⟩
  · rintro ⟨j, effect, hj, htimed⟩
    exact ⟨effect, (mem_values_iff effect).mpr ⟨j, hj⟩, htimed⟩

theorem advanceSmoke_frame : map.advanceSmoke.terrain = map.terrain ∧ map.advanceSmoke.width = map.width ∧
    map.advanceSmoke.height = map.height ∧ map.advanceSmoke.fireDice = map.fireDice ∧
    map.advanceSmoke.windDirection = map.windDirection ∧ map.advanceSmoke.windSpeed = map.windSpeed ∧
    map.advanceSmoke.staticDecorations = map.staticDecorations := by
  unfold advanceSmoke
  split <;> exact ⟨rfl, rfl, rfl, rfl, rfl, rfl, rfl⟩

variable (hsound : map.Sound [])

include hsound

theorem Sound.get?_advanceSmoke (j : Nat) :
    map.advanceSmoke.decorations.get? j = (map.decorations.get? j).bind Decoration.cleared :=
  StoredMap.get?_advanceSmoke (fun j effect hj => hsound.settled j effect hj List.not_mem_nil) j

-- What is left after the smoke pass was there before it.
theorem Sound.before_smoke {j : Nat} {later : Decoration} (h : map.advanceSmoke.decorations.get? j = some later) :
    ∃ effect, map.decorations.get? j = some effect ∧ effect.cleared = some later := by
  rw [hsound.get?_advanceSmoke] at h
  exact Option.bind_eq_some_iff.mp h

theorem Sound.advanceSmoke : map.advanceSmoke.Sound [] := by
  obtain ⟨hterrain, hwidth, hheight, hdice, hdirection, hspeed, hstatics⟩ := map.advanceSmoke_frame
  have hsize : map.advanceSmoke.size = map.size := by
    unfold size
    rw [hwidth, hheight]
  refine ⟨?_, ?_, fun kind => ?_, ?_, ?_, ?_, ?_, ?_, fun _ h => by contradiction⟩
  · rw [hwidth, hheight]
    exact hsound.dimensions
  · rw [hterrain, hsize]
    exact hsound.terrain
  · have hkind := hsound.statics kind
    unfold validateStatics onMap at hkind ⊢
    rw [hstatics, hwidth, hheight]
    exact hkind
  · rw [hdice]
    exact hsound.dice
  · rw [hdirection, hspeed]
    exact hsound.wind
  · intro j later hj
    obtain ⟨effect, heffect, -⟩ := hsound.before_smoke hj
    rw [hsize]
    exact hsound.placed j effect heffect
  · intro j later k other hj hk hfire horder
    obtain ⟨effect, heffect, hcleared⟩ := hsound.before_smoke hj
    obtain ⟨effect', heffect', hcleared'⟩ := hsound.before_smoke hk
    obtain ⟨hkind, horder', -⟩ := cleared_some hcleared
    obtain ⟨hkind'', horder'', -⟩ := cleared_some hcleared'
    unfold Decoration.isFire at hfire
    rw [hkind, hkind''] at hfire
    rw [horder', horder''] at horder
    exact hsound.apart j effect k effect' heffect heffect' hfire horder
  · intro j later hj _
    obtain ⟨effect, heffect, hcleared⟩ := hsound.before_smoke hj
    have hvalid := hsound.settled j effect heffect List.not_mem_nil
    obtain ⟨hkind, horder, hnext, ⟨hsame, -⟩ | ⟨hsmoke, hpositive, hless⟩⟩ := cleared_some hcleared
    · rw [hsame]
      exact hvalid
    · obtain ⟨hnegative, hbounds, -, -, -, hnone⟩ := effect.valid_iff.mp hvalid
      have hclock : later.nextSpread = none := hnext.trans (hnone.resolve_left fun h => by
        rw [hsmoke] at h
        exact absurd h (by decide))
      refine (Decoration.valid_iff _).mpr ⟨horder ▸ hnegative, by omega, .inl (le_of_lt hpositive),
        fun _ => hclock, fun seconds h => ?_, .inr hclock⟩
      rw [hclock] at h
      contradiction

-- The smoke pass leaves the fires alone, and with them what can burn.
theorem Sound.fires_advanceSmoke (j : Nat) :
    (map.advanceSmoke.decorations.get? j).filter Decoration.isFire =
      (map.decorations.get? j).filter Decoration.isFire := by
  rw [hsound.get?_advanceSmoke]
  cases map.decorations.get? j with
  | none => rfl
  | some effect =>
    rw [Option.bind_some]
    by_cases hkind : effect.kind = .Smoke
    · have hfire : effect.isFire = false := by simp [Decoration.isFire, hkind]
      rw [Option.filter_some_neg hfire]
      cases hcleared : effect.cleared with
      | none => rfl
      | some later =>
        have hkind' := (cleared_some hcleared).1
        have hfire' : later.isFire = false := by simp [Decoration.isFire, hkind', hkind]
        exact Option.filter_some_neg hfire'
    · rw [cleared_other hkind]

theorem Sound.potential_advanceSmoke : map.advanceSmoke.potential = map.potential := by
  obtain ⟨hterrain, hwidth, hheight, -⟩ := map.advanceSmoke_frame
  have hsite : ∀ j, map.advanceSmoke.site j = map.site j := by
    intro j
    have hfires := hsound.fires_advanceSmoke j
    have hclock : ∀ overlay : Option Decoration,
        overlay.bind (fun e => if e.isFire then some e.clock else none) =
          (overlay.filter Decoration.isFire).map Decoration.clock := by
      intro overlay
      cases overlay with
      | none => rfl
      | some effect =>
        cases hfire : effect.isFire <;> simp [hfire]
    unfold site woodsAt
    rw [hterrain, hclock, hclock, hfires]
  unfold potential size
  rw [hwidth, hheight]
  exact congrArg (Library.Site.total _ _) (funext hsite)

theorem Sound.firePending_advanceSmoke : map.advanceSmoke.firePending = map.firePending := by
  rw [Bool.eq_iff_iff, firePending_iff, firePending_iff]
  have hfires := hsound.fires_advanceSmoke
  have hkeeps : ∀ before after : StoredMap, (∀ j, (before.decorations.get? j).filter Decoration.isFire =
      (after.decorations.get? j).filter Decoration.isFire) →
      (∃ j effect, before.decorations.get? j = some effect ∧ effect.timedFire = true) →
      ∃ j effect, after.decorations.get? j = some effect ∧ effect.timedFire = true := by
    rintro before after hsame ⟨j, effect, hget, htimed⟩
    have hfire : effect.isFire = true := (Bool.and_eq_true _ _ ▸ htimed).1
    have hstands := hsame j
    rw [hget, Option.filter_some_pos hfire] at hstands
    exact ⟨j, effect, (Option.filter_eq_some_iff.mp hstands.symm).1, htimed⟩
  exact ⟨hkeeps _ _ hfires, hkeeps _ _ fun j => (hfires j).symm⟩

end Smoke

end StoredMap

-- The fire pass of a second: each due fire has its turn, and what is installed stays as it was made.
structure StoredMap.Orderly (map : StoredMap) : Prop where
  once : map.dueFires.Nodup
  turn : ∀ before j after, map.dueFires = before ++ j :: after → ∃ sweep effect,
    before.foldlM Sweep.work ⟨map.ageFires, []⟩ = .ok sweep ∧ sweep.replaced j = false ∧
      sweep.map.decorations.get? j = some effect ∧ effect.isDue = true
  proper : ∀ sweep, map.sweepFires = .ok sweep → ∀ installation ∈ sweep.installed, installation.Proper
  fresh : ∀ sweep, map.sweepFires = .ok sweep → ∀ installation ∈ sweep.installed,
    ∃ last ∈ sweep.installed, last.index = installation.index ∧ ∃ order,
      sweep.map.decorations.get? installation.index = some { last.effect with order := order }

namespace StoredMap

structure Steady (map : StoredMap) : Prop where
  sound : map.Sound []
  room : map.Room map.potential

-- What a second does to the overlays.
structure Change (map later : StoredMap) : Prop where
  falls : map.firePending = true → later.potential < map.potential
  still : map.firePending = false →
    ∀ j, later.decorations.get? j = (map.decorations.get? j).bind Decoration.cleared
  light : ∀ j effect, later.decorations.get? j = some effect → effect.kind = .HeavySmoke →
    map.decorations.get? j = some effect

section Run

variable {map : StoredMap}

theorem Sound.validate (hsound : map.Sound []) : map.validate = .ok () := by
  obtain ⟨terrain, hterrain, -⟩ := hsound.terrain
  exact (validate_iff hterrain hsound.dice).mpr hsound

theorem Sound.orderly (hsound : map.Sound []) (hroom : map.Room map.potential) : map.Orderly := by
  refine ⟨map.dueFires_nodup, fun before j after hdue => ?_, fun sweep hsweep => ?_, fun sweep hsweep => ?_⟩
  · obtain ⟨sweep, hrun, hworked, -⟩ := hsound.reached hroom before (j :: after) hdue
    obtain ⟨effect, heffect, -, -, hdue⟩ := hworked.sound.pending j List.mem_cons_self
    refine ⟨sweep, effect, hrun, ?_, heffect, ?_⟩
    · unfold Sweep.replaced
      rw [List.any_eq_false]
      intro i hi hsame
      exact (hworked.fresh i hi).1 (of_decide_eq_true hsame ▸ List.mem_cons_self)
    · unfold Decoration.isDue
      rcases hdue with ⟨-, hnext⟩ | ⟨hremaining, -⟩
      · simp [hnext]
      · simp [hremaining]
  · obtain ⟨sweep', hrun, hworked, -⟩ := hsound.reached hroom map.dueFires [] (List.append_nil _).symm
    obtain rfl : sweep' = sweep := Except.ok.inj (hrun.symm.trans hsweep)
    exact hworked.proper
  · obtain ⟨sweep', hrun, hworked, -⟩ := hsound.reached hroom map.dueFires [] (List.append_nil _).symm
    obtain rfl : sweep' = sweep := Except.ok.inj (hrun.symm.trans hsweep)
    exact fun i hi => (hworked.fresh i hi).2

-- A second succeeds, and what can still burn becomes less while a fire has time left.
theorem Steady.second (hsteady : map.Steady) (wind : Wind) (hwind : wind.valid) :
    ((map.blow wind).advanceSmoke).Orderly ∧
      ∃ later, map.second wind = .ok later ∧ later.Steady ∧ map.Change later := by
  have hblown := hsteady.sound.blow wind hwind
  have hsmoked := hblown.advanceSmoke
  have hpotential : (map.blow wind).advanceSmoke.potential = map.potential := hblown.potential_advanceSmoke
  have hpending : (map.blow wind).advanceSmoke.firePending = map.firePending := hblown.firePending_advanceSmoke
  have hget : ∀ j, (map.blow wind).advanceSmoke.decorations.get? j =
      (map.decorations.get? j).bind Decoration.cleared := hblown.get?_advanceSmoke
  have hroom : (map.blow wind).advanceSmoke.Room (map.blow wind).advanceSmoke.potential := by
    rw [hpotential]
    refine ⟨hsteady.room.1, fun j later hj => ?_⟩
    rw [hget] at hj
    obtain ⟨effect, heffect, hcleared⟩ := Option.bind_eq_some_iff.mp hj
    rw [(cleared_some hcleared).2.1]
    exact hsteady.room.2 j effect heffect
  refine ⟨hsmoked.orderly hroom, ?_⟩
  -- heavy smoke goes through the smoke pass untouched
  have hlight : ∀ j effect, (map.blow wind).advanceSmoke.decorations.get? j = some effect →
      effect.kind = .HeavySmoke → map.decorations.get? j = some effect := by
    intro j later hj hkind
    rw [hget] at hj
    obtain ⟨effect, heffect, hcleared⟩ := Option.bind_eq_some_iff.mp hj
    have hother : effect.kind ≠ .Smoke := by
      rw [← (cleared_some hcleared).1, hkind]
      decide
    rw [cleared_other hother] at hcleared
    rw [heffect, Option.some.inj hcleared]
  unfold StoredMap.second
  dsimp only
  rw [hpending]
  cases hfires : map.firePending with
  | false =>
    refine ⟨_, rfl, ⟨hsmoked, hroom⟩, fun h => ?_, fun _ => hget, hlight⟩
    rw [hfires] at h
    contradiction
  | true =>
    rw [hfires] at hpending
    generalize (map.blow wind).advanceSmoke = smoked at hsmoked hpotential hpending hget hroom hlight
    obtain ⟨sweep, hrun, hworked, hle⟩ := hsmoked.reached hroom smoked.dueFires [] (List.append_nil _).symm
    have hadvance : smoked.advanceFire = .ok sweep.map := by
      unfold advanceFire sweepFires
      rw [hpending, hsmoked.validate, hrun]
      rfl
    rw [if_neg (by decide), hadvance]
    refine ⟨sweep.map, ?_, ⟨hworked.sound, hworked.room⟩, fun _ => ?_, fun h => ?_, fun j effect hj hkind => ?_⟩
    · dsimp only [bind, Except.bind]
      rw [hworked.sound.validate]
    · have hlt := hsmoked.potential_age_lt hpending
      omega
    · rw [hfires] at h
      contradiction
    · have hstart := hworked.light j effect hj hkind
      rw [get?_ageFires] at hstart
      obtain ⟨young, hyoung, rfl⟩ := Option.map_eq_some_iff.mp hstart
      rw [(aged_same young).1] at hkind
      have hsame : young.aged = young := aged_untimed young (by
        simp [Decoration.timedFire, Decoration.isFire, hkind])
      rw [hsame]
      exact hlight j young hyoung hkind

theorem second_idle (wind : Wind) (hfires : map.firePending = false) (hsmoke : map.smokePending = false) :
    (map.blow wind).advanceSmoke = map.blow wind ∧ map.second wind = .ok (map.blow wind) := by
  have hcalm : (map.blow wind).advanceSmoke = map.blow wind := by
    unfold advanceSmoke
    rw [show (map.blow wind).smokePending = false from hsmoke]
    rfl
  refine ⟨hcalm, ?_⟩
  unfold second
  dsimp only
  rw [hcalm, show (map.blow wind).firePending = false from hfires]
  rfl

theorem blank_second (hvalid : map.validate = .ok ()) (hterrain : map.terrain = none) (wind : Wind) :
    ((map.blow wind).advanceSmoke).Orderly ∧ ∃ later, map.second wind = .ok later ∧
      later.validate = .ok () ∧ later.terrain = none ∧ map.Change later := by
  have hbare : map.decorations.entries = [] := by
    unfold StoredMap.validate at hvalid
    rw [hterrain] at hvalid
    simp only [unit_bind_ok_iff, ensure_ok_iff, List.isEmpty_iff] at hvalid
    exact hvalid.2.2.2
  have hempty : map.decorations = .empty := OrderedMap.ext _ _ hbare
  have hidle : map.firePending = false ∧ map.smokePending = false := by
    unfold firePending smokePending OrderedMap.values
    rw [hbare]
    exact ⟨rfl, rfl⟩
  obtain ⟨hsmoked, hsecond⟩ := second_idle wind hidle.1 hidle.2
  have hnone : ∀ j, map.decorations.get? j = none := fun j => by
    rw [hempty]
    rfl
  rw [hsmoked]
  constructor
  · have hdue : (map.blow wind).dueFires = [] := by
      unfold dueFires blow
      rw [hbare]
      rfl
    have hswept : ∀ sweep, (map.blow wind).sweepFires = .ok sweep → sweep.installed = [] := by
      intro sweep hsweep
      unfold sweepFires at hsweep
      rw [hdue] at hsweep
      cases hsweep
      rfl
    refine ⟨dueFires_nodup, fun before j after h => ?_, fun sweep h i hi => ?_, fun sweep h i hi => ?_⟩
    · rw [hdue] at h
      exact absurd (congrArg List.length h) (by simp)
    · rw [hswept sweep h] at hi
      contradiction
    · rw [hswept sweep h] at hi
      contradiction
  · refine ⟨map.blow wind, hsecond, ?_, hterrain, fun h => ?_, fun _ j => ?_,
      fun j effect h _ => h⟩
    · unfold StoredMap.validate at hvalid ⊢
      rw [hterrain] at hvalid
      rw [show (map.blow wind).terrain = none from hterrain]
      exact hvalid
    · rw [hidle.1] at h
      contradiction
    · rw [hnone]
      exact hnone j

end Run

-- The map after so many seconds, under a wind that changes between them.
def after (map : StoredMap) (winds : Nat → Wind) : Nat → Except Error StoredMap
  | 0 => .ok map
  | n + 1 => do
      let map ← after map winds n
      map.second (winds n)

def Extinct (map : StoredMap) : Prop := ∀ effect ∈ map.decorations.values, effect.remaining = 0

-- Heavy smoke lies on the map for ever or not at all.
def Unshrouded (map : StoredMap) : Prop :=
  ∀ effect ∈ map.decorations.values, effect.kind = .HeavySmoke → effect.remaining = 0

section Runs

variable {map : StoredMap} {winds : Nat → Wind}

structure Run (map : StoredMap) (winds : Nat → Wind) (maps : Nat → StoredMap) : Prop where
  start : maps 0 = map
  at' : ∀ n, map.after winds n = .ok (maps n)
  valid : ∀ n, (maps n).validate = .ok ()
  orderly : ∀ n, (((maps n).blow (winds n)).advanceSmoke).Orderly
  change : ∀ n, (maps n).Change (maps (n + 1))

theorem exists_run (hvalid : map.validate = .ok ()) (hdice : map.fireDice.isSome = true)
    (hroom : map.Room map.potential) (hwinds : ∀ n, (winds n).valid) : ∃ maps, Run map winds maps := by
  -- a run stays with decoded terrain, or without it
  have hstep : ∀ (current : StoredMap) n, (current.Steady ∨ current.validate = .ok () ∧ current.terrain = none) →
      ((current.blow (winds n)).advanceSmoke).Orderly ∧ ∃ later, current.second (winds n) = .ok later ∧
        (later.Steady ∨ later.validate = .ok () ∧ later.terrain = none) ∧ current.Change later := by
    rintro current n (hsteady | ⟨hcurrent, hterrain⟩)
    · obtain ⟨horderly, later, hlater, hsteady', hchange⟩ := hsteady.second (winds n) (hwinds n)
      exact ⟨horderly, later, hlater, .inl hsteady', hchange⟩
    · obtain ⟨horderly, later, hlater, hvalid', hterrain', hchange⟩ := blank_second hcurrent hterrain (winds n)
      exact ⟨horderly, later, hlater, .inr ⟨hvalid', hterrain'⟩, hchange⟩
  have hstart : map.Steady ∨ map.validate = .ok () ∧ map.terrain = none := by
    cases hterrain : map.terrain with
    | none => exact .inr ⟨hvalid, rfl⟩
    | some terrain => exact .inl ⟨(validate_iff hterrain hdice).mp hvalid, hroom⟩
  have hall : ∀ n, ∃ later, map.after winds n = .ok later ∧
      (later.Steady ∨ later.validate = .ok () ∧ later.terrain = none) := by
    intro n
    induction n with
    | zero => exact ⟨map, rfl, hstart⟩
    | succ n ih =>
      obtain ⟨current, hcurrent, hholds⟩ := ih
      obtain ⟨-, later, hlater, hholds', -⟩ := hstep current n hholds
      exact ⟨later, bind_ok hcurrent hlater, hholds'⟩
  choose maps hmaps hholds using hall
  refine ⟨maps, ?_, hmaps, fun n => ?_, fun n => (hstep _ n (hholds n)).1, fun n => ?_⟩
  · exact (Except.ok.inj (hmaps 0)).symm
  · rcases hholds n with hsteady | ⟨hvalid', -⟩
    · exact hsteady.sound.validate
    · exact hvalid'
  · obtain ⟨-, later, hlater, -, hchange⟩ := hstep _ n (hholds n)
    have hnext : map.after winds (n + 1) = .ok later := bind_ok (hmaps n) hlater
    rw [Except.ok.inj ((hmaps (n + 1)).symm.trans hnext)]
    exact hchange

variable {maps : Nat → StoredMap} (hrun : Run map winds maps)

include hrun

theorem Run.effect_valid (n : Nat) {j : Nat} {effect : Decoration} (h : (maps n).decorations.get? j = some effect) :
    effect.valid = true := by
  have hvalid := hrun.valid n
  cases hterrain : (maps n).terrain with
  | none =>
    unfold StoredMap.validate at hvalid
    rw [hterrain] at hvalid
    simp only [unit_bind_ok_iff, ensure_ok_iff, List.isEmpty_iff] at hvalid
    have hentry := ((maps n).decorations.get?_eq_some_iff j effect).mp h
    rw [hvalid.2.2.2] at hentry
    contradiction
  | some terrain =>
    unfold StoredMap.validate at hvalid
    rw [hterrain] at hvalid
    simp only [unit_bind_ok_iff, ensure_ok_iff, Bool.and_eq_true, List.all_eq_true] at hvalid
    exact (hvalid.2.2.2.2.2.2.1 _ (((maps n).decorations.get?_eq_some_iff j effect).mp h)).2

-- Nothing burns with time left from some second on.
theorem Run.fires_out : ∃ n, ∀ m, n ≤ m → (maps m).firePending = false := by
  have hstill : ∀ n, ¬(maps n).firePending = true → ¬(maps (n + 1)).firePending = true := by
    intro n hidle hfires
    obtain ⟨j, later, hj, htimed⟩ := firePending_iff.mp hfires
    rw [(hrun.change n).still (Bool.not_eq_true _ ▸ hidle)] at hj
    obtain ⟨effect, heffect, hcleared⟩ := Option.bind_eq_some_iff.mp hj
    obtain ⟨hkind, -, -, ⟨rfl, -⟩ | ⟨hsmoke, -⟩⟩ := cleared_some hcleared
    · exact hidle (firePending_iff.mpr ⟨j, later, heffect, htimed⟩)
    · have hfire := (later.timedFire_iff.mp htimed).1
      rw [hkind, hsmoke] at hfire
      contradiction
  obtain ⟨n, hn⟩ := dies_out (fun n => (maps n).potential) (fun n => (maps n).firePending = true)
    (fun n => (hrun.change n).falls) hstill
  exact ⟨n, fun m hm => Bool.not_eq_true _ ▸ hn m hm⟩

-- Then no smoke is raised either, and the light smoke runs down.
theorem Run.smoke_out : ∃ n, ∀ m, n ≤ m → (maps m).firePending = false ∧
    ∀ j effect, (maps m).decorations.get? j = some effect → effect.kind = .Smoke → effect.remaining = 0 := by
  obtain ⟨n, hn⟩ := hrun.fires_out
  have hless : ∀ k j effect, (maps (n + k)).decorations.get? j = some effect → effect.kind = .Smoke →
      effect.remaining = 0 ∨ effect.remaining + k ≤ 2 ^ 32 := by
    intro k
    induction k with
    | zero =>
      intro j effect hj _
      obtain ⟨-, ⟨-, hmost⟩, -⟩ := effect.valid_iff.mp (hrun.effect_valid n hj)
      refine .inr ?_
      rw [Nat.cast_zero]
      omega
    | succ k ih =>
      intro j later hj hkind
      rw [← Nat.add_assoc, (hrun.change (n + k)).still (hn _ (Nat.le_add_right _ _))] at hj
      obtain ⟨effect, heffect, hcleared⟩ := Option.bind_eq_some_iff.mp hj
      obtain ⟨hsame, -, -, hends⟩ := cleared_some hcleared
      have hsmoke : effect.kind = .Smoke := hsame.symm.trans hkind
      rcases hends with ⟨rfl, hpermanent⟩ | ⟨-, hpositive, hlater⟩
      · exact .inl (hpermanent hsmoke)
      · rcases ih j effect heffect hsmoke with hzero | hbound
        · omega
        · refine .inr ?_
          push_cast
          omega
  refine ⟨n + 2 ^ 32, fun m hm => ⟨hn m (le_trans (Nat.le_add_right _ _) hm), fun j effect hj hkind => ?_⟩⟩
  obtain ⟨k, rfl⟩ : ∃ k, m = n + k := ⟨m - n, by omega⟩
  obtain ⟨-, -, hpositive, -⟩ := effect.valid_iff.mp (hrun.effect_valid _ hj)
  have hnonneg : 0 ≤ effect.remaining := hpositive.resolve_right fun h => by
    rw [hkind] at h
    exact absurd h.1 (by decide)
  rcases hless k j effect hj hkind with hzero | hbound
  · exact hzero
  · omega

-- No second lays heavy smoke.
theorem Run.heavy_old {j : Nat} {effect : Decoration} (hkind : effect.kind = .HeavySmoke) (n : Nat)
    (h : (maps n).decorations.get? j = some effect) : map.decorations.get? j = some effect := by
  induction n with
  | zero => rw [← hrun.start, h]
  | succ n ih => exact ih ((hrun.change n).light j effect h hkind)

end Runs

-- Every second succeeds, with its fires in order. Fires and light smoke die out, and everything that
-- has a time does on a map without timed heavy smoke.
theorem fires_and_smoke_die_out (map : StoredMap) (winds : Nat → Wind) (hvalid : map.validate = .ok ())
    (hdice : map.fireDice.isSome = true) (hroom : map.Room map.potential) (hwinds : ∀ n, (winds n).valid) :
    (∀ n, ∃ later, map.after winds n = .ok later ∧ later.validate = .ok () ∧
      ((later.blow (winds n)).advanceSmoke).Orderly) ∧
    (∃ n, ∀ m, n ≤ m → ∀ later, map.after winds m = .ok later →
      ∀ effect ∈ later.decorations.values, effect.kind ≠ .HeavySmoke → effect.remaining = 0) ∧
    (map.Unshrouded → ∃ n, ∀ m, n ≤ m → ∀ later, map.after winds m = .ok later → later.Extinct) := by
  obtain ⟨maps, hrun⟩ := exists_run hvalid hdice hroom hwinds
  obtain ⟨n, hout⟩ := hrun.smoke_out
  have hmaps : ∀ m later, map.after winds m = .ok later → later = maps m := fun m later h =>
    Except.ok.inj (h.symm.trans (hrun.at' m))
  have hlight : ∀ m, n ≤ m → ∀ effect ∈ (maps m).decorations.values, effect.kind ≠ .HeavySmoke →
      effect.remaining = 0 := by
    intro m hm effect he hheavy
    obtain ⟨j, hj⟩ := (mem_values_iff effect).mp he
    obtain ⟨hidle, hsmoke⟩ := hout m hm
    cases hkind : effect.kind with
    | Fire =>
      by_contra hleft
      have hfires := firePending_iff.mpr ⟨j, effect, hj, effect.timedFire_iff.mpr ⟨hkind, hleft⟩⟩
      rw [hidle] at hfires
      contradiction
    | Smoke => exact hsmoke j effect hj hkind
    | HeavySmoke => exact absurd hkind hheavy
  refine ⟨fun m => ⟨maps m, hrun.at' m, hrun.valid m, hrun.orderly m⟩, ⟨n, fun m hm later hlater => ?_⟩,
    fun hclear => ⟨n, fun m hm later hlater effect he => ?_⟩⟩
  · rw [hmaps m later hlater]
    exact hlight m hm
  · rw [hmaps m later hlater] at he
    by_cases hkind : effect.kind = .HeavySmoke
    · obtain ⟨j, hj⟩ := (mem_values_iff effect).mp he
      exact hclear effect ((mem_values_iff effect).mpr ⟨j, hrun.heavy_old hkind m hj⟩) hkind
    · exact hlight m hm effect he hkind

end StoredMap

-- One hex of clear ground under an overlay.
namespace Hilltop

def record (overlay : Decoration) : StoredMap where
  width := 1
  height := 1
  windDirection := 0
  windSpeed := 0
  fireDice := some (fun _ => 0)
  terrain := some [Hex.atLevel 0]
  terrainDamage := .empty
  decorations := OrderedMap.ofList [(0, overlay)]
  staticDecorations := fun _ => .empty

def burning : StoredMap := record (.new .Fire 60 (some 60))

def shrouded : StoredMap := record (.new .HeavySmoke 100 none)

def calm : Wind := ⟨0, 0⟩

theorem get?_record {overlay effect : Decoration} {j : Nat}
    (h : (record overlay).decorations.get? j = some effect) : effect = overlay := by
  have hentry := ((record overlay).decorations.get?_eq_some_iff j effect).mp h
  cases List.mem_singleton.mp hentry
  rfl

theorem burning_room : burning.Room burning.potential := by
  refine ⟨by decide, fun j effect h => ?_⟩
  rw [get?_record h]
  decide

theorem fires_and_smoke_die_out_hilltop :
    (∀ n, ∃ later, burning.after (fun _ => calm) n = .ok later ∧ later.validate = .ok () ∧
      ((later.blow calm).advanceSmoke).Orderly) ∧
    ∃ n, ∀ m, n ≤ m → ∀ later, burning.after (fun _ => calm) m = .ok later → later.Extinct := by
  obtain ⟨hseconds, -, hextinct⟩ := StoredMap.fires_and_smoke_die_out burning (fun _ => calm) rfl rfl
    burning_room (fun _ => ⟨⟨by decide, by decide⟩, by decide, by decide⟩)
  refine ⟨hseconds, hextinct fun effect he hkind => ?_⟩
  obtain ⟨j, hj⟩ := (StoredMap.mem_values_iff effect).mp he
  rw [get?_record hj] at hkind
  contradiction

-- No second takes anything off heavy smoke.
theorem heavy_smoke_lasts : shrouded.validate = .ok () ∧ shrouded.fireDice.isSome = true ∧
    (∀ effect ∈ shrouded.decorations.values, 0 < effect.remaining) ∧
    ∀ winds n, ∃ later, shrouded.after winds n = .ok later ∧
      later.decorations.values = [⟨.HeavySmoke, 100, -1, 100, none⟩] := by
  refine ⟨rfl, rfl, by decide, fun winds n => ?_⟩
  have hstays : ∃ later, shrouded.after winds n = .ok later ∧ later.decorations = shrouded.decorations := by
    induction n with
    | zero => exact ⟨shrouded, rfl, rfl⟩
    | succ n ih =>
      obtain ⟨current, hcurrent, hsame⟩ := ih
      have hfires : current.firePending = false := by
        unfold StoredMap.firePending
        rw [hsame]
        decide
      have hsmoke : current.smokePending = false := by
        unfold StoredMap.smokePending
        rw [hsame]
        decide
      exact ⟨current.blow (winds n),
        bind_ok hcurrent (StoredMap.second_idle (winds n) hfires hsmoke).2, hsame⟩
  obtain ⟨later, hlater, hsame⟩ := hstays
  refine ⟨later, hlater, ?_⟩
  rw [hsame]
  decide

end Hilltop

end StompyMux.Woodland
