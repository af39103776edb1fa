import StompyMux.Slots.Membership

-- Placements and removals, one after another.
namespace StompyMux.Slots

open Library Library.Fallible

inductive Change
  | Place (id : ObjectId) (position : Position)
  | Remove (id : ObjectId)
  deriving DecidableEq

def Change.unit : Change → ObjectId
  | Place id _ | Remove id => id

namespace BtechState

variable {P : Type} (s s' : BtechState P)

def place (id : ObjectId) (position : Position) : Except Error (BtechState P) := do
  ensure (s.unit? id).isSome "Unit construction state is unavailable"
  let _ ← ofOption "Map not found" (s.maps.get? position.map)
  let slot ← s.placementSlot id position.map
  let s ← s.arrive id position.map slot
  .ok (s.setPlacement id (some (position, slot)))

def remove (id : ObjectId) : Except Error (BtechState P) := do
  ensure (s.unit? id).isSome "Unit is not constructed"
  .ok ((s.depart id).setPlacement id none)

def step : Change → Except Error (BtechState P)
  | .Place id position => s.place id position
  | .Remove id => s.remove id

def run (changes : List Change) : Except Error (BtechState P) := changes.foldlM step s

-- No unit is placed, and no map has allocated a slot.
structure Unplaced : Prop where
  units : ∀ id unit, s.unit? id = some unit → unit = ⟨none, none⟩
  maps : ∀ map record, s.maps.get? map = some record → record.membershipExtent = 0

def extentAt (map : ObjectId) : Option Nat := (s.maps.get? map).map StoredMap.membershipExtent

-- Every slot in use lies within the stored span of its map, and below the number of units.
structure Sound : Prop extends s.Seated where
  inside : ∀ id map slot span, s.seatOf id = some (map, slot) → s.extentAt map = some span → slot < span
  low : ∀ id map slot, s.seatOf id = some (map, slot) → slot < s.members.length

def leaving (id map : ObjectId) (span : Nat) : Nat :=
  match s.seatOf id with
  | some (old, slot) => if old = map then shortened span slot else span
  | none => span

-- What a unit's change of seat makes of a map's span.
def respan (id : ObjectId) (seat : Option (ObjectId × Nat)) (map : ObjectId) (span : Nat) : Nat :=
  match seat with
  | some (new, slot) => if new = map then max span (slot + 1) else s.leaving id map span
  | none => s.leaving id map span

-- Only one unit changes its seat, and the spans follow it.
structure Moved (id : ObjectId) (seat : Option (ObjectId × Nat)) : Prop where
  others : ∀ other, other ≠ id → s'.unit? other = s.unit? other
  seated : s'.seatOf id = seat
  whole : ∀ unit, s'.unit? id = some unit → unit.position.isSome = unit.mapSlot.isSome
  count : s'.members.length = s.members.length
  extents : ∀ map, s'.extentAt map = (s.extentAt map).map (s.respan id seat map)

theorem membership_eq (id : ObjectId) : s.membership id = (s.unit? id).bind BattleUnit.placement := by
  unfold membership unit?
  cases hmech : s.constructed.get? id with
  | none => rw [Option.none_or, Option.bind_none, Option.none_or]
  | some mech =>
    have hkey : id ∈ s.constructed.keys := by
      rw [OrderedMap.mem_keys_iff, hmech]
      rfl
    have hnone : s.vehicles.get? id = none := by
      rw [OrderedMap.get?_eq_none_iff]
      exact s.apart id hkey
    rw [hnone, Option.some_or, Option.bind_none, Option.or_none]

theorem oldMap_eq (id : ObjectId) :
    s.oldMap id = (s.unit? id).bind (fun unit => unit.position.map Position.map) := by
  unfold oldMap unit?
  cases hmech : s.constructed.get? id with
  | none =>
    rw [Option.none_or, Option.bind_none, Option.none_or, Option.map_bind]
    rfl
  | some mech =>
    have hkey : id ∈ s.constructed.keys := by
      rw [OrderedMap.mem_keys_iff, hmech]
      rfl
    have hnone : s.vehicles.get? id = none := by
      rw [OrderedMap.get?_eq_none_iff]
      exact s.apart id hkey
    rw [hnone, Option.some_or, Option.bind_none, Option.or_none]
    rfl

theorem depart_unit? (id : ObjectId) : (s.depart id).unit? = s.unit? := by
  funext other
  unfold depart
  dsimp only
  split <;> rfl

theorem depart_members (id : ObjectId) : (s.depart id).members = s.members := by
  unfold depart
  dsimp only
  split <;> rfl

theorem extent_eq {map : ObjectId} {span : Nat} (hspan : s.extentAt map = some span)
    (hinside : ∀ slot ∈ s.slotsOn map, slot < span) : s.extent map = span := by
  obtain ⟨record, hrecord, rfl⟩ := Option.map_eq_some_iff.mp hspan
  unfold extent
  rw [hrecord]
  apply max_eq_left
  cases hmax : (s.slotsOn map).max? with
  | none => exact Nat.zero_le _
  | some slot => exact le_trans (Nat.min_le_left _ _) (hinside slot (List.max?_mem hmax))

theorem Sound.slots {s : BtechState P} (h : s.Sound) (map : ObjectId) (span : Nat)
    (hspan : s.extentAt map = some span) : ∀ slot ∈ s.slotsOn map, slot < span := by
  intro slot hslot
  obtain ⟨id, hseat⟩ := (s.mem_slotsOn map slot).mp hslot
  exact h.inside id map slot span hseat hspan

theorem depart_extentAt (id : ObjectId) (h : s.Sound) (map : ObjectId) :
    (s.depart id).extentAt map = (s.extentAt map).map (s.leaving id map) := by
  have hseat : s.seatOf id = (s.membership id).map (fun placement => (placement.1.map, placement.2)) := by
    rw [s.membership_eq, Option.map_bind]
    rfl
  have hmembership : ({ s with autopilotPlans := s.autopilotPlans.remove id } : BtechState P).membership id =
      s.membership id := rfl
  unfold depart leaving
  dsimp only
  rw [hmembership, hseat]
  cases hplaced : s.membership id with
  | none => exact (Option.map_id' (x := s.extentAt map)).symm
  | some placement =>
    obtain ⟨position, slot⟩ := placement
    unfold extentAt
    dsimp only [Option.map_some]
    rw [OrderedMap.get?_modify]
    by_cases hmap : map = position.map
    · subst hmap
      rw [if_pos rfl]
      cases hrecord : s.maps.get? position.map with
      | none => rfl
      | some record =>
        have hspan := s.extent_eq (by unfold extentAt; rw [hrecord]; rfl)
          (h.slots position.map _ (by unfold extentAt; rw [hrecord]; rfl))
        have hsame : ({ s with autopilotPlans := s.autopilotPlans.remove id } : BtechState P).extent
            position.map = s.extent position.map := rfl
        rw [hsame, hspan]
        dsimp only [Option.map_some]
        rw [if_pos rfl]
    · rw [if_neg hmap]
      cases s.maps.get? map with
      | none => rfl
      | some record =>
        dsimp only [Option.map_some]
        rw [if_neg (Ne.symm hmap)]

theorem setPlacement_extentAt (id : ObjectId) (placement : Option (Position × Nat)) :
    (s.setPlacement id placement).extentAt = s.extentAt := by
  unfold setPlacement
  split <;> rfl

theorem moved_setPlacement {t : BtechState P} {id : ObjectId} (placement : Option (Position × Nat))
    (hunit : (s.unit? id).isSome = true) (hunits : t.unit? = s.unit?)
    (hcount : t.members.length = s.members.length)
    (hextents : ∀ map, t.extentAt map = (s.extentAt map).map
      (s.respan id (placement.map fun placement => (placement.1.map, placement.2)) map)) :
    s.Moved (t.setPlacement id placement) id
      (placement.map fun placement => (placement.1.map, placement.2)) := by
  obtain ⟨unit, hunit⟩ := Option.isSome_iff_exists.mp hunit
  have hself : (t.setPlacement id placement).unit? id =
      some ⟨placement.map Prod.fst, placement.map Prod.snd⟩ := by
    rw [unit?_setPlacement, if_pos rfl, hunits, hunit]
    rfl
  refine ⟨fun other hother => ?_, ?_, fun unit' hunit' => ?_, ?_, fun map => ?_⟩
  · rw [unit?_setPlacement, if_neg hother, hunits]
  · unfold seatOf
    rw [hself]
    cases placement with
    | none => rfl
    | some placement => rfl
  · rw [hself] at hunit'
    cases hunit'
    cases placement with
    | none => rfl
    | some placement => rfl
  · rw [length_setPlacement, hcount]
  · rw [setPlacement_extentAt, hextents]

theorem leaving_elsewhere {id map other : ObjectId} {slot : Nat} (span : Nat) (hseat : s.seatOf id = some (other, slot))
    (hne : other ≠ map) : s.leaving id map span = span := by
  unfold leaving
  rw [hseat]
  exact if_neg hne

section Placing

variable (id : ObjectId) (position : Position) (h : s.Sound)

theorem slotsOn_le (map : ObjectId) : (s.slotsOn map).length ≤ s.members.length :=
  List.length_filterMap_le _ _

-- A unit outside the map holds none of its slots.
theorem slotsOn_lt (map : ObjectId) (hunit : (s.unit? id).isSome = true)
    (hseat : ∀ slot, s.seatOf id ≠ some (map, slot)) : (s.slotsOn map).length < s.members.length := by
  obtain ⟨unit, hunit⟩ := Option.isSome_iff_exists.mp hunit
  have hmember := (s.mem_members id unit).mpr hunit
  refine List.length_filterMap_lt_length_iff_exists.mpr ⟨(id, unit), hmember, ?_⟩
  cases hheld : slotOn map (id, unit) with
  | none => exact hheld
  | some held =>
    have hsame : s.seatOf id = some (map, held) := by
      unfold seatOf
      rw [hunit]
      exact (slotOn_eq_some map (id, unit) held).mp hheld
    exact absurd hsame (hseat held)

include h

theorem oldMap_iff (hunit : (s.unit? id).isSome = true) (map : ObjectId) :
    s.oldMap id = some map ↔ ∃ slot, s.seatOf id = some (map, slot) := by
  obtain ⟨unit, hunit⟩ := Option.isSome_iff_exists.mp hunit
  have hwhole := h.whole id unit hunit
  rw [s.oldMap_eq]
  unfold seatOf
  rw [hunit, Option.bind_some, Option.bind_some]
  obtain ⟨place, held⟩ := unit
  unfold BattleUnit.seat BattleUnit.placement
  cases place with
  | none =>
    exact ⟨fun hsome => by contradiction, fun ⟨slot, hsome⟩ => by contradiction⟩
  | some place =>
    cases held with
    | none => contradiction
    | some slot =>
      dsimp only [Option.map_some, Option.bind_some]
      constructor
      · intro hmap
        cases hmap
        exact ⟨slot, rfl⟩
      · rintro ⟨other, hsome⟩
        cases hsome
        rfl

theorem oldMap_ne (hunit : (s.unit? id).isSome = true) (map : ObjectId)
    (hseat : ∀ slot, s.seatOf id ≠ some (map, slot)) : s.oldMap id ≠ some map := by
  intro hsame
  obtain ⟨held, hheld⟩ := (s.oldMap_iff id h hunit map).mp hsame
  exact hseat held hheld

theorem depart_away {map : ObjectId} {span : Nat} (hseat : ∀ slot, s.seatOf id ≠ some (map, slot))
    (hspan : s.extentAt map = some span) :
    (s.depart id).extentAt map = some span ∧ (s.depart id).extent map = span := by
  have hleft : s.leaving id map span = span := by
    unfold leaving
    split
    · rename_i old held hheld
      rw [if_neg]
      intro hsame
      rw [hsame] at hheld
      exact hseat held hheld
    · rfl
  have hspan' : (s.depart id).extentAt map = some span := by
    rw [s.depart_extentAt id h, hspan, Option.map_some, hleft]
  have hslots : (s.depart id).slotsOn map = s.slotsOn map := by
    unfold slotsOn
    rw [depart_members]
  refine ⟨hspan', (s.depart id).extent_eq hspan' ?_⟩
  rw [hslots]
  exact h.slots map span hspan

omit h in
theorem saturatingSucc_of_lt {slot : Nat} (hfits : slot < U32_MAX) : saturatingSucc slot = slot + 1 :=
  Nat.min_eq_left (Nat.succ_le_of_lt hfits)

omit h in
theorem place_ok {t : BtechState P} {slot span : Nat} (hunit : (s.unit? id).isSome = true)
    (hmap : (s.maps.get? position.map).isSome = true)
    (hslot : s.placementSlot id position.map = .ok slot)
    (ht : t = if s.oldMap id = some position.map then s else s.depart id)
    (hspan : t.extentAt position.map = some span) (hextent : t.extent position.map = span) :
    s.place id position = .ok
      ((t.setExtent position.map (max span (saturatingSucc slot))).setPlacement id (some (position, slot))) := by
  obtain ⟨record, hrecord⟩ := Option.isSome_iff_exists.mp hmap
  obtain ⟨record', hrecord', -⟩ := Option.map_eq_some_iff.mp hspan
  have harrive : s.arrive id position.map slot =
      .ok (t.setExtent position.map (max span (saturatingSucc slot))) := by
    unfold arrive
    dsimp only
    rw [← ht, hextent, hrecord']
    rfl
  unfold place
  rw [hunit, hrecord, hslot]
  show (do
    let s ← s.arrive id position.map slot
    Except.ok (s.setPlacement id (some (position, slot)))) = _
  rw [harrive]
  rfl

omit h in
theorem extentAt_setExtent (map other : ObjectId) (span : Nat) :
    (s.setExtent map span).extentAt other = if other = map then some span else s.extentAt other := by
  unfold setExtent extentAt
  rw [OrderedMap.get?_insert]
  split <;> rfl

theorem place_same {slot span : Nat} (hfew : s.members.length ≤ U32_MAX)
    (hseat : s.seatOf id = some (position.map, slot)) (hspan : s.extentAt position.map = some span) :
    s.placementSlot id position.map = .ok slot ∧
      ∃ s', s.place id position = .ok s' ∧ s.Moved s' id (some (position.map, slot)) := by
  have hslot := s.placementSlot_same id position.map h.toSeated hseat
  obtain ⟨record, hrecord, -⟩ := Option.map_eq_some_iff.mp hspan
  obtain ⟨unit, hunit, -⟩ := Option.bind_eq_some_iff.mp hseat
  have hsome : (s.unit? id).isSome = true := by
    rw [hunit]
    rfl
  have hmap : (s.maps.get? position.map).isSome = true := by
    rw [hrecord]
    rfl
  have hold := (s.oldMap_iff id h hsome position.map).mpr ⟨slot, hseat⟩
  have hextent := s.extent_eq hspan (h.slots position.map span hspan)
  have hplace := s.place_ok id position hsome hmap hslot (if_pos hold).symm hspan hextent
  rw [saturatingSucc_of_lt (lt_of_lt_of_le (h.low id _ slot hseat) hfew)] at hplace
  refine ⟨hslot, _, hplace, ?_⟩
  refine s.moved_setPlacement (some (position, slot))
    hsome rfl rfl fun map => ?_
  rw [extentAt_setExtent]
  unfold respan
  dsimp only [Option.map_some]
  by_cases hother : map = position.map
  · rw [if_pos hother, hother, hspan, Option.map_some, if_pos rfl]
  · rw [if_neg hother]
    cases s.extentAt map with
    | none => rfl
    | some other =>
      rw [Option.map_some, if_neg (Ne.symm hother),
        s.leaving_elsewhere other hseat (Ne.symm hother)]

theorem place_enter {span : Nat} (hfew : (s.slotsOn position.map).length < U32_MAX)
    (hunit : (s.unit? id).isSome = true) (hseat : ∀ slot, s.seatOf id ≠ some (position.map, slot))
    (hspan : s.extentAt position.map = some span) :
    ∃ slot s', s.placementSlot id position.map = .ok slot ∧ slot ∉ s.slotsOn position.map ∧
      (∀ other < slot, other ∈ s.slotsOn position.map) ∧ slot < s.members.length ∧
      s.place id position = .ok s' ∧ s.Moved s' id (some (position.map, slot)) := by
  obtain ⟨slot, hslot, hvacant, hlower, hle⟩ := s.placementSlot_enter id position.map h.toSeated hseat
    (le_of_lt hfew)
  obtain ⟨record, hrecord, -⟩ := Option.map_eq_some_iff.mp hspan
  have hmap : (s.maps.get? position.map).isSome = true := by
    rw [hrecord]
    rfl
  have hold := s.oldMap_ne id h hunit position.map hseat
  obtain ⟨hspan', hextent⟩ := s.depart_away id h hseat hspan
  have hplace := s.place_ok id position hunit hmap hslot (if_neg hold).symm hspan'
    hextent
  rw [saturatingSucc_of_lt (lt_of_le_of_lt hle hfew)] at hplace
  refine ⟨slot, _, hslot, hvacant, hlower, lt_of_le_of_lt hle (s.slotsOn_lt id position.map hunit hseat),
    hplace, ?_⟩
  refine s.moved_setPlacement
    (some (position, slot)) hunit (s.depart_unit? id) (congrArg List.length (s.depart_members id))
    fun map => ?_
  rw [extentAt_setExtent, s.depart_extentAt id h]
  unfold respan
  dsimp only [Option.map_some]
  by_cases hother : map = position.map
  · rw [if_pos hother, hother, hspan, Option.map_some, if_pos rfl]
  · rw [if_neg hother]
    cases s.extentAt map with
    | none => rfl
    | some other => rw [Option.map_some, Option.map_some, if_neg (Ne.symm hother)]

theorem remove_ok (hunit : (s.unit? id).isSome = true) :
    ∃ s', s.remove id = .ok s' ∧ s.Moved s' id none := by
  refine ⟨(s.depart id).setPlacement id none, ?_, ?_⟩
  · unfold remove
    rw [hunit]
    rfl
  · exact s.moved_setPlacement none hunit (s.depart_unit? id)
      (congrArg List.length (s.depart_members id)) (s.depart_extentAt id h)

end Placing

theorem Moved.seatOf_other {s s' : BtechState P} {id : ObjectId} {seat : Option (ObjectId × Nat)}
    (hmoved : s.Moved s' id seat) (other : ObjectId) (hother : other ≠ id) :
    s'.seatOf other = s.seatOf other := by
  unfold seatOf
  rw [hmoved.others other hother]

-- A departing unit's own slot is the only one that a span may lose.
theorem lt_leaving (h : s.Sound) {id other map : ObjectId} {slot span : Nat} (hother : other ≠ id)
    (hseat : s.seatOf other = some (map, slot)) (hspan : s.extentAt map = some span) :
    slot < s.leaving id map span := by
  have hbelow := h.inside other map slot span hseat hspan
  unfold leaving
  cases hown : s.seatOf id with
  | none => exact hbelow
  | some held =>
    obtain ⟨old, last⟩ := held
    dsimp only
    split
    · rename_i hmap
      subst hmap
      have hne : slot ≠ last := by
        rintro rfl
        exact hother (h.apart other id old slot hseat hown)
      unfold shortened
      split
      · rename_i hlast
        rw [Bool.and_eq_true, decide_eq_true_eq, decide_eq_true_eq] at hlast
        omega
      · exact hbelow
    · exact hbelow

theorem Sound.moved {s s' : BtechState P} {id : ObjectId} {seat : Option (ObjectId × Nat)} (h : s.Sound)
    (hmoved : s.Moved s' id seat)
    (hnew : ∀ map slot, seat = some (map, slot) →
      slot < s.members.length ∧ ∀ other, other ≠ id → s.seatOf other ≠ some (map, slot)) :
    s'.Sound := by
  refine ⟨⟨fun other unit hunit => ?_, fun a b map slot ha hb => ?_⟩,
    fun other map slot span hseat hspan => ?_, fun other map slot hseat => ?_⟩
  · by_cases hother : other = id
    · subst hother
      exact hmoved.whole unit hunit
    · rw [hmoved.others other hother] at hunit
      exact h.whole other unit hunit
  · by_cases ha' : a = id
    · subst ha'
      by_contra hne
      rw [hmoved.seated] at ha
      rw [hmoved.seatOf_other b (Ne.symm hne)] at hb
      exact (hnew map slot ha).2 b (Ne.symm hne) hb
    · by_cases hb' : b = id
      · subst hb'
        rw [hmoved.seated] at hb
        rw [hmoved.seatOf_other a ha'] at ha
        exact absurd ha ((hnew map slot hb).2 a ha')
      · rw [hmoved.seatOf_other a ha'] at ha
        rw [hmoved.seatOf_other b hb'] at hb
        exact h.apart a b map slot ha hb
  · rw [hmoved.extents map] at hspan
    obtain ⟨before, hbefore, rfl⟩ := Option.map_eq_some_iff.mp hspan
    unfold respan
    by_cases hother : other = id
    · rw [hother, hmoved.seated] at hseat
      subst hseat
      dsimp only
      rw [if_pos rfl]
      exact lt_of_lt_of_le (Nat.lt_succ_self slot) (Nat.le_max_right _ _)
    · rw [hmoved.seatOf_other other hother] at hseat
      have hstay := s.lt_leaving h hother hseat hbefore
      split
      · split
        · exact lt_of_lt_of_le (h.inside other map slot before hseat hbefore) (Nat.le_max_left _ _)
        · exact hstay
      · exact hstay
  · rw [hmoved.count]
    by_cases hother : other = id
    · rw [hother, hmoved.seated] at hseat
      exact (hnew map slot hseat).1
    · rw [hmoved.seatOf_other other hother] at hseat
      exact h.low other map slot hseat

-- What one placement or removal does.
structure Orderly (change : Change) : Prop where
  others : ∀ other, other ≠ change.unit → s'.unit? other = s.unit? other
  placed : ∀ id position, change = .Place id position →
    ∃ slot, s.placementSlot id position.map = .ok slot ∧ s'.seatOf id = some (position.map, slot) ∧
      (∀ held, s.seatOf id = some (position.map, held) →
        slot = held ∧ s'.extentAt position.map = s.extentAt position.map) ∧
      ((∀ held, s.seatOf id ≠ some (position.map, held)) →
        (∀ other, s.seatOf other ≠ some (position.map, slot)) ∧
          ∀ lower < slot, ∃ other, s.seatOf other = some (position.map, lower))
  removed : ∀ id, change = .Remove id → s'.seatOf id = none
  shrinks : ∀ map span span', s.extentAt map = some span → s'.extentAt map = some span' →
    (span' < span ↔ ∃ slot, s.seatOf change.unit = some (map, slot) ∧ slot + 1 = span ∧
      ∀ held, s'.seatOf change.unit ≠ some (map, held)) ∧ (span' < span → span' + 1 = span)

-- A span shrinks by one, when the unit in its last slot leaves the map.
theorem Moved.shrinks {s s' : BtechState P} {id : ObjectId} {seat : Option (ObjectId × Nat)} (h : s.Sound)
    (hfew : s.members.length ≤ U32_MAX) (hmoved : s.Moved s' id seat) (map : ObjectId) (span span' : Nat)
    (hspan : s.extentAt map = some span) (hspan' : s'.extentAt map = some span') :
    (span' < span ↔ ∃ slot, s.seatOf id = some (map, slot) ∧ slot + 1 = span ∧
      ∀ held, s'.seatOf id ≠ some (map, held)) ∧ (span' < span → span' + 1 = span) := by
  rw [hmoved.extents map, hspan, Option.map_some, Option.some.injEq] at hspan'
  subst hspan'
  rw [hmoved.seated]
  have hleaves : (∀ held, seat ≠ some (map, held)) → s.respan id seat map span = s.leaving id map span := by
    intro haway
    unfold respan
    split
    · rename_i new slot
      rw [if_neg]
      rintro rfl
      exact haway slot rfl
    · rfl
  have hstays : ∀ held, seat = some (map, held) → span ≤ s.respan id seat map span := by
    rintro held rfl
    unfold respan
    dsimp only
    rw [if_pos rfl]
    exact Nat.le_max_left _ _
  by_cases haway : ∀ held, seat ≠ some (map, held)
  · rw [hleaves haway]
    unfold leaving
    cases hown : s.seatOf id with
    | none => exact ⟨⟨fun hlt => absurd hlt (lt_irrefl _), fun ⟨slot, hsome, _⟩ => by contradiction⟩,
        fun hlt => absurd hlt (lt_irrefl _)⟩
    | some held =>
      obtain ⟨old, last⟩ := held
      dsimp only
      split
      · rename_i hmap
        subst hmap
        have hlow := lt_of_lt_of_le (h.low id old last hown) hfew
        unfold shortened
        rw [decide_eq_true hlow, Bool.true_and]
        split
        · rename_i hlast
          have hlast := of_decide_eq_true hlast
          refine ⟨⟨fun _ => ⟨last, rfl, hlast, haway⟩, fun _ => ?_⟩, fun _ => ?_⟩
          · omega
          · omega
        · rename_i hlast
          refine ⟨⟨fun hlt => absurd hlt (lt_irrefl _), ?_⟩, fun hlt => absurd hlt (lt_irrefl _)⟩
          rintro ⟨slot, hslot, hend, -⟩
          cases hslot
          exact absurd (decide_eq_true hend) hlast
      · rename_i hmap
        refine ⟨⟨fun hlt => absurd hlt (lt_irrefl _), ?_⟩, fun hlt => absurd hlt (lt_irrefl _)⟩
        rintro ⟨slot, hslot, -⟩
        cases hslot
        exact absurd rfl hmap
  · obtain ⟨held, hheld⟩ := not_forall_not.mp haway
    have hle := hstays held hheld
    refine ⟨⟨fun hlt => absurd hlt (not_lt.mpr hle), ?_⟩, fun hlt => absurd hlt (not_lt.mpr hle)⟩
    rintro ⟨-, -, -, hgone⟩
    exact absurd hheld (hgone held)

theorem place_orderly (h : s.Sound) (hfew : s.members.length ≤ U32_MAX) {id : ObjectId}
    {position : Position} (hplace : s.place id position = .ok s') :
    s.Orderly s' (.Place id position) ∧ s'.Sound ∧ s'.members.length = s.members.length := by
  obtain ⟨hunit, hrest⟩ := ok_of_ensure hplace
  obtain ⟨record, hrecord, -⟩ := ok_of_bind hrest
  have hspan : s.extentAt position.map = some record.membershipExtent := by
    unfold extentAt
    rw [ok_of_ofOption hrecord]
    rfl
  by_cases hseat : ∃ slot, s.seatOf id = some (position.map, slot)
  · obtain ⟨slot, hseat⟩ := hseat
    obtain ⟨hslot, t, ht, hmoved⟩ := s.place_same id position h hfew hseat hspan
    rw [hplace] at ht
    cases ht
    have hextent : s'.extentAt position.map = s.extentAt position.map := by
      rw [hmoved.extents, hspan, Option.map_some]
      unfold respan
      dsimp only
      rw [if_pos rfl, Nat.max_eq_left (h.inside id _ slot _ hseat hspan)]
    refine ⟨⟨hmoved.others, ?_, fun _ hremove => by contradiction, hmoved.shrinks h hfew⟩,
      h.moved hmoved ?_, hmoved.count⟩
    · rintro _ _ ⟨⟩
      refine ⟨slot, hslot, hmoved.seated, fun held hheld => ?_, fun haway => absurd hseat (haway slot)⟩
      rw [hseat] at hheld
      cases hheld
      exact ⟨rfl, hextent⟩
    · rintro map other ⟨⟩
      exact ⟨h.low id _ slot hseat, fun other hother hheld => hother (h.apart other id _ slot hheld hseat)⟩
  · have haway : ∀ slot, s.seatOf id ≠ some (position.map, slot) := fun slot hslot => hseat ⟨slot, hslot⟩
    have hroom := lt_of_lt_of_le (s.slotsOn_lt id position.map hunit haway) hfew
    obtain ⟨slot, t, hslot, hvacant, hlower, hlow, ht, hmoved⟩ :=
      s.place_enter id position h hroom hunit haway hspan
    rw [hplace] at ht
    cases ht
    have hnew : ∀ other, s.seatOf other ≠ some (position.map, slot) :=
      fun other hother => hvacant ((s.mem_slotsOn position.map slot).mpr ⟨other, hother⟩)
    refine ⟨⟨hmoved.others, ?_, fun _ hremove => by contradiction, hmoved.shrinks h hfew⟩,
      h.moved hmoved ?_, hmoved.count⟩
    · rintro _ _ ⟨⟩
      refine ⟨slot, hslot, hmoved.seated, fun held hheld => absurd hheld (haway held), fun _ => ⟨hnew, ?_⟩⟩
      exact fun lower hlt => (s.mem_slotsOn position.map lower).mp (hlower lower hlt)
    · rintro map other ⟨⟩
      exact ⟨hlow, fun other _ => hnew other⟩

theorem remove_orderly (h : s.Sound) (hfew : s.members.length ≤ U32_MAX) (id : ObjectId)
    (hremove : s.remove id = .ok s') :
    s.Orderly s' (.Remove id) ∧ s'.Sound ∧ s'.members.length = s.members.length := by
  obtain ⟨hunit, -⟩ := ok_of_ensure hremove
  obtain ⟨t, ht, hmoved⟩ := s.remove_ok id h hunit
  rw [hremove] at ht
  cases ht
  refine ⟨⟨hmoved.others, fun _ _ hplace => by contradiction, ?_, hmoved.shrinks h hfew⟩,
    h.moved hmoved (fun _ _ hnone => by contradiction), hmoved.count⟩
  rintro _ ⟨⟩
  exact hmoved.seated

theorem step_orderly (h : s.Sound) (hfew : s.members.length ≤ U32_MAX) {change : Change}
    (hstep : s.step change = .ok s') :
    s.Orderly s' change ∧ s'.Sound ∧ s'.members.length = s.members.length := by
  cases change with
  | Place id position => exact s.place_orderly s' h hfew hstep
  | Remove id => exact s.remove_orderly s' h hfew id hstep

theorem run_sound {changes : List Change} (h : s.Sound) (hfew : s.members.length ≤ U32_MAX)
    (hrun : s.run changes = .ok s') : s'.Sound ∧ s'.members.length = s.members.length := by
  induction changes generalizing s with
  | nil =>
    cases hrun
    exact ⟨h, rfl⟩
  | cons change changes ih =>
    obtain ⟨t, hstep, hrest⟩ := ok_of_bind hrun
    obtain ⟨-, ht, hcount⟩ := s.step_orderly t h hfew hstep
    rw [← hcount] at hfew ⊢
    exact ih t ht hfew hrest

theorem Unplaced.seatOf {s : BtechState P} (h : s.Unplaced) (id : ObjectId) : s.seatOf id = none := by
  unfold BtechState.seatOf
  cases hunit : s.unit? id with
  | none => rfl
  | some unit =>
    rw [h.units id unit hunit]
    rfl

theorem Unplaced.sound {s : BtechState P} (h : s.Unplaced) : s.Sound := by
  have hnone : ∀ {id map slot}, s.seatOf id = some (map, slot) → False := by
    intro id map slot hseat
    rw [h.seatOf id] at hseat
    contradiction
  refine ⟨⟨fun id unit hunit => ?_, fun _ _ _ _ hseat => (hnone hseat).elim⟩,
    fun _ _ _ _ hseat => (hnone hseat).elim, fun _ _ _ hseat => (hnone hseat).elim⟩
  rw [h.units id unit hunit]
  rfl

-- While there are fewer than 2^32 units, a slot can always be had, the units of one map hold
-- different slots, all within the map's span, and each placement or removal is orderly.
theorem slots_consistent (start : BtechState P) (hstart : start.Unplaced)
    (hfew : start.members.length < 2 ^ 32) (changes : List Change) (hrun : start.run changes = .ok s) :
    (∀ id map, ∃ slot, s.placementSlot id map = .ok slot) ∧
    (∀ id unit, s.unit? id = some unit → unit.position.isSome = unit.mapSlot.isSome) ∧
    (∀ a b map slot, s.seatOf a = some (map, slot) → s.seatOf b = some (map, slot) → a = b) ∧
    (∀ id map slot span, s.seatOf id = some (map, slot) → s.extentAt map = some span → slot < span) ∧
    ∀ change s', s.step change = .ok s' → s.Orderly s' change := by
  obtain ⟨hsound, hcount⟩ := start.run_sound s hstart.sound (Nat.le_of_lt_succ hfew) hrun
  have hfew : s.members.length ≤ U32_MAX := by
    rw [hcount]
    exact Nat.le_of_lt_succ hfew
  refine ⟨fun id map => ?_, hsound.whole, hsound.apart, hsound.inside,
    fun change s' hstep => (s.step_orderly s' hsound hfew hstep).1⟩
  by_cases hseat : ∃ slot, s.seatOf id = some (map, slot)
  · obtain ⟨slot, hseat⟩ := hseat
    exact ⟨slot, s.placementSlot_same id map hsound.toSeated hseat⟩
  · obtain ⟨slot, hslot, -⟩ := s.placementSlot_enter id map hsound.toSeated
      (fun slot hslot => hseat ⟨slot, hslot⟩) (le_trans (s.slotsOn_le map) hfew)
    exact ⟨slot, hslot⟩

end BtechState

-- A field that one unit after the other enters.
namespace Crowd

open BtechState

def field : ObjectId := -1

def recruit (i : Nat) : ObjectId × BattleUnit := (i, ⟨none, none⟩)

theorem recruits_sorted (n : Nat) : ((List.range n).map recruit).Pairwise (fun a b => a.1 < b.1) :=
  List.pairwise_map.mpr (List.pairwise_lt_range.imp fun hlt => Int.ofNat_lt.mpr hlt)

theorem field_sorted : [(field, StoredMap.mk 0)].Pairwise (fun a b => a.1 < b.1) :=
  List.pairwise_singleton _ _

theorem no_vehicles (keys : List ObjectId) :
    ∀ id ∈ keys, id ∉ (OrderedMap.empty : OrderedMap ObjectId BattleUnit).keys :=
  fun _ _ => List.not_mem_nil

def start (n : Nat) : BtechState Unit where
  constructed := ⟨(List.range n).map recruit, recruits_sorted n⟩
  vehicles := .empty
  maps := ⟨[(field, ⟨0⟩)], field_sorted⟩
  autopilotPlans := .empty
  apart := no_vehicles _

def enter (i : Nat) : Change := .Place i ⟨field, 0, 0⟩

theorem start_unit? (n : Nat) (id : ObjectId) (unit : BattleUnit) :
    (start n).unit? id = some unit ↔ (∃ i : Nat, i < n ∧ (i : ObjectId) = id) ∧ unit = ⟨none, none⟩ := by
  rw [← mem_members]
  show (id, unit) ∈ (List.range n).map recruit ++ [] ↔ _
  rw [List.append_nil, List.mem_map]
  constructor
  · rintro ⟨i, hi, hunit⟩
    cases hunit
    exact ⟨⟨i, List.mem_range.mp hi, rfl⟩, rfl⟩
  · rintro ⟨⟨i, hi, rfl⟩, rfl⟩
    exact ⟨i, List.mem_range.mpr hi, rfl⟩

theorem start_unplaced (n : Nat) : (start n).Unplaced := by
  refine ⟨fun id unit hunit => ((start_unit? n id unit).mp hunit).2, fun map record hrecord => ?_⟩
  cases List.mem_singleton.mp ((OrderedMap.get?_eq_some_iff _ _ _).mp hrecord)
  rfl

-- The first units are on the field, each with its own number as its slot.
structure Filled (n k : Nat) (s : BtechState Unit) : Prop where
  run : (start n).run ((List.range k).map enter) = .ok s
  sound : s.Sound
  units : ∀ i : Nat, i < n → (s.unit? i).isSome = true
  seats : ∀ id map slot, s.seatOf id = some (map, slot) ↔ map = field ∧ (slot : ObjectId) = id ∧ slot < k
  extent : s.extentAt field = some k

theorem Filled.slots {n k : Nat} {s : BtechState Unit} (h : Filled n k s) (slot : Nat) :
    slot ∈ s.slotsOn field ↔ slot < k := by
  rw [s.mem_slotsOn]
  constructor
  · rintro ⟨id, hseat⟩
    exact ((h.seats id field slot).mp hseat).2.2
  · intro hslot
    exact ⟨slot, (h.seats slot field slot).mpr ⟨rfl, rfl, hslot⟩⟩

theorem Filled.length {n k : Nat} {s : BtechState Unit} (h : Filled n k s) :
    (s.slotsOn field).length ≤ k := by
  have hsub : s.slotsOn field ⊆ List.range k := fun slot hslot => List.mem_range.mpr ((h.slots slot).mp hslot)
  have hle := ((s.slotsOn_nodup field h.sound.toSeated).subperm hsub).length_le
  rw [List.length_range] at hle
  exact hle

theorem Filled.outside {n k : Nat} {s : BtechState Unit} (h : Filled n k s) (slot : Nat) :
    s.seatOf k ≠ some (field, slot) := by
  intro hseat
  obtain ⟨-, hsame, hlt⟩ := (h.seats k field slot).mp hseat
  rw [Int.ofNat_inj.mp hsame] at hlt
  exact lt_irrefl _ hlt

theorem Filled.eq {n k : Nat} {s : BtechState Unit} (h : Filled n k s) {slot : Nat}
    (hvacant : slot ∉ s.slotsOn field) (hlower : ∀ other < slot, other ∈ s.slotsOn field) : slot = k := by
  rw [h.slots, not_lt] at hvacant
  refine le_antisymm (not_lt.mp fun hlt => ?_) hvacant
  exact lt_irrefl k ((h.slots k).mp (hlower k hlt))

theorem Filled.next {n k : Nat} {s : BtechState Unit} (h : Filled n k s) (hk : k < n) (hfits : k < U32_MAX) :
    ∃ s', Filled n (k + 1) s' := by
  obtain ⟨slot, s', -, hvacant, hlower, hlow, hplace, hmoved⟩ := s.place_enter k ⟨field, 0, 0⟩ h.sound
    (lt_of_le_of_lt h.length hfits) (h.units k hk) h.outside h.extent
  obtain rfl := h.eq hvacant hlower
  have hother : ∀ other, other ≠ (slot : ObjectId) → s'.seatOf other = s.seatOf other := hmoved.seatOf_other
  refine ⟨s', ?_, ?_, fun i hi => ?_, fun id map held => ?_, ?_⟩
  · unfold BtechState.run
    rw [List.range_succ, List.map_append, List.foldlM_append]
    refine bind_ok h.run ?_
    exact bind_ok hplace rfl
  · refine h.sound.moved hmoved ?_
    rintro map held ⟨⟩
    exact ⟨hlow, fun other _ hseat => hvacant ((s.mem_slotsOn field slot).mpr ⟨other, hseat⟩)⟩
  · by_cases hsame : (i : ObjectId) = slot
    · have hseat := hmoved.seated
      rw [← hsame] at hseat
      obtain ⟨unit, hunit, -⟩ := Option.bind_eq_some_iff.mp hseat
      rw [hunit]
      rfl
    · rw [hmoved.others i hsame]
      exact h.units i hi
  · by_cases hsame : id = (slot : ObjectId)
    · subst hsame
      rw [hmoved.seated]
      constructor
      · intro hseat
        cases hseat
        exact ⟨rfl, rfl, Nat.lt_succ_self slot⟩
      · rintro ⟨rfl, hheld, -⟩
        rw [Int.ofNat_inj.mp hheld]
    · rw [hother id hsame, h.seats]
      refine and_congr_right fun _ => and_congr_right fun hheld => ?_
      have hne : held ≠ slot := by
        rintro rfl
        exact hsame hheld.symm
      omega
  · rw [hmoved.extents, h.extent, Option.map_some]
    unfold respan
    dsimp only
    rw [if_pos rfl, Nat.max_eq_right (Nat.le_succ slot)]

theorem filled (n k : Nat) (hk : k ≤ n) (hfits : k ≤ U32_MAX) : ∃ s, Filled n k s := by
  induction k with
  | zero =>
    have hunplaced := start_unplaced n
    refine ⟨start n, rfl, hunplaced.sound, fun i hi => ?_, fun id map slot => ?_, rfl⟩
    · rw [(start_unit? n i ⟨none, none⟩).mpr ⟨⟨i, hi, rfl⟩, rfl⟩]
      rfl
    · rw [hunplaced.seatOf id]
      exact ⟨fun hnone => by contradiction, fun hslot => absurd hslot.2.2 (Nat.not_lt_zero slot)⟩
  | succ k ih =>
    obtain ⟨s, hs⟩ := ih (Nat.le_of_succ_le hk) (Nat.le_of_succ_le hfits)
    exact hs.next hk hfits

-- The unit that follows 2^32 - 1 others takes the last number that a slot can have, and the span
-- cannot exceed it.
theorem span_saturates : ∃ s, (start (2 ^ 32)).Unplaced ∧
    (start (2 ^ 32)).run ((List.range (U32_MAX + 1)).map enter) = .ok s ∧
    ∃ id map slot span, s.seatOf id = some (map, slot) ∧ s.extentAt map = some span ∧ ¬slot < span := by
  have hlast : U32_MAX < 2 ^ 32 := by decide
  obtain ⟨s, hs⟩ := filled (2 ^ 32) U32_MAX (le_of_lt hlast) (le_refl _)
  have hunit := hs.units U32_MAX hlast
  obtain ⟨slot, hslot, hvacant, hlower, -⟩ :=
    s.placementSlot_enter U32_MAX field hs.sound.toSeated hs.outside hs.length
  obtain rfl := hs.eq hvacant hlower
  obtain ⟨record, hrecord, -⟩ := Option.map_eq_some_iff.mp hs.extent
  obtain ⟨hspan, hextent⟩ := s.depart_away U32_MAX hs.sound hs.outside hs.extent
  have hold := s.oldMap_ne U32_MAX hs.sound hunit field hs.outside
  have hplace := s.place_ok U32_MAX ⟨field, 0, 0⟩ hunit
    (by rw [hrecord]; rfl) hslot (if_neg hold).symm hspan hextent
  have hfull : max U32_MAX (saturatingSucc U32_MAX) = U32_MAX := max_eq_left (Nat.min_le_right _ _)
  rw [hfull] at hplace
  refine ⟨((s.depart U32_MAX).setExtent field U32_MAX).setPlacement U32_MAX (some (⟨field, 0, 0⟩, U32_MAX)),
    start_unplaced _, ?_, U32_MAX, field, U32_MAX, U32_MAX, ?_, ?_, lt_irrefl _⟩
  · unfold BtechState.run
    rw [List.range_succ, List.map_append, List.foldlM_append]
    exact bind_ok hs.run (bind_ok hplace rfl)
  · obtain ⟨unit, hunit⟩ := Option.isSome_iff_exists.mp hunit
    have hkept : ((s.depart U32_MAX).setExtent field U32_MAX).unit? U32_MAX = some unit := by
      rw [← hunit, ← s.depart_unit? U32_MAX]
      rfl
    unfold BtechState.seatOf
    rw [unit?_setPlacement, if_pos rfl, hkept]
    rfl
  · rw [setPlacement_extentAt, extentAt_setExtent, if_pos rfl]

-- The third unit takes the slot that the first leaves, and the field shrinks with the second.
theorem slots_consistent_pair : ∃ s s', (start 3).run [enter 0, enter 1, .Remove 0, enter 2] = .ok s ∧
    s.step (.Remove 1) = .ok s' ∧
    s.seatOf 1 = some (field, 1) ∧ s.seatOf 2 = some (field, 0) ∧ s'.extentAt field = some 1 ∧
    (∀ id map, ∃ slot, s.placementSlot id map = .ok slot) ∧
    (∀ a b map slot, s.seatOf a = some (map, slot) → s.seatOf b = some (map, slot) → a = b) ∧
    s.Orderly s' (.Remove 1) := by
  have hrun : ∃ s s', (start 3).run [enter 0, enter 1, .Remove 0, enter 2] = .ok s ∧
      s.step (.Remove 1) = .ok s' ∧
      s.seatOf 1 = some (field, 1) ∧ s.seatOf 2 = some (field, 0) ∧ s'.extentAt field = some 1 :=
    ⟨_, _, rfl, rfl, rfl, rfl, rfl⟩
  obtain ⟨s, s', hs, hstep, hsecond, hthird, hspan⟩ := hrun
  obtain ⟨hplaces, -, hapart, -, horderly⟩ := slots_consistent s (start 3) (start_unplaced 3) (by decide) _ hs
  exact ⟨s, s', hs, hstep, hsecond, hthird, hspan, hplaces, hapart, horderly _ _ hstep⟩

end Crowd

end StompyMux.Slots
