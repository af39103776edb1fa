import Mathlib.Data.Finset.Card
import Mathlib.Data.Finset.Range
import Mathlib.Data.Int.Basic
import StompyMux.Library.Fallible
import StompyMux.Library.Machine
import StompyMux.Library.OrderedMap

-- Battlefield membership: each placed unit holds a slot of its map, and the first vacant one is reused.
namespace StompyMux.Slots

open Library Library.Fallible

abbrev ObjectId := Int

structure Position where
  map : ObjectId
  x : Int
  y : Int
  deriving DecidableEq

structure BattleUnit where
  position : Option Position
  mapSlot : Option Nat
  deriving DecidableEq

namespace BattleUnit

variable (unit : BattleUnit)

def onMap (map : ObjectId) : Bool := unit.position.any (fun position => position.map = map)

def placement : Option (Position × Nat) :=
  unit.position.bind fun position => unit.mapSlot.map fun slot => (position, slot)

def seat : Option (ObjectId × Nat) :=
  unit.placement.map fun placement => (placement.1.map, placement.2)

end BattleUnit

-- The allocated span of slots, which may include vacant ones at its end.
structure StoredMap where
  membershipExtent : Nat
  deriving DecidableEq

-- Mechs and vehicles share one slot space. A unit is registered as one of them.
structure BtechState (P : Type) where
  constructed : OrderedMap ObjectId BattleUnit
  vehicles : OrderedMap ObjectId BattleUnit
  maps : OrderedMap ObjectId StoredMap
  autopilotPlans : OrderedMap ObjectId P
  apart : ∀ id ∈ constructed.keys, id ∉ vehicles.keys

namespace BtechState

variable {P : Type} (s : BtechState P)

def members : List (ObjectId × BattleUnit) := s.constructed.entries ++ s.vehicles.entries

-- One member of the loop over all units: the slots in use so far, and the unit's own.
def observe (id map : ObjectId) (seen : Finset Nat × Option Nat) (member : ObjectId × BattleUnit) :
    Except Error (Finset Nat × Option Nat) :=
  if !member.2.onMap map then .ok seen
  else do
    let slot ← ofOption "Placed unit lacks a map slot" member.2.mapSlot
    ensure (slot ∉ seen.1) "Duplicate battlefield slot"
    .ok (insert slot seen.1, if member.1 = id then some slot else seen.2)

-- Same-map placement keeps the slot; entry takes the lowest one that is not in use.
def placementSlot (id map : ObjectId) : Except Error Nat := do
  let (occupied, existing) ← s.members.foldlM (observe id map) (∅, none)
  match existing with
  | some slot => .ok slot
  | none => do
      ensure (occupied.card ≤ U32_MAX) "out of range integral type conversion attempted"
      ofOption "No battlefield slot available"
        ((List.range (occupied.card + 1)).find? (fun slot => slot ∉ occupied))

def slotsOn (map : ObjectId) : List Nat :=
  s.members.filterMap fun member => if member.2.onMap map then member.2.mapSlot else none

def saturatingSucc (slot : Nat) : Nat := min (slot + 1) U32_MAX

-- Live members establish the least span.
def extent (map : ObjectId) : Nat :=
  let occupied := ((s.slotsOn map).max?.map saturatingSucc).getD 0
  match s.maps.get? map with
  | some record => max record.membershipExtent occupied
  | none => occupied

def unit? (id : ObjectId) : Option BattleUnit := (s.constructed.get? id).or (s.vehicles.get? id)

def membership (id : ObjectId) : Option (Position × Nat) :=
  ((s.constructed.get? id).bind BattleUnit.placement).or
    ((s.vehicles.get? id).bind BattleUnit.placement)

def shortened (span slot : Nat) : Nat :=
  if slot < U32_MAX && slot + 1 = span then span - 1 else span

def depart (id : ObjectId) : BtechState P :=
  let s := { s with autopilotPlans := s.autopilotPlans.remove id }
  match s.membership id with
  | none => s
  | some (position, slot) =>
      let span := s.extent position.map
      { s with maps := s.maps.modify position.map (fun _ => ⟨shortened span slot⟩) }

def oldMap (id : ObjectId) : Option ObjectId :=
  (((s.constructed.get? id).bind BattleUnit.position).or
    ((s.vehicles.get? id).bind BattleUnit.position)).map Position.map

def setExtent (map : ObjectId) (span : Nat) : BtechState P :=
  { s with maps := s.maps.insert map ⟨span⟩ }

-- Admission and same-map moves share one update of the span.
def arrive (id map : ObjectId) (slot : Nat) : Except Error (BtechState P) := do
  let s := if s.oldMap id = some map then s else s.depart id
  let span := max (s.extent map) (saturatingSucc slot)
  let _ ← ofOption "admitted map" (s.maps.get? map)
  .ok (s.setExtent map span)

theorem apart_vehicles (id : ObjectId) (set : BattleUnit → BattleUnit) :
    ∀ other ∈ s.constructed.keys, other ∉ (s.vehicles.modify id set).keys := by
  rw [OrderedMap.keys_modify]
  exact s.apart

theorem apart_constructed (id : ObjectId) (set : BattleUnit → BattleUnit) :
    ∀ other ∈ (s.constructed.modify id set).keys, other ∉ s.vehicles.keys := by
  rw [OrderedMap.keys_modify]
  exact s.apart

-- The position and the slot are set together.
def setPlacement (id : ObjectId) (placement : Option (Position × Nat)) : BtechState P :=
  let set := fun (_ : BattleUnit) => BattleUnit.mk (placement.map Prod.fst) (placement.map Prod.snd)
  if (s.vehicles.get? id).isSome then
    { s with vehicles := s.vehicles.modify id set, apart := s.apart_vehicles id set }
  else { s with constructed := s.constructed.modify id set, apart := s.apart_constructed id set }

theorem unit?_setPlacement (id other : ObjectId) (placement : Option (Position × Nat)) :
    (s.setPlacement id placement).unit? other =
      if other = id then
        (s.unit? id).map (fun _ => ⟨placement.map Prod.fst, placement.map Prod.snd⟩)
      else s.unit? other := by
  unfold setPlacement unit?
  split
  · rename_i hvehicle
    have hkey := (s.vehicles.mem_keys_iff id).mpr hvehicle
    have hnone : s.constructed.get? id = none := by
      rw [OrderedMap.get?_eq_none_iff]
      exact fun hid => s.apart id hid hkey
    rw [OrderedMap.get?_modify]
    split
    · rename_i hother
      rw [hother, hnone]
      rfl
    · rfl
  · rename_i hvehicle
    have hnone : s.vehicles.get? id = none := Option.not_isSome_iff_eq_none.mp hvehicle
    rw [OrderedMap.get?_modify]
    split
    · rename_i hother
      rw [hother, hnone, Option.or_none, Option.or_none]
    · rfl

theorem mem_members (id : ObjectId) (unit : BattleUnit) :
    (id, unit) ∈ s.members ↔ s.unit? id = some unit := by
  unfold members unit?
  rw [List.mem_append, ← OrderedMap.get?_eq_some_iff, ← OrderedMap.get?_eq_some_iff]
  cases hmech : s.constructed.get? id with
  | none =>
    rw [Option.none_or]
    exact ⟨fun h => h.resolve_left (fun hnone => by contradiction), Or.inr⟩
  | some mech =>
    have hkey : id ∈ s.constructed.keys := by
      rw [OrderedMap.mem_keys_iff, hmech]
      rfl
    have hnone : s.vehicles.get? id = none := by
      rw [OrderedMap.get?_eq_none_iff]
      exact s.apart id hkey
    rw [hnone, Option.some_or]
    exact ⟨fun h => h.resolve_right (fun hnone => by contradiction), Or.inl⟩

theorem members_nodup : (s.members.map Prod.fst).Nodup := by
  unfold members
  rw [List.map_append, List.nodup_append]
  exact ⟨s.constructed.keys_nodup, s.vehicles.keys_nodup, fun a ha b hb hab =>
    s.apart a ha (hab ▸ hb)⟩

theorem length_setPlacement (id : ObjectId) (placement : Option (Position × Nat)) :
    (s.setPlacement id placement).members.length = s.members.length := by
  unfold members setPlacement
  split
  · rw [List.length_append, List.length_append]
    exact congrArg (s.constructed.entries.length + ·) (List.length_map ..)
  · rw [List.length_append, List.length_append]
    exact congrArg (· + s.vehicles.entries.length) (List.length_map ..)

def seatOf (id : ObjectId) : Option (ObjectId × Nat) := (s.unit? id).bind BattleUnit.seat

def slotOn (map : ObjectId) (member : ObjectId × BattleUnit) : Option Nat :=
  if member.2.onMap map then member.2.mapSlot else none

theorem slotOn_eq_some (map : ObjectId) (member : ObjectId × BattleUnit) (slot : Nat) :
    slotOn map member = some slot ↔ member.2.seat = some (map, slot) := by
  obtain ⟨id, position, mapSlot⟩ := member
  unfold slotOn BattleUnit.onMap BattleUnit.seat BattleUnit.placement
  cases position with
  | none => exact ⟨fun h => by contradiction, fun h => by contradiction⟩
  | some position =>
    cases mapSlot with
    | none =>
      rw [ite_self]
      exact ⟨fun h => by contradiction, fun h => by contradiction⟩
    | some held =>
      simp only [Option.any_some, Option.bind_some, Option.map_some, Option.some.injEq, Prod.mk.injEq,
        decide_eq_true_eq, Option.ite_none_right_eq_some]

theorem mem_slotsOn (map : ObjectId) (slot : Nat) :
    slot ∈ s.slotsOn map ↔ ∃ id, s.seatOf id = some (map, slot) := by
  unfold slotsOn seatOf
  rw [List.mem_filterMap]
  constructor
  · rintro ⟨⟨id, unit⟩, hmember, hslot⟩
    refine ⟨id, ?_⟩
    rw [(s.mem_members id unit).mp hmember]
    exact (slotOn_eq_some map (id, unit) slot).mp hslot
  · rintro ⟨id, hseat⟩
    obtain ⟨unit, hunit, hslot⟩ := Option.bind_eq_some_iff.mp hseat
    exact ⟨(id, unit), (s.mem_members id unit).mpr hunit, (slotOn_eq_some map (id, unit) slot).mpr hslot⟩

-- Every unit is placed with a slot or not at all, and no two share a slot of one map.
structure Seated : Prop where
  whole : ∀ id unit, s.unit? id = some unit → unit.position.isSome = unit.mapSlot.isSome
  apart : ∀ a b map slot, s.seatOf a = some (map, slot) → s.seatOf b = some (map, slot) → a = b

section Observed

variable (id map : ObjectId)

theorem slotsOn_nodup (h : s.Seated) : (s.slotsOn map).Nodup := by
  have hkeys : s.members.Pairwise (fun a b => a.1 ≠ b.1) := List.pairwise_map.mp s.members_nodup
  refine List.pairwise_filterMap.mpr (hkeys.imp_of_mem ?_)
  intro a b ha hb hne slot hslot slot' hslot' hsame
  have hseat : ∀ member ∈ s.members, slotOn map member = some slot → s.seatOf member.1 = some (map, slot) := by
    intro member hmember hheld
    unfold seatOf
    rw [(s.mem_members member.1 member.2).mp hmember]
    exact (slotOn_eq_some map member slot).mp hheld
  exact hne (h.apart a.1 b.1 map slot (hseat a ha hslot) (hseat b hb (hsame ▸ hslot')))

theorem observe_skip (seen : Finset Nat × Option Nat) {member : ObjectId × BattleUnit}
    (hwhole : member.2.onMap map = true → member.2.mapSlot.isSome = true)
    (hslot : slotOn map member = none) : observe id map seen member = .ok seen := by
  have hoff : member.2.onMap map = false := by
    by_contra hon
    rw [Bool.not_eq_false] at hon
    have hsome := hwhole hon
    unfold slotOn at hslot
    rw [if_pos hon] at hslot
    rw [hslot] at hsome
    contradiction
  unfold observe
  rw [hoff]
  rfl

theorem observe_take {seen : Finset Nat × Option Nat} {member : ObjectId × BattleUnit} {slot : Nat}
    (hslot : slotOn map member = some slot) (hvacant : slot ∉ seen.1) : observe id map seen member =
      .ok (insert slot seen.1, if member.1 = id then some slot else seen.2) := by
  obtain ⟨hon, hheld⟩ : member.2.onMap map = true ∧ member.2.mapSlot = some slot := by
    unfold slotOn at hslot
    split at hslot
    · rename_i hon
      exact ⟨hon, hslot⟩
    · contradiction
  unfold observe
  rw [hon, hheld]
  show (do ensure (decide (slot ∉ seen.1)) _; _) = _
  rw [decide_eq_true hvacant]
  rfl

theorem observe_members {members : List (ObjectId × BattleUnit)} (seen : Finset Nat × Option Nat)
    (hwhole : ∀ member ∈ members, member.2.onMap map = true → member.2.mapSlot.isSome = true)
    (hnodup : (members.filterMap (slotOn map)).Nodup)
    (hfresh : ∀ slot ∈ members.filterMap (slotOn map), slot ∉ seen.1) :
    ∃ seen', members.foldlM (observe id map) seen = .ok seen' ∧
      (∀ slot, slot ∈ seen'.1 ↔ slot ∈ seen.1 ∨ slot ∈ members.filterMap (slotOn map)) ∧
      seen'.1.card = seen.1.card + (members.filterMap (slotOn map)).length ∧
      (∀ slot, seen'.2 = some slot →
        seen.2 = some slot ∨ ∃ unit, (id, unit) ∈ members ∧ slotOn map (id, unit) = some slot) ∧
      (seen'.2 = none → seen.2 = none ∧
        ∀ unit, (id, unit) ∈ members → slotOn map (id, unit) = none) := by
  induction members generalizing seen with
  | nil =>
    refine ⟨seen, rfl, fun slot => ?_, rfl, fun slot h => .inl h, fun h => ⟨h, fun unit hunit => ?_⟩⟩
    · exact ⟨Or.inl, fun h => h.resolve_right (List.not_mem_nil)⟩
    · exact absurd hunit List.not_mem_nil
  | cons member members ih =>
    have hrest := fun other hother => hwhole other (List.mem_cons_of_mem member hother)
    cases hslot : slotOn map member with
    | none =>
      have hskip := observe_skip id map seen (hwhole member List.mem_cons_self) hslot
      rw [List.filterMap_cons_none hslot] at hnodup hfresh ⊢
      obtain ⟨seen', hrun, hslots, hcard, hown, hnone⟩ := ih seen hrest hnodup hfresh
      refine ⟨seen', ?_, hslots, hcard, fun slot h => ?_, fun h => ?_⟩
      · rw [List.foldlM_cons, hskip]
        exact hrun
      · refine (hown slot h).imp_right ?_
        rintro ⟨unit, hmember, hheld⟩
        exact ⟨unit, List.mem_cons_of_mem _ hmember, hheld⟩
      · obtain ⟨hbefore, hothers⟩ := hnone h
        refine ⟨hbefore, fun unit hunit => ?_⟩
        cases List.mem_cons.mp hunit with
        | inl hsame => rw [hsame]; exact hslot
        | inr hmem => exact hothers unit hmem
    | some slot =>
      rw [List.filterMap_cons_some hslot] at hnodup hfresh ⊢
      obtain ⟨hnew, hnodup⟩ := List.nodup_cons.mp hnodup
      have hvacant := hfresh slot List.mem_cons_self
      have htake := observe_take id map hslot hvacant
      have hothers : ∀ other ∈ members.filterMap (slotOn map), other ∉ insert slot seen.1 := by
        intro other hother hmem
        cases Finset.mem_insert.mp hmem with
        | inl hsame => exact hnew (hsame ▸ hother)
        | inr hseen => exact hfresh other (List.mem_cons_of_mem _ hother) hseen
      obtain ⟨seen', hrun, hslots, hcard, hown, hnone⟩ :=
        ih (insert slot seen.1, if member.1 = id then some slot else seen.2) hrest hnodup hothers
      refine ⟨seen', ?_, fun other => ?_, ?_, fun other h => ?_, fun h => ?_⟩
      · rw [List.foldlM_cons, htake]
        exact hrun
      · rw [hslots, Finset.mem_insert, List.mem_cons]
        tauto
      · rw [hcard, Finset.card_insert_of_notMem hvacant, List.length_cons]
        omega
      · cases hown other h with
        | inr hfound =>
          obtain ⟨unit, hmember, hslot⟩ := hfound
          exact .inr ⟨unit, List.mem_cons_of_mem _ hmember, hslot⟩
        | inl hfirst =>
          split at hfirst
          · rename_i hid
            cases hfirst
            subst hid
            exact .inr ⟨member.2, List.mem_cons_self, hslot⟩
          · exact .inl hfirst
      · obtain ⟨hbefore, hothers⟩ := hnone h
        split at hbefore
        · contradiction
        · rename_i hid
          refine ⟨hbefore, fun unit hunit => ?_⟩
          cases List.mem_cons.mp hunit with
          | inl hsame => exact absurd (congrArg Prod.fst hsame).symm hid
          | inr hmem => exact hothers unit hmem

theorem observe_all (h : s.Seated) : ∃ seen, s.members.foldlM (observe id map) (∅, none) = .ok seen ∧
    (∀ slot, slot ∈ seen.1 ↔ slot ∈ s.slotsOn map) ∧ seen.1.card = (s.slotsOn map).length ∧
    (∀ slot, seen.2 = some slot ↔ s.seatOf id = some (map, slot)) := by
  have hheld : ∀ unit slot, (id, unit) ∈ s.members → slotOn map (id, unit) = some slot →
      s.seatOf id = some (map, slot) := by
    intro unit slot hmember hslot
    unfold seatOf
    rw [(s.mem_members id unit).mp hmember]
    exact (slotOn_eq_some map (id, unit) slot).mp hslot
  have hwhole : ∀ member ∈ s.members, member.2.onMap map = true → member.2.mapSlot.isSome = true := by
    intro member hmember hon
    rw [← h.whole member.1 member.2 ((s.mem_members _ _).mp hmember)]
    unfold BattleUnit.onMap at hon
    cases hposition : member.2.position with
    | none =>
      rw [hposition] at hon
      contradiction
    | some position => rfl
  obtain ⟨seen, hrun, hslots, hcard, hown, hnone⟩ := observe_members id map (∅, none) hwhole
    (s.slotsOn_nodup map h) (fun _ _ hmem => absurd hmem (Finset.notMem_empty _))
  refine ⟨seen, hrun, fun slot => ?_, ?_, fun slot => ⟨fun hsome => ?_, fun hseat => ?_⟩⟩
  · rw [hslots]
    exact or_iff_right (Finset.notMem_empty _)
  · rw [hcard]
    exact Nat.zero_add _
  · cases hown slot hsome with
    | inl hstart => contradiction
    | inr hfound =>
      obtain ⟨unit, hmember, hslot⟩ := hfound
      exact hheld unit slot hmember hslot
  · obtain ⟨unit, hunit, hseat'⟩ := Option.bind_eq_some_iff.mp hseat
    have hmember := (s.mem_members id unit).mpr hunit
    have hslot := (slotOn_eq_some map (id, unit) slot).mpr hseat'
    cases hseen : seen.2 with
    | none =>
      rw [(hnone hseen).2 unit hmember] at hslot
      contradiction
    | some other =>
      cases hown other hseen with
      | inl hstart => contradiction
      | inr hfound =>
        obtain ⟨unit', hmember', hslot'⟩ := hfound
        have hsame := hheld unit' other hmember' hslot'
        rw [hseat] at hsame
        cases hsame
        rfl

theorem placementSlot_same {slot : Nat} (h : s.Seated) (hseat : s.seatOf id = some (map, slot)) :
    s.placementSlot id map = .ok slot := by
  obtain ⟨seen, hrun, -, -, hown⟩ := s.observe_all id map h
  unfold placementSlot
  rw [hrun]
  show (match seen.2 with | some slot => _ | none => _) = _
  rw [(hown slot).mpr hseat]

theorem placementSlot_enter (h : s.Seated) (hseat : ∀ slot, s.seatOf id ≠ some (map, slot))
    (hfew : (s.slotsOn map).length ≤ U32_MAX) : ∃ slot, s.placementSlot id map = .ok slot ∧
      slot ∉ s.slotsOn map ∧ (∀ other < slot, other ∈ s.slotsOn map) ∧
      slot ≤ (s.slotsOn map).length := by
  obtain ⟨seen, hrun, hslots, hcard, hown⟩ := s.observe_all id map h
  have hnone : seen.2 = none := by
    cases hseen : seen.2 with
    | none => rfl
    | some slot => exact absurd ((hown slot).mp hseen) (hseat slot)
  have hvacant : ∃ slot, (List.range (seen.1.card + 1)).find? (fun slot => slot ∉ seen.1) = some slot := by
    rw [← Option.isSome_iff_exists, List.find?_isSome]
    by_contra hfull
    have hsub : Finset.range (seen.1.card + 1) ⊆ seen.1 := by
      intro slot hslot
      by_contra hmem
      exact hfull ⟨slot, List.mem_range.mpr (Finset.mem_range.mp hslot), decide_eq_true hmem⟩
    have hle := Finset.card_le_card hsub
    rw [Finset.card_range] at hle
    exact absurd hle (Nat.not_succ_le_self _)
  obtain ⟨slot, hfind⟩ := hvacant
  obtain ⟨hnew, hrange, hlower⟩ := List.find?_range_eq_some.mp hfind
  refine ⟨slot, ?_, ?_, fun other hother => ?_, ?_⟩
  · unfold placementSlot
    rw [hrun]
    show (match seen.2 with | some slot => _ | none => _) = _
    rw [hnone]
    show (do ensure (decide (seen.1.card ≤ U32_MAX)) _; _) = _
    rw [hcard, decide_eq_true hfew, ← hcard, hfind]
    rfl
  · rw [← hslots]
    exact of_decide_eq_true hnew
  · have hused := hlower other hother
    rw [Bool.not_eq_true', decide_eq_false_iff_not, not_not] at hused
    exact (hslots other).mp hused
  · rw [← hcard]
    exact Nat.le_of_lt_succ (List.mem_range.mp hrange)

end Observed

end BtechState

end StompyMux.Slots
