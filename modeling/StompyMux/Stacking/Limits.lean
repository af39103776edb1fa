import Mathlib.Data.List.Perm.Subperm
import Mathlib.Data.Rat.Floor
import StompyMux.Map.TerrainRules

-- The units that stand in the hexes of the battlefields, and how many a hex may hold.
namespace StompyMux.Stacking

open Library Library.Fallible
open StompyMux.Map

abbrev ObjectId := Int

structure Position where
  map : ObjectId
  x : UInt16
  y : UInt16
  deriving DecidableEq

def Position.coordinate (position : Position) : HexCoordinate := ⟨position.x.toNat, position.y.toNat⟩

structure LevelEntry where
  x : UInt16
  y : UInt16
  levels : UInt8
  deriving DecidableEq

structure SlickTrack where
  heading : Option ℚ
  turned : Bool
  deriving DecidableEq

structure Mech where
  position : Option Position
  team : Int
  destroyed : Bool
  -- the level in an orbital drop, a jump or a fall
  aloft : Option Int
  groundElevation : Option ℚ
  -- whether a continuous motion is kept, at the centre of the hex when it is set down in one
  motion : Bool
  hexSyncPending : Bool
  levelEntry : Option LevelEntry
  slick : SlickTrack
  hidden : Bool
  hideElapsed : Option Nat
  deriving DecidableEq

inductive VtolFlightPhase
  | Landed
  | Launching (remaining : Nat)
  | Airborne
  | Falling
  deriving DecidableEq

structure Vehicle where
  position : Option Position
  team : Int
  destroyed : Bool
  vtolFlight : Option VtolFlightPhase
  deriving DecidableEq

-- No unit has the records of two chassis.
structure World where
  maps : OrderedMap ObjectId Battlefield
  constructed : OrderedMap ObjectId Mech
  vehicles : OrderedMap ObjectId Vehicle
  apart : ∀ id, id ∈ constructed.keys → id ∉ vehicles.keys

def Mech.airborne (unit : Mech) : Bool := unit.aloft.isSome

def truncate (q : ℚ) : Int := if 0 ≤ q then ⌊q⌋ else ⌈q⌉

def Mech.elevationLevel (unit : Mech) (tile : Hex) : Int :=
  match unit.aloft with
  | some level => level
  | none => truncate (unit.groundElevation.getD tile.standingHeight)

def Mech.stands (unit : Mech) : Bool := !unit.destroyed && !unit.airborne

def Vehicle.stands (vehicle : Vehicle) : Bool :=
  !vehicle.destroyed && vehicle.vtolFlight.all (fun phase => phase = .Landed)

-- A unit standing in a hex, as the stacking limit counts it.
structure Occupant where
  id : ObjectId
  mech : Bool
  team : Int
  deriving DecidableEq

namespace World

variable (world : World)

-- The units on the ground in a hex, of those that are asked for.
def gather (position : Position) (keep : ObjectId → Bool) : List Occupant :=
  (world.constructed.entries.filter (fun entry =>
    keep entry.1 && entry.2.position = some position && entry.2.stands)).map
      (fun entry => ⟨entry.1, true, entry.2.team⟩) ++
  (world.vehicles.entries.filter (fun entry =>
    keep entry.1 && entry.2.position = some position && entry.2.stands)).map
      (fun entry => ⟨entry.1, false, entry.2.team⟩)

def occupants (position : Position) (exclude : ObjectId) : List Occupant :=
  world.gather position (fun id => id ≠ exclude)

def standing (position : Position) : List Occupant := world.gather position (fun _ => true)

def setMech (id : ObjectId) (f : Mech → Mech) : World :=
  { world with
    constructed := world.constructed.modify id f
    apart := fun other h => world.apart other (by rwa [OrderedMap.keys_modify] at h) }

end World

def SIDE_LIMIT : Nat := 2

def HEX_LIMIT : Nat := 4

-- Whether a unit resting among the others would exceed the limit.
def exceedsLimit (mech : Bool) (team : Int) (others : List Occupant) : Bool :=
  let mechs := (others.filter (fun other => other.mech)).length + (if mech then 1 else 0)
  let side := (others.filter (fun other => other.team = team)).length + 1
  1 < mechs || SIDE_LIMIT < side || HEX_LIMIT < others.length + 1

structure Respected (units : List Occupant) : Prop where
  mechs : units.countP (fun unit => unit.mech) ≤ 1
  side : ∀ team, units.countP (fun unit => unit.team = team) ≤ SIDE_LIMIT
  total : units.length ≤ HEX_LIMIT

section

variable (units : List Occupant)

theorem Respected.mono (h : Respected units) (fewer : List Occupant) (hnodup : fewer.Nodup)
    (hsub : ∀ unit ∈ fewer, unit ∈ units) : Respected fewer := by
  have hfewer : fewer.Subperm units := List.subperm_of_subset hnodup hsub
  exact ⟨(hfewer.countP_le _).trans h.mechs, fun team => (hfewer.countP_le _).trans (h.side team),
    hfewer.length_le.trans h.total⟩

theorem exceedsLimit_eq_false_iff (mech : Bool) (team : Int) :
    exceedsLimit mech team units = false ↔
      units.countP (fun unit => unit.mech) + (if mech then 1 else 0) ≤ 1 ∧
      units.countP (fun unit => unit.team = team) < SIDE_LIMIT ∧ units.length < HEX_LIMIT := by
  unfold exceedsLimit
  rw [Bool.or_eq_false_iff, Bool.or_eq_false_iff, decide_eq_false_iff_not, decide_eq_false_iff_not,
    decide_eq_false_iff_not, List.countP_eq_length_filter, List.countP_eq_length_filter]
  omega

theorem perm_rest (hnodup : (units.map Occupant.id).Nodup) {unit : Occupant} (h : unit ∈ units) :
    units.Perm (unit :: units.filter (fun other => other.id ≠ unit.id)) := by
  have hrest : units.filter (fun other => other.id ≠ unit.id) = units.erase unit := by
    rw [(List.Nodup.of_map _ hnodup).erase_eq_filter]
    refine List.filter_congr (fun other hother => ?_)
    have hid : other.id = unit.id ↔ other = unit :=
      ⟨List.inj_on_of_nodup_map hnodup hother h, congrArg Occupant.id⟩
    by_cases hsame : other = unit <;> simp [hid, hsame]
  rw [hrest]
  exact List.perm_cons_erase h

theorem respected_iff (hnodup : (units.map Occupant.id).Nodup) : Respected units ↔
    ∀ unit ∈ units,
      exceedsLimit unit.mech unit.team (units.filter (fun other => other.id ≠ unit.id)) = false := by
  constructor
  · intro h unit hunit
    have hperm := perm_rest units hnodup hunit
    have hmechs := h.mechs
    have hside := h.side unit.team
    have htotal := h.total
    rw [hperm.countP_eq, List.countP_cons] at hmechs hside
    rw [hperm.length_eq, List.length_cons] at htotal
    rw [decide_eq_true rfl, if_pos rfl] at hside
    exact (exceedsLimit_eq_false_iff _ _ _).mpr ⟨hmechs, hside, htotal⟩
  · intro h
    have hunit : ∀ unit ∈ units, _ :=
      fun unit hunit => (exceedsLimit_eq_false_iff _ _ _).mp (h unit hunit)
    refine ⟨?_, ?_, ?_⟩
    · by_contra hmany
      obtain ⟨unit, hmem, hmech⟩ := List.countP_pos_iff.mp
        (by omega : 0 < units.countP (fun unit => unit.mech))
      obtain ⟨hrest, -, -⟩ := hunit unit hmem
      rw [(perm_rest units hnodup hmem).countP_eq, List.countP_cons] at hmany
      exact hmany hrest
    · intro team
      by_contra hmany
      obtain ⟨unit, hmem, hteam⟩ := List.countP_pos_iff.mp
        (by omega : 0 < units.countP (fun unit => unit.team = team))
      obtain ⟨-, hrest, -⟩ := hunit unit hmem
      rw [(perm_rest units hnodup hmem).countP_eq, List.countP_cons, if_pos hteam,
        ← of_decide_eq_true hteam] at hmany
      exact hmany hrest
    · by_contra hmany
      obtain ⟨unit, hmem⟩ := List.exists_mem_of_length_pos (by omega : 0 < units.length)
      obtain ⟨-, -, hrest⟩ := hunit unit hmem
      rw [(perm_rest units hnodup hmem).length_eq, List.length_cons] at hmany
      exact hmany hrest

end

namespace World

variable (world : World) (position : Position)

theorem mem_gather (keep : ObjectId → Bool) (unit : Occupant) : unit ∈ world.gather position keep ↔
    (∃ mech, world.constructed.get? unit.id = some mech ∧ keep unit.id = true ∧
      mech.position = some position ∧ mech.stands = true ∧ unit = ⟨unit.id, true, mech.team⟩) ∨
    (∃ vehicle, world.vehicles.get? unit.id = some vehicle ∧ keep unit.id = true ∧
      vehicle.position = some position ∧ vehicle.stands = true ∧
      unit = ⟨unit.id, false, vehicle.team⟩) := by
  unfold gather
  rw [List.mem_append, List.mem_map, List.mem_map]
  simp only [List.mem_filter, Bool.and_eq_true, decide_eq_true_eq, OrderedMap.get?_eq_some_iff]
  constructor
  · rintro (⟨⟨id, mech⟩, ⟨hmem, ⟨hkeep, hposition⟩, hstands⟩, rfl⟩ |
      ⟨⟨id, vehicle⟩, ⟨hmem, ⟨hkeep, hposition⟩, hstands⟩, rfl⟩)
    · exact Or.inl ⟨mech, hmem, hkeep, hposition, hstands, rfl⟩
    · exact Or.inr ⟨vehicle, hmem, hkeep, hposition, hstands, rfl⟩
  · rintro (⟨mech, hmem, hkeep, hposition, hstands, hunit⟩ |
      ⟨vehicle, hmem, hkeep, hposition, hstands, hunit⟩)
    · exact Or.inl ⟨(unit.id, mech), ⟨hmem, ⟨hkeep, hposition⟩, hstands⟩, hunit.symm⟩
    · exact Or.inr ⟨(unit.id, vehicle), ⟨hmem, ⟨hkeep, hposition⟩, hstands⟩, hunit.symm⟩

theorem mem_occupants (exclude : ObjectId) (unit : Occupant) :
    unit ∈ world.occupants position exclude ↔
      unit ∈ world.standing position ∧ unit.id ≠ exclude := by
  unfold occupants standing
  rw [mem_gather, mem_gather]
  simp only [decide_eq_true_eq, true_and]
  constructor
  · rintro (⟨mech, hget, hid, hrest⟩ | ⟨vehicle, hget, hid, hrest⟩)
    · exact ⟨Or.inl ⟨mech, hget, hrest⟩, hid⟩
    · exact ⟨Or.inr ⟨vehicle, hget, hrest⟩, hid⟩
  · rintro ⟨⟨mech, hget, hrest⟩ | ⟨vehicle, hget, hrest⟩, hid⟩
    · exact Or.inl ⟨mech, hget, hid, hrest⟩
    · exact Or.inr ⟨vehicle, hget, hid, hrest⟩

theorem gather_ids_nodup (keep : ObjectId → Bool) :
    ((world.gather position keep).map Occupant.id).Nodup := by
  unfold gather
  rw [List.map_append, List.map_map, List.map_map]
  refine List.Nodup.append ?_ ?_ ?_
  · exact world.constructed.keys_nodup.sublist (List.filter_sublist.map Prod.fst)
  · exact world.vehicles.keys_nodup.sublist (List.filter_sublist.map Prod.fst)
  · intro id hmech hvehicle
    exact world.apart id ((List.filter_sublist.map Prod.fst).subset hmech)
      ((List.filter_sublist.map Prod.fst).subset hvehicle)

theorem gather_nodup (keep : ObjectId → Bool) : (world.gather position keep).Nodup :=
  List.Nodup.of_map _ (world.gather_ids_nodup position keep)

end World

end StompyMux.Stacking
