import StompyMux.Stacking.Limits

-- A 'Mech that is forced out of its hex, and the 'Mechs that it shoves in turn.
namespace StompyMux.Stacking

open Library Library.Fallible
open StompyMux.Map

-- The longest chain of 'Mechs one displacement may shove in turn.
def DOMINO_LIMIT : Nat := 8

structure Displacement where
  -- when false nothing moved at all
  moved : Bool
  blocked : Option String
  -- the 'Mechs shoved out of the hexes ahead, nearest first
  dominoes : List ObjectId
  fallen : Bool
  deriving DecidableEq

def Displacement.blockedBy (reason : String) : Displacement := ⟨false, some reason, [], false⟩

-- What becomes of a 'Mech that comes down on a unit, falls, or is thrown into a building. The
-- rules of the fall and the dice are the function's own.
structure Aftermath where
  stacking : World → ObjectId → Except Error World
  fall : World → ObjectId → (levels : Nat) → Except Error World
  breach : World → ObjectId → Except Error World

def u16 (n : Int) : Option UInt16 := if 0 ≤ n ∧ n < 65536 then some (UInt16.ofNat n.toNat) else none

def inI32 (n : Int) : Bool := -2147483648 ≤ n && n < 2147483648

-- An index of a map that has no such key.
def index {T : Type} (found : Option T) : Except Error T := ofOption "no entry found for key" found

def neighbors (hex : HexCoordinate) : Except Error (List HexCoordinate) := do
  ensure (hex.adjacent.all (fun other => inI32 other.x && inI32 other.y))
    "out of range integral type conversion attempted"
  .ok hex.adjacent

-- The roof when it arrives at roof height or above, otherwise inside.
def entryLevel (tile : Hex) (source : Int) : Int :=
  let roof := tile.standingHeight
  if !tile.hasBuilding || roof ≤ source then roof else max source tile.level.toNat

def inside (tile : Hex) (level : Int) : Bool :=
  tile.hasBuilding && tile.level.toNat ≤ level && level < tile.surfaceHeight

-- Where a 'Mech displaced one hex would come to rest, at which level and from which, or why it
-- cannot go there.
def destination (world : World) (id : ObjectId) (direction : Nat) :
    Except Error (Except String (Position × Int × Int)) := do
  let unit ← index (world.constructed.get? id)
  let position ← ofOption "Displaced unit is not placed" unit.position
  let map ← index (world.maps.get? position.map)
  let here ← map.baseHex position.coordinate
  let source := unit.elevationLevel here
  let hexes ← neighbors position.coordinate
  let hex ← index hexes[direction % 6]?
  match u16 hex.x, u16 hex.y with
  | some x, some y =>
      match map.baseHex ⟨x.toNat, y.toNat⟩ with
      | .error _ => .ok (.error "the map edge")
      | .ok tile =>
          if (tile.prohibition .Legged).isSome then .ok (.error "terrain it cannot enter")
          else
            let level := entryLevel tile source
            if 2 < level - source then .ok (.error "a slope too steep to climb")
            else .ok (.ok (⟨position.map, x, y⟩, level, source))
  | _, _ => .ok (.error "the map edge")

namespace Mech

def standAt (unit : Mech) (position : Position) (tile : Hex) (level : Int) : Mech :=
  { unit with
    position := some position
    hexSyncPending := false
    levelEntry := none
    groundElevation := if level ≠ tile.standingHeight then some (level : ℚ) else none
    slick := ⟨none, false⟩ }

def breakCover (unit : Mech) : Mech := { unit with hideElapsed := none, hidden := false }

end Mech

namespace World

variable (world : World)

def relocate (id : ObjectId) (position : Position) (level : Int) : Except Error World := do
  let map ← index (world.maps.get? position.map)
  let tile ← map.baseHex position.coordinate
  let unit ← ofOption "Displaced unit is unavailable" (world.constructed.get? id)
  ensure unit.motion "Displaced unit has no motion"
  .ok (world.setMech id (fun unit => unit.standAt position tile level))

-- A committed hex crossing cancels hiding.
def movement (id : ObjectId) : World := world.setMech id Mech.breakCover

-- Whether the 'Mech stands inside a building.
def unitInside (id : ObjectId) : Except Error Bool := do
  let unit ← ofOption "Unit is unavailable" (world.constructed.get? id)
  match unit.position with
  | none => .ok false
  | some position => do
      let map ← ofOption "Map not found" (world.maps.get? position.map)
      let tile ← map.baseHex position.coordinate
      .ok (inside tile (unit.elevationLevel tile))

end World

section

variable (aftermath : Aftermath) (direction : Nat)

def breachDisplaced (world : World) (id : ObjectId) : Except Error World := do
  if ← world.unitInside id then aftermath.breach world id else .ok world

-- More than two levels down, the 'Mech falls.
def fallFrom (world : World) (id : ObjectId) (drop : Int) : Except Error World :=
  if 2 < drop then aftermath.fall world id (if drop + 1 ≤ 255 then (drop + 1).toNat else 255)
  else .ok world

-- The 'Mech moves, once the hex ahead has given way or need not.
def enter (world : World) (id : ObjectId) (position : Position) (level drop : Int) (crowded : Bool)
    (dominoes : List ObjectId) : Except Error (World × Displacement) := do
  let world ← world.relocate id position level
  let world := world.movement id
  if crowded ∧ 2 ≤ drop then do
    let world ← aftermath.stacking world id
    .ok (world, ⟨true, none, dominoes, true⟩)
  else do
    let world ← fallFrom aftermath world id drop
    let world ← breachDisplaced aftermath world id
    .ok (world, ⟨true, none, dominoes, 2 < drop⟩)

-- One link of the chain. `links` more 'Mechs may be shoved after it.
def displaceChain (links : Nat) (world : World) (id : ObjectId) :
    Except Error (World × Displacement) := do
  match ← destination world id direction with
  | .error reason => .ok (world, .blockedBy reason)
  | .ok (position, level, source) => do
      let unit ← index (world.constructed.get? id)
      let others := world.occupants position id
      let crowded := exceedsLimit true unit.team others
      let drop := source - level
      if crowded ∧ drop < 2 then
        match others.find? (fun other => other.mech) with
        | none => .ok (world, .blockedBy "a hex too crowded to enter")
        | some other =>
            match links with
            | 0 => .ok (world, .blockedBy "a line of units that will not give way")
            | links + 1 => do
                let (world, shoved) ← displaceChain links world other.id
                if shoved.moved then
                  enter aftermath world id position level drop crowded
                    (other.id :: shoved.dominoes)
                else
                  .ok (world, .blockedBy (shoved.blocked.getD "a unit that will not give way"))
      else enter aftermath world id position level drop crowded []

def displace (world : World) (id : ObjectId) : Except Error (World × Displacement) :=
  displaceChain aftermath direction (DOMINO_LIMIT - 1) world id

end

-- How far along a direction a hex lies, two for each step.
def along (direction : Nat) (hex : HexCoordinate) : Int :=
  let (q, r, _) := hex.cube
  match HexCoordinate.DIRECTIONS[direction % 6]? with
  | some (dq, dr) => 2 * (q * dq + r * dr) + q * dr + r * dq
  | none => 0

theorem along_adjacent {direction : Nat} {hex next : HexCoordinate}
    (h : hex.adjacent[direction % 6]? = some next) : along direction next = along direction hex + 2 := by
  obtain ⟨x, y⟩ := next
  have hsix : direction % 6 = 0 ∨ direction % 6 = 1 ∨ direction % 6 = 2 ∨ direction % 6 = 3 ∨
      direction % 6 = 4 ∨ direction % 6 = 5 := by omega
  unfold along
  rcases hsix with hd | hd | hd | hd | hd | hd <;> rw [hd] at h ⊢ <;>
    simp only [HexCoordinate.adjacent, HexCoordinate.DIRECTIONS, HexCoordinate.cube, List.map_cons,
      List.map_nil, List.getElem?_cons_zero, List.getElem?_cons_succ, Option.some.injEq,
      HexCoordinate.mk.injEq] at h ⊢ <;>
    omega

theorem u16_ok {n : Int} {k : UInt16} (h : u16 n = some k) : (k.toNat : Int) = n := by
  unfold u16 at h
  split at h
  · rename_i hn
    injection h with h
    rw [← h, UInt16.toNat_ofNat']
    omega
  · contradiction

namespace World

variable (world : World)

def Placed (id : ObjectId) (here : Position) : Prop :=
  ∃ unit, world.constructed.get? id = some unit ∧ unit.position = some here

theorem destination_ahead {id : ObjectId} {direction : Nat} {position : Position}
    {level source : Int} (h : destination world id direction = .ok (.ok (position, level, source))) :
    ∃ here, world.Placed id here ∧ position.map = here.map ∧
      along direction position.coordinate = along direction here.coordinate + 2 := by
  unfold destination at h
  obtain ⟨unit, hunit, h⟩ := ok_of_bind h
  obtain ⟨here, hhere, h⟩ := ok_of_bind h
  obtain ⟨map, -, h⟩ := ok_of_bind h
  obtain ⟨ground, -, h⟩ := ok_of_bind h
  obtain ⟨hexes, hhexes, h⟩ := ok_of_bind h
  obtain ⟨hex, hhex, h⟩ := ok_of_bind h
  obtain ⟨-, hhexes⟩ := ok_of_ensure hhexes
  injection hhexes with hhexes
  have hnext := along_adjacent (hhexes ▸ ok_of_ofOption hhex)
  refine ⟨here, ⟨unit, ok_of_ofOption hunit, ok_of_ofOption hhere⟩, ?_⟩
  split at h
  · rename_i x y hx hy
    split at h
    · cases h
    · split at h
      · cases h
      · dsimp only at h
        split at h
        · cases h
        · injection h with h
          injection h with h
          injection h with hposition
          refine ⟨by rw [← hposition], ?_⟩
          rw [← hnext, ← hposition]
          unfold Position.coordinate
          rw [u16_ok hx, u16_ok hy]
  · cases h

end World

end StompyMux.Stacking

-- What a displacement does to the hexes along its line.
namespace StompyMux.Stacking

open Library Library.Fallible
open StompyMux.Map

section

variable (aftermath : Aftermath) (direction : Nat) (world : World)

structure Bound (id : ObjectId) (position : Position) (level source : Int) (unit : Mech) : Prop where
  destination : destination world id direction = .ok (.ok (position, level, source))
  unit : world.constructed.get? id = some unit

-- A chain of 'Mechs that moved, on the world that the first one was driven in. `after` is the
-- world when the driven 'Mech has come to rest.
inductive Driven : Nat → ObjectId → World → List ObjectId → Prop
  | alone (links : Nat) (id : ObjectId) (position : Position) (level source : Int) (unit : Mech)
      (crowded : Bool) (after : World) (report : Displacement)
      (bound : Bound direction world id position level source unit)
      (room : crowded = exceedsLimit true unit.team (world.occupants position id))
      (free : ¬ (crowded ∧ source - level < 2))
      (entered : enter aftermath world id position level (source - level) crowded [] =
        .ok (after, report)) : Driven links id after []
  | shoving (links : Nat) (id : ObjectId) (position : Position) (level source : Int) (unit : Mech)
      (other : Occupant) (mid after : World) (dominoes : List ObjectId) (report : Displacement)
      (bound : Bound direction world id position level source unit)
      (found : (world.occupants position id).find? (fun other => other.mech) = some other)
      (chain : Driven links other.id mid dominoes)
      (entered : enter aftermath mid id position level (source - level) true
        (other.id :: dominoes) = .ok (after, report)) :
      Driven (links + 1) id after (other.id :: dominoes)

theorem enter_report {id : ObjectId} {position : Position} {level drop : Int} {crowded : Bool}
    {dominoes : List ObjectId} {after : World} {report : Displacement}
    (h : enter aftermath world id position level drop crowded dominoes = .ok (after, report)) :
    report.moved = true ∧ report.dominoes = dominoes := by
  unfold enter at h
  obtain ⟨placed, -, h⟩ := ok_of_bind h
  split at h
  · obtain ⟨landed, -, h⟩ := ok_of_bind h
    injection h with h
    injection h with _ hreport
    rw [← hreport]
    exact ⟨rfl, rfl⟩
  · obtain ⟨fallen, -, h⟩ := ok_of_bind h
    obtain ⟨breached, -, h⟩ := ok_of_bind h
    injection h with h
    injection h with _ hreport
    rw [← hreport]
    exact ⟨rfl, rfl⟩

theorem displaceChain_cases (links : Nat) (id : ObjectId) (after : World) (report : Displacement)
    (h : displaceChain aftermath direction links world id = .ok (after, report)) :
    (report.moved = false ∧ after = world ∧ report.dominoes = []) ∨
    (report.moved = true ∧ Driven aftermath direction world links id after report.dominoes) := by
  induction links using Nat.strong_induction_on generalizing id after report with
  | _ links ih =>
    have hstays : ∀ reason, (.ok (world, .blockedBy reason) : Except Error _) = .ok (after, report) →
        report.moved = false ∧ after = world ∧ report.dominoes = [] := by
      intro reason hreason
      injection hreason with hreason
      injection hreason with hworld hreport
      rw [← hreport]
      exact ⟨rfl, hworld.symm, rfl⟩
    rw [displaceChain.eq_def] at h
    obtain ⟨found, hfound, h⟩ := ok_of_bind h
    split at h
    · exact Or.inl (hstays _ h)
    · rename_i position level source
      obtain ⟨unit, hunit, h⟩ := ok_of_bind h
      have hbound : Bound direction world id position level source unit :=
        ⟨hfound, ok_of_ofOption hunit⟩
      dsimp only at h
      split at h
      · rename_i hcrowded
        split at h
        · exact Or.inl (hstays _ h)
        · rename_i other hother
          cases links with
          | zero => exact Or.inl (hstays _ h)
          | succ rest =>
              obtain ⟨⟨mid, shoved⟩, hshoved, h⟩ := ok_of_bind h
              have hrest := ih rest (Nat.lt_succ_self rest) other.id mid shoved hshoved
              split at h
              · rename_i hmoved
                obtain ⟨hunmoved, -⟩ | ⟨-, hchain⟩ := hrest
                · rw [hunmoved] at hmoved
                  contradiction
                · rw [hcrowded.1] at h
                  obtain ⟨hentered, hdominoes⟩ := enter_report aftermath _ h
                  rw [hdominoes]
                  exact Or.inr ⟨hentered, .shoving rest id position level source unit other mid after
                    _ report hbound hother hchain h⟩
              · rename_i hunmoved
                obtain ⟨-, hmid, -⟩ | ⟨hmoved, -⟩ := hrest
                · rw [hmid] at h
                  exact Or.inl (hstays _ h)
                · exact absurd hmoved hunmoved
      · rename_i hfree
        obtain ⟨hmoved, hdominoes⟩ := enter_report aftermath _ h
        rw [hdominoes]
        exact Or.inr ⟨hmoved, .alone links id position level source unit _ after report hbound rfl
          hfree h⟩

end

namespace World

variable (world : World)

theorem Placed.unique {id : ObjectId} {here there : Position} (h : world.Placed id here)
    (h' : world.Placed id there) : here = there := by
  obtain ⟨unit, hunit, hhere⟩ := h
  obtain ⟨other, hother, hthere⟩ := h'
  rw [hunit] at hother
  injection hother with hother
  rw [hother, hthere] at hhere
  injection hhere with hhere
  exact hhere.symm

theorem placed_of_standing {position : Position} {unit : Occupant}
    (h : unit ∈ world.standing position) (hmech : unit.mech = true) : world.Placed unit.id position := by
  obtain ⟨mech, hget, -, hposition, -⟩ | ⟨vehicle, -, -, -, -, hunit⟩ :=
    (world.mem_gather position _ unit).mp h
  · exact ⟨mech, hget, hposition⟩
  · rw [hunit] at hmech
    contradiction

theorem standing_mech {id : ObjectId} {mech : Mech} (hget : world.constructed.get? id = some mech)
    {position : Position} {unit : Occupant} (h : unit ∈ world.standing position) (hid : unit.id = id) :
    mech.position = some position ∧ mech.stands = true ∧ unit = ⟨id, true, mech.team⟩ := by
  obtain ⟨found, hfound, -, hposition, hstands, hunit⟩ | ⟨vehicle, hvehicle, -⟩ :=
    (world.mem_gather position _ unit).mp h
  · rw [hid, hget] at hfound
    injection hfound with hfound
    rw [hfound, ← hid]
    exact ⟨hposition, hstands, hunit⟩
  · have hapart := world.apart id
    rw [OrderedMap.mem_keys_iff, OrderedMap.mem_keys_iff, ← hid, hvehicle, hid, hget] at hapart
    exact absurd rfl (hapart rfl)

end World

-- The 'Mech stands in the hex, and nothing else has changed.
structure Moved (world : World) (id : ObjectId) (position : Position) (after : World) : Prop where
  maps : after.maps = world.maps
  vehicles : after.vehicles = world.vehicles
  others : ∀ other, other ≠ id → after.constructed.get? other = world.constructed.get? other
  mech : ∀ unit, world.constructed.get? id = some unit → ∃ moved,
    after.constructed.get? id = some moved ∧ moved.position = some position ∧
    moved.team = unit.team ∧ moved.stands = unit.stands

section

variable (aftermath : Aftermath) (world : World) (id : ObjectId) (position : Position)

theorem enter_moved {level drop : Int} {crowded : Bool} {dominoes : List ObjectId} {after : World}
    {report : Displacement} (hdrop : drop < 2)
    (hopen : ∀ map tile, world.maps.get? position.map = some map →
      map.baseHex position.coordinate = .ok tile → tile.hasBuilding = false)
    (h : enter aftermath world id position level drop crowded dominoes = .ok (after, report)) :
    Moved world id position after := by
  unfold enter at h
  obtain ⟨placed, hplaced, h⟩ := ok_of_bind h
  unfold World.relocate at hplaced
  obtain ⟨map, hmap, hplaced⟩ := ok_of_bind hplaced
  obtain ⟨tile, htile, hplaced⟩ := ok_of_bind hplaced
  obtain ⟨unit, hunit, hplaced⟩ := ok_of_bind hplaced
  obtain ⟨-, hplaced⟩ := ok_of_ensure hplaced
  injection hplaced with hplaced
  replace hmap := ok_of_ofOption hmap
  replace hunit := ok_of_ofOption hunit
  have hmech : (placed.movement id).constructed.get? id =
      some (unit.standAt position tile level).breakCover := by
    rw [← hplaced]
    unfold World.movement World.setMech
    rw [OrderedMap.get?_modify, if_pos rfl, OrderedMap.get?_modify, if_pos rfl, hunit]
    rfl
  have hmoved : Moved world id position (placed.movement id) := by
    refine ⟨by rw [← hplaced]; rfl, by rw [← hplaced]; rfl, ?_, ?_⟩
    · intro other hother
      rw [← hplaced]
      unfold World.movement World.setMech
      rw [OrderedMap.get?_modify, if_neg hother, OrderedMap.get?_modify, if_neg hother]
    · intro found hfound
      rw [hunit] at hfound
      injection hfound with hfound
      exact ⟨_, hmech, rfl, by rw [← hfound]; rfl, by rw [← hfound]; rfl⟩
  rw [if_neg (by omega)] at h
  obtain ⟨fallen, hfallen, h⟩ := ok_of_bind h
  unfold fallFrom at hfallen
  rw [if_neg (by omega)] at hfallen
  injection hfallen with hfallen
  obtain ⟨breached, hbreached, h⟩ := ok_of_bind h
  injection h with h
  injection h with hafter _
  -- the 'Mech is not inside a building
  have hout : fallen.unitInside id = .ok false := by
    unfold World.unitInside
    rw [← hfallen, hmech]
    have hmaps : ofOption "Map not found" ((placed.movement id).maps.get? position.map) = .ok map := by
      rw [hmoved.maps, hmap]
      rfl
    have hlevel : inside tile ((unit.standAt position tile level).breakCover.elevationLevel tile) =
        false := by
      unfold inside
      rw [hopen map tile hmap htile]
      rfl
    refine bind_ok rfl (bind_ok hmaps (bind_ok htile ?_))
    rw [hlevel]
  unfold breachDisplaced at hbreached
  rw [hout] at hbreached
  injection hbreached with hbreached
  rw [← hafter, ← hbreached, ← hfallen]
  exact hmoved

end

end StompyMux.Stacking
