import StompyMux.Library.Extinction
import StompyMux.Woodland.Overlays

-- One second of the fires and of the smoke on a map.
namespace StompyMux.Woodland

open StompyMux.Btech (Dice)
open Library Library.Fallible
open StompyMux.Map

structure Wind where
  direction : Int
  speed : Int

namespace Decoration

variable (effect : Decoration)

def timedFire : Bool := effect.isFire && effect.remaining ≠ 0

def timedSmoke : Bool := effect.kind = .Smoke && 0 < effect.remaining

-- One second of a fire's clock: the time to the next spread, or what remains when there is none.
def aged : Decoration :=
  if effect.timedFire then
    match effect.nextSpread with
    | some seconds => { effect with nextSpread := some (UInt16.ofNat (seconds.toNat - 1)) }
    | none => { effect with remaining := max (effect.remaining - 1) (-2 ^ 63) }
  else effect

def isDue : Bool := effect.remaining = 0 || effect.nextSpread = some 0

-- What a spread leaves of a fire.
def spent (interval : UInt16) : Decoration :=
  let duration := effect.objectDuration - interval.toInt16
  let remaining := max duration.toInt 1
  { effect with
    objectDuration := duration
    remaining := remaining
    nextSpread := if remaining > interval.toNat then some interval else none }

-- Smoke has one clock only, and no smoke is left once it has run down.
def cleared : Option Decoration :=
  if effect.kind ≠ .Smoke || effect.remaining = 0 then some effect
  else
    let remaining := max (effect.remaining - 1) (-2 ^ 63)
    if 0 < remaining then some { effect with remaining } else none

end Decoration

-- Ice and snow melt to mud under a fire, and ice on water is open water again.
def melted (hex : Hex) : Option Hex :=
  match hex.condition with
  | some .Ice => some (hex.withCondition (if hex.water.isNone then some .Mud else none))
  | some .ThinSnow | some .DeepSnow =>
      if hex.water.isNone then some (hex.withCondition (some .Mud)) else none
  | _ => none

def burnOut (hex : Hex) : Option Hex :=
  let tile := (melted hex).getD hex
  match tile.foliage with
  | none => melted hex
  | some foliage => some (((WoodlandClearing.of foliage).apply tile).getD tile)

-- An overlay that a fire installs, and the map it finds.
structure Installation where
  before : StoredMap
  index : Nat
  effect : Decoration

-- The work on the fires that are due, with what they have installed so far.
structure Sweep where
  map : StoredMap
  installed : List Installation

namespace Sweep

variable (sweep : Sweep)

def replaced (index : Nat) : Bool := sweep.installed.any (fun installation => installation.index = index)

def install (map : StoredMap) (index : Nat) (effect : Decoration) : Except Error Sweep := do
  let map' ← map.installDecoration index effect
  .ok ⟨map', sweep.installed ++ [⟨map, index, effect⟩]⟩

end Sweep

namespace StoredMap

variable (map : StoredMap)

def blow (wind : Wind) : StoredMap := { map with windDirection := wind.direction, windSpeed := wind.speed }

def firePending : Bool := map.decorations.values.any Decoration.timedFire

def smokePending : Bool := map.decorations.values.any Decoration.timedSmoke

def advanceSmoke : StoredMap :=
  if !map.smokePending then map
  else
    let left := map.decorations.retain (fun _ effect => effect.cleared.isSome)
    { map with decorations := left.mapEntries (fun _ effect => effect.cleared.getD effect) }

def neighbors (coordinate : HexCoordinate) : Except Error (List (Option HexCoordinate)) := do
  ensure (0 ≤ map.width && map.width < 2 ^ 16) "Map width out of range"
  ensure (0 ≤ map.height && map.height < 2 ^ 16) "Map height out of range"
  .ok (coordinate.neighborsWithin (UInt16.ofNat map.width.toNat) (UInt16.ofNat map.height.toNat))

-- The neighbor of a hex that may be off the map.
def neighborOf (direction : Nat) : Option HexCoordinate → Except Error (Option HexCoordinate)
  | some coordinate => do
      let around ← map.neighbors coordinate
      .ok (around[direction]?).join
  | none => .ok none

-- The neighbor downwind, the ones on either side of it, and the second hex downwind.
def spreadHexes (origin : HexCoordinate) : Except Error (List (Option Nat)) := do
  let downwind := ((map.windDirection + 180 + 30) / 60 % 6).toNat
  let around ← map.neighbors origin
  let first := (around[downwind]?).join
  let second ← map.neighborOf downwind first
  let hexes := [first, (around[(downwind + 5) % 6]?).join, (around[(downwind + 1) % 6]?).join, second]
  .ok (hexes.map (fun hex => hex.map (fun hex => map.position hex.x hex.y)))

-- A second die against the wind is thrown only where the first throw reaches its threshold.
def ignitions (windSpeed : Int) : List Nat → Dice → List Bool × Dice
  | [], dice => ([], dice)
  | threshold :: rest, dice =>
      let (roll, dice) := dice.genericRoll
      if threshold ≤ roll then
        let (die, dice) := dice.die 60
        let (later, dice) := ignitions windSpeed rest dice
        (decide ((die : Int) ≤ windSpeed) :: later, dice)
      else
        let (later, dice) := ignitions windSpeed rest dice
        (false :: later, dice)

def noStream : String := "called Option::unwrap() on a None value"

def noEntry : String := "no entry found for key"

def draw (sides : Nat) : Except Error (Nat × StoredMap) := do
  let dice ← ofOption noStream map.fireDice
  let (roll, dice) := dice.die sides
  .ok (roll, { map with fireDice := some dice })

-- A spread keeps its deadline when the wind changes, and spends the current interval.
def spend (index : Nat) : StoredMap :=
  let interval := map.fireSpreadInterval
  { map with decorations := map.decorations.modify index (fun effect => effect.spent interval) }

end StoredMap

namespace Sweep

variable (sweep : Sweep)

def placeSmoke (sweep : Sweep) (index : Nat) : Except Error Sweep := do
  if (sweep.map.decorations.get? index).isSome then .ok sweep
  else
    let (roll, map) ← sweep.map.draw 61
    sweep.install map index (.new .Smoke (89 + roll) none)

def ignite (sweep : Sweep) (target : Option Nat × Bool) : Except Error Sweep := do
  match target with
  | (some index, true) =>
      let map := sweep.map
      let burning := (map.decorations.get? index).any Decoration.isFire
      let coordinate := map.coordinateAt index
      if burning then .ok sweep
      else
        let hex ← map.baseHex coordinate.x coordinate.y
        if !hex.isWoods then .ok sweep
        else
          let (roll, map) ← map.draw 121
          sweep.install map index (.new .Fire (59 + roll) (some map.fireSpreadInterval))
  | _ => .ok sweep

-- All checks of the spread come before the durations of the smoke and of the fires.
def spread (index : Nat) : Except Error Sweep := do
  let targets ← sweep.map.spreadHexes (sweep.map.coordinateAt index)
  let dice ← ofOption StoredMap.noStream sweep.map.fireDice
  let (lit, dice) := StoredMap.ignitions sweep.map.windSpeed [9, 11, 11, 12] dice
  let sweep := { sweep with map := { sweep.map with fireDice := some dice } }
  let sweep ← (targets.filterMap id).foldlM placeSmoke sweep
  (targets.zip lit).foldlM ignite sweep

def burnDown (index : Nat) : Except Error Sweep := do
  let map := { sweep.map with decorations := sweep.map.decorations.remove index }
  let coordinate := map.coordinateAt index
  let tile ← map.baseHex coordinate.x coordinate.y
  match burnOut tile with
  | some burnt => do
      let map ← map.writeHex coordinate.x coordinate.y burnt
      .ok { sweep with map := { map with terrainDamage := map.terrainDamage.remove index } }
  | none => .ok { sweep with map := map }

def work (sweep : Sweep) (index : Nat) : Except Error Sweep := do
  if sweep.replaced index then .ok sweep
  else
    let effect ← ofOption StoredMap.noEntry (sweep.map.decorations.get? index)
    if effect.nextSpread = some 0 then
      let sweep ← sweep.spread index
      if sweep.replaced index then .ok sweep
      else
        let _ ← ofOption StoredMap.noEntry (sweep.map.decorations.get? index)
        .ok { sweep with map := sweep.map.spend index }
    else if effect.remaining = 0 then sweep.burnDown index
    else .ok sweep

end Sweep

namespace StoredMap

variable (map : StoredMap)

-- All clocks of one second before any work on the fires.
def ageFires : StoredMap :=
  { map with decorations := map.decorations.mapEntries (fun _ effect => effect.aged) }

def dueFires : List Nat :=
  (map.decorations.entries.filter (fun entry => entry.2.timedFire && entry.2.aged.isDue)).map Prod.fst

def sweepFires : Except Error Sweep := map.dueFires.foldlM Sweep.work ⟨map.ageFires, []⟩

def advanceFire : Except Error StoredMap := do
  if !map.firePending then .ok map
  else
    map.validate
    let sweep ← map.sweepFires
    .ok sweep.map

-- The smoke goes first; a failure takes the whole second back.
def second (wind : Wind) : Except Error StoredMap := do
  let map := (map.blow wind).advanceSmoke
  if !map.firePending then .ok map
  else
    let map ← map.advanceFire
    map.validate
    .ok map

end StoredMap

section Ground

variable (hex : Hex)

theorem validateLayer_ok_iff {T : Type} (check : T → Except Error Unit) (layer : Option T) :
    Hex.validateLayer check layer = .ok () ↔ ∀ value, layer = some value → check value = .ok () := by
  cases layer with
  | none => exact ⟨fun _ value h => by contradiction, fun _ => rfl⟩
  | some value => exact ⟨fun h _ hvalue => Option.some.inj hvalue ▸ h, fun h => h value rfl⟩

theorem validate_ok_iff : hex.validate = .ok () ↔
    (hex.level ≤ MAX_HEIGHT ∧ (hex.structure'.map Structure.height).getD 0 ≤ MAX_HEIGHT ∧
      hex.waterDepth ≤ MAX_DEPTH) ∧
    (∀ water, hex.water = some water → hex.validateWater water = .ok ()) ∧
    (∀ foliage, hex.foliage = some foliage → hex.ground.supportsFoliage = true) ∧
    (hex.ground ≠ .Magma ∨ hex.condition = none ∧ hex.route = none) ∧
    (∀ s, hex.structure' = some s → hex.validateStructure s = .ok ()) := by
  unfold Hex.validate
  rw [ensure_bind_ok_iff]
  cases hex.structure' <;>
    simp only [unit_bind_ok_iff, validateLayer_ok_iff, Hex.validateFoliage, ensure_ok_iff,
      Bool.and_eq_true, Bool.or_eq_true, decide_eq_true_eq, bne_iff_ne, ne_eq,
      Option.isNone_iff_eq_none, and_assoc, Option.map_none, Option.map_some, Option.getD_none,
      Option.getD_some]

theorem growth_dry {foliage : Foliage} (h : hex.validate = .ok ()) (hfoliage : hex.foliage = some foliage) :
    hex.water = none ∧ hex.structure' = none ∧ hex.ground ≠ .Magma := by
  obtain ⟨-, hwater, hground, -, hstructure⟩ := (validate_ok_iff hex).mp h
  have hdry : hex.water = none := by
    cases hw : hex.water with
    | none => rfl
    | some water =>
      obtain ⟨-, h⟩ := ok_of_ensure (hwater water hw)
      obtain ⟨hbare, -⟩ := ok_of_ensure h
      rw [hfoliage] at hbare
      contradiction
  refine ⟨hdry, ?_, ?_⟩
  · cases hs : hex.structure' with
    | none => rfl
    | some s =>
      obtain ⟨-, h⟩ := ok_of_ensure (hstructure s hs)
      rw [hdry, hfoliage] at h
      cases hkind : s.kind <;> rw [hkind] at h <;> contradiction
  · intro hmagma
    have hsupports := hground foliage hfoliage
    rw [hmagma] at hsupports
    contradiction

theorem melted_spec {tile : Hex} (h : hex.validate = .ok ()) (hmelted : melted hex = some tile) :
    tile.validate = .ok () ∧ tile.foliage = hex.foliage ∧ tile.overlay = hex.overlay := by
  obtain ⟨hheights, hwater, hground, hmagma, hstructure⟩ := (validate_ok_iff hex).mp h
  have hfrozen : hex.condition ≠ none := by
    intro hnone
    unfold melted at hmelted
    rw [hnone] at hmelted
    contradiction
  have hsolid : hex.ground ≠ .Magma := hmagma.resolve_right fun hbare => hfrozen hbare.1
  have hshape : ∃ condition, tile = hex.withCondition condition ∧ (condition = none ∨ hex.water = none) := by
    unfold melted at hmelted
    split at hmelted
    · cases hmelted
      refine ⟨_, rfl, ?_⟩
      cases hex.water with
      | none => exact .inr rfl
      | some water => exact .inl rfl
    all_goals first
      | contradiction
      | split at hmelted
        · rename_i hdry
          cases hmelted
          exact ⟨_, rfl, .inr (Option.isNone_iff_eq_none.mp hdry)⟩
        · contradiction
  obtain ⟨condition, rfl, hcondition⟩ := hshape
  refine ⟨?_, rfl, rfl⟩
  refine (validate_ok_iff _).mpr ⟨hheights, fun water hw => ?_, hground, .inl hsolid, hstructure⟩
  have hnone : condition = none := hcondition.resolve_right fun hdry => by
    rw [show hex.water = some water from hw] at hdry
    contradiction
  have hold := hwater water hw
  unfold Hex.validateWater at hold ⊢
  rw [hnone]
  simp only [ensure_bind_ok_iff, ensure_ok_iff] at hold ⊢
  exact ⟨hold.1, hold.2.1, rfl, hold.2.2.2⟩

-- Growth that burns out thins by one density, or is gone.
def burntGrowth (foliage : Foliage) : Hex :=
  match foliage.thinned with
  | some thinner => hex.withFoliage (some thinner)
  | none => felled hex foliage

theorem apply_of {foliage : Foliage} (hfoliage : hex.foliage = some foliage) :
    (WoodlandClearing.of foliage).apply hex = some (burntGrowth hex foliage) := by
  unfold WoodlandClearing.apply burntGrowth felled
  rw [hfoliage]
  cases foliage <;> rfl

theorem woodsDensity_eq {foliage : Foliage} (hfoliage : hex.foliage = some foliage) :
    hex.woodsDensity = (foliage.density.map Density.points).getD 0 := by
  unfold Hex.woodsDensity
  rw [hfoliage]
  rfl

theorem isWoods_iff : hex.isWoods = true ↔ 0 < hex.woodsDensity := by
  unfold Hex.isWoods Hex.woodsDensity
  cases hex.foliage.bind Foliage.density with
  | none => exact ⟨fun h => by contradiction, fun h => by contradiction⟩
  | some density =>
    refine ⟨fun _ => ?_, fun _ => rfl⟩
    cases density <;> decide

theorem burntGrowth_spec {foliage : Foliage} (h : hex.validate = .ok ()) (hfoliage : hex.foliage = some foliage) :
    (burntGrowth hex foliage).validate = .ok () ∧ (burntGrowth hex foliage).overlay = hex.overlay ∧
      (burntGrowth hex foliage).woodsDensity = hex.woodsDensity - 1 := by
  obtain ⟨hdry, hbare, hsolid⟩ := growth_dry hex h hfoliage
  obtain ⟨hheights, -, hground, -, -⟩ := (validate_ok_iff hex).mp h
  -- all that can be left is dry ground without a structure, as it was
  have hkept : ∀ tile : Hex, tile.level = hex.level → tile.structure' = hex.structure' →
      tile.water = hex.water → tile.ground ≠ .Magma →
      (∀ f, tile.foliage = some f → tile.ground.supportsFoliage = true) → tile.validate = .ok () := by
    intro tile hlevel hstructure hwater hmagma hsupports
    refine (validate_ok_iff tile).mpr ⟨?_, fun water hw => ?_, hsupports, .inl hmagma, fun s hs => ?_⟩
    · unfold Hex.waterDepth at hheights ⊢
      rw [hlevel, hstructure, hwater]
      exact hheights
    · rw [hwater, hdry] at hw
      contradiction
    · rw [hstructure, hbare] at hs
      contradiction
  have hdensity := woodsDensity_eq hex hfoliage
  unfold burntGrowth
  cases hthinned : foliage.thinned with
  | some thinner =>
    refine ⟨hkept _ rfl rfl rfl hsolid fun _ _ => hground foliage hfoliage, rfl, ?_⟩
    rw [hdensity]
    cases foliage <;> cases hthinned <;> rfl
  | none =>
    dsimp only [felled]
    rw [hdensity]
    split
    · refine ⟨hkept _ rfl rfl rfl (show Ground.Rough ≠ Ground.Magma by decide) fun _ hnone => by contradiction, rfl, ?_⟩
      cases foliage <;> first | contradiction | rfl
    · refine ⟨hkept _ rfl rfl rfl hsolid fun _ hnone => by contradiction, rfl, ?_⟩
      rename_i hcrops
      cases foliage <;> first | contradiction | rfl

theorem burnOut_some {burnt : Hex} (h : hex.validate = .ok ()) (hburnt : burnOut hex = some burnt) :
    burnt.validate = .ok () ∧ burnt.overlay = hex.overlay ∧ burnt.woodsDensity = hex.woodsDensity - 1 := by
  have hmelted : ((melted hex).getD hex).validate = .ok () ∧
      ((melted hex).getD hex).foliage = hex.foliage ∧ ((melted hex).getD hex).overlay = hex.overlay := by
    cases hm : melted hex with
    | none => exact ⟨h, rfl, rfl⟩
    | some tile => exact melted_spec hex h hm
  obtain ⟨hvalid, hfoliage, hoverlay⟩ := hmelted
  have hdensity : ((melted hex).getD hex).woodsDensity = hex.woodsDensity := by
    unfold Hex.woodsDensity
    rw [hfoliage]
  unfold burnOut at hburnt
  generalize (melted hex).getD hex = tile at hvalid hfoliage hoverlay hdensity hburnt
  cases hgrowth : tile.foliage with
  | none =>
    dsimp only at hburnt
    rw [hgrowth] at hburnt
    obtain ⟨hvalid', hfoliage', hoverlay'⟩ := melted_spec hex h hburnt
    refine ⟨hvalid', hoverlay', ?_⟩
    unfold Hex.woodsDensity
    rw [hfoliage', ← hfoliage, hgrowth]
    rfl
  | some foliage =>
    dsimp only at hburnt
    rw [hgrowth] at hburnt
    dsimp only at hburnt
    rw [apply_of tile hgrowth, Option.getD_some] at hburnt
    cases hburnt
    obtain ⟨hvalid', hoverlay', hdensity'⟩ := burntGrowth_spec tile hvalid hgrowth
    exact ⟨hvalid', hoverlay'.trans hoverlay, hdensity'.trans (by rw [hdensity])⟩

theorem burnOut_none (h : burnOut hex = none) : hex.woodsDensity = 0 := by
  unfold burnOut at h
  dsimp only at h
  cases hgrowth : ((melted hex).getD hex).foliage with
  | some foliage =>
    rw [hgrowth] at h
    contradiction
  | none =>
    rw [hgrowth] at h
    rw [show melted hex = none from h] at hgrowth
    unfold Hex.woodsDensity
    rw [show hex.foliage = none from hgrowth]
    rfl

end Ground

namespace Decoration

variable (effect : Decoration)

-- No fire that is installed by another one has more seconds on its clock.
def longest : Nat := 11100

-- The most seconds that a fire has left. Each spread takes more than the interval off it. A negative
-- duration wraps once.
def clock : Nat :=
  if effect.remaining = 0 then 0
  else
    match effect.nextSpread with
    | some seconds => seconds.toNat + 61 * (if effect.objectDuration.toInt < 0 then 2 ^ 16
        else effect.objectDuration.toInt.toNat) + 60
    | none => effect.remaining.toNat

theorem valid_iff : effect.valid = true ↔ effect.order < 0 ∧
    (-2 ^ 15 ≤ effect.remaining ∧ effect.remaining ≤ 2 ^ 32 - 1) ∧
    (0 ≤ effect.remaining ∨ effect.kind = .Fire ∧ effect.nextSpread.isSome = true) ∧
    (effect.remaining = 0 → effect.nextSpread = none) ∧
    (∀ seconds, effect.nextSpread = some seconds → 1 ≤ seconds ∧ seconds ≤ 60) ∧
    (effect.kind = .Fire ∨ effect.nextSpread = none) := by
  unfold valid
  simp only [Bool.and_eq_true, Bool.or_eq_true, decide_eq_true_eq, Option.all_eq_true, and_assoc,
    Option.isNone_iff_eq_none, ne_eq, ← imp_iff_not_or, decide_not, Bool.not_eq_eq_eq_not,
    Bool.not_true, decide_eq_false_iff_not]

theorem timedFire_iff : effect.timedFire = true ↔ effect.kind = .Fire ∧ effect.remaining ≠ 0 := by
  unfold timedFire isFire
  simp only [Bool.and_eq_true, decide_eq_true_eq]

theorem clock_aged (hvalid : effect.valid = true) (htimed : effect.timedFire = true) :
    effect.aged.clock + 1 ≤ effect.clock := by
  obtain ⟨-, -, hpositive, hpermanent, hspread, -⟩ := effect.valid_iff.mp hvalid
  obtain ⟨-, hremaining⟩ := effect.timedFire_iff.mp htimed
  unfold aged
  rw [if_pos htimed]
  cases hnext : effect.nextSpread with
  | some seconds =>
    obtain ⟨hseconds, hlast⟩ := hspread seconds hnext
    have hone : 1 ≤ seconds.toNat := UInt16.le_iff_toNat_le.mp hseconds
    have hless : (UInt16.ofNat (seconds.toNat - 1)).toNat = seconds.toNat - 1 :=
      UInt16.toNat_ofNat_of_lt' (lt_of_le_of_lt (Nat.sub_le _ _) seconds.toNat_lt)
    unfold clock
    rw [if_neg hremaining, if_neg hremaining, hnext]
    dsimp only
    omega
  | none =>
    have hleft : 0 ≤ effect.remaining := hpositive.resolve_right fun h => by
      rw [hnext] at h
      exact absurd h.2 (by decide)
    unfold clock
    rw [if_neg hremaining, hnext]
    dsimp only
    split
    · omega
    · omega

theorem spent_duration {interval : UInt16} (h : interval.toNat ≤ 60) :
    (effect.spent interval).objectDuration.toInt =
      if -2 ^ 15 ≤ effect.objectDuration.toInt - interval.toNat then effect.objectDuration.toInt - interval.toNat
      else effect.objectDuration.toInt - interval.toNat + 2 ^ 16 := by
  have hinterval : interval.toInt16.toInt = interval.toNat := by
    have heq : interval = UInt16.ofNat interval.toNat := UInt16.ofNat_toNat.symm
    rw [heq, UInt16.toInt16_ofNat', ← heq]
    exact Int16.toInt_ofNat_of_lt (by omega)
  have hlow := effect.objectDuration.le_toInt
  have hhigh := effect.objectDuration.toInt_lt
  show (effect.objectDuration - interval.toInt16).toInt = _
  rw [Int16.toInt_sub, hinterval, Int.bmod_def]
  split <;> split <;> omega

-- A spread costs more than there are overlays that it can install.
theorem clock_spent (interval : UInt16) (hlow : 20 ≤ interval.toNat) (hhigh : interval.toNat ≤ 60)
    (hremaining : effect.remaining ≠ 0) (hnext : effect.nextSpread = some 0) :
    (effect.spent interval).clock + 8 ≤ effect.clock := by
  have hduration := effect.spent_duration hhigh
  have hlast := effect.objectDuration.le_toInt
  have hmost := effect.objectDuration.toInt_lt
  have hbefore : effect.clock = 61 * (if effect.objectDuration.toInt < 0 then 2 ^ 16
      else effect.objectDuration.toInt.toNat) + 60 := by
    unfold clock
    rw [if_neg hremaining, hnext]
    dsimp only
    rw [show (0 : UInt16).toNat = 0 from rfl, Nat.zero_add]
  have hleft : (effect.spent interval).remaining = max (effect.spent interval).objectDuration.toInt 1 := rfl
  have hspread : (effect.spent interval).nextSpread =
      if (effect.spent interval).remaining > interval.toNat then some interval else none := rfl
  rw [hbefore]
  unfold clock
  rw [if_neg (by omega), hspread]
  generalize (effect.spent interval).remaining = remaining at hleft ⊢
  generalize (effect.spent interval).objectDuration.toInt = left at hduration hleft ⊢
  generalize effect.objectDuration.toInt = duration at hduration hlast hmost ⊢
  by_cases hmore : remaining > interval.toNat
  · rw [if_pos hmore]
    dsimp only
    split at hduration <;> split <;> split <;> omega
  · rw [if_neg hmore]
    dsimp only
    split at hduration <;> split <;> omega

theorem clock_new {seconds : Nat} {interval : UInt16} (hlow : 0 < seconds) (hhigh : seconds ≤ 180)
    (hinterval : interval.toNat ≤ 60) : (new .Fire seconds (some interval)).clock ≤ longest := by
  have hduration : (new .Fire seconds (some interval)).objectDuration.toInt = seconds := by
    show (Int16.ofInt (max (-2 ^ 15) (min (seconds : Int) (2 ^ 15 - 1)))).toInt = _
    rw [Int16.toInt_ofInt_of_le (by omega) (by omega)]
    omega
  unfold clock longest
  rw [if_neg (show (new .Fire seconds (some interval)).remaining ≠ 0 from by
    show (seconds : Int) ≠ 0
    omega), hduration]
  show interval.toNat + 61 * (if (seconds : Int) < 0 then 2 ^ 16 else (seconds : Int).toNat) + 60 ≤ 11100
  rw [if_neg (by omega)]
  omega

end Decoration

end StompyMux.Woodland
