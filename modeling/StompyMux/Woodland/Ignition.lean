import StompyMux.Construction.Weapon
import StompyMux.Library.Machine
import StompyMux.Woodland.Overlays

-- Weapon fire that reaches a hex of growth.
namespace StompyMux.Construction.Weapon

-- The weapons whose skill is gunnery with lasers.
def gunneryLaser : List Weapon :=
  [APod, ClanAPod, BPod, ClanBPod, LaserAms, ClanLaserAms, ClanErLargeLaser, ClanErMediumLaser,
    ClanErSmallLaser, ClanErMicroLaser, ClanErPpc, ClanFlamer, ClanHeavyLargeLaser,
    ClanHeavyMediumLaser, ClanHeavySmallLaser, ClanLargePulseLaser, ClanMediumPulseLaser,
    ClanSmallPulseLaser, ClanMicroPulseLaser, ClanErLargePulseLaser, ClanErMediumPulseLaser,
    ClanErSmallPulseLaser, ClanPlasmaCannon, Flamer, SmallLaser, MediumLaser, LargeLaser, Ppc,
    ErSmallLaser, ErMediumLaser, ErLargeLaser, ErPpc, SmallPulseLaser, MediumPulseLaser,
    LargePulseLaser, XSmallPulseLaser, XMediumPulseLaser, XLargePulseLaser, LightPpc, HeavyPpc,
    SnubNosedPpc]

def isPlasma (weapon : Weapon) : Bool := [PlasmaRifle, ClanPlasmaCannon].contains weapon

def isEnergy (weapon : Weapon) : Bool :=
  if [APod, ClanAPod, BPod, ClanBPod, LaserAms, ClanLaserAms].contains weapon then false
  else if [HeavyFlamer, VehicleFlamer, PlasmaRifle].contains weapon then true
  else gunneryLaser.contains weapon

-- Whether ordinary ammunition can start a fire.
def canIgniteTerrain (weapon : Weapon) : Bool :=
  !([INarcBeacon, NarcBeacon, ClanNarcBeacon, ClanSrm2, ClanStreakSrm2, ClanGaussRifle,
    ClanApGaussRifle, ClanHag20, ClanHag30, ClanHag40, ClanMachineGun, ClanLightMachineGun,
    ClanHeavyMachineGun, ClanErSmallLaser, ClanHeavySmallLaser, ClanSmallPulseLaser,
    ClanErSmallPulseLaser, MachineGun, LightMachineGun, HeavyMachineGun, SmallLaser, ErSmallLaser,
    SmallPulseLaser, XSmallPulseLaser, Srm2, StreakSrm2, HeavyGaussRifle, GaussRifle,
    LightGaussRifle, MagshotGaussRifle].contains weapon)

def canClearTerrain (weapon : Weapon) : Bool :=
  !([ClanLbx2, ClanLbx5, ClanUltraAc2, ClanUltraAc5, ClanSrm2, ClanStreakSrm2, ClanApGaussRifle,
    ClanMachineGun, ClanLightMachineGun, ClanHeavyMachineGun, ClanErSmallLaser,
    ClanHeavySmallLaser, ClanSmallPulseLaser, ClanErSmallPulseLaser, HyperAc2, HyperAc5, MachineGun,
    LightMachineGun, HeavyMachineGun, LightAc2, LightAc5, SmallLaser, ErSmallLaser,
    SmallPulseLaser, XSmallPulseLaser, Srm2, StreakSrm2, Lbx2, Lbx5, Ac2, Ac5, UltraAc2, UltraAc5,
    RotaryAc2, RotaryAc5, ClanRotaryAc2, ClanRotaryAc5].contains weapon)

end StompyMux.Construction.Weapon

namespace StompyMux.Woodland

open StompyMux.Btech (Dice)
open StompyMux.Construction
open Library Library.Fallible
open StompyMux.Map

abbrev ObjectId := Int

inductive WoodlandIntent
  | Ignite | Clear | Incidental | Absorb
  deriving DecidableEq

-- A total is the damage spent against the growth that the hex held, its earlier damage included.
inductive WoodlandEffect
  | None
  | Ignite (seconds : Nat)
  | Clear (clearing : WoodlandClearing) (total : Nat)
  | Damage (total : Nat)
  deriving DecidableEq

-- The roll that starts a fire; zero needs no roll.
def terrainIgnitionTarget (weapon : Weapon) (ammunition : AmmunitionMode) : Option Nat :=
  if ammunition = .Inferno || weapon.isPlasma then some 0
  else if [Weapon.Flamer, .ClanFlamer, .HeavyFlamer].contains weapon then some 4
  else if !weapon.canIgniteTerrain || weapon.isArtillery then none
  else some (if weapon.isEnergy then 7 else 9)

def ignitionTerrainModifier (hex : Hex) : Option Int := do
  let foliage ← hex.foliage
  let crops : Int := if foliage = .PlantedFields then -1 else if foliage.isJungle then 1 else 0
  let snow : Int := if hex.condition = some .DeepSnow then 2 else 0
  let factories : Int := if hex.ground = .HeavyIndustrial then 2 else 0
  some (crops + snow + factories)

def ignites (hex : Hex) (target : Nat) (dice : Dice) : Bool × Dice :=
  if target = 0 then (true, dice)
  else
    let modifier := (ignitionTerrainModifier hex).getD 0
    let (roll, dice) := dice.genericRoll
    ((target : Int) + modifier ≤ roll, dice)

-- A fire lasts between sixty and a hundred and eighty seconds.
def fire (dice : Dice) : WoodlandEffect × Dice :=
  let (roll, dice) := dice.die 121
  (.Ignite (59 + roll), dice)

def resolveWoodlandEffect (hex : Hex) (weapon : Weapon) (ammunition : AmmunitionMode) (damage : Nat)
    (intent : WoodlandIntent) (terrainDamage : Nat) (dice : Dice) : WoodlandEffect × Dice :=
  if hex.foliage.isNone || hex.isBurning then (.None, dice)
  else if (intent = .Clear || intent = .Absorb) && weapon.canClearTerrain && 0 < damage then
    let total := min (terrainDamage + damage) U16_MAX
    match reduceWoodland hex total with
    | some reduction => (.Clear reduction.clearing total, dice)
    | none =>
        if intent = .Absorb then (.Damage total, dice)
        else
          match terrainIgnitionTarget weapon ammunition with
          | none => (.Damage total, dice)
          | some target =>
              let (lit, dice) := ignites hex target dice
              if lit then fire dice else (.Damage total, dice)
  else
    match terrainIgnitionTarget weapon ammunition with
    | none => (.None, dice)
    | some target =>
        let (lit, dice) := ignites hex target dice
        if lit then fire dice else (.None, dice)

structure Object where
  going : Bool
  deriving DecidableEq

-- A unit that fires: the map that it is placed on, and its dice.
structure Shooter where
  map : Option ObjectId
  dice : Dice

structure World where
  objects : OrderedMap ObjectId Object
  units : OrderedMap ObjectId Shooter
  maps : OrderedMap ObjectId StoredMap

structure Notice where
  unit : ObjectId
  text : String
  deriving DecidableEq

-- What the rest of the game adds: the checks of a changed world, who sees a shot, and new dice.
structure Game where
  validate : World → Except Error Unit
  validateAction : World → Except Error Unit
  observerNotices : World → ObjectId → String → List Notice
  fresh : Dice

def World.available (w : World) (id : ObjectId) : Bool :=
  (w.objects.get? id).any (fun object => !object.going)

-- The unit's dice after its rolls.
def World.keepDice (w : World) (id : ObjectId) (unit : Shooter) (dice : Dice) : World :=
  { w with units := w.units.insert id { unit with dice } }

def decorate (game : Game) (record : StoredMap) (index : Nat) (decoration : Option Decoration) :
    Except Error StoredMap :=
  match decoration with
  | none => .ok { record with decorations := record.decorations.remove index }
  | some effect =>
      let effect :=
        if effect.isFire && effect.remaining ≠ 0 then
          { effect with nextSpread := some record.fireSpreadInterval }
        else effect
      let record :=
        if effect.isFire && record.fireDice.isNone then { record with fireDice := some game.fresh }
        else record
      record.installDecoration index effect

def setMapDecoration (game : Game) (w : World) (map : ObjectId) (coordinate : HexCoordinate)
    (decoration : Option Decoration) : Except Error World := do
  ensure (w.available map) "Map is unavailable"
  let record ← ofOption "Map not found" (w.maps.get? map)
  record.validate
  let _ ← record.baseHex coordinate.x coordinate.y
  ensure (decoration.all Decoration.valid) "Invalid decoration timer"
  let record ← decorate game record (record.position coordinate.x coordinate.y) decoration
  let w := { w with maps := w.maps.insert map record }
  game.validate w
  .ok w

structure WoodlandChange where
  map : ObjectId
  coordinate : HexCoordinate
  before : Hex
  after : Hex
  deriving DecidableEq

-- What the lighter growth carries is recorded against its own factor.
def recordCarried (damage : OrderedMap Nat Nat) (index carried : Nat) : OrderedMap Nat Nat :=
  if carried = 0 then damage.remove index else damage.insert index carried

def applyWoodlandClearing (game : Game) (w : World) (map : ObjectId) (coordinate : HexCoordinate)
    (expected : Hex) (total : Nat) : Except Error (World × WoodlandChange) := do
  ensure (w.available map) "Map is unavailable"
  let record ← ofOption "Map not found" (w.maps.get? map)
  record.validate
  let before ← record.hex coordinate.x coordinate.y
  ensure (before = expected) "Woodland changed before the clearing result was applied"
  ensure (!before.isBurning) "Invalid woodland reduction"
  let reduction ← ofOption "Invalid woodland reduction"
    (reduceWoodland (before.withOverlay none) total)
  let after := reduction.hex
  let record ← record.writeHex coordinate.x coordinate.y after
  let index ← record.tileIndex coordinate
  let damage := recordCarried record.terrainDamage index reduction.carried
  let w := { w with maps := w.maps.insert map { record with terrainDamage := damage } }
  game.validate w
  .ok (w, { map, coordinate, before, after })

structure WoodlandAttack where
  shooter : ObjectId
  coordinate : HexCoordinate
  weapon : Weapon
  ammunition : AmmunitionMode
  damage : Nat
  intent : WoodlandIntent

structure WoodlandImpact where
  map : ObjectId
  coordinate : HexCoordinate
  effect : WoodlandEffect
  notices : List Notice

def verb : WoodlandEffect → Option String
  | .None | .Damage _ => none
  | .Clear _ _ => some "clear"
  | .Ignite _ => some "ignite"

def notices (game : Game) (w : World) (attack : WoodlandAttack) : Option String → List Notice
  | none => []
  | some verb =>
      let intentional := attack.intent ≠ .Incidental
      let place := s!"{attack.coordinate.x},{attack.coordinate.y}"
      let adverb := if intentional then "" else "accidentally "
      let stop := if intentional then "." else "!"
      let stray := if intentional then "" else "stray "
      ⟨attack.shooter, s!"You {adverb}{verb} {place}{stop}"⟩ ::
        game.observerNotices w attack.shooter s!"'s {stray}shot {verb}s {place}!"

-- The writes of an effect. `record` is the map before the shot.
def applyEffect (game : Game) (w : World) (map : ObjectId) (record : StoredMap)
    (coordinate : HexCoordinate) (tile : Hex) (index : Nat) : WoodlandEffect → Except Error World
  | .None => .ok w
  | .Damage total =>
      .ok { w with
        maps := w.maps.modify map (fun record =>
          { record with terrainDamage := record.terrainDamage.insert index total }) }
  | .Clear _ total => do
      let (w, _) ← applyWoodlandClearing game w map coordinate tile total
      .ok w
  | .Ignite seconds => do
      ensure record.fireDice.isSome
        "Reload the map asset to establish its fire random stream"
      setMapDecoration game w map coordinate (some (Decoration.new .Fire seconds none))

def resolveWoodlandAttack (game : Game) (w : World) (attack : WoodlandAttack) :
    Except Error (World × WoodlandImpact) := do
  ensure (w.available attack.shooter) "Shooter is unavailable"
  let map ← ofOption "Shooter is not placed" ((w.units.get? attack.shooter).bind Shooter.map)
  ensure (w.available map) "Map is unavailable"
  let record ← ofOption "Map not found" (w.maps.get? map)
  record.validate
  let tile ← record.hex attack.coordinate.x attack.coordinate.y
  let index ← record.tileIndex attack.coordinate
  let terrainDamage := (record.terrainDamage.get? index).getD 0
  let unit ← ofOption "Unit construction state is unavailable" (w.units.get? attack.shooter)
  let (effect, dice) := resolveWoodlandEffect tile attack.weapon attack.ammunition attack.damage
    attack.intent terrainDamage unit.dice
  let candidate := w.keepDice attack.shooter unit dice
  let candidate ← applyEffect game candidate map record attack.coordinate tile index effect
  game.validateAction candidate
  .ok (candidate, ⟨map, attack.coordinate, effect, notices game w attack (verb effect)⟩)

end StompyMux.Woodland
