import Mathlib.Algebra.Order.Ring.Int
import StompyMux.Btech.Unit
import StompyMux.Woodland.Growth

-- The ground of a map with the fires and the smoke that lie over it.
namespace StompyMux.Woodland

open StompyMux.Btech (Dice)
open Library Library.Fallible
open StompyMux.Map

-- A fire spends its remaining time at each spread, smoke counts it down. A remaining time of zero is
-- permanent.
structure Decoration where
  kind : DecorationKind
  objectDuration : Int16
  order : Int
  remaining : Int
  nextSpread : Option UInt16
  deriving DecidableEq

namespace Decoration

def new (kind : DecorationKind) (remaining : Int) (nextSpread : Option UInt16) : Decoration where
  kind := kind
  objectDuration := Int16.ofInt (max (-2 ^ 15) (min remaining (2 ^ 15 - 1)))
  order := -1
  remaining := remaining
  nextSpread := nextSpread

def valid (effect : Decoration) : Bool :=
  effect.order < 0 &&
    (-2 ^ 15 ≤ effect.remaining && effect.remaining ≤ 2 ^ 32 - 1) &&
    (0 ≤ effect.remaining || effect.kind = .Fire && effect.nextSpread.isSome) &&
    (effect.remaining ≠ 0 || effect.nextSpread.isNone) &&
    effect.nextSpread.all (fun seconds => 1 ≤ seconds && seconds ≤ 60) &&
    (effect.kind = .Fire || effect.nextSpread.isNone)

def isFire (effect : Decoration) : Bool := effect.kind = .Fire

end Decoration

inductive StaticDecorationKind
  | Fire | Smoke | Decoration
  deriving DecidableEq

structure StaticDecoration where
  coordinate : HexCoordinate
  deriving DecidableEq

structure StoredMap where
  width : Int
  height : Int
  windDirection : Int
  windSpeed : Int
  fireDice : Option Dice
  terrain : Option (List Hex)
  -- what each hex's growth has taken toward its factor, by row-major position
  terrainDamage : OrderedMap Nat Nat
  decorations : OrderedMap Nat Decoration
  staticDecorations : StaticDecorationKind → OrderedMap Nat StaticDecoration

namespace StoredMap

variable (map : StoredMap)

-- Row-major position in the map's grids.
def position (x y : Int) : Nat := (y * map.width + x).toNat

def baseHex (x y : Int) : Except Error Hex := do
  let terrain ← ofOption "Map terrain is ambiguous; explicitly reload its map asset first" map.terrain
  ensure (0 ≤ x && x < map.width && 0 ≤ y && y < map.height) "Map coordinates out of bounds"
  ensure (y * map.width + x < 2 ^ 63) "Map coordinates out of bounds"
  ofOption "Incomplete map terrain" terrain[map.position x y]?

def tileIndex (coordinate : HexCoordinate) : Except Error Nat := do
  let _ ← map.baseHex coordinate.x coordinate.y
  .ok (map.position coordinate.x coordinate.y)

def hex (x y : Int) : Except Error Hex := do
  let hex ← map.baseHex x y
  let overlay := (map.decorations.get? (map.position x y)).map Decoration.kind
  .ok (hex.withOverlay overlay)

def writeHex (x y : Int) (hex : Hex) : Except Error StoredMap := do
  hex.validate
  ensure hex.overlay.isNone "Fire and smoke are not terrain; add them as fire or smoke instead"
  let _ ← map.baseHex x y
  let terrain ← ofOption "Map terrain is unavailable" map.terrain
  .ok { map with terrain := some (terrain.set (map.position x y) hex) }

def fireSpreadInterval : UInt16 := UInt16.ofNat (max (60 - map.windSpeed) 20).toNat

-- The hex at a position of the grids.
def coordinateAt (index : Nat) : HexCoordinate := ⟨index % map.width, index / map.width⟩

-- Fire and smoke keep separate creation orders; light and heavy smoke share one.
def oldestOrder (fire : Bool) : Int :=
  let orders := (map.decorations.values.filter (fun existing => existing.isFire = fire)).map
    Decoration.order
  min (orders.min?.getD 0) 0

-- Replaces the stored fire and smoke records at the hex.
def installDecoration (index : Nat) (effect : Decoration) : Except Error StoredMap := do
  let oldest := map.oldestOrder effect.isFire
  ensure (-2 ^ 63 ≤ oldest - 1) "Decoration creation order exhausted"
  let effect := { effect with order := oldest - 1 }
  let coordinate := map.coordinateAt index
  let _ ← map.baseHex coordinate.x coordinate.y
  let statics := fun kind =>
    if kind = .Decoration then map.staticDecorations kind
    else (map.staticDecorations kind).retain (fun _ record => record.coordinate ≠ coordinate)
  .ok { map with staticDecorations := statics, decorations := map.decorations.insert index effect }

def onMap (coordinate : HexCoordinate) : Bool :=
  0 ≤ coordinate.x && 0 ≤ coordinate.y && coordinate.x < map.width && coordinate.y < map.height

def validateStatics (kind : StaticDecorationKind) : Except Error Unit := do
  ensure ((map.staticDecorations kind).entries.length ≤ 1000000) "Too many generic decorations"
  ensure ((map.staticDecorations kind).values.all (fun record => map.onMap record.coordinate))
    "Invalid generic decoration coordinate"

def validate : Except Error Unit := do
  map.validateStatics .Fire
  map.validateStatics .Smoke
  map.validateStatics .Decoration
  match map.terrain with
  | none => ensure map.decorations.entries.isEmpty "Decorations require decoded terrain"
  | some terrain => do
      ensure (1 ≤ map.width && map.width ≤ 1000 && 1 ≤ map.height && map.height ≤ 1000)
        "Invalid map dimensions"
      ensure (terrain.length = (map.width * map.height).toNat) "Incomplete map terrain"
      ensure (map.fireDice.isSome || !map.decorations.values.any Decoration.isFire)
        "Fire requires a saved map random stream"
      ensure (map.decorations.entries.all
        (fun entry => entry.1 < terrain.length && entry.2.valid)) "Invalid map decoration"
      ensure ((map.decorations.values.map (fun effect => (effect.isFire, effect.order))).Nodup)
        "Duplicate decoration creation order"
      terrain.forM Hex.validateTile
      ensure (0 ≤ map.windDirection && map.windDirection < 360 && 0 ≤ map.windSpeed &&
        map.windSpeed ≤ 2 ^ 15 - 1) "Invalid map wind"

theorem baseHex_ok_iff (x y : Int) (hex : Hex) : map.baseHex x y = .ok hex ↔
    ∃ terrain, map.terrain = some terrain ∧ (0 ≤ x ∧ x < map.width ∧ 0 ≤ y ∧ y < map.height) ∧
      y * map.width + x < 2 ^ 63 ∧ terrain[map.position x y]? = some hex := by
  unfold baseHex
  rw [bind_ok_iff]
  simp only [ensure_bind_ok_iff, ofOption_ok_iff, Bool.and_eq_true, decide_eq_true_eq, and_assoc]

theorem hex_ok_iff (x y : Int) (hex : Hex) : map.hex x y = .ok hex ↔
    ∃ ground, map.baseHex x y = .ok ground ∧
      hex = ground.withOverlay ((map.decorations.get? (map.position x y)).map Decoration.kind) := by
  unfold StoredMap.hex
  rw [bind_ok_iff]
  constructor
  · rintro ⟨ground, hground, h⟩
    cases h
    exact ⟨ground, hground, rfl⟩
  · rintro ⟨ground, hground, rfl⟩
    exact ⟨ground, hground, rfl⟩

theorem writeHex_ok {x y : Int} {hex : Hex} {map' : StoredMap} (h : map.writeHex x y hex = .ok map') :
    ∃ terrain, map.terrain = some terrain ∧ hex.validate = .ok () ∧ hex.overlay = none ∧
      map' = { map with terrain := some (terrain.set (map.position x y) hex) } := by
  unfold writeHex at h
  obtain ⟨⟨⟩, hvalid, h⟩ := ok_of_bind h
  obtain ⟨hoverlay, h⟩ := ok_of_ensure h
  obtain ⟨_, -, h⟩ := ok_of_bind h
  obtain ⟨terrain, hterrain, h⟩ := ok_of_bind h
  cases h
  exact ⟨terrain, ok_of_ofOption hterrain, hvalid, Option.isNone_iff_eq_none.mp hoverlay, rfl⟩

theorem baseHex_writeHex {x y : Int} {hex ground : Hex} {map' : StoredMap}
    (hground : map.baseHex x y = .ok ground) (h : map.writeHex x y hex = .ok map') :
    map'.baseHex x y = .ok hex := by
  obtain ⟨terrain, hterrain, hbounds, hfits, hat⟩ := (map.baseHex_ok_iff x y ground).mp hground
  obtain ⟨terrain', hterrain', -, -, rfl⟩ := map.writeHex_ok h
  rw [hterrain] at hterrain'
  cases hterrain'
  refine (baseHex_ok_iff _ x y hex).mpr ⟨_, rfl, hbounds, hfits, ?_⟩
  obtain ⟨hlt, -⟩ := List.getElem?_eq_some_iff.mp hat
  exact List.getElem?_set_self hlt

end StoredMap

end StompyMux.Woodland
