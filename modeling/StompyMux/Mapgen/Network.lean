import Mathlib.Data.Fintype.Card
import StompyMux.Library.Smallest
import StompyMux.Library.Spanning
import StompyMux.Mapgen.Roads

-- The roads that link the settlements of a map, and the highways that cross it.
namespace StompyMux.Mapgen

open Library.Smallest Library.Spanning
open StompyMux.Map

structure Rng where
  state : UInt64

namespace Rng

def mix (value : UInt64) : UInt64 :=
  let value := value + 0x9e3779b97f4a7c15
  let value := (value ^^^ (value >>> 30)) * 0xbf58476d1ce4e5b9
  let value := (value ^^^ (value >>> 27)) * 0x94d049bb133111eb
  value ^^^ (value >>> 31)

def labelHash (label : String) : UInt64 :=
  label.toUTF8.toList.foldl (fun hash byte => (hash ^^^ byte.toUInt64) * 0x0100000001b3) 0xcbf29ce484222325

def stream (seed : UInt64) (label : String) : Rng := ⟨mix (seed ^^^ labelHash label)⟩

def nextU64 (rng : Rng) : UInt64 × Rng :=
  let state := rng.state + 0x9e3779b97f4a7c15
  (mix state, ⟨state⟩)

def between (rng : Rng) (low high : Int) : Int × Rng :=
  if high ≤ low then (low, rng)
  else (low + rng.nextU64.1.toNat % (high - low + 1), rng.nextU64.2)

end Rng

inductive SettlementKind
  | Civilian | Industrial | Military | Ruins
  deriving DecidableEq

inductive SettlementSize
  | Outpost | Hamlet | Village | Town | City | Metropolis
  deriving DecidableEq

structure SettlementReport where
  size : SettlementSize
  kind : SettlementKind

structure Settlement where
  name : String
  center : HexCoordinate
  -- where roads may enter
  gates : List HexCoordinate
  footprint : List Nat
  report : SettlementReport
  gated : gates ≠ []

structure Params where
  seed : UInt64
  connectSettlements : Bool
  throughRoads : UInt8
  roadWidth : UInt8
  -- as the map spec is validated
  ranged : 1 ≤ roadWidth.toNat ∧ roadWidth.toNat ≤ 3

structure RoadReport where
  origin : String
  destination : String
  hexes : Nat
  bridges : Nat
  surface : Map.Route
  deriving DecidableEq

theorem HexMap.sized_modify (map : HexMap) (index : Nat) (change : Hex → Hex) :
    (map.hexes.modify index change).length = map.width.toNat * map.height.toNat :=
  (List.length_modify change map.hexes index).trans map.sized

def HexMap.modify (map : HexMap) (cell : HexCoordinate) (change : Hex → Hex) : HexMap :=
  { map with
    hexes := map.hexes.modify (map.index cell) change
    sized := map.sized_modify (map.index cell) change }

def bridgeClass : Map.Route → ConstructionClass
  | .PavedRoad => .Heavy
  | .GravelRoad | .Rail => .Medium
  | .DirtRoad => .Light

def linkSurface (a b : Settlement) : Map.Route :=
  let military := fun settlement : Settlement => settlement.report.kind = .Military
  if military a ∨ military b ∨ min a.report.size.ctorIdx b.report.size.ctorIdx ≥ SettlementSize.Town.ctorIdx then
    .GravelRoad
  else .DirtRoad

def spanWith (surface : Map.Route) (hex : Hex) : Hex :=
  let bridge : Structure := ⟨.Bridge, bridgeClass surface, 1, (bridgeClass surface).constructionFactor⟩
  { hex with structure' := some bridge }

-- The better of the roads wins; a rail line gives way.
def paveWith (surface : Map.Route) (hex : Hex) : Hex :=
  let route := match hex.route.filter Map.Route.isRoad with
    | some existing => if existing.ctorIdx ≤ surface.ctorIdx then existing else surface
    | none => surface
  { hex with route := some route, condition := none }

-- The path itself, then one side, then the other.
def offset (lane : Nat) : Int := if lane = 0 then 0 else if lane = 1 then 1 else -1

def layLane (surface : Map.Route) (across : Int × Int) (cell : HexCoordinate) (laid : HexMap × Nat) (lane : Nat) :
    HexMap × Nat :=
  let beside : HexCoordinate := ⟨cell.x + across.1 * offset lane, cell.y + across.2 * offset lane⟩
  match laid.1.hex beside with
  | none => laid
  | some hex =>
      if hex.hasStandingStructure then laid
      else if hex.holdsWater then
        if hex.hasBridge then laid else (laid.1.modify beside (spanWith surface), laid.2 + 1)
      else (laid.1.modify beside (paveWith surface), laid.2)

def pave (map : HexMap) (path : List HexCoordinate) (width : UInt8) (across : Int × Int) (surface : Map.Route) :
    HexMap × Nat :=
  path.foldl (fun laid cell => (List.range width.toNat).foldl (layLane surface across cell) laid) (map, 0)

-- The centers of two columns lie √3/2 apart and those of two rows 1, with the even columns half a
-- row south, so that the comparison of the two distances is one of integers squared.
def widening (start goal : HexCoordinate) : Int × Int :=
  let shift := fun hex : HexCoordinate => if hex.x % 2 = 0 then 1 else 0
  let rows := 2 * (goal.y - start.y) + (shift goal - shift start)
  if 3 * (goal.x - start.x) ^ 2 ≥ rows ^ 2 then (0, 1) else (1, 0)

def nearest (gates : List HexCoordinate) (target : HexCoordinate) : Option HexCoordinate :=
  gates.minOn? fun gate => HexMap.distance gate target

section Links

variable (settlements : List Settlement)

def apart (a b : Fin settlements.length) : Nat := HexMap.distance settlements[a].center settlements[b].center

def candidates (joined : Fin settlements.length → Bool) : List (Fin settlements.length × Fin settlements.length) :=
  ((List.finRange settlements.length).filter joined).flatMap fun a =>
    ((List.finRange settlements.length).filter fun b => !joined b).map fun b => (a, b)

def grow : Nat → (Fin settlements.length → Bool) → List (Fin settlements.length × Fin settlements.length) →
    Option (List (Fin settlements.length × Fin settlements.length))
  | 0, _, links => some links
  | left + 1, joined, links => do
      let link ← (candidates settlements joined).minOn? fun link => apart settlements link.1 link.2
      grow left (Function.update joined link.2 true) (links ++ [link])

def spanningLinks : Option (List (Fin settlements.length × Fin settlements.length)) :=
  if settlements.length < 2 then some []
  else grow settlements (settlements.length - 1) (fun place => place.val = 0) []

end Links

structure Works where
  map : HexMap
  roads : List RoadReport
  warnings : List String
  -- the hexes of each link's road, of which the reports give the number
  routes : List (List HexCoordinate)

def reservedHexes (map : HexMap) (settlements : List Settlement) : List Bool :=
  settlements.foldl (fun reserved settlement =>
    settlement.footprint.foldl (fun reserved index => reserved.set index true) reserved)
    (List.replicate map.hexes.length false)

def layLink (params : Params) (a b : Settlement) (start goal : HexCoordinate) (works : Works) :
    Option (List HexCoordinate) → Works
  | none =>
      { works with warnings := works.warnings ++ ["no road could reach " ++ b.name ++ " from " ++ a.name] }
  | some path =>
      let surface := linkSurface a b
      let laid := pave works.map path params.roadWidth (widening start goal) surface
      { works with
        map := laid.1
        roads := works.roads ++ [⟨a.name, b.name, path.length, laid.2, surface⟩]
        routes := works.routes ++ [path] }

def buildLink (settlements : List Settlement) (reserved : List Bool) (params : Params) (works : Works)
    (link : Fin settlements.length × Fin settlements.length) : Option Works := do
  let a := settlements[link.1]
  let b := settlements[link.2]
  let start ← nearest a.gates b.center
  let goal ← nearest b.gates start
  some (layLink params a b start goal works (linkPath works.map reserved start goal))

section Crossing

variable (map : HexMap) (reserved : List Bool) (params : Params)

def onLine (eastWest : Bool) (line along : Int) : HexCoordinate := if eastWest then ⟨line, along⟩ else ⟨along, line⟩

-- The first dry hex of so many drawn along an edge.
def drawStart (eastWest : Bool) (fromLine low high : Int) : Nat → Rng → Option HexCoordinate × Rng
  | 0, rng => (none, rng)
  | draws + 1, rng =>
      let (along, rng) := rng.between low high
      let hex := onLine eastWest fromLine along
      if dry map hex then (some hex, rng) else drawStart eastWest fromLine low high draws rng

def edgeName (eastWest : Bool) (line : Int) : String :=
  match eastWest, decide (line = 0) with
  | true, true => "west edge"
  | true, false => "east edge"
  | false, true => "north edge"
  | false, false => "south edge"

def layCrossing (eastWest : Bool) (fromLine toLine : Int) (start : HexCoordinate) (path : List HexCoordinate) :
    HexMap × RoadReport :=
  let laid := pave map path params.roadWidth (widening start (path.getLastD start)) .PavedRoad
  (laid.1, ⟨edgeName eastWest fromLine, edgeName eastWest toLine, path.length, laid.2, .PavedRoad⟩)

-- A highway from one edge to the opposite one, from and to the middle of them.
def crossBetween (eastWest : Bool) (length fromLine toLine : Int) (rng : Rng) :
    Option (HexMap × RoadReport) × Rng :=
  let low := length / 6
  let high := length - length / 6
  let arrivals := (List.range (high - low).toNat).map fun step : Nat => onLine eastWest toLine (low + step)
  if !arrivals.any (dry map) then (none, rng)
  else match drawStart map eastWest fromLine low (high - 1) 16 rng with
    | (none, rng) => (none, rng)
    | (some start, rng) =>
        ((crossingPath map reserved eastWest toLine start).map (layCrossing map params eastWest fromLine toLine start), rng)

def crossInTurn : List (Bool × Bool) → Rng → Option (HexMap × RoadReport) × Rng
  | [], rng => (none, rng)
  | (eastWest, reversed) :: attempts, rng =>
      let length : Int := if eastWest then map.height.toNat else map.width.toNat
      let far : Int := if eastWest then map.width.toNat - 1 else map.height.toNat - 1
      let fromLine := if reversed then far else 0
      let toLine := if reversed then 0 else far
      match crossBetween map reserved params eastWest length fromLine toLine rng with
      | (some road, rng) => (some road, rng)
      | (none, rng) => crossInTurn attempts rng

def throughRoad (number : Nat) (rng : Rng) : Option (HexMap × RoadReport) × Rng :=
  let preferred : Bool := number % 2 = 0
  crossInTurn map reserved params [(preferred, false), (preferred, true), (!preferred, false), (!preferred, true)] rng

end Crossing

def buildThrough (reserved : List Bool) (params : Params) (works : Works × Rng) (highway : Nat) : Works × Rng :=
  match throughRoad works.1.map reserved params highway works.2 with
  | (some (map, road), rng) => ({ works.1 with map := map, roads := works.1.roads ++ [road] }, rng)
  | (none, rng) =>
      let warning := "through road " ++ toString (highway + 1) ++ " could not cross the map"
      ({ works.1 with warnings := works.1.warnings ++ [warning] }, rng)

def build (map : HexMap) (settlements : List Settlement) (params : Params) (warnings : List String) : Option Works := do
  let reserved := reservedHexes map settlements
  let works : Works := ⟨map, [], warnings, []⟩
  let links ← if params.connectSettlements then spanningLinks settlements else some []
  let works ← links.foldlM (buildLink settlements reserved params) works
  let finished := (List.range params.throughRoads.toNat).foldl (buildThrough reserved params)
    (works, Rng.stream params.seed "roads")
  some finished.1

section Tree

variable (settlements : List Settlement)

theorem apart_comm (a b : Fin settlements.length) : apart settlements a b = apart settlements b a := by
  unfold apart HexMap.distance
  rw [HexCoordinate.distance_comm]

theorem mem_candidates_iff (joined : Fin settlements.length → Bool) (link : Fin settlements.length × Fin settlements.length) :
    link ∈ candidates settlements joined ↔ joined link.1 = true ∧ joined link.2 = false := by
  unfold candidates
  simp only [List.mem_flatMap, List.mem_filter, List.mem_finRange, List.mem_map, true_and, Bool.not_eq_true']
  constructor
  · rintro ⟨a, ha, b, hb, rfl⟩
    exact ⟨ha, hb⟩
  · rintro ⟨ha, hb⟩
    exact ⟨link.1, ha, link.2, hb, rfl⟩

theorem grow_grown (root : Fin settlements.length) (left : Nat) (joined : Fin settlements.length → Bool)
    (links : List (Fin settlements.length × Fin settlements.length)) (hroot : joined root = true)
    (hleft : (Finset.univ.filter fun v => joined v = false).card = left)
    (h : Grown (fun _ => True) (apart settlements) root (fun v => joined v = true) links) :
    ∃ grown, grow settlements left joined links = some grown ∧ grown.length = links.length + left ∧
      ∃ Inside : Fin settlements.length → Prop, (∀ v, Inside v) ∧
        Grown (fun _ => True) (apart settlements) root Inside grown := by
  induction left generalizing joined links with
  | zero =>
    refine ⟨links, rfl, rfl, fun v => joined v = true, fun v => ?_, h⟩
    have hnone := Finset.filter_eq_empty_iff.mp (Finset.card_eq_zero.mp hleft) (Finset.mem_univ v)
    simpa using hnone
  | succ left ih =>
    obtain ⟨v, hv⟩ := Finset.card_pos.mp (by rw [hleft]; exact Nat.succ_pos left)
    have hout : joined v = false := (Finset.mem_filter.mp hv).2
    have hsome : ((candidates settlements joined).minOn? fun link => apart settlements link.1 link.2).isSome :=
      List.isSome_minOn?_of_mem ((mem_candidates_iff settlements joined (root, v)).mpr ⟨hroot, hout⟩)
    obtain ⟨link, hlink⟩ := Option.isSome_iff_exists.mp hsome
    obtain ⟨ha, hb⟩ := (mem_candidates_iff settlements joined link).mp (List.minOn?_mem hlink)
    have hleast : ∀ a b, joined a = true → True → ¬ joined b = true →
        apart settlements link.1 link.2 ≤ apart settlements a b := by
      intro a b hin _ hnot
      have hle := minOn?_le hlink ((mem_candidates_iff settlements joined (a, b)).mpr ⟨hin, by simpa using hnot⟩)
      exact hle
    have hnext := Grown.link _ links link.1 link.2 h ha ⟨trivial, by simp [hb]⟩ hleast
    have hjoined : (fun v => joined v = true ∨ v = link.2) = fun v => Function.update joined link.2 true v = true := by
      funext v
      by_cases he : v = link.2
      · subst he
        simp
      · simp [he]
    rw [hjoined] at hnext
    have herase : (Finset.univ.filter fun v => Function.update joined link.2 true v = false) =
        (Finset.univ.filter fun v => joined v = false).erase link.2 := by
      ext v
      by_cases he : v = link.2
      · subst he
        simp
      · simp [he]
    have hroot' : Function.update joined link.2 true root = true := by
      by_cases he : root = link.2
      · rw [he, Function.update_self]
      · rw [Function.update_of_ne he, hroot]
    have hfewer : (Finset.univ.filter fun v => Function.update joined link.2 true v = false).card = left := by
      have hmem : link.2 ∈ Finset.univ.filter fun v => joined v = false := Finset.mem_filter.mpr ⟨Finset.mem_univ _, hb⟩
      rw [herase, Finset.card_erase_of_mem hmem, hleft, Nat.add_sub_cancel]
    obtain ⟨grown, hgrown, hlength, hall⟩ := ih (Function.update joined link.2 true) (links ++ [link]) hroot' hfewer hnext
    refine ⟨grown, ?_, ?_, hall⟩
    · simp only [grow, hlink, Option.bind_eq_bind, Option.bind_some]
      exact hgrown
    · rw [hlength, List.length_append, List.length_singleton]
      omega

theorem spanningLinks_least : ∃ links, spanningLinks settlements = some links ∧
    links.length = settlements.length - 1 ∧ (∀ u v, Connected links u v) ∧
    ∀ others : List (Fin settlements.length × Fin settlements.length), (∀ u v, Connected others u v) →
      total (apart settlements) links ≤ total (apart settlements) others := by
  unfold spanningLinks
  split
  · rename_i hfew
    refine ⟨[], rfl, by rw [List.length_nil]; omega, fun u v => ?_, fun others _ => Nat.zero_le _⟩
    obtain rfl : u = v := Fin.ext (by omega)
    exact .refl
  · rename_i hmany
    have hroot : 0 < settlements.length := by omega
    have hone : (fun place : Fin settlements.length => decide (place.val = 0) = true) = fun place => place = ⟨0, hroot⟩ := by
      funext place
      simp [Fin.ext_iff]
    have hrest : (Finset.univ.filter fun place : Fin settlements.length => decide (place.val = 0) = false) =
        Finset.univ.erase ⟨0, hroot⟩ := by
      ext place
      simp [Fin.ext_iff]
    have hstart : Grown (fun _ => True) (apart settlements) ⟨0, hroot⟩
        (fun place => decide (place.val = 0) = true) [] := by
      rw [hone]
      exact .root
    obtain ⟨links, hlinks, hlength, Inside, hall, hgrown⟩ := grow_grown settlements ⟨0, hroot⟩ (settlements.length - 1)
      (fun place => place.val = 0) [] (by simp) (by rw [hrest, Finset.card_erase_of_mem (Finset.mem_univ _), Finset.card_univ, Fintype.card_fin])
      hstart
    obtain ⟨hconnected, -⟩ := hgrown.connected _ _ _ _ _ trivial
    refine ⟨links, hlinks, by simpa using hlength, fun u v => ?_, fun others hothers => ?_⟩
    · exact ((hconnected u (hall u)).2.symm _ _ _).trans (hconnected v (hall v)).2
    · exact hgrown.least _ _ _ (apart_comm settlements) trivial links Inside others (fun _ _ => ⟨trivial, trivial⟩)
        fun u v _ _ => hothers u v

end Tree

-- A hex a road runs over, by its surface or by a bridge.
def carries (tile : Hex) : Bool := !tile.hasStandingStructure && (tile.isRoad || tile.hasBridge)

structure Kept (before after : HexMap) : Prop where
  off : ∀ cell, before.hex cell = none → after.hex cell = none
  on : ∀ cell tile, before.hex cell = some tile → ∃ tile', after.hex cell = some tile' ∧
    tile'.hasStandingStructure = tile.hasStandingStructure ∧ (carries tile = true → carries tile' = true)

variable (map : HexMap) (path : List HexCoordinate) (surface : Map.Route) (cell : HexCoordinate)
  (tile : Hex)

theorem Kept.refl : Kept map map := ⟨fun _ h => h, fun _ tile h => ⟨tile, h, rfl, id⟩⟩

theorem Kept.trans (a b c : HexMap) (hab : Kept a b) (hbc : Kept b c) : Kept a c := by
  refine ⟨fun cell h => hbc.off cell (hab.off cell h), fun cell tile h => ?_⟩
  obtain ⟨tile', h', hstands', hcarries'⟩ := hab.on cell tile h
  obtain ⟨tile'', h'', hstands'', hcarries''⟩ := hbc.on cell tile' h'
  exact ⟨tile'', h'', hstands''.trans hstands', fun hcarries => hcarries'' (hcarries' hcarries)⟩

theorem HexMap.hex_of_contains (h : map.contains cell = true) :
    ∃ tile, map.hex cell = some tile := by
  unfold HexMap.hex
  rw [if_pos h]
  exact ⟨_, List.getElem?_eq_getElem (map.index_lt cell h)⟩

theorem HexMap.contains_of_hex (h : map.hex cell = some tile) : map.contains cell = true := by
  unfold HexMap.hex at h
  split at h
  · assumption
  · cases h

theorem HexMap.hex_modify (cell other : HexCoordinate) (change : Hex → Hex)
    (hcell : map.contains cell = true) :
    (map.modify cell change).hex other = if other = cell then (map.hex other).map change else map.hex other := by
  have hsame : (map.modify cell change).contains other = map.contains other := rfl
  have hindex : (map.modify cell change).index other = map.index other := rfl
  unfold HexMap.hex
  rw [hsame, hindex]
  by_cases hother : map.contains other = true
  · rw [if_pos hother, if_pos hother]
    unfold HexMap.modify
    rw [List.getElem?_modify]
    by_cases he : other = cell
    · rw [if_pos he, he]
      simp
    · have hapart : ¬ map.index cell = map.index other := fun hi => he (map.index_inj hother hcell hi.symm)
      rw [if_neg he]
      simp [hapart]
  · rw [if_neg hother, if_neg hother, Option.map_none, ite_self]

-- What a lane makes of the hex it crosses.
def layTile (surface : Map.Route) (tile : Hex) : Hex :=
  if tile.hasStandingStructure then tile
  else if tile.holdsWater then if tile.hasBridge then tile else spanWith surface tile
  else paveWith surface tile

theorem spanWith_carries : carries (spanWith surface tile) = true := by
  have hbridge : (spanWith surface tile).hasBridge = true := rfl
  have hstands : (spanWith surface tile).hasStandingStructure = false := rfl
  unfold carries
  rw [hbridge, hstands, Bool.or_true]
  rfl

theorem paveWith_carries (hroad : surface.isRoad = true) {tile : Hex}
    (hstands : tile.hasStandingStructure = false) (hdry : tile.holdsWater = false) :
    carries (paveWith surface tile) = true := by
  have hroute : ∃ route, (paveWith surface tile).route = some route ∧ route.isRoad = true := by
    unfold paveWith
    cases hexisting : tile.route.filter Map.Route.isRoad with
    | none => exact ⟨surface, rfl, hroad⟩
    | some existing =>
      have hkept := (Option.filter_eq_some_iff.mp hexisting).2
      dsimp only
      split
      · exact ⟨existing, rfl, hkept⟩
      · exact ⟨surface, rfl, hroad⟩
  obtain ⟨route, hroute, hroad'⟩ := hroute
  have hsame : (paveWith surface tile).structure' = tile.structure' ∧ (paveWith surface tile).water = tile.water := ⟨rfl, rfl⟩
  unfold carries Hex.isRoad Hex.hasBridge Hex.hasStandingStructure
  rw [hroute, hsame.1, hsame.2]
  unfold Hex.holdsWater at hdry
  unfold Hex.hasStandingStructure at hstands
  rw [hstands]
  cases hwater : tile.water with
  | some water => rw [hwater] at hdry; cases hdry
  | none =>
    cases hstructure : tile.structure' with
    | none => simp [hroad']
    | some s =>
      rw [hstructure] at hstands
      have hbridge : s.isBridge = true := by simpa [Structure.isStanding] using hstands
      simp [hbridge]

theorem layTile_stands :
    (layTile surface tile).hasStandingStructure = tile.hasStandingStructure := by
  unfold layTile
  split
  · rfl
  · rename_i hstands
    have hfalse : tile.hasStandingStructure = false := by simpa using hstands
    split
    · split
      · rfl
      · rw [hfalse]
        rfl
    · rfl

theorem layTile_carries (hroad : surface.isRoad = true) {tile : Hex}
    (hstands : tile.hasStandingStructure = false) : carries (layTile surface tile) = true := by
  unfold layTile
  rw [if_neg (by simp [hstands])]
  split
  · split
    · rename_i hbridge
      unfold carries
      rw [hstands, hbridge, Bool.or_true]
      rfl
    · exact spanWith_carries surface tile
  · rename_i hwater
    exact paveWith_carries surface hroad hstands (by simpa using hwater)

theorem layLane_map (across : Int × Int) (cell : HexCoordinate) (laid : HexMap × Nat)
    (lane : Nat) : ∃ beside : HexCoordinate, (lane = 0 → beside = cell) ∧ ∀ other,
      (layLane surface across cell laid lane).1.hex other =
        if other = beside then (laid.1.hex other).map (layTile surface) else laid.1.hex other := by
  refine ⟨⟨cell.x + across.1 * offset lane, cell.y + across.2 * offset lane⟩, ?_, ?_⟩
  · rintro rfl
    simp [offset]
  · intro other
    unfold layLane
    generalize hbeside : (⟨cell.x + across.1 * offset lane, cell.y + across.2 * offset lane⟩ : HexCoordinate) = beside
    dsimp only
    cases htile : laid.1.hex beside with
    | none =>
      dsimp only
      split
      · rename_i he
        rw [he, htile, Option.map_none]
      · rfl
    | some tile =>
      have hcontains := laid.1.contains_of_hex beside tile htile
      have hchange : ∀ change : Hex → Hex, layTile surface tile = change tile →
          (laid.1.modify beside change).hex other =
            if other = beside then (laid.1.hex other).map (layTile surface) else laid.1.hex other := by
        intro change hsame
        rw [HexMap.hex_modify laid.1 beside other change hcontains]
        split
        · rename_i he
          rw [he, htile, Option.map_some, Option.map_some, hsame]
        · rfl
      have hstill : layTile surface tile = tile →
          laid.1.hex other = if other = beside then (laid.1.hex other).map (layTile surface) else laid.1.hex other := by
        intro hsame
        split
        · rename_i he
          rw [he, htile, Option.map_some, hsame]
        · rfl
      dsimp only
      split
      · rename_i hstands
        exact hstill (if_pos hstands)
      · rename_i hstands
        split
        · rename_i hwater
          split
          · rename_i hbridge
            exact hstill (by unfold layTile; rw [if_neg hstands, if_pos hwater, if_pos hbridge])
          · rename_i hbridge
            exact hchange _ (by unfold layTile; rw [if_neg hstands, if_pos hwater, if_neg hbridge])
        · rename_i hwater
          exact hchange _ (by unfold layTile; rw [if_neg hstands, if_neg hwater])

theorem layLane_kept (hroad : surface.isRoad = true) (across : Int × Int) (cell : HexCoordinate)
    (laid : HexMap × Nat) (lane : Nat) : Kept laid.1 (layLane surface across cell laid lane).1 ∧
      (lane = 0 → ∀ tile, laid.1.hex cell = some tile → tile.hasStandingStructure = false →
        ∃ tile', (layLane surface across cell laid lane).1.hex cell = some tile' ∧ carries tile' = true) := by
  obtain ⟨beside, hpath, hhex⟩ := layLane_map surface across cell laid lane
  refine ⟨⟨fun other hnone => ?_, fun other tile htile => ?_⟩, fun hlane tile htile hstands => ?_⟩
  · rw [hhex other, hnone, Option.map_none, ite_self]
  · rw [hhex other]
    split
    · refine ⟨layTile surface tile, by rw [htile, Option.map_some], layTile_stands surface tile, fun hcarries => ?_⟩
      unfold carries at hcarries
      simp only [Bool.and_eq_true, Bool.not_eq_true'] at hcarries
      exact layTile_carries surface hroad hcarries.1
    · exact ⟨tile, htile, rfl, id⟩
  · rw [hhex cell, if_pos (hpath hlane).symm, htile]
    exact ⟨layTile surface tile, rfl, layTile_carries surface hroad hstands⟩

theorem lanes_kept (hroad : surface.isRoad = true) (across : Int × Int) (cell : HexCoordinate)
    (lanes : List Nat) (laid : HexMap × Nat) : Kept laid.1 (lanes.foldl (layLane surface across cell) laid).1 := by
  induction lanes generalizing laid with
  | nil => exact Kept.refl _
  | cons lane lanes ih =>
    rw [List.foldl_cons]
    exact Kept.trans _ _ _ (layLane_kept surface hroad across cell laid lane).1 (ih _)

theorem lanes_carry (hroad : surface.isRoad = true) (across : Int × Int) {cell : HexCoordinate}
    {width : Nat} (hwidth : 1 ≤ width) {laid : HexMap × Nat} {tile : Hex} (htile : laid.1.hex cell = some tile)
    (hstands : tile.hasStandingStructure = false) :
    ∃ tile', ((List.range width).foldl (layLane surface across cell) laid).1.hex cell = some tile' ∧
      carries tile' = true := by
  obtain ⟨lanes, hlanes⟩ : ∃ lanes, List.range width = 0 :: lanes := by
    obtain ⟨rest, rfl⟩ : ∃ rest, width = rest + 1 := ⟨width - 1, by omega⟩
    exact ⟨_, List.range_succ_eq_map⟩
  rw [hlanes, List.foldl_cons]
  obtain ⟨tile', htile', hcarries⟩ := (layLane_kept surface hroad across cell laid 0).2 rfl tile htile hstands
  obtain ⟨tile'', htile'', -, hstill⟩ := (lanes_kept surface hroad across cell lanes _).on cell tile' htile'
  exact ⟨tile'', htile'', hstill hcarries⟩

theorem cells_kept (width : Nat) (across : Int × Int) {surface : Map.Route}
    (hroad : surface.isRoad = true) (laid : HexMap × Nat) : Kept laid.1 (path.foldl (fun laid cell =>
      (List.range width).foldl (layLane surface across cell) laid) laid).1 := by
  induction path generalizing laid with
  | nil => exact Kept.refl _
  | cons cell path ih =>
    rw [List.foldl_cons]
    exact Kept.trans _ _ _ (lanes_kept surface hroad across cell _ laid) (ih _)

theorem pave_kept (width : UInt8) (across : Int × Int)
    {surface : Map.Route} (hroad : surface.isRoad = true) : Kept map (pave map path width across surface).1 :=
  cells_kept path width.toNat across hroad (map, 0)

theorem pave_carries {width : UInt8} (hwidth : 1 ≤ width.toNat)
    (across : Int × Int) {surface : Map.Route} (hroad : surface.isRoad = true) {cell : HexCoordinate}
    (hcell : cell ∈ path) {tile : Hex} (htile : map.hex cell = some tile)
    (hstands : tile.hasStandingStructure = false) :
    ∃ tile', (pave map path width across surface).1.hex cell = some tile' ∧ carries tile' = true := by
  obtain ⟨before, after, rfl⟩ := List.append_of_mem hcell
  unfold pave
  rw [List.foldl_append, List.foldl_cons]
  obtain ⟨tile', htile', hstands', -⟩ := (cells_kept before width.toNat across hroad (map, 0)).on cell tile htile
  obtain ⟨tile'', htile'', hcarries⟩ := lanes_carry surface hroad across hwidth htile'
    (hstands'.trans hstands)
  obtain ⟨last, hlast, -, hstill⟩ := (cells_kept after width.toNat across hroad _).on cell tile'' htile''
  exact ⟨last, hlast, hstill hcarries⟩

section Build

variable (settlements : List Settlement)

-- A way over adjacent hexes from one of the gates of a settlement to one of the other's, all of it
-- road or bridge.
def Serves (final : HexMap) (link : Fin settlements.length × Fin settlements.length) (route : List HexCoordinate) :
    Prop :=
  (∃ start goal, route.head? = some start ∧ route.getLast? = some goal ∧
    start ∈ settlements[link.1].gates ∧ goal ∈ settlements[link.2].gates) ∧
  route.IsChain (fun here next => here.distance next = 1) ∧
  ∀ cell ∈ route, ∃ tile, final.hex cell = some tile ∧ carries tile = true

theorem Serves.kept (before after : HexMap) (hkept : Kept before after)
    (link : Fin settlements.length × Fin settlements.length) (route : List HexCoordinate)
    (h : Serves settlements before link route) : Serves settlements after link route := by
  refine ⟨h.1, h.2.1, fun cell hcell => ?_⟩
  obtain ⟨tile, htile, hcarries⟩ := h.2.2 cell hcell
  obtain ⟨tile', htile', -, hstill⟩ := hkept.on cell tile htile
  exact ⟨tile', htile', hstill hcarries⟩

theorem linkSurface_road (a b : Settlement) : (linkSurface a b).isRoad = true := by
  unfold linkSurface
  dsimp only
  split <;> rfl

theorem nearest_mem (gates : List HexCoordinate) (target : HexCoordinate) (hgates : gates ≠ []) :
    ∃ gate, nearest gates target = some gate ∧ gate ∈ gates := by
  have hsome : (gates.minOn? fun gate => HexMap.distance gate target).isSome := List.isSome_minOn?_iff.mpr hgates
  obtain ⟨gate, hgate⟩ := Option.isSome_iff_exists.mp hsome
  exact ⟨gate, hgate, List.minOn?_mem hgate⟩

variable (map : HexMap) (reserved : List Bool) (params : Params)

theorem stepCost_open {here next : HexCoordinate} {k : Nat}
    (h : Edge map (stepCost map reserved) here next k) :
    ∃ tile, map.hex next = some tile ∧ tile.hasStandingStructure = false := by
  obtain ⟨cost, hcost, -⟩ := Option.map_eq_some_iff.mp h.2.2.2
  obtain ⟨tile, htile⟩ := map.hex_of_contains next h.2.1
  obtain ⟨source, hsource⟩ := map.hex_of_contains here h.1
  refine ⟨tile, htile, ?_⟩
  unfold stepCost at hcost
  rw [htile, hsource] at hcost
  simp only [Option.bind_eq_bind, Option.bind_some] at hcost
  split at hcost
  · cases hcost
  · rename_i hstands
    simpa using hstands

-- The hexes a route steps onto stand open, and the first does where its gate does.
theorem route_open {start target : HexCoordinate} {cells : List HexCoordinate}
    {total : Nat} (hstart : ∀ tile, map.hex start = some tile → tile.hasStandingStructure = false)
    (h : Reaches map start (stepCost map reserved) cells target total) :
    cells.head? = some start ∧ cells.getLast? = some target ∧ cells.IsChain (fun here next => here.distance next = 1) ∧
      ∀ cell ∈ cells, ∃ tile, map.hex cell = some tile ∧ tile.hasStandingStructure = false := by
  obtain ⟨hcontains, hroute⟩ := h
  induction hroute with
  | single v =>
    obtain ⟨tile, htile⟩ := map.hex_of_contains v hcontains
    refine ⟨rfl, rfl, .singleton v, fun cell hcell => ?_⟩
    rw [List.mem_singleton.mp hcell]
    exact ⟨tile, htile, hstart tile htile⟩
  | cons u v t cells k total hedge hroute ih =>
    obtain ⟨next, hnext, hopen⟩ := stepCost_open map reserved hedge
    obtain ⟨hhead, hlast, hchain, hcells⟩ := ih (fun tile htile => by
      obtain rfl := Option.some.inj (hnext.symm.trans htile)
      exact hopen) hedge.2.1
    obtain ⟨tail, rfl⟩ : ∃ tail, cells = v :: tail := by
      cases cells with
      | nil => cases hhead
      | cons first tail => exact ⟨tail, by rw [Option.some.inj hhead]⟩
    obtain ⟨tile, htile⟩ := map.hex_of_contains u hcontains
    refine ⟨rfl, by rw [List.getLast?_cons_cons]; exact hlast, List.isChain_cons_cons.mpr ⟨hedge.2.2.1, hchain⟩, ?_⟩
    exact List.forall_mem_cons.mpr ⟨⟨tile, htile, hstart tile htile⟩, hcells⟩

def GatesOpen (map : HexMap) : Prop :=
  ∀ settlement ∈ settlements, ∀ gate ∈ settlement.gates, ∀ tile, map.hex gate = some tile →
    tile.hasStandingStructure = false

theorem GatesOpen.kept (before after : HexMap) (hkept : Kept before after) (h : GatesOpen settlements before) :
    GatesOpen settlements after := by
  intro settlement hsettlement gate hgate tile htile
  cases hbefore : before.hex gate with
  | none =>
    rw [hkept.off gate hbefore] at htile
    cases htile
  | some tile' =>
    obtain ⟨tile'', htile'', hstands, -⟩ := hkept.on gate tile' hbefore
    obtain rfl := Option.some.inj (htile''.symm.trans htile)
    exact hstands.trans (h settlement hsettlement gate hgate tile' hbefore)

-- What the roads built so far leave: the map keeps what it had, warnings are only added, and where none
-- was each link has its route.
structure Built (before after : Works) (links : List (Fin settlements.length × Fin settlements.length)) : Prop where
  kept : Kept before.map after.map
  served : ∃ warned, after.warnings = before.warnings ++ warned ∧ (warned = [] →
    ∃ routes, after.routes = before.routes ++ routes ∧ List.Forall₂ (Serves settlements after.map) links routes)

theorem buildLink_built {works : Works}
    (link : Fin settlements.length × Fin settlements.length) (hopen : GatesOpen settlements works.map) :
    ∃ works', buildLink settlements reserved params works link = some works' ∧
      Built settlements works works' [link] := by
  obtain ⟨start, hstart, hstartGate⟩ := nearest_mem settlements[link.1].gates settlements[link.2].center
    settlements[link.1].gated
  obtain ⟨goal, hgoal, hgoalGate⟩ := nearest_mem settlements[link.2].gates start settlements[link.2].gated
  have hbuild : buildLink settlements reserved params works link = some (layLink params settlements[link.1]
      settlements[link.2] start goal works (linkPath works.map reserved start goal)) := by
    unfold buildLink
    simp only [hstart, Option.bind_eq_bind, Option.bind_some, hgoal]
  refine ⟨_, hbuild, ?_⟩
  have hroad := linkSurface_road settlements[link.1] settlements[link.2]
  cases hpath : linkPath works.map reserved start goal with
  | none =>
    refine ⟨Kept.refl _, _, rfl, fun hnone => ?_⟩
    cases hnone
  | some path =>
    have hkept := pave_kept works.map path params.roadWidth (widening start goal) hroad
    refine ⟨hkept, [], (List.append_nil _).symm, fun _ => ⟨[path], rfl, List.Forall₂.cons ?_ .nil⟩⟩
    obtain ⟨target, total, hreaches, htarget⟩ := findPath_route works.map start _ _ _
      (fun u v k hedge => by
        obtain ⟨cost, hcost, rfl⟩ := Option.map_eq_some_iff.mp hedge.2.2.2
        have hleast := stepCost_ge hcost
        omega) hpath
    obtain rfl : target = goal := by simpa using htarget
    obtain ⟨hhead, hlast, hchain, hcells⟩ := route_open works.map reserved
      (hopen _ (List.getElem_mem _) start hstartGate) hreaches
    refine ⟨⟨start, target, hhead, hlast, hstartGate, hgoalGate⟩, hchain, fun cell hcell => ?_⟩
    obtain ⟨tile, htile, hstands⟩ := hcells cell hcell
    exact pave_carries works.map path params.ranged.1 _ hroad hcell htile hstands

theorem Built.trans (a b c : Works) (links others : List (Fin settlements.length × Fin settlements.length))
    (hab : Built settlements a b links) (hbc : Built settlements b c others) :
    Built settlements a c (links ++ others) := by
  obtain ⟨warned, hwarned, hserved⟩ := hab.served
  obtain ⟨warned', hwarned', hserved'⟩ := hbc.served
  refine ⟨Kept.trans _ _ _ hab.kept hbc.kept, warned ++ warned', ?_, fun hnone => ?_⟩
  · rw [hwarned', hwarned, List.append_assoc]
  · obtain ⟨hfirst, hsecond⟩ := List.append_eq_nil_iff.mp hnone
    obtain ⟨routes, hroutes, hall⟩ := hserved hfirst
    obtain ⟨routes', hroutes', hall'⟩ := hserved' hsecond
    refine ⟨routes ++ routes', by rw [hroutes', hroutes, List.append_assoc], ?_⟩
    exact List.rel_append (hall.imp fun link route h => h.kept settlements _ _ hbc.kept) hall'

theorem buildLinks_built
    (links : List (Fin settlements.length × Fin settlements.length)) (works : Works)
    (hopen : GatesOpen settlements works.map) :
    ∃ works', links.foldlM (buildLink settlements reserved params) works = some works' ∧
      Built settlements works works' links := by
  induction links generalizing works with
  | nil => exact ⟨works, rfl, Kept.refl _, [], (List.append_nil _).symm, fun _ => ⟨[], (List.append_nil _).symm, .nil⟩⟩
  | cons link links ih =>
    obtain ⟨middle, hmiddle, hfirst⟩ := buildLink_built settlements reserved params link hopen
    obtain ⟨last, hlast, hrest⟩ := ih middle (hopen.kept settlements _ _ hfirst.kept)
    refine ⟨last, ?_, hfirst.trans settlements _ _ _ [link] links hrest⟩
    rw [List.foldlM_cons, hmiddle]
    exact hlast

theorem crossBetween_kept {eastWest : Bool}
    {length fromLine toLine : Int} {rng : Rng} {laid : HexMap × RoadReport}
    (h : (crossBetween map reserved params eastWest length fromLine toLine rng).1 = some laid) : Kept map laid.1 := by
  unfold crossBetween at h
  dsimp only at h
  split at h
  · cases h
  · split at h
    · cases h
    · obtain ⟨path, -, rfl⟩ := Option.map_eq_some_iff.mp h
      exact pave_kept map path params.roadWidth _ rfl

theorem crossInTurn_kept (attempts : List (Bool × Bool)) (rng : Rng) (laid : HexMap × RoadReport)
    (h : (crossInTurn map reserved params attempts rng).1 = some laid) : Kept map laid.1 := by
  induction attempts generalizing rng with
  | nil => cases h
  | cons attempt attempts ih =>
    simp only [crossInTurn] at h
    split at h
    · rename_i road rng' hroad
      obtain rfl := Option.some.inj h
      exact crossBetween_kept map reserved params (congrArg Prod.fst hroad)
    · exact ih _ h

theorem buildThrough_built (works : Works × Rng) (highway : Nat) :
    Built settlements works.1 (buildThrough reserved params works highway).1 [] := by
  have hwarned : ∀ extra : List String, ∀ after : Works, Kept works.1.map after.map →
      after.warnings = works.1.warnings ++ extra → after.routes = works.1.routes →
      Built settlements works.1 after [] := by
    intro extra after hkept hwarnings hroutes
    exact ⟨hkept, extra, hwarnings, fun _ => ⟨[], by rw [hroutes, List.append_nil], .nil⟩⟩
  unfold buildThrough
  cases hroad : throughRoad works.1.map reserved params highway works.2 with
  | mk laid rng =>
    cases laid with
    | none => exact hwarned _ _ (Kept.refl _) rfl rfl
    | some laid =>
      have hkept := crossInTurn_kept works.1.map reserved params _ works.2 laid (congrArg Prod.fst hroad)
      exact hwarned [] _ hkept (List.append_nil _).symm rfl

theorem buildAllThrough_built (highways : List Nat) (works : Works × Rng) :
    Built settlements works.1 (highways.foldl (buildThrough reserved params) works).1 [] := by
  induction highways generalizing works with
  | nil => exact ⟨Kept.refl _, [], (List.append_nil _).symm, fun _ => ⟨[], (List.append_nil _).symm, .nil⟩⟩
  | cons highway highways ih =>
    rw [List.foldl_cons]
    exact (buildThrough_built settlements reserved params works highway).trans settlements _ _ _ [] [] (ih _)

theorem build_serves (warnings : List String)
    (hconnect : params.connectSettlements = true) (hopen : GatesOpen settlements map)
    {links : List (Fin settlements.length × Fin settlements.length)}
    (hlinks : spanningLinks settlements = some links) :
    ∃ works, build map settlements params warnings = some works ∧ (works.warnings = warnings →
      List.Forall₂ (Serves settlements works.map) links works.routes) := by
  obtain ⟨works, hworks, hbuilt⟩ := buildLinks_built settlements (reservedHexes map settlements) params links
    ⟨map, [], warnings, []⟩ hopen
  have hthrough := buildAllThrough_built settlements (reservedHexes map settlements) params
    (List.range params.throughRoads.toNat) (works, Rng.stream params.seed "roads")
  have hall := hbuilt.trans settlements _ _ _ links [] hthrough
  have hbuild : build map settlements params warnings = some ((List.range params.throughRoads.toNat).foldl
      (buildThrough (reservedHexes map settlements) params) (works, Rng.stream params.seed "roads")).1 := by
    unfold build
    simp only [hconnect, if_true, hlinks, Option.bind_eq_bind, Option.bind_some, hworks]
  refine ⟨_, hbuild, fun hsame => ?_⟩
  obtain ⟨warned, hwarned, hserved⟩ := hall.served
  have hnone : warned = [] := List.append_right_eq_self.mp (hwarned.symm.trans hsame)
  obtain ⟨routes, hroutes, hserves⟩ := hserved hnone
  rw [List.append_nil] at hserves
  have hsame : _ = routes := hroutes
  rw [← hsame] at hserves
  exact hserves

end Build

theorem roads_connect (settlements : List Settlement) : ∃ links, spanningLinks settlements = some links ∧
    (links.length = settlements.length - 1 ∧ (∀ u v, Connected links u v) ∧
      ∀ others : List (Fin settlements.length × Fin settlements.length), (∀ u v, Connected others u v) →
        total (apart settlements) links ≤ total (apart settlements) others) ∧
    ∀ (map : HexMap) (params : Params) (warnings : List String), params.connectSettlements = true →
      GatesOpen settlements map → ∃ works, build map settlements params warnings = some works ∧
        (works.warnings = warnings → List.Forall₂ (Serves settlements works.map) links works.routes) := by
  obtain ⟨links, hlinks, hleast⟩ := spanningLinks_least settlements
  refine ⟨links, hlinks, hleast, fun map params warnings hconnect hopen => ?_⟩
  exact build_serves settlements map params warnings hconnect hopen hlinks

def farm (x y : Int) : Settlement := ⟨"farm", ⟨x, y⟩, [⟨x, y⟩], [], ⟨.Hamlet, .Civilian⟩, List.cons_ne_nil _ _⟩

def lanes : Params := ⟨0, true, 0, 1, by decide⟩

theorem meadow_open (settlements : List Settlement) : GatesOpen settlements meadow := by
  intro settlement _ gate _ tile htile
  obtain rfl | rfl := mem_meadow (List.mem_of_getElem? (Option.ite_none_right_eq_some.mp htile).2) <;> rfl

-- Of three farms two links make the tree; two farms across the pond are linked without a warning.
theorem roads_connect_farms :
    (∃ links, spanningLinks [farm 0 0, farm 2 1, farm 1 2] = some links ∧ links.length = 2) ∧
    ∃ works, build meadow [farm 0 0, farm 2 1] lanes [] = some works ∧ works.warnings = [] ∧
      List.Forall₂ (Serves [farm 0 0, farm 2 1] works.map) [(⟨0, by decide⟩, ⟨1, by decide⟩)] works.routes := by
  obtain ⟨links, hlinks, ⟨hlength, -⟩, -⟩ := roads_connect [farm 0 0, farm 2 1, farm 1 2]
  refine ⟨⟨links, hlinks, hlength⟩, ?_⟩
  obtain ⟨link, hlink, -, hserves⟩ := roads_connect [farm 0 0, farm 2 1]
  obtain rfl : [(⟨0, by decide⟩, ⟨1, by decide⟩)] = link := Option.some.inj hlink
  obtain ⟨works, hworks, hroutes⟩ := hserves meadow lanes [] rfl (meadow_open _)
  obtain ⟨path, hpath, -⟩ := ((roads_cheapest meadow wild meadow_sound (by decide) (by decide) ⟨0, 0⟩).1 ⟨2, 1⟩).avoids
    meadow_round rfl (by decide) fun u k h => Nat.lt_of_lt_of_le (by decide) (pond_dear h)
  have hbuild : build meadow [farm 0 0, farm 2 1] lanes [] = some (layLink lanes (farm 0 0) (farm 2 1) ⟨0, 0⟩ ⟨2, 1⟩
      ⟨meadow, [], [], []⟩ (linkPath meadow wild ⟨0, 0⟩ ⟨2, 1⟩)) := rfl
  rw [hpath] at hbuild
  have hnone : works.warnings = [] := by
    rw [Option.some.inj (hworks.symm.trans hbuild)]
    rfl
  exact ⟨works, hworks, hnone, hroutes hnone⟩

end StompyMux.Mapgen
