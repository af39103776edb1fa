import StompyMux.Mapgen.Path

-- What a road pays for its way across a map, and the searches that lay one.
namespace StompyMux.Mapgen

open Library
open StompyMux.Map

-- The cheapest possible step, which keeps the heuristics below what is left to pay.
def ROAD_STEP : UInt32 := 3

def groundCost : Ground → UInt32
  | .Rough | .Rubble => 22
  | .Swamp => 30
  | .UltraRough | .UltraRubble | .Magma => 60
  | _ => 10

def foliageCost : Option Foliage → UInt32
  | some .LightWoods => 18
  | some .HeavyWoods | some .LightJungle => 30
  | some .UltraHeavyWoods | some .HeavyJungle => 45
  | some .UltraHeavyJungle => 60
  | some .PlantedFields | none => 10

def surfaceCost (target : Hex) : UInt32 :=
  if target.isRoad || target.hasBridge then ROAD_STEP
  else match target.water with
    | some water => 50 + 15 * water.depth.toUInt32
    | none => max (groundCost target.ground) (foliageCost target.foliage)

def climbCost (target source : Hex) : UInt32 :=
  let climb := UInt32.ofNat ((target.level.toNat : Int) - source.level.toNat).natAbs
  12 * climb + if climb > 2 then 80 else 0

-- Stepping onto a hex of a settlement costs more, but for its roads.
def stepCost (map : HexMap) (reserved : List Bool) (here next : HexCoordinate) : Option UInt32 := do
  let target ← map.hex next
  let source ← map.hex here
  if target.hasStandingStructure then none
  else
    let cost := surfaceCost target
    let cost := if next.y ≠ here.y then cost + 1 else cost
    let cost := cost + climbCost target source
    some (if reserved.getD (map.index next) false && !target.isRoad then cost + 25 else cost)

theorem surfaceCost_bounds (target : Hex) : 3 ≤ (surfaceCost target).toNat ∧ (surfaceCost target).toNat ≤ 3875 := by
  unfold surfaceCost
  split
  · decide
  · cases target.water with
    | some water =>
      have hdepth := water.depth.toNat_lt
      simp only [UInt32.toNat_add, UInt32.toNat_mul, UInt8.toNat_toUInt32, UInt32.reduceToNat]
      simp (disch := omega) only [Nat.mod_eq_of_lt]
      omega
    | none =>
      cases target.ground <;> cases target.foliage <;> first | decide | skip
      all_goals
        rename_i foliage
        cases foliage <;> decide

theorem climbCost_le (target source : Hex) : (climbCost target source).toNat ≤ 3140 := by
  have htarget := target.level.toNat_lt
  have hsource := source.level.toNat_lt
  unfold climbCost
  dsimp only
  split
  all_goals
    simp only [UInt32.toNat_add, UInt32.toNat_mul, UInt32.toNat_ofNat', UInt32.reduceToNat]
    simp (disch := omega) only [Nat.mod_eq_of_lt]
    omega

-- The climb, the row and the settlement only add to what the ground costs.
theorem surfaceCost_le_stepCost (map : HexMap) (reserved : List Bool) {here next : HexCoordinate} {cost : UInt32}
    (h : stepCost map reserved here next = some cost) :
    ∃ target, map.hex next = some target ∧ (surfaceCost target).toNat ≤ cost.toNat := by
  unfold stepCost at h
  obtain ⟨target, htarget, h⟩ := Option.bind_eq_some_iff.mp h
  obtain ⟨source, -, h⟩ := Option.bind_eq_some_iff.mp h
  have hhigh := (surfaceCost_bounds target).2
  have hclimb := climbCost_le target source
  refine ⟨target, htarget, ?_⟩
  split at h
  · contradiction
  · obtain rfl := Option.some.inj h
    split <;> split <;> simp only [UInt32.toNat_add, UInt32.reduceToNat, Nat.reducePow] <;> omega

theorem stepCost_ge {map : HexMap} {reserved : List Bool} {here next : HexCoordinate} {cost : UInt32}
    (h : stepCost map reserved here next = some cost) : 3 ≤ cost.toNat := by
  obtain ⟨target, -, hle⟩ := surfaceCost_le_stepCost map reserved h
  exact le_trans (surfaceCost_bounds target).1 hle

theorem line_step {a b : HexCoordinate} (h : a.distance b = 1) : (a.x - b.x).natAbs ≤ 1 ∧ (a.y - b.y).natAbs ≤ 1 := by
  unfold HexCoordinate.distance HexCoordinate.cube at h
  dsimp only at h
  omega

section Heuristics

variable (map : HexMap) (reserved : List Bool)

def linkHeuristic (goal hex : HexCoordinate) : UInt32 := UInt32.ofNat (HexMap.distance hex goal) * ROAD_STEP

def linkPath (start goal : HexCoordinate) : Option (List HexCoordinate) :=
  findPath map start (fun hex => hex = goal) (linkHeuristic goal) (stepCost map reserved)

-- The column of a hex for a road running east and west, its row otherwise.
def line (eastWest : Bool) (hex : HexCoordinate) : Int := if eastWest then hex.x else hex.y

def dry (hex : HexCoordinate) : Bool :=
  (map.hex hex).any fun tile => !tile.hasStandingStructure && !tile.holdsWater

def crossed (eastWest : Bool) (toLine : Int) (hex : HexCoordinate) : Bool :=
  line eastWest hex = toLine && dry map hex

def crossingHeuristic (eastWest : Bool) (toLine : Int) (hex : HexCoordinate) : UInt32 :=
  UInt32.ofNat (line eastWest hex - toLine).natAbs * ROAD_STEP

def crossingPath (eastWest : Bool) (toLine : Int) (start : HexCoordinate) : Option (List HexCoordinate) :=
  findPath map start (crossed map eastWest toLine) (crossingHeuristic eastWest toLine) (stepCost map reserved)

-- An estimate in steps that no step lowers by more than one, at the cheapest step for each, is a lower bound.
theorem admissible_of_steps (isGoal : HexCoordinate → Bool) (steps : HexCoordinate → Nat)
    (hstep : ∀ u v, u.distance v = 1 → steps u ≤ steps v + 1) (hgoal : ∀ v, isGoal v = true → steps v = 0) :
    Admissible map isGoal (fun hex => UInt32.ofNat (steps hex) * ROAD_STEP) (stepCost map reserved) := by
  intro v cells target total _ hroute htarget
  have hpotential : ∀ a b k, Edge map (stepCost map reserved) a b k → 3 * steps a ≤ 3 * steps b + k := by
    intro a b k hedge
    obtain ⟨-, -, hdistance, hcost⟩ := hedge
    obtain ⟨cost, hprice, rfl⟩ := Option.map_eq_some_iff.mp hcost
    have hone := hstep a b hdistance
    have hleast := stepCost_ge hprice
    omega
  have hle := Route.potential_le (Edge map (stepCost map reserved)) (fun hex => 3 * steps hex) hpotential hroute
  have hword : (UInt32.ofNat (steps v) * ROAD_STEP).toNat ≤ 3 * steps v := by
    have hthree : ROAD_STEP.toNat = 3 := rfl
    rw [UInt32.toNat_mul, UInt32.toNat_ofNat', hthree]
    omega
  have hzero := hgoal target htarget
  dsimp only at hle ⊢
  omega

theorem linkHeuristic_admissible (goal : HexCoordinate) :
    Admissible map (fun hex => hex = goal) (linkHeuristic goal) (stepCost map reserved) := by
  refine admissible_of_steps map reserved _ (fun hex => HexMap.distance hex goal) ?_ ?_
  · intro u v hdistance
    have htriangle := HexCoordinate.distance_triangle u v goal
    unfold HexMap.distance
    omega
  · intro v hv
    obtain rfl : v = goal := by simpa using hv
    unfold HexMap.distance HexCoordinate.distance
    simp

theorem crossingHeuristic_admissible (eastWest : Bool) (toLine : Int) :
    Admissible map (crossed map eastWest toLine) (crossingHeuristic eastWest toLine) (stepCost map reserved) := by
  refine admissible_of_steps map reserved _ (fun hex => (line eastWest hex - toLine).natAbs) ?_ ?_
  · intro u v hdistance
    obtain ⟨hcolumn, hrow⟩ := line_step hdistance
    unfold line
    split <;> omega
  · intro v hv
    unfold crossed at hv
    simp only [Bool.and_eq_true, decide_eq_true_eq] at hv
    omega

end Heuristics

-- Where every step costs at most so much, a path that meets no hex twice costs at most that for each hex.
theorem Reaches.total_le {map : HexMap} {start : HexCoordinate}
    {cost : HexCoordinate → HexCoordinate → Option UInt32} (dearest : Nat)
    (hcost : ∀ u v k, Edge map cost u v k → k ≤ dearest) {cells : List HexCoordinate} {target : HexCoordinate}
    {total : Nat} (h : Reaches map start cost cells target total) (hnodup : cells.Nodup) :
    total ≤ dearest * map.hexes.length := by
  obtain ⟨hstart, hroute⟩ := h
  have hwalk : ∀ source cells other total, map.contains source = true →
      Route (Edge map cost) source cells other total →
      total ≤ dearest * cells.length ∧ ∀ cell ∈ cells, map.contains cell = true := by
    intro source cells other total hsource hroute
    induction hroute with
    | single v => exact ⟨Nat.zero_le _, fun cell hcell => by rw [List.mem_singleton.mp hcell]; exact hsource⟩
    | cons u v t cells k total hedge _ ih =>
      obtain ⟨hle, hcells⟩ := ih hedge.2.1
      have hstep := hcost u v k hedge
      refine ⟨?_, List.forall_mem_cons.mpr ⟨hsource, hcells⟩⟩
      rw [List.length_cons, Nat.mul_succ]
      omega
  obtain ⟨hle, hcells⟩ := hwalk start cells target total hstart hroute
  have hindices : (cells.map map.index).Nodup := by
    refine List.Nodup.map_on ?_ hnodup
    intro a ha b hb he
    exact map.index_inj (hcells a ha) (hcells b hb) he
  have hrange : cells.map map.index ⊆ List.range map.hexes.length := by
    intro index hindex
    obtain ⟨cell, hcell, rfl⟩ := List.mem_map.mp hindex
    exact List.mem_range.mpr (map.index_lt cell (hcells cell hcell))
  have hlength := (List.subperm_of_subset hindices hrange).length_le
  rw [List.length_map, List.length_range] at hlength
  exact le_trans hle (Nat.mul_le_mul_left _ hlength)

theorem findPath_cheapest (map : HexMap) (start : HexCoordinate) (isGoal : HexCoordinate → Bool)
    (heuristic : HexCoordinate → UInt32) (cost : HexCoordinate → HexCoordinate → Option UInt32)
    (hpositive : ∀ u v k, Edge map cost u v k → 0 < k)
    (hbounded : ∀ cells v total, Reaches map start cost cells v total → cells.Nodup → total < MAX)
    (hadmissible : Admissible map isGoal heuristic cost) :
    Answers map start isGoal cost (findPath map start isGoal heuristic cost) ∧
      (∀ (roads : HexMap) (reserved : List Bool) (goal : HexCoordinate),
        Admissible roads (fun hex => hex = goal) (linkHeuristic goal) (stepCost roads reserved)) ∧
      ∀ (roads : HexMap) (reserved : List Bool) (eastWest : Bool) (toLine : Int),
        Admissible roads (crossed roads eastWest toLine) (crossingHeuristic eastWest toLine)
          (stepCost roads reserved) :=
  ⟨findPath_answers map start isGoal heuristic cost hpositive hbounded hadmissible,
    linkHeuristic_admissible, crossingHeuristic_admissible⟩

-- Where some way round costs less than a step onto the hex, the path found does not cross it.
theorem Answers.avoids {map : HexMap} {start target dear : HexCoordinate} {isGoal : HexCoordinate → Bool}
    {cost : HexCoordinate → HexCoordinate → Option UInt32} {result : Option (List HexCoordinate)}
    {cells : List HexCoordinate} {total : Nat} (h : Answers map start isGoal cost result)
    (hround : Reaches map start cost cells target total) (hgoal : isGoal target = true) (hne : dear ≠ start)
    (hdear : ∀ u k, Edge map cost u dear k → total < k) : ∃ path, result = some path ∧ dear ∉ path := by
  cases result with
  | none => exact absurd hgoal (by simp [h cells target total hround])
  | some path =>
    obtain ⟨_, paid, hpath, -, hleast⟩ := h
    refine ⟨path, rfl, fun hmem => ?_⟩
    have hle := hleast cells target total hround hgoal
    have hpaid := Route.le_of_mem _ hpath.2 hmem hne hdear
    omega

def clearHex : Hex := ⟨0, .Clear, none, none, none, none, none, none⟩

def pond : Hex := { clearHex with water := some ⟨4, .Still⟩ }

-- Open ground round a pond.
def meadow : HexMap := ⟨3, 3, (List.replicate 9 clearHex).set 4 pond, rfl⟩

theorem mem_meadow {hex : Hex} (h : hex ∈ meadow.hexes) : hex = clearHex ∨ hex = pond :=
  (List.mem_or_eq_of_mem_set h).imp_left List.eq_of_mem_replicate

def paces (_ next : HexCoordinate) : Option UInt32 := some (if next = ⟨1, 1⟩ then 100 else 10)

theorem findPath_cheapest_meadow :
    (Answers meadow ⟨0, 0⟩ (fun hex => hex = ⟨2, 1⟩) paces
        (findPath meadow ⟨0, 0⟩ (fun hex => hex = ⟨2, 1⟩) (fun _ => 0) paces) ∧
      (∀ (roads : HexMap) (reserved : List Bool) (goal : HexCoordinate),
        Admissible roads (fun hex => hex = goal) (linkHeuristic goal) (stepCost roads reserved)) ∧
      ∀ (roads : HexMap) (reserved : List Bool) (eastWest : Bool) (toLine : Int),
        Admissible roads (crossed roads eastWest toLine) (crossingHeuristic eastWest toLine)
          (stepCost roads reserved)) ∧
      ∃ path, findPath meadow ⟨0, 0⟩ (fun hex => hex = ⟨2, 1⟩) (fun _ => 0) paces = some path ∧ ⟨1, 1⟩ ∉ path := by
  have hpace : ∀ u v k, Edge meadow paces u v k → k = if v = ⟨1, 1⟩ then 100 else 10 := by
    intro u v k hedge
    rw [← Option.some.inj hedge.2.2.2]
    split <;> rfl
  have hanswers := findPath_cheapest meadow ⟨0, 0⟩ (fun hex => hex = ⟨2, 1⟩) (fun _ => 0) paces
    (fun u v k hedge => by rw [hpace u v k hedge]; split <;> decide)
    (fun cells v total hreaches hnodup => lt_of_le_of_lt
      (hreaches.total_le 100 (fun u v k hedge => by rw [hpace u v k hedge]; split <;> decide) hnodup) (by decide))
    (fun v cells target total _ _ _ => Nat.zero_le _)
  have hround : Reaches meadow ⟨0, 0⟩ paces [⟨0, 0⟩, ⟨1, 0⟩, ⟨2, 0⟩, ⟨2, 1⟩] ⟨2, 1⟩ 30 :=
    ⟨rfl, .cons _ _ _ _ 10 20 ⟨rfl, rfl, rfl, rfl⟩ (.cons _ _ _ _ 10 10 ⟨rfl, rfl, rfl, rfl⟩
      (.cons _ _ _ _ 10 0 ⟨rfl, rfl, rfl, rfl⟩ (.single _)))⟩
  refine ⟨hanswers, hanswers.1.avoids hround rfl (by decide) fun u k hedge => ?_⟩
  rw [hpace u _ k hedge]
  decide

section Limits

variable (map : HexMap) (reserved : List Bool) (hsound : ∀ hex ∈ map.hexes, hex.Sound)

include hsound

theorem sound_of_hex {v : HexCoordinate} {tile : Hex} (h : map.hex v = some tile) : tile.Sound :=
  hsound tile (List.mem_of_getElem? (Option.ite_none_right_eq_some.mp h).2)

theorem stepCost_le {here next : HexCoordinate} {cost : UInt32}
    (h : stepCost map reserved here next = some cost) : cost.toNat ≤ 711 := by
  unfold stepCost at h
  obtain ⟨target, htarget, h⟩ := Option.bind_eq_some_iff.mp h
  obtain ⟨source, hsource, h⟩ := Option.bind_eq_some_iff.mp h
  have htarget := sound_of_hex map hsound htarget
  have hhigh := UInt8.le_iff_toNat_le.mp htarget.level
  have hlow := UInt8.le_iff_toNat_le.mp (sound_of_hex map hsound hsource).level
  simp only [MAX_HEIGHT, UInt8.reduceToNat] at hhigh hlow
  have hclimb : (climbCost target source).toNat ≤ 500 := by
    unfold climbCost
    dsimp only
    split <;> simp only [UInt32.toNat_add, UInt32.toNat_mul, UInt32.toNat_ofNat', UInt32.reduceToNat] <;>
      simp (disch := omega) only [Nat.mod_eq_of_lt] <;> omega
  have hsurface : (surfaceCost target).toNat ≤ 185 := by
    unfold surfaceCost
    split
    · decide
    · cases hwater : target.water with
      | some water =>
        have hdepth := UInt8.le_iff_toNat_le.mp (htarget.depth water hwater)
        simp only [MAX_DEPTH, UInt8.reduceToNat] at hdepth
        simp only [UInt32.toNat_add, UInt32.toNat_mul, UInt8.toNat_toUInt32, UInt32.reduceToNat]
        simp (disch := omega) only [Nat.mod_eq_of_lt]
        omega
      | none =>
        have hground : (groundCost target.ground).toNat ≤ 60 := by cases target.ground <;> decide
        have hfoliage : (foliageCost target.foliage).toNat ≤ 60 := by
          rcases target.foliage with _ | foliage
          · decide
          · cases foliage <;> decide
        show (ite _ _ _ : UInt32).toNat ≤ 185
        split <;> omega
  split at h
  · contradiction
  · obtain rfl := Option.some.inj h
    split <;> split <;> simp only [UInt32.toNat_add, UInt32.reduceToNat] <;> omega

-- On a map as large as one may be asked for no total overflows, so that both searches of the road
-- builder find a cheapest path, or none where there is none.
theorem roads_cheapest (hwidth : map.width ≤ 1000) (hheight : map.height ≤ 1000) (start : HexCoordinate) :
    (∀ goal, Answers map start (fun hex => hex = goal) (stepCost map reserved)
      (linkPath map reserved start goal)) ∧
    ∀ eastWest toLine, Answers map start (crossed map eastWest toLine) (stepCost map reserved)
      (crossingPath map reserved eastWest toLine start) := by
  have hcost : ∀ u v k, Edge map (stepCost map reserved) u v k → 3 ≤ k ∧ k ≤ 711 := by
    rintro u v k ⟨-, -, -, hk⟩
    obtain ⟨cost, hcost, rfl⟩ := Option.map_eq_some_iff.mp hk
    exact ⟨stepCost_ge hcost, stepCost_le map reserved hsound hcost⟩
  have hpositive : ∀ u v k, Edge map (stepCost map reserved) u v k → 0 < k := fun u v k h =>
    Nat.lt_of_lt_of_le (by decide) (hcost u v k h).1
  have hbounded : ∀ cells v total, Reaches map start (stepCost map reserved) cells v total →
      cells.Nodup → total < MAX := by
    intro cells v total h hnodup
    have hle := h.total_le 711 (fun u v k h => (hcost u v k h).2) hnodup
    have hsize : map.width.toNat * map.height.toNat ≤ 1000 * 1000 :=
      Nat.mul_le_mul (UInt16.le_iff_toNat_le.mp hwidth) (UInt16.le_iff_toNat_le.mp hheight)
    rw [map.sized] at hle
    unfold MAX
    omega
  exact ⟨fun goal => findPath_answers map start _ _ _ hpositive hbounded
      (linkHeuristic_admissible map reserved goal), fun eastWest toLine =>
    findPath_answers map start _ _ _ hpositive hbounded
      (crossingHeuristic_admissible map reserved eastWest toLine)⟩

end Limits

-- No settlement holds any of its hexes.
def wild : List Bool := List.replicate 9 false

theorem meadow_round : Reaches meadow ⟨0, 0⟩ (stepCost meadow wild) [⟨0, 0⟩, ⟨1, 0⟩, ⟨2, 0⟩, ⟨2, 1⟩] ⟨2, 1⟩ 31 :=
  ⟨rfl, .cons _ _ _ _ 10 21 ⟨rfl, rfl, rfl, rfl⟩ (.cons _ _ _ _ 10 11 ⟨rfl, rfl, rfl, rfl⟩
    (.cons _ _ _ _ 11 0 ⟨rfl, rfl, rfl, rfl⟩ (.single _)))⟩

theorem meadow_sound : ∀ hex ∈ meadow.hexes, hex.Sound := by
  intro hex hhex
  obtain rfl | rfl := mem_meadow hhex <;> exact Hex.sound_of_validate _ rfl

-- The pond costs more than the way round it.
theorem pond_dear {u : HexCoordinate} {k : Nat} (h : Edge meadow (stepCost meadow wild) u ⟨1, 1⟩ k) : 110 ≤ k := by
  obtain ⟨cost, hcost, rfl⟩ := Option.map_eq_some_iff.mp h.2.2.2
  obtain ⟨target, htarget, hle⟩ := surfaceCost_le_stepCost meadow wild hcost
  obtain rfl : pond = target := Option.some.inj htarget
  exact hle

theorem roads_cheapest_meadow :
    (Answers meadow ⟨0, 0⟩ (fun hex => hex = ⟨2, 1⟩) (stepCost meadow wild) (linkPath meadow wild ⟨0, 0⟩ ⟨2, 1⟩) ∧
      Answers meadow ⟨0, 0⟩ (crossed meadow true 2) (stepCost meadow wild) (crossingPath meadow wild true 2 ⟨0, 0⟩)) ∧
    (∃ path, linkPath meadow wild ⟨0, 0⟩ ⟨2, 1⟩ = some path ∧ ⟨1, 1⟩ ∉ path) ∧
    ∃ path, crossingPath meadow wild true 2 ⟨0, 0⟩ = some path ∧ ⟨1, 1⟩ ∉ path := by
  obtain ⟨hlinks, hcrossings⟩ := roads_cheapest meadow wild meadow_sound (by decide) (by decide) ⟨0, 0⟩
  have hdear : ∀ u k, Edge meadow (stepCost meadow wild) u ⟨1, 1⟩ k → 31 < k :=
    fun u k h => Nat.lt_of_lt_of_le (by decide) (pond_dear h)
  exact ⟨⟨hlinks ⟨2, 1⟩, hcrossings true 2⟩, (hlinks ⟨2, 1⟩).avoids meadow_round rfl (by decide) hdear,
    (hcrossings true 2).avoids meadow_round rfl (by decide) hdear⟩

end StompyMux.Mapgen
