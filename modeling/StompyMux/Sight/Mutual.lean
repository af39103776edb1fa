import StompyMux.Sight.Walk

-- Terrain line of sight from both ends of a line.
namespace StompyMux.Sight

open Library Library.Fallible
open StompyMux.Map

section Between

-- The hexes between the ends, with their places along the line.
def between (cells : List HexCoordinate) : List (HexCoordinate × Nat) := (cells.zipIdx.drop 1).dropLast

variable (cells : List HexCoordinate)

theorem length_between : (between cells).length = cells.length - 2 := by
  unfold between
  rw [List.length_dropLast, List.length_drop, List.length_zipIdx]
  omega

theorem getElem?_between (i : Nat) : (between cells)[i]? =
    if i + 2 < cells.length then cells[i + 1]?.map (fun cell => (cell, i + 1)) else none := by
  unfold between
  rw [List.getElem?_dropLast, List.getElem?_drop, List.getElem?_zipIdx, List.length_drop, List.length_zipIdx,
    Nat.add_comm 1 i, Nat.zero_add]
  split
  · rw [if_pos (by omega)]
  · rw [if_neg (by omega)]

theorem place_between {point : HexCoordinate × Nat} (h : point ∈ between cells) :
    1 ≤ point.2 ∧ point.2 < cells.length - 1 := by
  obtain ⟨i, hi⟩ := List.getElem?_of_mem h
  rw [getElem?_between] at hi
  split at hi
  · obtain ⟨cell, -, rfl⟩ := Option.map_eq_some_iff.mp hi
    omega
  · contradiction

-- From the other end the same hexes come in opposite order.
theorem between_reverse : between cells.reverse =
    (between cells).reverse.map (fun point => (point.1, (cells.length - 1) - point.2)) := by
  have hlength := length_between cells
  apply List.ext_getElem?
  intro i
  rw [getElem?_between, List.length_reverse, List.getElem?_map]
  split
  · rw [List.getElem?_reverse (by omega), List.getElem?_reverse (by omega), getElem?_between,
      if_pos (by omega), Option.map_map, hlength,
      show cells.length - 2 - 1 - i + 1 = cells.length - 1 - (i + 1) by omega]
    congr 1
    funext cell
    exact Prod.ext rfl (by dsimp only [Function.comp]; omega)
  · rw [List.getElem?_eq_none (by rw [List.length_reverse]; omega)]
    rfl

variable (line : Line) (map : Battlefield) (report : TerrainLos)

theorem walk_between (hsteps : line.steps = cells.length - 1) :
    line.walk map (cells.zipIdx.drop 1) report = line.walk map (between cells) report := by
  have hstop : ∀ (points : List (HexCoordinate × Nat)) (point : HexCoordinate × Nat) (r : TerrainLos),
      point.2 = line.steps → line.walk map (points ++ [point]) r = line.walk map points r := by
    intro points point r hpoint
    induction points generalizing r with
    | nil =>
        show line.walk map [point] r = _
        unfold Line.walk
        rw [if_pos hpoint]
    | cons first points ih =>
        rw [List.cons_append]
        unfold Line.walk
        simp only [ih]
  by_cases hempty : cells.zipIdx.drop 1 = []
  · unfold between
    rw [hempty]
    rfl
  · have hlast : ((cells.zipIdx.drop 1).getLast hempty).2 = line.steps := by
      have hne : (cells.zipIdx.drop 1).length ≠ 0 := fun h => hempty (List.length_eq_zero_iff.mp h)
      rw [List.length_drop, List.length_zipIdx] at hne
      simp only [List.getLast_eq_getElem, List.getElem_drop, List.getElem_zipIdx, List.length_drop,
        List.length_zipIdx, hsteps]
      omega
    unfold between
    rw [← List.dropLast_append_getLast hempty, hstop _ _ _ hlast, List.dropLast_append_getLast]

end Between

section Ends

variable (map : Battlefield) (observer target : HexCoordinate) (eyes : ℚ × ℚ)
  (airborne : Option ℚ × Option ℚ) (kneeling : Bool × Bool)

def standing (point : HexCoordinate) : ℚ := (groundAt map point).standingHeight

def sightLevel (point : HexCoordinate) (eye : ℚ) (altitude : Option ℚ) : ℚ :=
  altitude.getD (standing map point) + eye

def submerged (point : HexCoordinate) (eye : ℚ) (altitude : Option ℚ) : Bool :=
  (groundAt map point).holdsWater && sightLevel map point eye altitude < ((groundAt map point).level.toNat : ℚ)

def inBothWorlds (point : HexCoordinate) : Bool := bothWorlds (groundAt map point) (standing map point)

-- The line between two units.
def lineBetween (steps : Nat) : Line :=
  ⟨standing map observer, standing map target, sightLevel map observer eyes.1 airborne.1,
    sightLevel map target eyes.2 airborne.2, airborne, ⟨kneeling, false⟩,
    submerged map observer eyes.1 airborne.1, inBothWorlds map target, steps⟩

def blocksAt (line : Line) (point : HexCoordinate × Nat) : Bool :=
  if line.underwater then line.leavesWater point.2 (groundAt map point.1)
  else line.blocksOverland point.2 (groundAt map point.1)

structure Counts where
  woods : Nat
  smoke : Nat
  fields : Nat
  water : Nat
  deriving DecidableEq

def TerrainLos.counts (report : TerrainLos) : Counts :=
  ⟨report.woods, report.smoke, report.fields, report.water⟩

def countsAlong (line : Line) (points : List (HexCoordinate × Nat)) : Counts :=
  if line.underwater then ⟨0, 0, 0, tally 7 0 (points.map fun _ => 1)⟩
  else
    ⟨tally 15 0 (points.map fun point => line.woodsOverland point.2 (groundAt map point.1) (tileAt map point.1)),
      tally 15 0 (points.map fun point => line.smokeOverland point.2 (groundAt map point.1) (tileAt map point.1)),
      tally 15 0 (points.map fun point => line.fieldsOverland point.2 (groundAt map point.1) (tileAt map point.1)),
      tally 7 0 (points.map fun point => line.waterOverland point.2 (groundAt map point.1))⟩

theorem coverBehind_eq {line : Line} {destination : Hex} {cells : List HexCoordinate}
    {report after : TerrainLos} (h : coverBehind map line eyes destination cells report = .ok after) :
    ∃ cover, after = { report with partialCover := cover } := by
  unfold coverBehind at h
  split at h
  · obtain ⟨point, -, h⟩ := ok_of_bind h
    obtain ⟨preceding, -, h⟩ := ok_of_bind h
    injection h with h
    exact ⟨_, h.symm⟩
  · injection h with h
    exact ⟨report.partialCover, h.symm⟩

theorem coverInside_eq (line : Line) (destination : Hex) (report : TerrainLos) :
    ∃ cover, coverInside line eyes destination report = { report with partialCover := cover } := by
  unfold coverInside
  split
  · exact ⟨true, rfl⟩
  · exact ⟨report.partialCover, rfl⟩

variable (trace : HexCoordinate → HexCoordinate → Except Error (List HexCoordinate))

theorem report_eq {report : TerrainLos}
    (h : terrainLosAtHeights map trace observer target eyes airborne ⟨kneeling, false⟩ = .ok report) :
    if submerged map observer eyes.1 airborne.1 ≠ submerged map target eyes.2 airborne.2 then
      report.blocked = true
    else if observer = target then report.blocked = false ∧ report.counts = ⟨0, 0, 0, 0⟩
    else ∃ cells, trace observer target = .ok cells ∧
      let line := lineBetween map observer target eyes airborne kneeling (cells.length - 1)
      report.blocked = (between cells).any (blocksAt map line) ∧
        (report.blocked = false → report.counts = countsAlong map line (between cells)) := by
  unfold terrainLosAtHeights at h
  obtain ⟨source, hsource, h⟩ := ok_of_bind h
  obtain ⟨destination, hdestination, h⟩ := ok_of_bind h
  obtain ⟨visible, -, h⟩ := ok_of_bind h
  have hsourceAt := groundAt_eq map observer hsource
  have htargetAt := groundAt_eq map target hdestination
  dsimp only at h
  have hline : ∀ steps, lineBetween map observer target eyes airborne kneeling steps =
      ⟨source.standingHeight, destination.standingHeight,
        airborne.1.getD (source.standingHeight : ℚ) + eyes.1,
        airborne.2.getD (destination.standingHeight : ℚ) + eyes.2, airborne, ⟨kneeling, false⟩,
        source.holdsWater &&
          decide (airborne.1.getD (source.standingHeight : ℚ) + eyes.1 < (source.level.toNat : ℚ)),
        bothWorlds destination destination.standingHeight, steps⟩ := by
    intro steps
    unfold lineBetween submerged sightLevel inBothWorlds standing
    rw [hsourceAt, htargetAt]
  have hobserver : submerged map observer eyes.1 airborne.1 = (source.holdsWater &&
      decide (airborne.1.getD (source.standingHeight : ℚ) + eyes.1 < (source.level.toNat : ℚ))) := by
    unfold submerged sightLevel standing
    rw [hsourceAt]
  have htarget : submerged map target eyes.2 airborne.2 = (destination.holdsWater &&
      decide (airborne.2.getD (destination.standingHeight : ℚ) + eyes.2 < (destination.level.toNat : ℚ))) := by
    unfold submerged sightLevel standing
    rw [htargetAt]
  rw [← hobserver, ← htarget] at h
  split at h
  · rename_i hworlds
    rw [if_pos hworlds]
    injection h with h
    rw [← h]
  · rename_i hworlds
    rw [if_neg hworlds]
    split at h
    · rename_i hsame
      rw [if_pos hsame]
      injection h with h
      rw [← h]
      exact ⟨rfl, rfl⟩
    · rename_i hdiffer
      rw [if_neg hdiffer]
      obtain ⟨cells, hcells, h⟩ := ok_of_bind h
      refine ⟨cells, hcells, ?_⟩
      rw [hobserver, ← hline] at h
      intro line
      obtain ⟨⟨walked, returned⟩, hwalk, h⟩ := ok_of_bind h
      have hkept : report.blocked = walked.blocked ∧ report.counts = walked.counts := by
        dsimp only at h
        split at h
        · injection h with h
          rw [h]
          exact ⟨rfl, rfl⟩
        · obtain ⟨covered, hcovered, h⟩ := ok_of_bind h
          obtain ⟨cover, rfl⟩ := coverBehind_eq map eyes hcovered
          obtain ⟨inside, hinside⟩ := coverInside_eq eyes line destination { walked with partialCover := cover }
          injection h with h
          rw [← h, hinside]
          exact ⟨rfl, rfl⟩
      rw [walk_between cells line map _ rfl] at hwalk
      have hplaces : ∀ point ∈ between cells, point.2 ≠ line.steps := by
        intro point hpoint
        exact ne_of_lt (place_between cells hpoint).2
      rw [hkept.1, hkept.2]
      unfold blocksAt countsAlong
      by_cases hunder : line.underwater
      · obtain ⟨hblocked, hwoods, hfields, hsmoke, hwater⟩ := line.walk_underwater _ map _ hplaces hunder
          rfl rfl hwalk
        simp only [hunder, if_true]
        refine ⟨hblocked, fun hclear => ?_⟩
        unfold TerrainLos.counts
        rw [hwoods, hfields, hsmoke, hwater hclear]
      · rw [Bool.not_eq_true] at hunder
        obtain ⟨-, hblocked, hcounts⟩ := line.walk_overland _ map _ hplaces hunder
          (fun hset => by contradiction) hwalk
        simp only [hunder, Bool.false_eq_true, if_false]
        refine ⟨hblocked, fun hclear => ?_⟩
        obtain ⟨hwater, hwoods, hfields, hsmoke⟩ := hcounts hclear
        unfold TerrainLos.counts
        rw [hwater, hwoods, hfields, hsmoke]

end Ends

-- One line seen from its two ends.
structure Opposite (line back : Line) : Prop where
  startGround : back.startGround = line.endGround
  endGround : back.endGround = line.startGround
  startHeight : back.startHeight = line.endHeight
  endHeight : back.endHeight = line.startHeight
  airborne : back.airborne = line.airborne.swap
  kneeling : back.options.kneeling = line.options.kneeling.swap
  units : line.options.hexTarget = false ∧ back.options.hexTarget = false
  steps : back.steps = line.steps

namespace Opposite

variable {line back : Line} (h : Opposite line back) (ground tile : Hex) (i j : Nat)

include h

theorem relief : back.relief j = line.relief i := by
  unfold Line.relief
  rw [h.units.1, h.units.2]
  rfl

theorem level : back.level j ground = line.level i ground := by
  unfold Line.level
  rw [h.relief i j]

theorem waterOverland : back.waterOverland j ground = line.waterOverland i ground := by
  unfold Line.waterOverland
  rw [h.startHeight, h.endHeight, h.level ground i j, min_comm]

variable (hplace : i + j = line.steps)

include hplace

theorem meets (height : ℚ) : back.meets j height = line.meets i height := by
  have hnear : j = 1 ↔ i + 1 = line.steps := by omega
  have hfar : j + 1 = line.steps ↔ i = 1 := by omega
  unfold Line.meets intervenes
  rw [h.startHeight, h.endHeight, h.steps]
  simp only [hnear, hfar]
  rw [Bool.and_comm (decide (line.endHeight ≤ height)), Bool.or_assoc, Bool.or_assoc]
  congr 1
  rw [Bool.or_comm]

theorem shelters : back.shelters j ground = line.shelters i ground := by
  have hnear : j = 1 ↔ i + 1 = line.steps := by omega
  have hfar : j + 1 = line.steps ↔ i = 1 := by omega
  unfold Line.shelters
  rw [h.startGround, h.endGround, h.airborne, h.kneeling, h.steps]
  simp only [hnear, hfar, Prod.fst_swap, Prod.snd_swap]
  rw [Bool.or_comm]

-- The line is as high over a hex from one end as from the other.
theorem sightHeight (hi : 1 ≤ i) : back.sightHeight j = line.sightHeight i := by
  have hsteps : (line.steps : ℚ) ≠ 0 := Nat.cast_ne_zero.mpr (by omega)
  have hj : (j : ℚ) = line.steps - i := by
    rw [← hplace]
    push_cast
    ring
  unfold Line.sightHeight
  rw [h.startHeight, h.endHeight, h.steps, hj]
  field_simp
  ring

theorem blocksOverland : back.blocksOverland j ground = line.blocksOverland i ground := by
  unfold Line.blocksOverland
  rw [h.meets i j hplace, h.meets i j hplace, h.shelters ground i j hplace,
    h.level ground i j, h.relief i j]

theorem inFoliage : back.inFoliage j ground tile = line.inFoliage i ground tile := by
  unfold Line.inFoliage
  rw [h.meets i j hplace, h.level ground i j]

theorem woodsOverland : back.woodsOverland j ground tile = line.woodsOverland i ground tile := by
  unfold Line.woodsOverland
  rw [h.inFoliage ground tile i j hplace]

theorem fieldsOverland : back.fieldsOverland j ground tile = line.fieldsOverland i ground tile := by
  unfold Line.fieldsOverland
  rw [h.inFoliage ground tile i j hplace]

theorem smokeOverland : back.smokeOverland j ground tile = line.smokeOverland i ground tile := by
  unfold Line.smokeOverland
  rw [h.meets i j hplace, h.level ground i j]

end Opposite

section Mutual

variable (map : Battlefield) (trace : HexCoordinate → HexCoordinate → Except Error (List HexCoordinate))
  (observer target : HexCoordinate) (eyes : ℚ × ℚ) (airborne : Option ℚ × Option ℚ)
  (kneeling : Bool × Bool)

theorem opposite_lineBetween (steps : Nat) : Opposite
    (lineBetween map observer target eyes airborne kneeling steps)
    (lineBetween map target observer eyes.swap airborne.swap kneeling.swap steps) :=
  ⟨rfl, rfl, rfl, rfl, rfl, rfl, ⟨rfl, rfl⟩, rfl⟩

-- A hex that no water line passes: dry, or with its bed in the way.
def stopsWater (line : Line) (index : Nat) (ground : Hex) : Bool :=
  !ground.holdsWater || (!ground.hasBridge && line.sightHeight index ≤ (ground.surfaceHeight : ℚ))

def overSurface (line : Line) (index : Nat) (ground : Hex) : Bool :=
  (ground.level.toNat : ℚ) < line.sightHeight index

theorem leavesWater_eq (line : Line) (index : Nat) (ground : Hex) : line.leavesWater index ground =
    (stopsWater line index ground || (!line.targetBothWorlds && overSurface line index ground)) := rfl

-- An underwater line between an end one level below its surface and an end that is not, that
-- stays in water and over the bed, but passes over a lower surface.
def Skims : Prop :=
  submerged map observer eyes.1 airborne.1 = true ∧ submerged map target eyes.2 airborne.2 = true ∧
  observer ≠ target ∧ inBothWorlds map observer ≠ inBothWorlds map target ∧
  ∃ cells, trace observer target = .ok cells ∧
    let line := lineBetween map observer target eyes airborne kneeling (cells.length - 1)
    (∀ point ∈ between cells, stopsWater line point.2 (groundAt map point.1) = false) ∧
    ∃ point ∈ between cells, overSurface line point.2 (groundAt map point.1) = true

variable (cells : List HexCoordinate)

-- A sum or a search along the line finds the same from both ends.
theorem map_back {T : Type} (f g : HexCoordinate × Nat → T)
    (h : ∀ point ∈ between cells, f (point.1, (cells.length - 1) - point.2) = g point) :
    (between cells.reverse).map f = ((between cells).map g).reverse := by
  rw [between_reverse, List.map_map, ← List.map_reverse]
  refine List.map_congr_left fun point hpoint => h point (List.mem_reverse.mp hpoint)

theorem any_back (f g : HexCoordinate × Nat → Bool)
    (h : ∀ point ∈ between cells, f (point.1, (cells.length - 1) - point.2) = g point) :
    (between cells.reverse).any f = (between cells).any g := by
  have hmap := map_back cells f g h
  have hany : ∀ (l : List (HexCoordinate × Nat)) (p : HexCoordinate × Nat → Bool), l.any p = (l.map p).any id :=
    fun l p => by rw [List.any_map]; rfl
  rw [hany _ f, hmap, List.any_reverse, ← hany]

theorem tally_back {cap : Nat} (hcap : cap ≤ 255) (f g : HexCoordinate × Nat → Nat)
    (h : ∀ point ∈ between cells, f (point.1, (cells.length - 1) - point.2) = g point) :
    tally cap 0 ((between cells.reverse).map f) = tally cap 0 ((between cells).map g) := by
  rw [map_back cells f g h]
  exact tally_perm cap 0 hcap _ _ (List.reverse_perm _)

theorem countsAlong_back {line back : Line} (hopposite : Opposite line back)
    (hunder : back.underwater = line.underwater) (hsteps : line.steps = cells.length - 1) :
    countsAlong map back (between cells.reverse) = countsAlong map line (between cells) := by
  have hplaces : ∀ point ∈ between cells,
      point.2 + (cells.length - 1 - point.2) = line.steps := by
    intro point hpoint
    have hplace := place_between cells hpoint
    omega
  unfold countsAlong
  rw [hunder]
  split
  · rw [tally_back cells (by decide) (fun _ => 1) (fun _ => 1) fun _ _ => rfl]
  · rw [tally_back cells (by decide) _ (fun point => line.woodsOverland point.2 (groundAt map point.1)
        (tileAt map point.1)) (fun point hpoint => ?_),
      tally_back cells (by decide) _ (fun point => line.smokeOverland point.2 (groundAt map point.1)
        (tileAt map point.1)) (fun point hpoint => ?_),
      tally_back cells (by decide) _ (fun point => line.fieldsOverland point.2 (groundAt map point.1)
        (tileAt map point.1)) (fun point hpoint => ?_),
      tally_back cells (by decide) _ (fun point => line.waterOverland point.2 (groundAt map point.1))
        (fun point hpoint => ?_)]
    · exact hopposite.waterOverland _ _ _
    · exact hopposite.fieldsOverland _ _ _ _ (hplaces point hpoint)
    · exact hopposite.smokeOverland _ _ _ _ (hplaces point hpoint)
    · exact hopposite.woodsOverland _ _ _ _ (hplaces point hpoint)

theorem any_leavesWater {line : Line} (hunder : line.underwater = true) (points : List (HexCoordinate × Nat)) :
    points.any (blocksAt map line) =
      (points.any (fun point => stopsWater line point.2 (groundAt map point.1)) ||
        (!line.targetBothWorlds && points.any (fun point => overSurface line point.2 (groundAt map point.1)))) := by
  have hblocks : ∀ point, blocksAt map line point =
      (stopsWater line point.2 (groundAt map point.1) ||
        (!line.targetBothWorlds && overSurface line point.2 (groundAt map point.1))) := by
    intro point
    unfold blocksAt
    rw [if_pos hunder, leavesWater_eq]
  induction points with
  | nil => simp
  | cons point points ih =>
      simp only [List.any_cons, hblocks, ih, Bool.and_or_distrib_left]
      ac_rfl

def dryAlong (line : Line) (points : List (HexCoordinate × Nat)) : Bool :=
  points.any fun point => stopsWater line point.2 (groundAt map point.1)

def lowAlong (line : Line) (points : List (HexCoordinate × Nat)) : Bool :=
  points.any fun point => overSurface line point.2 (groundAt map point.1)

theorem blocked_back {line back : Line} (hopposite : Opposite line back)
    (hunder : back.underwater = line.underwater) (hsteps : line.steps = cells.length - 1) :
    (between cells.reverse).any (blocksAt map back) =
      if line.underwater then
        dryAlong map line (between cells) || (!back.targetBothWorlds && lowAlong map line (between cells))
      else (between cells).any (blocksAt map line) := by
  have hplaces : ∀ point ∈ between cells, 1 ≤ point.2 ∧
      point.2 + (cells.length - 1 - point.2) = line.steps := by
    intro point hpoint
    have hplace := place_between cells hpoint
    omega
  split
  · rename_i hline
    rw [any_leavesWater map (hunder.trans hline)]
    congr 1
    · refine any_back cells _ _ fun point hpoint => ?_
      obtain ⟨hi, hplace⟩ := hplaces point hpoint
      unfold stopsWater
      rw [hopposite.sightHeight _ _ hplace hi]
    · congr 1
      refine any_back cells _ _ fun point hpoint => ?_
      obtain ⟨hi, hplace⟩ := hplaces point hpoint
      unfold overSurface
      rw [hopposite.sightHeight _ _ hplace hi]
  · rename_i hline
    refine any_back cells _ _ fun point hpoint => ?_
    obtain ⟨hi, hplace⟩ := hplaces point hpoint
    unfold blocksAt
    rw [if_neg hline, if_neg (by rw [hunder]; exact hline)]
    exact hopposite.blocksOverland _ _ _ hplace

theorem skims_iff (hcells : trace observer target = .ok cells) (hdiffer : observer ≠ target)
    (hworlds : submerged map observer eyes.1 airborne.1 = submerged map target eyes.2 airborne.2) :
    let line := lineBetween map observer target eyes airborne kneeling (cells.length - 1)
    Skims map trace observer target eyes airborne kneeling ↔
      line.underwater = true ∧ inBothWorlds map observer ≠ inBothWorlds map target ∧
        dryAlong map line (between cells) = false ∧ lowAlong map line (between cells) = true := by
  intro line
  have hdry : dryAlong map line (between cells) = false ↔
      ∀ point ∈ between cells, stopsWater line point.2 (groundAt map point.1) = false := by
    unfold dryAlong
    rw [List.any_eq_false]
    simp only [Bool.not_eq_true]
  have hlow : lowAlong map line (between cells) = true ↔
      ∃ point ∈ between cells, overSurface line point.2 (groundAt map point.1) = true := List.any_eq_true
  rw [hdry, hlow]
  constructor
  · rintro ⟨hone, -, -, hends, cells', hcells', hwet, hover⟩
    rw [hcells] at hcells'
    injection hcells' with hcells'
    subst hcells'
    exact ⟨hone, hends, hwet, hover⟩
  · rintro ⟨hone, hends, hwet, hover⟩
    exact ⟨hone, hworlds ▸ hone, hdiffer, hends, cells, hcells, hwet, hover⟩

variable (hreverse : trace target observer = (trace observer target).map List.reverse)
  (report back : TerrainLos)
  (h : terrainLosAtHeights map trace observer target eyes airborne ⟨kneeling, false⟩ = .ok report)
  (hback : terrainLosAtHeights map trace target observer eyes.swap airborne.swap ⟨kneeling.swap, false⟩ =
    .ok back)

include hreverse h hback

-- Both ends see the same, but for a line that skims the water: its end that is one level below its
-- surface is seen, and does not see.
theorem los_mutual :
    (¬ Skims map trace observer target eyes airborne kneeling →
      (report.blocked = back.blocked ∧ (report.blocked = false → report.counts = back.counts))) ∧
    (Skims map trace observer target eyes airborne kneeling →
      report.blocked = !inBothWorlds map target ∧ back.blocked = !inBothWorlds map observer) := by
  have hreport := report_eq map observer target eyes airborne kneeling trace h
  have hother := report_eq map target observer eyes.swap airborne.swap kneeling.swap trace hback
  rw [Prod.fst_swap, Prod.fst_swap, Prod.snd_swap, Prod.snd_swap] at hother
  by_cases hworlds : submerged map observer eyes.1 airborne.1 = submerged map target eyes.2 airborne.2
  · rw [if_neg (not_not.mpr hworlds)] at hreport
    rw [if_neg (not_not.mpr hworlds.symm)] at hother
    by_cases hsame : observer = target
    · rw [if_pos hsame] at hreport
      rw [if_pos hsame.symm] at hother
      refine ⟨fun _ => ⟨hreport.1.trans hother.1.symm, fun _ => hreport.2.trans hother.2.symm⟩, ?_⟩
      rintro ⟨-, -, hdiffer, -⟩
      exact absurd hsame hdiffer
    · rw [if_neg hsame] at hreport
      rw [if_neg (Ne.symm hsame)] at hother
      obtain ⟨cells, hcells, hblocked, hcounts⟩ := hreport
      obtain ⟨cells', hcells', hother⟩ := hother
      rw [hreverse, hcells] at hcells'
      injection hcells' with hcells'
      subst hcells'
      rw [List.length_reverse] at hother
      obtain ⟨hblocked', hcounts'⟩ := hother
      have hopposite := opposite_lineBetween map observer target eyes airborne kneeling (cells.length - 1)
      have hagree : report.blocked = back.blocked →
          report.blocked = back.blocked ∧ (report.blocked = false → report.counts = back.counts) := by
        refine fun heq => ⟨heq, fun hclear => ?_⟩
        rw [hcounts hclear, hcounts' (heq ▸ hclear)]
        exact (countsAlong_back map cells hopposite hworlds.symm rfl).symm
      rw [blocked_back map cells hopposite hworlds.symm rfl] at hblocked'
      have hskims : Skims map trace observer target eyes airborne kneeling ↔ _ :=
        skims_iff map trace observer target eyes airborne kneeling cells hcells hsame hworlds
      rw [hskims]
      by_cases hline : (lineBetween map observer target eyes airborne kneeling (cells.length - 1)).underwater
      · rw [if_pos hline] at hblocked'
        rw [any_leavesWater map hline] at hblocked
        have hblocked : report.blocked = (dryAlong map _ _ || (!inBothWorlds map target && lowAlong map _ _)) :=
          hblocked
        have hblocked' : back.blocked = (dryAlong map _ _ || (!inBothWorlds map observer && lowAlong map _ _)) :=
          hblocked'
        constructor
        · refine fun hskims => hagree ?_
          rw [hblocked, hblocked']
          by_contra hne
          refine hskims ⟨hline, fun heq => hne (by rw [heq]), ?_, ?_⟩
          · by_contra hdry
            rw [Bool.not_eq_false] at hdry
            rw [hdry, Bool.true_or, Bool.true_or] at hne
            exact hne rfl
          · by_contra hlow
            rw [Bool.not_eq_true] at hlow
            rw [hlow, Bool.and_false, Bool.and_false] at hne
            exact hne rfl
        · rintro ⟨-, -, hdry, hlow⟩
          rw [hblocked, hblocked', hdry, hlow, Bool.and_true, Bool.and_true, Bool.false_or, Bool.false_or]
          exact ⟨rfl, rfl⟩
      · rw [if_neg hline] at hblocked'
        exact ⟨fun _ => hagree (hblocked.trans hblocked'.symm), fun hskims => absurd hskims.1 hline⟩
  · rw [if_pos hworlds] at hreport
    rw [if_pos (Ne.symm hworlds)] at hother
    refine ⟨fun _ => ⟨hreport.trans hother.symm, fun hclear => ?_⟩, ?_⟩
    · rw [hreport] at hclear
      contradiction
    · rintro ⟨hone, hboth, -⟩
      exact absurd (hone.trans hboth.symm) hworlds

end Mutual

section Lane

-- A lane of three hexes from north to south, the middle one a level of water under two others.
def lane : Battlefield :=
  let water := fun (level depth : UInt8) => { Hex.atLevel level with water := some ⟨depth, .Still⟩ }
  ⟨1, 3, some [water 2 2, water 0 1, water 2 1], .empty⟩

def laneTrace (observer target : HexCoordinate) : Except Error (List HexCoordinate) :=
  let cells : List HexCoordinate := [⟨0, 0⟩, ⟨0, 1⟩, ⟨0, 2⟩]
  .ok (if observer.y ≤ target.y then cells else cells.reverse)

-- Two prone units: the southern one is seen from the north, and does not see north.
theorem los_not_mutual :
    let observer : HexCoordinate := ⟨0, 0⟩
    let target : HexCoordinate := ⟨0, 2⟩
    laneTrace target observer = (laneTrace observer target).map List.reverse ∧
    ∃ report back,
      terrainLosAtHeights lane laneTrace observer target (1 / 2, 1 / 2) (none, none) ⟨(false, false), false⟩ =
        .ok report ∧
      terrainLosAtHeights lane laneTrace target observer (1 / 2, 1 / 2) (none, none) ⟨(false, false), false⟩ =
        .ok back ∧
      report.blocked = false ∧ back.blocked = true := by
  refine ⟨rfl, ⟨false, 0, 0, 0, 0, 0, 1, false, false, 0, 0, 0, 0⟩,
    ⟨true, 0, 0, 0, 0, 0, 0, false, false, 0, 0, 0, 0⟩, ?_, ?_, rfl, rfl⟩
  · decide +kernel
  · decide +kernel

-- Smoke over light woods, below a rise to the north.
def glade : Battlefield :=
  ⟨1, 3, some [Hex.atLevel 1, { Hex.atLevel 0 with foliage := some .LightWoods }, Hex.atLevel 0],
    ⟨[(1, .Smoke)], List.pairwise_singleton _ _⟩⟩

-- Two standing units see each other through the same woods and smoke.
theorem los_mutual_standing :
    let observer : HexCoordinate := ⟨0, 0⟩
    let target : HexCoordinate := ⟨0, 2⟩
    ∃ report back,
      terrainLosAtHeights glade laneTrace observer target (3 / 2, 3 / 2) (none, none) ⟨(false, true), false⟩ =
        .ok report ∧
      terrainLosAtHeights glade laneTrace target observer (3 / 2, 3 / 2) (none, none) ⟨(true, false), false⟩ =
        .ok back ∧
      (report.blocked = back.blocked ∧ (report.blocked = false → report.counts = back.counts)) ∧
      report.blocked = false ∧ report.counts = ⟨1, 1, 0, 0⟩ := by
  intro observer target
  let report : TerrainLos := ⟨false, 1, 1, 0, 0, 0, 0, false, false, 0, 0, 0, 0⟩
  have hreport : terrainLosAtHeights glade laneTrace observer target (3 / 2, 3 / 2) (none, none)
      ⟨(false, true), false⟩ = .ok report := by decide +kernel
  have hback : terrainLosAtHeights glade laneTrace target observer (3 / 2, 3 / 2) (none, none)
      ⟨(true, false), false⟩ = .ok report := by decide +kernel
  refine ⟨report, report, hreport, hback, (los_mutual glade laneTrace observer target (3 / 2, 3 / 2) (none, none)
    (false, true) rfl report report hreport hback).1 ?_, rfl, rfl⟩
  rintro ⟨hsubmerged, -⟩
  exact absurd hsubmerged (by decide +kernel)

end Lane

end StompyMux.Sight
