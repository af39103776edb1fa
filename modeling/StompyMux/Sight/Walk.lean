import StompyMux.Sight.Los
import Mathlib.Tactic.FieldSimp
import Mathlib.Tactic.Ring

-- What a walk along a line finds, hex by hex.
namespace StompyMux.Sight

open Library Library.Fallible
open StompyMux.Map

section Hexes

variable (map : Battlefield) (point : HexCoordinate)

def groundAt : Hex :=
  match map.baseHex point with
  | .ok ground => ground
  | .error _ => Hex.atLevel 0

def tileAt : Hex :=
  match map.hex point with
  | .ok tile => tile
  | .error _ => Hex.atLevel 0

theorem groundAt_eq {ground : Hex} (h : map.baseHex point = .ok ground) : groundAt map point = ground := by
  unfold groundAt
  rw [h]

theorem tileAt_eq {tile : Hex} (h : map.hex point = .ok tile) : tileAt map point = tile := by
  unfold tileAt
  rw [h]

end Hexes

-- Amounts counted up to a cap.
def tally (cap start : Nat) (amounts : List Nat) : Nat :=
  amounts.foldl (fun sum n => if n = 0 then sum else min (saturatingAdd sum n) cap) start

theorem tally_perm (cap start : Nat) (hcap : cap ≤ 255) (amounts amounts' : List Nat)
    (h : amounts.Perm amounts') : tally cap start amounts = tally cap start amounts' := by
  refine h.foldl_eq' (fun a _ b _ sum => ?_) start
  by_cases ha : a = 0
  · simp [ha]
  · by_cases hb : b = 0
    · simp [hb]
    · simp only [ha, hb, if_false]
      unfold saturatingAdd
      omega

namespace Line

variable (line : Line) (index : Nat) (ground tile : Hex) (report : TerrainLos)

def blocksOverland : Bool :=
  if ground.isWaterSurface then line.meets index (line.level index ground)
  else !ground.hasBridge && !line.shelters index ground &&
    line.meets index ((ground.surfaceHeight : ℚ) - line.relief index)

def waterOverland : Nat :=
  if ground.isWaterSurface ∧ min line.startHeight line.endHeight < line.level index ground + 2 then 1 else 0

def inFoliage : Bool :=
  tile.foliage.isSome && line.meets index (line.level index ground + tile.foliageHeight)

def woodsOverland : Nat := if line.inFoliage index ground tile then tile.woodsDensity else 0

def fieldsOverland : Nat := if line.inFoliage index ground tile && !tile.isWoods then 1 else 0

def smokeOverland : Nat :=
  if tile.isSmoky && line.meets index (line.level index ground + 2) then tile.smokeDensity else 0

theorem countStructure_eq : ∃ buildings hardened, countStructure ground report =
    { report with buildings := buildings, hardenedBuildings := hardened } := by
  unfold countStructure
  split
  · split
    · split
      · exact ⟨report.buildings, _, rfl⟩
      · exact ⟨_, report.hardenedBuildings, rfl⟩
    · exact ⟨_, _, rfl⟩
  · exact ⟨_, _, rfl⟩

theorem countWoods_eq : ∃ heavy ultra, countWoods tile report =
    { report with heavyWoods := heavy, ultraWoods := ultra } := by
  unfold countWoods
  split
  · exact ⟨_, report.ultraWoods, rfl⟩
  · split
    · exact ⟨report.heavyWoods, _, rfl⟩
    · exact ⟨_, _, rfl⟩

-- What sensors care for leaves the rest of a report alone.
theorem counted_eq : ∃ buildings hardened heavy ultra, countWoods tile (countStructure ground report) =
    { report with buildings := buildings, hardenedBuildings := hardened, heavyWoods := heavy,
                  ultraWoods := ultra } := by
  obtain ⟨buildings, hardened, hstructure⟩ := countStructure_eq ground report
  obtain ⟨heavy, ultra, hwoods⟩ := countWoods_eq tile (countStructure ground report)
  refine ⟨buildings, hardened, heavy, ultra, ?_⟩
  rw [hwoods, hstructure]

theorem crossSurface_eq : ∃ hills, line.crossSurface index ground report =
    { report with
      blocked := report.blocked || line.blocksOverland index ground
      hills := hills
      water := if line.waterOverland index ground = 0 then report.water
        else min (saturatingAdd report.water 1) 7 } ∧
    (hills = true → report.hills = true ∨ line.blocksOverland index ground = true) := by
  unfold crossSurface blocksOverland waterOverland
  by_cases hwater : ground.isWaterSurface
  · simp only [hwater, if_true, true_and]
    by_cases hmeets : line.meets index (line.level index ground)
    · refine ⟨true, ?_, fun _ => Or.inr hmeets⟩
      by_cases hclose : min line.startHeight line.endHeight < line.level index ground + 2
      · simp [hmeets, hclose]
      · simp [hmeets, hclose]
    · refine ⟨report.hills, ?_, Or.inl⟩
      by_cases hclose : min line.startHeight line.endHeight < line.level index ground + 2
      · simp [hmeets, hclose]
      · simp [hmeets, hclose]
  · simp only [hwater]
    by_cases hmeets : !ground.hasBridge && !line.shelters index ground &&
        line.meets index ((ground.surfaceHeight : ℚ) - line.relief index)
    · refine ⟨report.hills || !ground.hasStandingStructure, ?_, fun _ => Or.inr hmeets⟩
      simp only [hmeets]
      simp
    · refine ⟨report.hills, ?_, Or.inl⟩
      simp only [hmeets]
      simp

theorem woodsDensity_pos (h : tile.isWoods) : tile.woodsDensity ≠ 0 := by
  unfold Hex.isWoods at h
  obtain ⟨density, hdensity⟩ := Option.isSome_iff_exists.mp h
  unfold Hex.woodsDensity
  rw [hdensity]
  cases density <;> decide

theorem woodsDensity_eq_zero (h : ¬ tile.isWoods) : tile.woodsDensity = 0 := by
  unfold Hex.isWoods at h
  unfold Hex.woodsDensity
  rw [Option.not_isSome_iff_eq_none.mp h]
  rfl

theorem crossFoliage_eq : line.crossFoliage index ground tile report =
    { report with
      woods := if line.woodsOverland index ground tile = 0 then report.woods
        else min (saturatingAdd report.woods (line.woodsOverland index ground tile)) 15
      fields := if line.fieldsOverland index ground tile = 0 then report.fields
        else min (saturatingAdd report.fields 1) 15 } := by
  unfold crossFoliage woodsOverland fieldsOverland
  show (if line.inFoliage index ground tile then _ else _) = _
  by_cases hin : line.inFoliage index ground tile
  · rw [if_pos hin, if_pos hin]
    by_cases hwoods : tile.isWoods
    · simp [hwoods, woodsDensity_pos tile hwoods]
    · simp [hwoods, hin, woodsDensity_eq_zero tile hwoods]
  · rw [if_neg hin, if_neg hin]
    simp [hin]

theorem smokeDensity_pos (h : tile.isSmoky) : tile.smokeDensity ≠ 0 := by
  unfold Hex.isSmoky at h
  obtain ⟨kind, hkind, hsmoke⟩ := (Option.any_eq_true _ _).mp h
  unfold Hex.smokeDensity
  rw [hkind]
  cases kind with
  | Fire => contradiction
  | Smoke => decide
  | HeavySmoke => decide

theorem crossSmoke_eq : line.crossSmoke index ground tile report =
    { report with
      smoke := if line.smokeOverland index ground tile = 0 then report.smoke
        else min (saturatingAdd report.smoke (line.smokeOverland index ground tile)) 15 } := by
  unfold crossSmoke smokeOverland
  by_cases hin : tile.isSmoky && line.meets index (line.level index ground + 2)
  · rw [if_pos hin, if_pos hin]
    simp [smokeDensity_pos tile (Bool.and_eq_true_iff.mp hin).1]
  · rw [if_neg hin, if_neg hin]
    rfl

section Run

variable (map : Battlefield)

def overland (point : HexCoordinate × Nat) : TerrainLos :=
  let report := countWoods (tileAt map point.1) (countStructure (groundAt map point.1) report)
  let report := line.crossSurface point.2 (groundAt map point.1) report
  let report := line.crossFoliage point.2 (groundAt map point.1) (tileAt map point.1) report
  line.crossSmoke point.2 (groundAt map point.1) (tileAt map point.1) report

theorem overland_eq (point : HexCoordinate × Nat) (h : report.hills = true → report.blocked = true) :
    let ground := groundAt map point.1
    let tile := tileAt map point.1
    let after := line.overland report map point
    after.blocked = (report.blocked || line.blocksOverland point.2 ground) ∧
    (after.hills = true → after.blocked = true) ∧
    after.water = tally 7 report.water [line.waterOverland point.2 ground] ∧
    after.woods = tally 15 report.woods [line.woodsOverland point.2 ground tile] ∧
    after.fields = tally 15 report.fields [line.fieldsOverland point.2 ground tile] ∧
    after.smoke = tally 15 report.smoke [line.smokeOverland point.2 ground tile] := by
  intro ground tile after
  obtain ⟨buildings, hardened, heavy, ultra, hcounted⟩ := counted_eq ground tile report
  obtain ⟨hills, hsurface, hhills⟩ := line.crossSurface_eq point.2 ground
    (countWoods tile (countStructure ground report))
  have hafter : after = line.crossSmoke point.2 ground tile (line.crossFoliage point.2 ground tile
    (line.crossSurface point.2 ground (countWoods tile (countStructure ground report)))) := rfl
  rw [hafter, crossSmoke_eq, crossFoliage_eq, hsurface]
  rw [hcounted] at hhills ⊢
  have hwater : line.waterOverland point.2 ground ≤ 1 := by
    unfold waterOverland
    split <;> omega
  have hfields : line.fieldsOverland point.2 ground tile ≤ 1 := by
    unfold fieldsOverland
    split <;> omega
  refine ⟨rfl, fun hset => ?_, ?_, rfl, ?_, rfl⟩
  · show (report.blocked || _) = true
    rcases hhills hset with hset | hset
    · rw [h hset, Bool.true_or]
    · rw [hset, Bool.or_true]
  · show (if _ then _ else _) = if _ then _ else _
    split
    · rfl
    · rw [show line.waterOverland point.2 ground = 1 by omega]
  · show (if _ then _ else _) = if _ then _ else _
    split
    · rfl
    · rw [show line.fieldsOverland point.2 ground tile = 1 by omega]

variable (points : List (HexCoordinate × Nat)) (hpoints : ∀ point ∈ points, point.2 ≠ line.steps)

include hpoints

-- An overland line is blocked by some hex on it, whether or not the walk comes to that hex.
theorem walk_overland (hline : line.underwater = false) (h : report.hills = true → report.blocked = true)
    {after : TerrainLos} {returned : Bool} (hwalk : line.walk map points report = .ok (after, returned)) :
    returned = false ∧
    after.blocked = (report.blocked || points.any (fun point => line.blocksOverland point.2 (groundAt map point.1))) ∧
    (after.blocked = false →
      after.water = tally 7 report.water
        (points.map fun point => line.waterOverland point.2 (groundAt map point.1)) ∧
      after.woods = tally 15 report.woods
        (points.map fun point => line.woodsOverland point.2 (groundAt map point.1) (tileAt map point.1)) ∧
      after.fields = tally 15 report.fields
        (points.map fun point => line.fieldsOverland point.2 (groundAt map point.1) (tileAt map point.1)) ∧
      after.smoke = tally 15 report.smoke
        (points.map fun point => line.smokeOverland point.2 (groundAt map point.1) (tileAt map point.1))) := by
  induction points generalizing report with
  | nil =>
      injection hwalk with hwalk
      injection hwalk with hafter hreturned
      subst hafter
      exact ⟨hreturned.symm, by simp, fun _ => ⟨rfl, rfl, rfl, rfl⟩⟩
  | cons point points ih =>
      obtain ⟨hfirst, hlater⟩ := List.forall_mem_cons.mp hpoints
      obtain ⟨point, index⟩ := point
      unfold walk at hwalk
      rw [if_neg hfirst] at hwalk
      split at hwalk
      · -- Hills block the line already.
        rename_i hstop
        injection hwalk with hwalk
        injection hwalk with hafter hreturned
        subst hafter
        have hblocked := h (Bool.and_eq_true_iff.mp hstop).1
        refine ⟨hreturned.symm, by rw [hblocked]; rfl, fun hclear => ?_⟩
        rw [hblocked] at hclear
        contradiction
      · obtain ⟨tile, htile, hwalk⟩ := ok_of_bind hwalk
        obtain ⟨ground, hground, hwalk⟩ := ok_of_bind hwalk
        rw [hline] at hwalk
        have hgroundAt := groundAt_eq map point hground
        have htileAt := tileAt_eq map point htile
        have hover : line.crossSmoke index ground tile (line.crossFoliage index ground tile
            (line.crossSurface index ground (countWoods tile (countStructure ground report)))) =
            line.overland report map (point, index) := by
          unfold overland
          rw [hgroundAt, htileAt]
        have hwalk : line.walk map points (line.overland report map (point, index)) = .ok (after, returned) := by
          rw [← hover]
          exact hwalk
        obtain ⟨hblocked, hhills, hwater, hwoods, hfields, hsmoke⟩ := line.overland_eq report map (point, index) h
        obtain ⟨hreturned, hany, hcounts⟩ := ih _ hlater hhills hwalk
        refine ⟨hreturned, ?_, fun hclear => ?_⟩
        · rw [hany, hblocked, List.any_cons, Bool.or_assoc]
        · obtain ⟨hw, hwo, hf, hs⟩ := hcounts hclear
          rw [hwater] at hw
          rw [hwoods] at hwo
          rw [hfields] at hf
          rw [hsmoke] at hs
          exact ⟨hw, hwo, hf, hs⟩

theorem walk_underwater (hline : line.underwater = true) (h : report.hills = false)
    (hclear : report.blocked = false)
    {after : TerrainLos} {returned : Bool} (hwalk : line.walk map points report = .ok (after, returned)) :
    after.blocked = points.any (fun point => line.leavesWater point.2 (groundAt map point.1)) ∧
    after.woods = report.woods ∧ after.fields = report.fields ∧ after.smoke = report.smoke ∧
    (after.blocked = false → after.water = tally 7 report.water (points.map fun _ => 1)) := by
  induction points generalizing report with
  | nil =>
      injection hwalk with hwalk
      injection hwalk with hafter hreturned
      subst hafter
      exact ⟨hclear, rfl, rfl, rfl, fun _ => rfl⟩
  | cons point points ih =>
      obtain ⟨hfirst, hlater⟩ := List.forall_mem_cons.mp hpoints
      obtain ⟨point, index⟩ := point
      unfold walk at hwalk
      rw [if_neg hfirst, if_neg (by simp [h])] at hwalk
      obtain ⟨tile, htile, hwalk⟩ := ok_of_bind hwalk
      obtain ⟨ground, hground, hwalk⟩ := ok_of_bind hwalk
      rw [hline] at hwalk
      have hgroundAt := groundAt_eq map point hground
      obtain ⟨buildings, hardened, heavy, ultra, hcounted⟩ := counted_eq ground tile report
      rw [hcounted, if_pos rfl] at hwalk
      rw [List.any_cons]
      rw [hgroundAt]
      split at hwalk
      · rename_i hleaves
        injection hwalk with hwalk
        injection hwalk with hafter hreturned
        subst hafter
        rw [hleaves]
        exact ⟨rfl, rfl, rfl, rfl, fun hclear => by contradiction⟩
      · rename_i hstays
        rw [Bool.not_eq_true] at hstays
        obtain ⟨hblocked, hwoods, hfields, hsmoke, hwater⟩ := ih _ hlater (by exact h) (by exact hclear) hwalk
        rw [hstays, Bool.false_or]
        exact ⟨hblocked, hwoods, hfields, hsmoke, hwater⟩

end Run

end Line

end StompyMux.Sight
