import StompyMux.Map.Reading

-- Structures are listed with all their hexes, and placed on them again.
namespace StompyMux.Map

open Library Library.Fallible

def spotOf (width index : Nat) : UInt16 × UInt16 :=
  (UInt16.ofNat (index % width), UInt16.ofNat (index / width))

theorem spotOf_toNat {width height index : Nat} (hwidth : width ≤ 1000) (hheight : height ≤ 1000)
    (hindex : index < width * height) :
    (spotOf width index).1.toNat = index % width ∧ (spotOf width index).2.toNat = index / width := by
  have hpos : 0 < width := Nat.pos_of_ne_zero (by
    rintro rfl
    omega)
  have hx : index % width < width := Nat.mod_lt index hpos
  have hy : index / width < height := Nat.div_lt_of_lt_mul hindex
  constructor
  · exact UInt16.toNat_ofNat_of_lt' (by
      show index % width < 65536
      omega)
  · exact UInt16.toNat_ofNat_of_lt' (by
      show index / width < 65536
      omega)

theorem spotOf_injective {width height i j : Nat} (hwidth : width ≤ 1000) (hheight : height ≤ 1000)
    (hi : i < width * height) (hj : j < width * height) (h : spotOf width i = spotOf width j) : i = j := by
  have ⟨hix, hiy⟩ := spotOf_toNat hwidth hheight hi
  have ⟨hjx, hjy⟩ := spotOf_toNat hwidth hheight hj
  rw [h] at hix hiy
  have hmod : i % width = j % width := by omega
  have hdiv : i / width = j / width := by omega
  rw [← Nat.div_add_mod i width, ← Nat.div_add_mod j width, hmod, hdiv]

-- The spots among these hexes that hold a structure.
def spotsOf (width : Nat) (s : Structure) (hexes : List (Hex × Nat)) : List (UInt16 × UInt16) :=
  (hexes.filter (fun entry => entry.1.structure' = some s)).map (fun entry => spotOf width entry.2)

def gatherStructure (width : Nat) (structures : OrderedMap Structure (List (UInt16 × UInt16)))
    (entry : Hex × Nat) : OrderedMap Structure (List (UInt16 × UInt16)) :=
  match entry.1.structure' with
  | none => structures
  | some s => structures.insert s ((structures.get? s).getD [] ++ [spotOf width entry.2])

-- A structure is listed with its hexes in the order of the map, if it has any.
theorem gather_get? (width : Nat) (hexes : List (Hex × Nat)) (s : Structure) :
    (hexes.foldl (gatherStructure width) OrderedMap.empty).get? s =
      if spotsOf width s hexes = [] then none else some (spotsOf width s hexes) := by
  induction hexes using List.reverseRecOn with
  | nil => rfl
  | append_singleton hexes entry ih =>
      rw [List.foldl_append, List.foldl_cons, List.foldl_nil]
      have hspots : spotsOf width s (hexes ++ [entry]) = spotsOf width s hexes ++
          if entry.1.structure' = some s then [spotOf width entry.2] else [] := by
        unfold spotsOf
        rw [List.filter_append, List.map_append]
        by_cases hs : entry.1.structure' = some s
        · simp [hs]
        · simp [hs]
      rw [hspots]
      cases hentry : entry.1.structure' with
      | none =>
          have hsame : gatherStructure width (hexes.foldl (gatherStructure width) OrderedMap.empty) entry =
              hexes.foldl (gatherStructure width) OrderedMap.empty := by
            unfold gatherStructure
            rw [hentry]
          have hnone : ¬ (none : Option Structure) = some s := by simp
          rw [hsame, ih, if_neg hnone, List.append_nil]
      | some t =>
          have hinsert : gatherStructure width (hexes.foldl (gatherStructure width) OrderedMap.empty) entry =
              (hexes.foldl (gatherStructure width) OrderedMap.empty).insert t
                (((hexes.foldl (gatherStructure width) OrderedMap.empty).get? t).getD [] ++
                  [spotOf width entry.2]) := by
            generalize hexes.foldl (gatherStructure width) OrderedMap.empty = structures
            unfold gatherStructure
            rw [hentry]
          rw [hinsert, OrderedMap.get?_insert]
          by_cases hst : s = t
          · subst hst
            rw [if_pos rfl, if_pos rfl, if_neg (by simp), ih]
            by_cases hempty : spotsOf width s hexes = []
            · rw [if_pos hempty, hempty]
              rfl
            · rw [if_neg hempty]
              rfl
          · have hother : ¬ some t = some s := fun heq => hst (Option.some.inj heq).symm
            rw [if_neg hst, if_neg hother, List.append_nil]
            exact ih

theorem mem_spotsOf (width : Nat) (s : Structure) (hexes : List (Hex × Nat)) (spot : UInt16 × UInt16) :
    spot ∈ spotsOf width s hexes ↔
      ∃ hex index, (hex, index) ∈ hexes ∧ hex.structure' = some s ∧ spot = spotOf width index := by
  unfold spotsOf
  rw [List.mem_map]
  constructor
  · rintro ⟨⟨hex, index⟩, hin, rfl⟩
    obtain ⟨hmem, hs⟩ := List.mem_filter.mp hin
    exact ⟨hex, index, hmem, of_decide_eq_true hs, rfl⟩
  · rintro ⟨hex, index, hmem, hs, rfl⟩
    exact ⟨(hex, index), List.mem_filter.mpr ⟨hmem, decide_eq_true hs⟩, rfl⟩

namespace MapAsset

variable (map : MapAsset) (h : map.Valid)

def spots (s : Structure) : List (UInt16 × UInt16) := spotsOf map.width.toNat s map.hexes.zipIdx

theorem structures_eq :
    map.structures = map.hexes.zipIdx.foldl (gatherStructure map.width.toNat) OrderedMap.empty := rfl

variable (s : Structure)

theorem structures_get? :
    map.structures.get? s = if map.spots s = [] then none else some (map.spots s) := by
  rw [structures_eq, gather_get?]
  rfl

theorem mem_structures (spots : List (UInt16 × UInt16)) :
    (s, spots) ∈ map.structures.entries ↔ spots = map.spots s ∧ spots ≠ [] := by
  rw [← OrderedMap.get?_eq_some_iff, structures_get?]
  by_cases hempty : map.spots s = []
  · rw [if_pos hempty, hempty]
    constructor
    · intro hnone
      contradiction
    · rintro ⟨rfl, hne⟩
      exact absurd rfl hne
  · rw [if_neg hempty]
    constructor
    · intro hsome
      injection hsome with hsome
      exact ⟨hsome.symm, hsome ▸ hempty⟩
    · rintro ⟨rfl, -⟩
      rfl

theorem mem_spots (spot : UInt16 × UInt16) :
    spot ∈ map.spots s ↔ ∃ hex index, map.hexes[index]? = some hex ∧ hex.structure' = some s ∧
      spot = spotOf map.width.toNat index := by
  unfold spots
  rw [mem_spotsOf]
  constructor
  · rintro ⟨hex, index, hmem, hs, rfl⟩
    exact ⟨hex, index, List.mem_zipIdx_iff_getElem?.mp hmem, hs, rfl⟩
  · rintro ⟨hex, index, hmem, hs, rfl⟩
    exact ⟨hex, index, List.mem_zipIdx_iff_getElem?.mpr hmem, hs, rfl⟩

include h

theorem index_lt (index : Nat) (hex : Hex) (hhex : map.hexes[index]? = some hex) :
    index < map.width.toNat * map.height.toNat := by
  obtain ⟨hlt, -⟩ := List.getElem?_eq_some_iff.mp hhex
  rw [← h.count]
  exact hlt

theorem spotOf_inj {i j : Nat} {a b : Hex} (hi : map.hexes[i]? = some a) (hj : map.hexes[j]? = some b)
    (heq : spotOf map.width.toNat i = spotOf map.width.toNat j) : i = j :=
  spotOf_injective h.width.2 h.height.2 (map.index_lt h i a hi)
    (map.index_lt h j b hj) heq

theorem spots_nodup : (map.spots s).Nodup := by
  have hall : (map.hexes.zipIdx.map (fun entry => spotOf map.width.toNat entry.2)).Nodup := by
    have hindices : (map.hexes.zipIdx.map Prod.snd).Nodup := by
      rw [List.zipIdx_map_snd]
      exact List.nodup_range' 1
    apply List.Nodup.map_on _ (List.Nodup.of_map _ hindices)
    rintro ⟨a, i⟩ hi ⟨b, j⟩ hj heq
    have hia := List.mem_zipIdx_iff_getElem?.mp hi
    have hjb := List.mem_zipIdx_iff_getElem?.mp hj
    have hij := map.spotOf_inj h hia hjb heq
    subst hij
    rw [hia] at hjb
    injection hjb with hab
    exact Prod.ext hab rfl
  exact hall.sublist (List.filter_sublist.map _)

theorem spots_apart {s t : Structure} {spot : UInt16 × UInt16} (hs : spot ∈ map.spots s)
    (ht : spot ∈ map.spots t) : s = t := by
  obtain ⟨a, i, hi, ha, rfl⟩ := (map.mem_spots s spot).mp hs
  obtain ⟨b, j, hj, hb, heq⟩ := (map.mem_spots t _).mp ht
  have hij := map.spotOf_inj h hi hj heq
  subst hij
  rw [hi] at hj
  injection hj with hab
  subst hab
  rw [ha] at hb
  exact Option.some.inj hb

-- The hexes with the structures at these spots.
omit h in
def placed (spots : List (UInt16 × UInt16)) : List Hex :=
  map.hexes.zipIdx.map (fun entry =>
    if spotOf map.width.toNat entry.2 ∈ spots then entry.1 else entry.1.bare)

omit h in
theorem placed_getElem? (spots : List (UInt16 × UInt16)) (index : Nat) :
    (map.placed spots)[index]? = map.hexes[index]?.map (fun hex =>
      if spotOf map.width.toNat index ∈ spots then hex else hex.bare) := by
  unfold placed
  rw [List.getElem?_map, List.getElem?_zipIdx]
  cases map.hexes[index]? with
  | none => rfl
  | some hex =>
      simp only [Option.map_some, Nat.zero_add]

omit h in
theorem placed_nil : map.placed [] = map.hexes.map Hex.bare := by
  apply List.ext_getElem?
  intro index
  rw [placed_getElem?, List.getElem?_map]
  simp

theorem placeHex_ok {before : List (UInt16 × UInt16)} {spot : UInt16 × UInt16}
    (hspot : spot ∈ map.spots s) (hnew : spot ∉ before) :
    placeHex map.width.toNat map.height.toNat s (map.placed before) spot =
      .ok (map.placed (before ++ [spot])) := by
  obtain ⟨hex, index, hhex, hs, rfl⟩ := (map.mem_spots s spot).mp hspot
  have hlt := map.index_lt h index hex hhex
  have ⟨hx, hy⟩ := spotOf_toNat h.width.2 h.height.2 hlt
  have hindex : index / map.width.toNat * map.width.toNat + index % map.width.toNat = index := by
    rw [Nat.mul_comm]
    exact Nat.div_add_mod index map.width.toNat
  have hcurrent : (map.placed before)[index]? = some hex.bare := by
    rw [placed_getElem?, hhex, Option.map_some, if_neg hnew]
  unfold placeHex
  simp only [hx, hy, hindex]
  apply bind_ok (ensure_ok (by
    simp only [Bool.and_eq_true, decide_eq_true_eq]
    exact ⟨Nat.mod_lt index h.width.1, Nat.div_lt_of_lt_mul hlt⟩))
  apply bind_ok (ofOption_ok hcurrent)
  apply bind_ok (ensure_ok rfl)
  apply congrArg Except.ok
  apply List.ext_getElem?
  intro j
  rw [List.getElem?_set, placed_getElem?, placed_getElem?]
  by_cases hj : index = j
  · subst hj
    have hin : spotOf map.width.toNat index ∈ before ++ [spotOf map.width.toNat index] := by simp
    have hwhole : { hex.bare with structure' := some s } = hex := by
      cases hex
      subst hs
      rfl
    obtain ⟨hlen, -⟩ := List.getElem?_eq_some_iff.mp hcurrent
    rw [if_pos rfl, if_pos hlen, hhex, Option.map_some, if_pos hin, hwhole]
  · rw [if_neg hj]
    cases hother : map.hexes[j]? with
    | none => rfl
    | some other =>
        have hapart : spotOf map.width.toNat j ≠ spotOf map.width.toNat index :=
          fun heq => hj (map.spotOf_inj h hother hhex heq).symm
        simp [hapart]

theorem placeSpots_ok (before : List (UInt16 × UInt16))
    (hnew : ∀ spot ∈ map.spots s, spot ∉ before) :
    (map.spots s).foldlM (placeHex map.width.toNat map.height.toNat s) (map.placed before) =
      .ok (map.placed (before ++ map.spots s)) := by
  have hnodup := map.spots_nodup h s
  obtain ⟨last, hrun, hlast⟩ := foldlM_succeeds
    (fun done hexes => hexes = map.placed (before ++ done))
    (placeHex map.width.toNat map.height.toNat s) (map.spots s) (by
      intro done spot after hexes hspots hexes_eq
      subst hexes_eq
      have hspot : spot ∈ map.spots s := by
        rw [hspots]
        simp
      have hfresh : spot ∉ before ++ done := by
        intro hin
        rcases List.mem_append.mp hin with hin | hin
        · exact hnew spot hspot hin
        · rw [hspots] at hnodup
          exact (List.nodup_append.mp hnodup).2.2 spot hin spot List.mem_cons_self rfl
      exact ⟨_, map.placeHex_ok h s hspot hfresh, by rw [List.append_assoc]⟩)
    (map.placed before) (by rw [List.append_nil])
  rw [hrun, hlast]

theorem entry_structure {entry : StructureEntry} {s : Structure}
    (hentry : entry = ⟨s.kind, some s.class',
      if s.cf = s.class'.constructionFactor then none else some s.cf, s.height, map.spots s⟩)
    (hspots : map.spots s ≠ []) : entry.structure' = .ok s := by
  obtain ⟨spot, hspot⟩ := List.exists_mem_of_ne_nil _ hspots
  obtain ⟨hex, index, hhex, hs, -⟩ := (map.mem_spots s spot).mp hspot
  have hsound := map.sound h hex (List.mem_of_getElem? hhex)
  have ⟨hlow, hhigh⟩ := hsound.factor s hs
  have hcf : entry.cf.getD s.class'.constructionFactor = s.cf := by
    subst hentry
    by_cases hfull : s.cf = s.class'.constructionFactor
    · simp [hfull]
    · simp [hfull]
  have hclass : entry.class'.getD .Medium = s.class' := by rw [hentry]; rfl
  have hheight : entry.height = s.height := by rw [hentry]
  have hhexes : entry.hexes = map.spots s := by rw [hentry]
  have hkind : entry.kind = s.kind := by rw [hentry]
  unfold StructureEntry.structure'
  simp only [hclass, hcf, hheight, hhexes, hkind]
  apply bind_ok (ensure_ok (by simp [hlow, hhigh]))
  apply bind_ok (ensure_ok (decide_eq_true (hsound.height s hs)))
  apply bind_ok (ensure_ok (by simpa using hspots))
  rfl

-- Each entry restores the hexes it was gathered from, and the entries share none.
theorem placeStructures_ok :
    map.structureEntries.foldlM (placeStructure map.width.toNat map.height.toNat)
      (map.hexes.map Hex.bare) = .ok map.hexes := by
  have hsorted := map.structures.sorted
  obtain ⟨last, hrun, hlast⟩ := foldlM_succeeds
    (fun done hexes => hexes = map.placed (done.flatMap StructureEntry.hexes))
    (placeStructure map.width.toNat map.height.toNat) map.structureEntries (by
      intro done entry after hexes hentries hexes_eq
      subst hexes_eq
      unfold structureEntries at hentries
      obtain ⟨doneEntries, rest, hsplit, hdone, hrest⟩ := List.map_eq_append_iff.mp hentries
      obtain ⟨⟨s, spots⟩, restEntries, rfl, hentry, -⟩ := List.map_eq_cons_iff.mp hrest
      have hin : (s, spots) ∈ map.structures.entries := by
        rw [hsplit]
        simp
      obtain ⟨rfl, hne⟩ := (map.mem_structures s spots).mp hin
      have hnew : ∀ spot ∈ map.spots s, spot ∉ done.flatMap StructureEntry.hexes := by
        intro spot hspot hbefore
        obtain ⟨earlier, hearlier, hmem⟩ := List.mem_flatMap.mp hbefore
        rw [← hdone] at hearlier
        obtain ⟨⟨t, tspots⟩, ht, rfl⟩ := List.mem_map.mp hearlier
        have htin : (t, tspots) ∈ map.structures.entries := by
          rw [hsplit]
          exact List.mem_append_left _ ht
        obtain ⟨rfl, -⟩ := (map.mem_structures t tspots).mp htin
        have heq := map.spots_apart h hspot hmem
        rw [hsplit] at hsorted
        have hlt := (List.pairwise_append.mp hsorted).2.2 _ ht _ List.mem_cons_self
        exact absurd heq (ne_of_gt hlt)
      have hplace := map.placeSpots_ok h s _ hnew
      refine ⟨map.placed (done.flatMap StructureEntry.hexes ++ map.spots s), ?_, ?_⟩
      · subst hentry
        apply bind_ok (map.entry_structure h rfl hne)
        exact hplace
      · rw [List.flatMap_append, ← hentry]
        simp) _ map.placed_nil.symm
  rw [hrun, hlast]
  congr 1
  apply List.ext_getElem?
  intro index
  rw [placed_getElem?]
  cases hhex : map.hexes[index]? with
  | none => rfl
  | some hex =>
      rw [Option.map_some]
      cases hs : hex.structure' with
      | none =>
          have hbare : hex.bare = hex := by
            cases hex
            subst hs
            rfl
          rw [hbare, ite_self]
      | some s =>
          have hspot : spotOf map.width.toNat index ∈ map.spots s :=
            (map.mem_spots s _).mpr ⟨hex, index, hhex, hs, rfl⟩
          have hentry := (map.mem_structures s (map.spots s)).mpr ⟨rfl, List.ne_nil_of_mem hspot⟩
          have hin : spotOf map.width.toNat index ∈
              map.structureEntries.flatMap StructureEntry.hexes := by
            apply List.mem_flatMap.mpr
            exact ⟨_, List.mem_map_of_mem hentry, hspot⟩
          rw [if_pos hin]

end MapAsset

end StompyMux.Map
