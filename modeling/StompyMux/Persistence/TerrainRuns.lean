import Mathlib.Logic.Encodable.Pi
import Mathlib.Logic.Equiv.List
import StompyMux.Persistence.TerrainLoad

-- A map's grid over a history of saves into one database.
namespace StompyMux.Persistence.Terrain

open Library Library.Fallible
open StompyMux.Map
open StompyMux.World (ObjectId)
open TerrainTables (Maps)

structure TerrainSave where
  id : ObjectId
  map : StoredMap
  objects : List (ObjectId × Int)

-- The tables, and the maps as they were last saved.
structure Saving where
  tables : TerrainTables
  maps : Maps

def TerrainTables.new (defaults : String → Row) : TerrainTables :=
  ⟨.empty, .empty, .empty, .empty, .empty, .empty, defaults⟩

def Saving.new (defaults : String → Row) : Saving := ⟨.new defaults, .empty⟩

variable (json : HexJson)

def saveNext (s : Saving) (save : TerrainSave) : Except Error Saving := do
  let t ← s.tables.saveMap json save.id save.objects (s.maps.get? save.id) save.map
  .ok ⟨t, s.maps.insert save.id save.map⟩

def saveAll (s : Saving) (saves : List TerrainSave) : Except Error Saving := saves.foldlM (saveNext json) s

def lastSaved (saves : List TerrainSave) (id : ObjectId) : Option StoredMap :=
  (saves.reverse.find? (fun save => save.id = id)).map TerrainSave.map

-- The hexes that the grids of a map have had.
def hexesOf (saves : List TerrainSave) (id : ObjectId) : Finset Hex :=
  ((saves.filter (fun save => save.id = id)).flatMap (fun save => save.map.terrain.getD [])).toFinset

theorem mem_hexesOf (saves : List TerrainSave) (save : TerrainSave) (h : save ∈ saves) (hex : Hex)
    (hhex : hex ∈ save.map.terrain.getD []) : hex ∈ hexesOf saves save.id := by
  refine List.mem_toFinset.mpr (List.mem_flatMap.mpr ⟨save, List.mem_filter.mpr ⟨h, ?_⟩, hhex⟩)
  exact decide_eq_true rfl

theorem lastSaved_concat (saves : List TerrainSave) (save : TerrainSave) (id : ObjectId) :
    lastSaved (saves ++ [save]) id = if save.id = id then some save.map else lastSaved saves id := by
  unfold lastSaved
  rw [List.reverse_append, List.reverse_singleton, List.singleton_append, List.find?_cons]
  by_cases h : save.id = id
  · rw [decide_eq_true h, if_pos h]
    rfl
  · rw [decide_eq_false h, if_neg h]

-- What a history of saves keeps: every map is stored as it was last saved.
structure Kept (seen : ObjectId → Finset Hex) (done : List TerrainSave) (s : Saving) : Prop where
  stored : ∀ id, Image json (rowsAt s.tables id) (seen id) (s.maps.get? id)
  last : ∀ id, s.maps.get? id = lastSaved done id

variable {json} (hjson : json.Faithful) {seen : ObjectId → Finset Hex}
  (hcard : ∀ id, (seen id).card ≤ MAX_CODE + 1)

theorem kept_new (defaults : String → Row) : Kept json seen [] (.new defaults) :=
  ⟨fun _ => rfl, fun _ => rfl⟩

structure Allowed (seen : ObjectId → Finset Hex) (save : TerrainSave) : Prop where
  savable : Savable save.map
  seen : ∀ hex ∈ save.map.terrain.getD [], hex ∈ seen save.id
  objects : ∀ object ∈ save.objects, object.2 ∈ TerrainTables.OWNED_OBJECTS

include hjson hcard in
theorem saveNext_ok {done : List TerrainSave} {s : Saving} (h : Kept json seen done s) {save : TerrainSave}
    (hsave : Allowed seen save) : ∃ s', saveNext json s save = .ok s' ∧
      Kept json seen (done ++ [save]) s' ∧
      ∀ key row, s.tables.codes.get? key = some row → s'.tables.codes.get? key = some row := by
  obtain ⟨t', hrun, hsaved⟩ := s.tables.saveMap_ok save.id hjson (hcard save.id) save.objects
    hsave.objects (h.stored save.id) hsave.savable hsave.seen
  refine ⟨⟨t', s.maps.insert save.id save.map⟩, bind_ok hrun rfl, ⟨fun id => ?_, fun id => ?_⟩,
    hsaved.kept⟩
  · show Image json (rowsAt t' id) (seen id) ((s.maps.insert save.id save.map).get? id)
    rw [OrderedMap.get?_insert]
    by_cases hid : id = save.id
    · rw [if_pos hid, hid]
      exact hsaved.stored
    · rw [if_neg hid, hsaved.others id hid]
      exact h.stored id
  · show (s.maps.insert save.id save.map).get? id = lastSaved (done ++ [save]) id
    rw [OrderedMap.get?_insert, lastSaved_concat, h.last]
    by_cases hid : id = save.id
    · rw [if_pos hid, if_pos hid.symm]
    · rw [if_neg hid, if_neg (Ne.symm hid)]

include hjson hcard in
theorem saveAll_ok (done saves : List TerrainSave) (s : Saving) (h : Kept json seen done s)
    (hsaves : ∀ save ∈ saves, Allowed seen save) : ∃ s', saveAll json s saves = .ok s' ∧
      Kept json seen (done ++ saves) s' ∧
      ∀ key row, s.tables.codes.get? key = some row → s'.tables.codes.get? key = some row := by
  refine foldlM_succeeds (fun passed s' => Kept json seen (done ++ passed) s' ∧
    ∀ key row, s.tables.codes.get? key = some row → s'.tables.codes.get? key = some row)
    (saveNext json) saves ?_ s ⟨by rwa [List.append_nil], fun _ _ hrow => hrow⟩
  rintro passed save rest s₁ rfl ⟨hkept, hcodes⟩
  obtain ⟨s₂, hrun, hnext, hlater⟩ := saveNext_ok hjson hcard hkept
    (hsaves save (List.mem_append_right _ List.mem_cons_self))
  rw [List.append_assoc] at hnext
  exact ⟨s₂, hrun, hnext, fun key row hrow => hlater key row (hcodes key row hrow)⟩

-- A stored tile lies on the grid of its map and has a code of its dictionary.
def TilesSound (s : Saving) : Prop :=
  ∀ id x y row, s.tables.hexes.get? (id, x, y) = some row → ∃ map code entry,
    s.maps.get? id = some map ∧ 0 ≤ x ∧ x < map.width ∧ 0 ≤ y ∧ y < map.height ∧
      row "value" = .Integer code ∧ s.tables.codes.get? (id, code) = some entry

theorem tilesSound_of_kept {done : List TerrainSave} {s : Saving} (h : Kept json seen done s) :
    TilesSound s := by
  intro id x y row hrow
  obtain ⟨map, hget, hstored⟩ := stored_of_row s.tables s.maps seen h.stored (by
    intro hblank
    have hnone : s.tables.hexes.get? (id, x, y) = none := congrFun (congrArg MapRows.hexes hblank) (x, y)
    rw [hrow] at hnone
    contradiction)
  obtain ⟨hx, hxw, hy, hyh⟩ := hstored.grid (x, y) row hrow
  obtain ⟨-, -, -, code, -, -, -, hvalue, entry, hentry, -⟩ := hstored.value (x, y) row hrow
  exact ⟨map, code, entry, hget, hx, hxw, hy, hyh, hvalue, hentry⟩

-- Over any history of saves from empty tables, at each point of it: the saves so far succeed, loading
-- gives the maps as they were last saved, the stored tiles are sound, and the codes stay what they are.
theorem terrain_history (json : HexJson) (hjson : json.Faithful) (defaults : String → Row)
    (saves : List TerrainSave) (hsaves : ∀ save ∈ saves, Savable save.map)
    (hobjects : ∀ save ∈ saves, ∀ object ∈ save.objects, object.2 ∈ TerrainTables.OWNED_OBJECTS)
    (hcard : ∀ id, (hexesOf saves id).card ≤ 65536) (before after : List TerrainSave)
    (hsplit : saves = before ++ after) :
    ∃ s s', saveAll json (.new defaults) before = .ok s ∧ saveAll json s after = .ok s' ∧
      (∃ maps, s.tables.load json = .ok maps ∧ ∀ id, maps.get? id = lastSaved before id) ∧
      TilesSound s ∧
      ∀ key row, s.tables.codes.get? key = some row → s'.tables.codes.get? key = some row := by
  have hallowed : ∀ save ∈ saves, Allowed (hexesOf saves) save := fun save hsave =>
    ⟨hsaves save hsave, mem_hexesOf saves save hsave, hobjects save hsave⟩
  rw [hsplit] at hallowed
  obtain ⟨s, hrun, hkept, -⟩ := saveAll_ok hjson hcard [] before (.new defaults) (kept_new defaults)
    (fun save hsave => hsplit ▸ hallowed save (List.mem_append_left _ hsave))
  obtain ⟨s', hlater, -, hcodes⟩ := saveAll_ok hjson hcard before after s hkept
    (fun save hsave => hsplit ▸ hallowed save (List.mem_append_right _ hsave))
  exact ⟨s, s', hrun, hlater, ⟨s.maps, load_ok s.tables s.maps _ hjson hkept.stored, hkept.last⟩,
    tilesSound_of_kept hkept, hcodes⟩

def woods : Hex := { Hex.atLevel 0 with foliage := some .LightWoods }

def WOODS_JSON : List Char :=
  "\x7b\"level\":0,\"ground\":\"clear\",\"foliage\":\"light_woods\"\x7d".toList

-- Any other hex stands as a row of digits, as long as its number.
def sampleText (hex : Hex) : List Char :=
  if hex = woods then WOODS_JSON else '1' :: List.replicate (Encodable.encode (hexRank hex)) '1'

theorem sampleText_injective : Function.Injective sampleText := by
  have hdigits : ∀ n, WOODS_JSON ≠ '1' :: List.replicate n '1' := fun n heq =>
    absurd (List.cons.inj heq).1 (by decide)
  intro a b h
  unfold sampleText at h
  by_cases ha : a = woods
  · by_cases hb : b = woods
    · rw [ha, hb]
    · rw [if_pos ha, if_neg hb] at h
      exact absurd h (hdigits _)
  · by_cases hb : b = woods
    · rw [if_neg ha, if_pos hb] at h
      exact absurd h.symm (hdigits _)
    · rw [if_neg ha, if_neg hb] at h
      have hlength := congrArg List.length (List.cons.inj h).2
      rw [List.length_replicate, List.length_replicate] at hlength
      exact hexRank_injective (Encodable.encode_injective hlength)

noncomputable def sampleJson : HexJson where
  toString := sampleText
  fromStr := fun text => if text = WOODS_JSON then some woods else Function.partialInv sampleText text
  jsonValid := fun text => !text.isEmpty

theorem sampleJson_faithful : sampleJson.Faithful := by
  refine ⟨fun hex => ?_, fun hex => ?_⟩
  · show (if sampleText hex = WOODS_JSON then some woods
      else Function.partialInv sampleText (sampleText hex)) = some hex
    by_cases hex' : sampleText hex = WOODS_JSON
    · have hwoods : sampleText woods = WOODS_JSON := if_pos rfl
      rw [if_pos hex', sampleText_injective (hex'.trans hwoods.symm)]
    · rw [if_neg hex', Function.partialInv_left sampleText_injective]
  · show (!(sampleText hex).isEmpty) = true
    unfold sampleText
    split
    · rfl
    · rfl

def woodland (width : Nat) (damage : OrderedMap Nat UInt16) : StoredMap :=
  ⟨0, -1, "Woods".toList, width, 1, 100, 20, 0, ⟨0, 0, 0, 1⟩, 0, 0, 0, 0, 0,
    some (List.replicate width woods), damage⟩

def damagedAt (tile : Nat) : OrderedMap Nat UInt16 := OrderedMap.empty.insert tile 12

theorem hexesOf_woodland (saves : List TerrainSave)
    (h : ∀ save ∈ saves, ∃ width damage, save.map = woodland width damage) (id : ObjectId) :
    (hexesOf saves id).card ≤ 1 := by
  have hsub : hexesOf saves id ⊆ {woods} := by
    intro hex hhex
    obtain ⟨save, hsave, hmem⟩ := List.mem_flatMap.mp (List.mem_toFinset.mp hhex)
    obtain ⟨width, damage, hmap⟩ := h save (List.mem_filter.mp hsave).1
    rw [hmap] at hmem
    exact Finset.mem_singleton.mpr (List.eq_of_mem_replicate hmem)
  exact (Finset.card_le_card hsub).trans (le_of_eq (Finset.card_singleton woods))

-- Two hexes of woods, of which the first is damaged, and then only that one.
def croppedSaves : List TerrainSave :=
  [⟨7, woodland 2 (damagedAt 0), []⟩, ⟨7, woodland 1 (damagedAt 0), []⟩]

theorem croppedSaves_savable : ∀ save ∈ croppedSaves, Savable save.map := by
  intro save hsave
  have hdamage : ∀ entry ∈ (damagedAt 0).entries, (entry.1 : Int) < 1 ∧ 1 ≤ entry.2 := by decide
  rcases List.mem_cons.mp hsave with rfl | hsave
  · refine ⟨by decide +kernel, rfl, fun entry hentry => ?_⟩
    obtain ⟨htile, hpoints⟩ := hdamage entry hentry
    exact ⟨lt_trans htile (by decide), hpoints⟩
  · rw [List.mem_singleton.mp hsave]
    exact ⟨by decide +kernel, rfl, hdamage⟩

theorem terrain_history_cropped :
    ∃ s s', saveAll sampleJson (.new fun _ _ => .Null) [⟨7, woodland 2 (damagedAt 0), []⟩] = .ok s ∧
      saveAll sampleJson s [⟨7, woodland 1 (damagedAt 0), []⟩] = .ok s' ∧
      (∃ maps, s.tables.load sampleJson = .ok maps ∧
        ∀ id, maps.get? id = lastSaved [⟨7, woodland 2 (damagedAt 0), []⟩] id) ∧
      TilesSound s ∧
      ∀ key row, s.tables.codes.get? key = some row → s'.tables.codes.get? key = some row :=
  terrain_history sampleJson sampleJson_faithful _ croppedSaves croppedSaves_savable
    (by
      intro save hsave object hobject
      simp only [croppedSaves, List.mem_cons, List.not_mem_nil, or_false] at hsave
      rcases hsave with rfl | rfl
      · exact absurd hobject List.not_mem_nil
      · exact absurd hobject List.not_mem_nil)
    (fun id => (hexesOf_woodland croppedSaves (by
      intro save hsave
      simp only [croppedSaves, List.mem_cons, List.not_mem_nil, or_false] at hsave
      rcases hsave with rfl | rfl
      · exact ⟨2, _, rfl⟩
      · exact ⟨1, _, rfl⟩) id).trans (by decide))
    _ _ rfl

-- A hex with a building, for each number below 194400.
def tower (n : Nat) : Hex :=
  { Hex.atLevel (UInt8.ofNat (n / 5400)) with
    structure' := some ⟨.Building, .Hardened, UInt8.ofNat (n / 150 % 36), UInt16.ofNat (1 + n % 150)⟩ }

-- A square of buildings, from a number on.
def city (first : Nat) : StoredMap :=
  ⟨0, -1, "City".toList, 200, 200, 100, 20, 0, ⟨0, 0, 0, 1⟩, 0, 0, 0, 0, 0,
    some ((List.range' first 40000).map tower), .empty⟩

def crowdedSaves : List TerrainSave := [⟨7, city 0, []⟩, ⟨7, city 40000, []⟩]

theorem tower_valid (n : Nat) (h : n < 194400) : (tower n).validate = .ok () ∧ (tower n).overlay = none := by
  have hlevel : UInt8.ofNat (n / 5400) ≤ MAX_HEIGHT := by
    rw [UInt8.le_iff_toNat_le, UInt8.toNat_ofNat']
    show n / 5400 % 256 ≤ 35
    omega
  have hheight : UInt8.ofNat (n / 150 % 36) ≤ MAX_HEIGHT := by
    rw [UInt8.le_iff_toNat_le, UInt8.toNat_ofNat']
    show n / 150 % 36 % 256 ≤ 35
    omega
  have hlow : 1 ≤ UInt16.ofNat (1 + n % 150) := by
    rw [UInt16.le_iff_toNat_le, UInt16.toNat_ofNat']
    show 1 ≤ (1 + n % 150) % 65536
    omega
  have hfull : UInt16.ofNat (1 + n % 150) ≤ MAX_CONSTRUCTION_FACTOR := by
    rw [UInt16.le_iff_toNat_le, UInt16.toNat_ofNat']
    show (1 + n % 150) % 65536 ≤ 150
    omega
  have hheights : (UInt8.ofNat (n / 5400) ≤ MAX_HEIGHT && UInt8.ofNat (n / 150 % 36) ≤ MAX_HEIGHT &&
      (0 : UInt8) ≤ MAX_DEPTH) = true := by
    rw [decide_eq_true hlevel, decide_eq_true hheight]
    rfl
  have hfactor : (1 ≤ UInt16.ofNat (1 + n % 150) &&
      UInt16.ofNat (1 + n % 150) ≤ MAX_CONSTRUCTION_FACTOR) = true := by
    rw [decide_eq_true hlow, decide_eq_true hfull]
    rfl
  refine ⟨?_, rfl⟩
  exact bind_ok (ensure_ok hheights) (bind_ok rfl (bind_ok rfl
    (bind_ok rfl (bind_ok (ensure_ok hfactor) rfl))))

theorem tower_injective {m n : Nat} (hm : m < 194400) (hn : n < 194400) (h : tower m = tower n) : m = n := by
  injection h with hlevel _ _ _ _ hstructure _ _
  injection hstructure with hstructure
  injection hstructure with _ _ hheight hcf
  have hlevel : (UInt8.ofNat (m / 5400)).toNat = (UInt8.ofNat (n / 5400)).toNat := congrArg UInt8.toNat hlevel
  have hheight := congrArg UInt8.toNat hheight
  have hcf := congrArg UInt16.toNat hcf
  rw [UInt8.toNat_ofNat', UInt8.toNat_ofNat'] at hlevel hheight
  rw [UInt16.toNat_ofNat', UInt16.toNat_ofNat'] at hcf
  omega

theorem city_savable {first : Nat} (h : first ≤ 100000) : Savable (city first) := by
  refine ⟨?_, rfl, fun entry hentry => absurd hentry List.not_mem_nil⟩
  have hlength : ((List.range' first 40000).map tower).length = 40000 := by
    rw [List.length_map, List.length_range']
  have hhexes : ((List.range' first 40000).map tower).forM Hex.validateTile = .ok () := by
    refine forM_ok fun hex hhex => ?_
    obtain ⟨n, hn, rfl⟩ := List.mem_map.mp hhex
    have hn := List.mem_range'_1.mp hn
    exact (tower n).validateTile_ok_iff.mpr (tower_valid n (by omega))
  refine bind_ok rfl ?_
  show StoredMap.validateTerrain (city first) ((List.range' first 40000).map tower) = .ok ()
  refine bind_ok rfl (bind_ok rfl (bind_ok (ensure_ok ?_)
    (bind_ok hhexes (bind_ok rfl (bind_ok rfl rfl)))))
  exact decide_eq_true hlength

theorem city_hexes {first count : Nat} (h : first + count ≤ 194400) :
    (((List.range' first count).map tower).toFinset).card = count := by
  have hnodup : ((List.range' first count).map tower).Nodup := by
    refine List.Nodup.map_on (fun m hm n hn heq => ?_) List.nodup_range'
    have hm := List.mem_range'_1.mp hm
    have hn := List.mem_range'_1.mp hn
    exact tower_injective (by omega) (by omega) heq
  rw [List.toFinset_card_of_nodup hnodup, List.length_map, List.length_range']

-- The second city has no codes left.
theorem crowdedSaves_refused {json : HexJson} (hjson : json.Faithful) (defaults : String → Row) (s : Saving) :
    saveAll json (.new defaults) crowdedSaves ≠ .ok s := by
  intro hrun
  have hfirst : ∀ id, (hexesOf [⟨7, city 0, []⟩] id).card ≤ MAX_CODE + 1 := by
    intro id
    have hsub : hexesOf [⟨7, city 0, []⟩] id ⊆ ((List.range' 0 40000).map tower).toFinset := by
      intro hex hhex
      obtain ⟨save, hsave, hmem⟩ := List.mem_flatMap.mp (List.mem_toFinset.mp hhex)
      rw [List.mem_singleton.mp (List.mem_filter.mp hsave).1] at hmem
      exact List.mem_toFinset.mpr hmem
    have hcard := Finset.card_le_card hsub
    rw [city_hexes (by omega)] at hcard
    exact hcard.trans (by decide)
  obtain ⟨s₁, hone, hkept, -⟩ := saveNext_ok hjson hfirst (kept_new defaults)
    ⟨city_savable (by omega), mem_hexesOf _ _ (List.mem_singleton.mpr rfl), fun _ h => absurd h List.not_mem_nil⟩
  unfold saveAll crowdedSaves at hrun
  rw [List.foldlM_cons, hone] at hrun
  have hget : s₁.maps.get? 7 = some (city 0) := hkept.last 7
  have hstored := hkept.stored 7
  rw [hget] at hstored
  obtain ⟨s₂, hrun, -⟩ := ok_of_bind (x := saveNext json s₁ ⟨7, city 40000, []⟩) hrun
  obtain ⟨t, hsave, -⟩ := ok_of_bind hrun
  have hsave : s₁.tables.saveMap json 7 [] (s₁.maps.get? 7) (city 40000) = .ok t := hsave
  rw [hget] at hsave
  refine s₁.tables.saveMap_refuses 7 hjson [] hstored ?_ ?_ t hsave
  · have hne : (List.range' 0 40000).map tower ≠ (List.range' 40000 40000).map tower := by
      intro heq
      have hmem : tower 0 ∈ (List.range' 40000 40000).map tower := by
        rw [← heq]
        exact List.mem_map_of_mem (List.mem_range'_1.mpr (by omega))
      obtain ⟨n, hn, hsame⟩ := List.mem_map.mp hmem
      have hn := List.mem_range'_1.mp hn
      have hzero := tower_injective (by omega) (by omega) hsame
      omega
    have hterrain : decide ((city 0).terrain = (city 40000).terrain) = false :=
      decide_eq_false fun heq => hne (Option.some.inj heq)
    unfold TerrainTables.sameGrid
    rw [Option.any_some, hterrain]
    rfl
  · show MAX_CODE + 1 < (((List.range' 0 40000).map tower).toFinset ∪
      ((List.range' 40000 40000).map tower).toFinset).card
    have happend : List.range' 0 40000 ++ List.range' 40000 40000 = List.range' 0 80000 := by
      rw [List.range'_append_1]
    rw [← List.toFinset_append, ← List.map_append, happend, city_hexes (by omega)]
    decide

-- Two valid maps of one object, each with few enough hexes for a dictionary of its own.
theorem terrain_lost :
    (∀ save ∈ crowdedSaves, save.map.validate = .ok () ∧ (hexesOf [save] save.id).card ≤ 65536) ∧
      ∀ s, saveAll sampleJson (.new fun _ _ => .Null) crowdedSaves ≠ .ok s := by
  have hcity : ∀ first ≤ 100000, (city first).validate = .ok () ∧
      (hexesOf [⟨7, city first, []⟩] 7).card ≤ 65536 := by
    intro first hfirst
    refine ⟨(city_savable hfirst).valid, ?_⟩
    have hexes : hexesOf [⟨7, city first, []⟩] 7 = (((List.range' first 40000).map tower) ++ []).toFinset := rfl
    rw [hexes, List.append_nil, city_hexes (by omega)]
    decide
  refine ⟨fun save hsave => ?_, crowdedSaves_refused sampleJson_faithful _⟩
  rcases List.mem_cons.mp hsave with rfl | hsave
  · exact hcity 0 (by omega)
  · rw [List.mem_singleton.mp hsave]
    exact hcity 40000 (by omega)

end StompyMux.Persistence.Terrain
