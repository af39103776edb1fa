import StompyMux.Persistence.TerrainStored

-- Loading gives back the saved maps with their grids.
namespace StompyMux.Persistence.Terrain

open Library Library.Fallible
open StompyMux.Map
open StompyMux.World (ObjectId)

def outOfRange : String := "out of range integral type conversion attempted"

def readMap (row : Row) : Except Error StoredMap := do
  let membershipExtent ← getInteger row "first_free"
  ensure (0 ≤ membershipExtent && membershipExtent < UInt32.size) outOfRange
  let buildingParent ← getInteger row "on_map"
  let name ← getText row "map_name"
  let width ← getInteger row "width"
  let height ← getInteger row "height"
  let gravity ← getInteger row "gravity"
  let temperature ← getInteger row "temperature"
  let flags ← getInteger row "flags"
  let integrity ← getInteger row "cf"
  let maximumIntegrity ← getInteger row "cf_max"
  let buildFlag ← getInteger row "build_flag"
  let regeneration ← getInteger row "regen_factor"
  let light ← getInteger row "light"
  let weather ← getInteger row "weather"
  let cloudBase ← getInteger row "cloudbase"
  ensure (-32768 ≤ cloudBase && cloudBase ≤ I16_MAX) outOfRange
  let windDirection ← getInteger row "wind_direction"
  let windSpeed ← getInteger row "wind_speed"
  .ok ⟨UInt32.ofNat membershipExtent.toNat, buildingParent, name, width, height, gravity, temperature,
    flags, ⟨integrity, maximumIntegrity, buildFlag, regeneration⟩, light, weather, Int16.ofInt cloudBase,
    windDirection, windSpeed, none, .empty⟩

namespace TerrainTables

variable (json : HexJson) (t : TerrainTables) (id : ObjectId)

abbrev Maps := OrderedMap ObjectId StoredMap

def inOrder (rows : List (ObjectId × Row)) : List (ObjectId × Row) :=
  stableSort (fun row => row.1) rows

def loadMap (maps : Maps) (entry : ObjectId × Row) : Except Error Maps := do
  let map ← readMap entry.2
  .ok (maps.insert entry.1 map)

def loadEntry (dictionary : List (Int × Hex)) (entry : Int × Row) : Except Error (List (Int × Hex)) := do
  let hex ← withContext s!"Invalid terrain code for map #{id}" (readHex json entry.2)
  ensure ((dictionary.lookup entry.1).isNone && dictionary.all (fun other => other.2 ≠ hex))
    s!"Duplicate terrain dictionary entry for map #{id}"
  .ok ((entry.1, hex) :: dictionary)

def loadDictionary : Except Error (List (Int × Hex)) := do
  let entries := rowsOf t.codes id
  ensure (!entries.isEmpty) s!"Invalid terrain dictionary size for map #{id}"
  entries.foldlM (loadEntry json id) []

def loadTile (map : StoredMap) (dictionary : List (Int × Hex)) (tiles : List (Option Hex))
    (entry : (Int × Int) × Row) : Except Error (List (Option Hex)) := do
  let (x, y) := entry.1
  let code ← getInteger entry.2 "value"
  ensure (0 ≤ x && x < map.width && 0 ≤ y && y < map.height) s!"Out-of-bounds stored #{id}"
  let hex ← ofOption "Unknown terrain code" (dictionary.lookup code)
  let index := (y * map.width + x).toNat
  ensure tiles[index]?.join.isNone "Duplicate stored grid coordinate"
  .ok (tiles.set index (some hex))

def loadTiles (map : StoredMap) (dictionary : List (Int × Hex)) : Except Error (List Hex) := do
  let rows := stableSort (fun (entry : (Int × Int) × Row) => [entry.1.1, entry.1.2]) (rowsOf t.hexes id)
  let tiles ← rows.foldlM (loadTile id map dictionary)
    (List.replicate (map.width * map.height).toNat none)
  tiles.mapM (ofOption "Incomplete terrain grid")

def loadPoints (map : StoredMap) (damage : OrderedMap Nat UInt16) (entry : Int × Row) :
    Except Error (OrderedMap Nat UInt16) := do
  let points ← getInteger entry.2 "damage"
  ensure (0 ≤ entry.1 && entry.1 < map.width * map.height)
    s!"Out-of-bounds terrain #{id}"
  ensure (entry.1 < UInt32.size) outOfRange
  ensure (0 ≤ points && points < UInt16.size) "Invalid terrain damage"
  .ok (damage.insert entry.1.toNat (UInt16.ofNat points.toNat))

def loadTerrain (maps : Maps) (header : ObjectId × Row) : Except Error Maps := do
  let id := header.1
  let version ← getInteger header.2 "encoding_version"
  ensure (version = ENCODING_VERSION) s!"Unsupported terrain encoding {version} for map #{id}"
  let map ← ofOption s!"Terrain dictionary references missing map #{id}" (maps.get? id)
  ensure map.dimensionsValid s!"Invalid dimensions for map #{id}"
  let dictionary ← t.loadDictionary json id
  let tiles ← t.loadTiles id map dictionary
  let damage ← (rowsOf t.damage id).foldlM (loadPoints id map) .empty
  let loaded : StoredMap := { map with terrain := some tiles, terrainDamage := damage }
  loaded.validate
  .ok (maps.insert id loaded)

def load : Except Error Maps := do
  let maps ← (inOrder t.maps.rows).foldlM loadMap .empty
  ensure (t.codes.rows.all (fun row => (t.headers.get? row.1.1).isSome))
    "Terrain dictionary contains orphan codes"
  (inOrder t.headers.rows).foldlM (t.loadTerrain json) maps

end TerrainTables

-- A map as its own row gives it.
def StoredMap.bare (map : StoredMap) : StoredMap := { map with terrain := none, terrainDamage := .empty }

theorem readMap_ok {map : StoredMap} {row : Row} (h : MapRow map row) : readMap row = .ok map.bare := by
  have hcolumn : ∀ column cell, (mapFields map).lookup column = some cell → row column = cell :=
    fun column cell => value_of_holds (mapFields map) row column cell h.holds
  have hinteger : ∀ column value, (mapFields map).lookup column = some (.Integer value) →
      getInteger row column = .ok value := by
    intro column value hlookup
    unfold getInteger
    rw [hcolumn column _ hlookup]
  have hname : getText row "map_name" = .ok map.name := by
    unfold getText
    rw [hcolumn "map_name" _ rfl]
  have hextent : (0 ≤ (map.membershipExtent.toNat : Int) &&
      (map.membershipExtent.toNat : Int) < UInt32.size) = true := by
    have hlt := map.membershipExtent.toNat_lt
    have hsize : UInt32.size = 2 ^ 32 := rfl
    rw [decide_eq_true (by omega), decide_eq_true (by omega)]
    rfl
  have hcloud : (-32768 ≤ map.cloudBase.toInt && map.cloudBase.toInt ≤ I16_MAX) = true := by
    have hlow := map.cloudBase.le_toInt
    have hhigh := map.cloudBase.toInt_lt
    have hmax : I16_MAX = 32767 := rfl
    rw [decide_eq_true (by omega), decide_eq_true (by omega)]
    rfl
  unfold readMap
  rw [hinteger "first_free" _ rfl, hinteger "on_map" _ rfl, hname, hinteger "width" _ rfl,
    hinteger "height" _ rfl, hinteger "gravity" _ rfl, hinteger "temperature" _ rfl,
    hinteger "flags" _ rfl, hinteger "cf" _ rfl, hinteger "cf_max" _ rfl, hinteger "build_flag" _ rfl,
    hinteger "regen_factor" _ rfl, hinteger "light" _ rfl, hinteger "weather" _ rfl,
    hinteger "cloudbase" _ rfl, hinteger "wind_direction" _ rfl, hinteger "wind_speed" _ rfl]
  refine bind_ok rfl (bind_ok (ensure_ok hextent) ?_)
  refine bind_ok rfl (bind_ok rfl (bind_ok rfl (bind_ok rfl ?_)))
  refine bind_ok rfl (bind_ok rfl (bind_ok rfl (bind_ok rfl ?_)))
  refine bind_ok rfl (bind_ok rfl (bind_ok rfl (bind_ok rfl ?_)))
  refine bind_ok rfl (bind_ok rfl (bind_ok (ensure_ok hcloud) ?_))
  refine bind_ok rfl (bind_ok rfl ?_)
  rw [Int.toNat_natCast, UInt32.ofNat_toNat, Int16.ofInt_toInt]
  rfl

section Parts

variable {json : HexJson} (t : TerrainTables) (id : ObjectId) {seen : Finset Hex} {map : StoredMap}
  (hjson : json.Faithful) (h : Stored json (rowsAt t id) map seen)

include hjson h

open TerrainTables

theorem loadDictionary_ok : ∃ dictionary, t.loadDictionary json id = .ok dictionary ∧
    ∀ code hex, Means json (rowsAt t id).codes code hex → dictionary.lookup code = some hex := by
  have hrows : ∀ code row, (code, row) ∈ rowsOf t.codes id ↔ (rowsAt t id).codes code = some row :=
    mem_rowsOf t.codes id
  have hnonempty : (!(rowsOf t.codes id).isEmpty) = true := by
    obtain ⟨tiles, hterrain, hlength⟩ := h.savable.tiles
    obtain ⟨hw, -, hh, -⟩ := h.savable.dimensions
    have hpos : 0 < map.width * map.height := Int.mul_pos (by omega) (by omega)
    have hlt : 0 < tiles.length := by omega
    obtain ⟨row, code, -, -, entry, hentry, -⟩ :=
      h.tiles tiles hterrain 0 tiles[0] (List.getElem?_eq_getElem hlt)
    have hmem := (hrows code entry).mpr hentry
    rw [List.isEmpty_eq_false_iff_exists_mem.mpr ⟨_, hmem⟩]
    rfl
  have hread : ∀ code row hex, (code, row) ∈ rowsOf t.codes id →
      row "hex" = .Text (json.toString hex) → readHex json row = .ok hex := by
    intro code row hex _ htext
    unfold readHex
    rw [htext]
    exact ofOption_ok (hjson.read hex)
  obtain ⟨dictionary, hrun, hiff⟩ := foldlM_succeeds
    (fun done dictionary => ∀ code hex, (code, hex) ∈ dictionary ↔
      ∃ row, (code, row) ∈ done ∧ row "hex" = .Text (json.toString hex))
    (loadEntry json id) (rowsOf t.codes id)
    (by
      rintro done ⟨code, row⟩ rest dictionary hitems hdone
      have hmem : (code, row) ∈ rowsOf t.codes id := by
        rw [hitems]
        exact List.mem_append_right _ List.mem_cons_self
      have hold : ∀ entry ∈ done, entry ∈ rowsOf t.codes id ∧ entry.1 ≠ code := by
        intro entry hentry
        refine ⟨by rw [hitems]; exact List.mem_append_left _ hentry, fun heq => ?_⟩
        have hkeys := keys_rowsOf t.codes id
        rw [hitems, List.map_append, List.nodup_append] at hkeys
        exact hkeys.2.2 _ (List.mem_map_of_mem hentry) _ List.mem_cons_self heq
      obtain ⟨hex, -, htext⟩ := h.coded.hex code row ((hrows code row).mp hmem)
      have hlookup : dictionary.lookup code = none := by
        refine List.lookup_eq_none_iff.mpr fun entry hentry => bne_iff_ne.mpr fun heq => ?_
        obtain ⟨row', hrow', -⟩ := (hdone entry.1 entry.2).mp hentry
        exact (hold _ hrow').2 heq.symm
      have hunique : dictionary.all (fun other => other.2 ≠ hex) = true := by
        refine List.all_eq_true.mpr fun entry hentry => decide_eq_true fun heq => ?_
        obtain ⟨row', hrow', htext'⟩ := (hdone entry.1 entry.2).mp hentry
        obtain ⟨hin, hne⟩ := hold _ hrow'
        refine hne (h.coded.apart _ _ _ _ ((hrows _ _).mp hin) ((hrows code row).mp hmem) ?_)
        rw [htext', htext, heq]
      refine ⟨(code, hex) :: dictionary, ?_, fun other hex' => ?_⟩
      · refine bind_ok (withContext_ok (hread code row hex hmem htext))
          (bind_ok (ensure_ok ?_) rfl)
        rw [hlookup, hunique]
        rfl
      · rw [List.mem_cons, hdone]
        constructor
        · rintro (heq | ⟨row', hrow', htext'⟩)
          · injection heq with hcode hhex
            subst hcode hhex
            exact ⟨row, List.mem_append_right _ (List.mem_singleton.mpr rfl), htext⟩
          · exact ⟨row', List.mem_append_left _ hrow', htext'⟩
        · rintro ⟨row', hrow', htext'⟩
          rcases List.mem_append.mp hrow' with hrow' | hrow'
          · exact Or.inr ⟨row', hrow', htext'⟩
          · have heq := List.mem_singleton.mp hrow'
            injection heq with hcode hrow
            rw [hrow, htext] at htext'
            injection htext' with htext'
            rw [hcode, hjson.injective htext']
            exact Or.inl rfl)
    [] (fun code hex => by simp)
  refine ⟨dictionary, bind_ok (ensure_ok hnonempty) hrun, fun code hex => ?_⟩
  rintro ⟨row, hrow, htext⟩
  have hmem := (hiff code hex).mpr ⟨row, (hrows code row).mpr hrow, htext⟩
  cases hlookup : dictionary.lookup code with
  | none =>
      have habsent := List.lookup_eq_none_iff.mp hlookup _ hmem
      simp at habsent
  | some hex' =>
      obtain ⟨before, after, hsplit, -⟩ := List.lookup_eq_some_iff.mp hlookup
      have hmem' : (code, hex') ∈ dictionary := by
        rw [hsplit]
        exact List.mem_append_right _ List.mem_cons_self
      obtain ⟨row', hrow', htext'⟩ := (hiff code hex').mp hmem'
      have hsame := Option.some.inj (hrow.symm.trans ((hrows code row').mp hrow'))
      rw [← hsame, htext] at htext'
      injection htext' with htext'
      rw [hjson.injective htext']

omit hjson in
theorem loadTiles_ok {loaded : StoredMap} (hwidth : loaded.width = map.width)
    (hheight : loaded.height = map.height) (dictionary : List (Int × Hex))
    (hd : ∀ code hex, Means json (rowsAt t id).codes code hex → dictionary.lookup code = some hex) :
    ∃ tiles, map.terrain = some tiles ∧ t.loadTiles id loaded dictionary = .ok tiles := by
  obtain ⟨tiles, hterrain, hlength⟩ := h.savable.tiles
  have hrows : ∀ at' row, (at', row) ∈ rowsOf t.hexes id ↔ (rowsAt t id).hexes at' = some row :=
    mem_rowsOf t.hexes id
  let rows := stableSort (fun (entry : (Int × Int) × Row) => [entry.1.1, entry.1.2]) (rowsOf t.hexes id)
  have hperm : rows.Perm (rowsOf t.hexes id) := stableSort_perm _ _
  have hkeys : (rows.map Prod.fst).Nodup := (hperm.map Prod.fst).nodup_iff.mpr (keys_rowsOf t.hexes id)
  obtain ⟨filled, hrun, hfilledLength, hfilled⟩ := foldlM_succeeds
    (fun done (filled : List (Option Hex)) => filled.length = tiles.length ∧
      ∀ index hex, tiles[index]? = some hex →
        filled[index]? = some (if place map.width index ∈ done.map Prod.fst then some hex else none))
    (loadTile id loaded dictionary) rows
    (by
      rintro done ⟨⟨x, y⟩, row⟩ rest filled hitems ⟨hsize, hdone⟩
      have hmem : ((x, y), row) ∈ rows := by
        rw [hitems]
        exact List.mem_append_right _ List.mem_cons_self
      have hrow := (hrows (x, y) row).mp (hperm.mem_iff.mp hmem)
      have hfresh : (x, y) ∉ done.map Prod.fst := by
        rw [hitems, List.map_append, List.nodup_append] at hkeys
        exact fun hin => hkeys.2.2 _ hin _ List.mem_cons_self rfl
      obtain ⟨hx, hxw, hy, hyh⟩ := h.grid (x, y) row hrow
      obtain ⟨index, hlt, hplace, hindex⟩ :=
        exists_place map tiles hlength (by omega) ⟨hx, hxw, hy, hyh⟩
      obtain ⟨row', code, hrow', hvalue, hmeans⟩ := h.tiles tiles hterrain index tiles[index]
        (List.getElem?_eq_getElem hlt)
      rw [hplace, hrow] at hrow'
      injection hrow' with hrow'
      subst hrow'
      have hread : getInteger row "value" = .ok code := by
        unfold getInteger
        rw [hvalue]
      have hinside : (0 ≤ x && x < loaded.width && 0 ≤ y && y < loaded.height) = true := by
        rw [hwidth, hheight]
        simp only [Bool.and_eq_true, decide_eq_true_eq]
        exact ⟨⟨⟨hx, hxw⟩, hy⟩, hyh⟩
      have hempty : filled[index]? = some none := by
        rw [hdone index tiles[index] (List.getElem?_eq_getElem hlt), hplace, if_neg hfresh]
      refine ⟨filled.set index (some tiles[index]), ?_, ?_, fun other hex hget => ?_⟩
      · refine bind_ok hread (bind_ok (ensure_ok hinside)
          (bind_ok (ofOption_ok (hd code _ hmeans)) ?_))
        have hat : (y * loaded.width + x).toNat = index := by
          rw [hwidth]
          exact hindex.symm
        rw [hat]
        refine bind_ok (ensure_ok ?_) rfl
        rw [hempty]
        rfl
      · rw [List.length_set, hsize]
      · rw [List.getElem?_set]
        by_cases hsame : index = other
        · subst hsame
          have hin : place map.width index ∈ (done ++ [((x, y), row)]).map Prod.fst := by
            rw [hplace, List.map_append]
            exact List.mem_append_right _ (List.mem_singleton.mpr rfl)
          rw [if_pos rfl, if_pos (by omega), if_pos hin]
          rw [List.getElem?_eq_getElem hlt] at hget
          exact congrArg some hget
        · have hiff : place map.width other ∈ (done ++ [((x, y), row)]).map Prod.fst ↔
              place map.width other ∈ done.map Prod.fst := by
            rw [List.map_append, List.mem_append]
            refine or_iff_left fun hlast => hsame ?_
            rw [← hplace] at hlast
            exact (place_injective map.width (List.mem_singleton.mp hlast)).symm
          rw [if_neg hsame, hdone other hex hget]
          simp only [hiff])
    (List.replicate (loaded.width * loaded.height).toNat none)
    ⟨by rw [List.length_replicate, hwidth, hheight, hlength], fun index hex hget => by
      obtain ⟨hlt, -⟩ := List.getElem?_eq_some_iff.mp hget
      rw [hwidth, hheight, ← hlength, List.getElem?_replicate, if_pos hlt]
      rfl⟩
  have hall : filled = tiles.map some := by
    apply List.ext_getElem?
    intro index
    rw [List.getElem?_map]
    cases hget : tiles[index]? with
    | none =>
        have hout := List.getElem?_eq_none_iff.mp hget
        exact List.getElem?_eq_none_iff.mpr (by omega)
    | some hex =>
        obtain ⟨row, -, hrow, -⟩ := h.tiles tiles hterrain index hex hget
        have hin : place map.width index ∈ rows.map Prod.fst :=
          List.mem_map.mpr ⟨_, hperm.mem_iff.mpr ((hrows _ row).mpr hrow), rfl⟩
        rw [hfilled index hex hget, if_pos hin]
        rfl
  refine ⟨tiles, hterrain, bind_ok hrun ?_⟩
  have hread := mapM_ok (ofOption "Incomplete terrain grid") (fun tile => tile.getD (Hex.atLevel 0))
    (tiles.map some) (by
      intro tile htile
      obtain ⟨hex, -, rfl⟩ := List.mem_map.mp htile
      rfl)
  rw [hall, hread, List.map_map]
  exact congrArg Except.ok (List.map_id' tiles)

omit hjson in
theorem loadDamage_ok {loaded : StoredMap} (hwidth : loaded.width = map.width)
    (hheight : loaded.height = map.height) :
    (rowsOf t.damage id).foldlM (loadPoints id loaded) .empty = .ok map.terrainDamage := by
  have hrows : ∀ tile row, (tile, row) ∈ rowsOf t.damage id ↔ (rowsAt t id).damage tile = some row :=
    mem_rowsOf t.damage id
  obtain ⟨damage, hrun, hdamage⟩ := foldlM_succeeds
    (fun done (damage : OrderedMap Nat UInt16) => ∀ tile : Nat, damage.get? tile =
      if (tile : Int) ∈ done.map Prod.fst then map.terrainDamage.get? tile else none)
    (loadPoints id loaded) (rowsOf t.damage id)
    (by
      rintro done ⟨tile, row⟩ rest damage hitems hdone
      have hmem : (tile, row) ∈ rowsOf t.damage id := by
        rw [hitems]
        exact List.mem_append_right _ List.mem_cons_self
      obtain ⟨n, points, rfl, hget, hvalue⟩ := h.points tile row ((hrows tile row).mp hmem)
      have hread : getInteger row "damage" = .ok (points.toNat : Int) := by
        unfold getInteger
        rw [hvalue]
      obtain ⟨htile, -⟩ := h.savable.damage (n, points) ((map.terrainDamage.get?_eq_some_iff _ _).mp hget)
      have htile : (n : Int) < map.width * map.height := htile
      obtain ⟨hsmall, -⟩ := h.savable.damage_below (n, points) ((map.terrainDamage.get?_eq_some_iff _ _).mp hget)
      have hpoints := points.toNat_lt
      have hsize : UInt32.size = 2 ^ 32 := rfl
      have hsize' : UInt16.size = 2 ^ 16 := rfl
      refine ⟨damage.insert n points, ?_, fun other => ?_⟩
      · refine bind_ok hread ?_
        refine bind_ok (ensure_ok ?_) (bind_ok (ensure_ok ?_)
          (bind_ok (ensure_ok ?_) ?_))
        · rw [hwidth, hheight]
          exact Bool.and_eq_true_iff.mpr ⟨decide_eq_true (Int.natCast_nonneg n), decide_eq_true htile⟩
        · exact decide_eq_true (show (n : Int) < UInt32.size by omega)
        · rw [decide_eq_true (Int.natCast_nonneg points.toNat),
            decide_eq_true (show (points.toNat : Int) < UInt16.size by omega)]
          rfl
        · show Except.ok (damage.insert n (UInt16.ofNat points.toNat)) = _
          rw [UInt16.ofNat_toNat]
      · rw [OrderedMap.get?_insert, hdone]
        have hkeys := mem_keys_concat done (Int.ofNat n) (other : Int) row
        by_cases hsame : other = n
        · rw [if_pos hsame, if_pos (hkeys.mpr (Or.inr (congrArg Int.ofNat hsame))), hsame, hget]
        · have hiff := hkeys.trans (or_iff_left fun heq => hsame (Int.ofNat.inj heq))
          rw [if_neg hsame]
          simp only [hiff])
    .empty (fun tile => rfl)
  rw [hrun]
  refine congrArg Except.ok (OrderedMap.eq_of_get? _ _ fun tile => ?_)
  rw [hdamage]
  split
  · rfl
  · rename_i hout
    cases hget : map.terrainDamage.get? tile with
    | none => rfl
    | some points =>
        obtain ⟨row, hrow, -⟩ := h.damage tile points hget
        exact absurd (List.mem_map.mpr ⟨_, (hrows _ row).mpr hrow, rfl⟩) hout

theorem loadTerrain_ok {maps : Maps} (hmaps : maps.get? id = some map.bare) (header : Row)
    (hheader : header "encoding_version" = .Integer ENCODING_VERSION) :
    t.loadTerrain json maps (id, header) = .ok (maps.insert id map) := by
  obtain ⟨dictionary, hdictionary, hmeans⟩ := loadDictionary_ok t id hjson h
  obtain ⟨tiles, hterrain, htiles⟩ := loadTiles_ok t id h rfl rfl dictionary hmeans
  have hdamage := loadDamage_ok t id h rfl rfl
  have hread : getInteger header "encoding_version" = .ok ENCODING_VERSION := by
    unfold getInteger
    rw [hheader]
  have hdimensions : map.bare.dimensionsValid = true :=
    (valid_terrain h.savable.valid hterrain).1
  have hloaded : { map.bare with terrain := some tiles, terrainDamage := map.terrainDamage } = map := by
    rw [← hterrain]
    rfl
  refine bind_ok hread (bind_ok (ensure_ok rfl)
    (bind_ok (ofOption_ok hmaps) (bind_ok (ensure_ok hdimensions)
      (bind_ok hdictionary (bind_ok htiles
        (bind_ok hdamage ?_))))))
  rw [hloaded]
  exact bind_ok h.savable.valid rfl

end Parts

theorem mem_inOrder (rows : List (ObjectId × Row)) (entry : ObjectId × Row) :
    entry ∈ TerrainTables.inOrder rows ↔ entry ∈ rows := (stableSort_perm _ rows).mem_iff

section Whole

variable {json : HexJson} (t : TerrainTables) (saved : TerrainTables.Maps) (seen : ObjectId → Finset Hex)
  (hjson : json.Faithful) (h : ∀ id, Image json (rowsAt t id) (seen id) (saved.get? id))

include h

open TerrainTables

theorem stored_of_row {id : ObjectId} (hrow : rowsAt t id ≠ .blank) :
    ∃ map, saved.get? id = some map ∧ Stored json (rowsAt t id) map (seen id) := by
  have hid := h id
  cases hget : saved.get? id with
  | none =>
      rw [hget] at hid
      exact absurd hid hrow
  | some map =>
      rw [hget] at hid
      exact ⟨map, rfl, hid⟩

theorem loadMaps_ok : ∃ maps, (inOrder t.maps.rows).foldlM loadMap .empty = .ok maps ∧
    ∀ id, maps.get? id = (saved.get? id).map StoredMap.bare := by
  obtain ⟨maps, hrun, hmaps⟩ := foldlM_succeeds
    (fun done (maps : Maps) => ∀ id, maps.get? id =
      if id ∈ done.map Prod.fst then (saved.get? id).map StoredMap.bare else none)
    loadMap (inOrder t.maps.rows)
    (by
      rintro done ⟨id, row⟩ rest maps hitems hdone
      have hmem : (id, row) ∈ t.maps.rows := by
        rw [← mem_inOrder, hitems]
        exact List.mem_append_right _ List.mem_cons_self
      have hrow := (t.maps.get?_eq_some_iff id row).mpr hmem
      obtain ⟨map, hget, hstored⟩ := stored_of_row t saved seen h (by
        intro hblank
        have hnone : t.maps.get? id = none := congrArg MapRows.map hblank
        rw [hrow] at hnone
        contradiction)
      obtain ⟨row', hrow', hmapRow⟩ := hstored.row
      have hsame : row' = row := Option.some.inj (hrow'.symm.trans hrow)
      refine ⟨maps.insert id map.bare, bind_ok (readMap_ok (hsame ▸ hmapRow)) rfl,
        fun other => ?_⟩
      rw [OrderedMap.get?_insert, hdone]
      have hkeys := mem_keys_concat done id other row
      by_cases hother : other = id
      · rw [if_pos hother, if_pos (hkeys.mpr (Or.inr hother)), hother, hget]
        rfl
      · have hiff := hkeys.trans (or_iff_left hother)
        rw [if_neg hother]
        simp only [hiff])
    .empty (fun id => rfl)
  refine ⟨maps, hrun, fun id => ?_⟩
  rw [hmaps]
  split
  · rfl
  · rename_i hout
    cases hget : saved.get? id with
    | none => rfl
    | some map =>
        have hid := h id
        rw [hget] at hid
        obtain ⟨row, hrow, -⟩ := hid.row
        refine absurd (List.mem_map.mpr ⟨(id, row), (mem_inOrder _ _).mpr ?_, rfl⟩) hout
        exact (t.maps.get?_eq_some_iff id row).mp hrow

include hjson in
theorem load_ok : t.load json = .ok saved := by
  obtain ⟨maps, hmaps, hbare⟩ := loadMaps_ok t saved seen h
  have horphans : t.codes.rows.all (fun row => (t.headers.get? row.1.1).isSome) = true := by
    refine List.all_eq_true.mpr ?_
    rintro ⟨⟨id, code⟩, row⟩ hmem
    have hrow := (t.codes.get?_eq_some_iff (id, code) row).mpr hmem
    obtain ⟨map, -, hstored⟩ := stored_of_row t saved seen h (by
      intro hblank
      have hnone : t.codes.get? (id, code) = none := congrFun (congrArg MapRows.codes hblank) code
      rw [hrow] at hnone
      contradiction)
    obtain ⟨header, hheader, -⟩ := hstored.header
    exact Option.isSome_iff_exists.mpr ⟨header, hheader⟩
  obtain ⟨loaded, hrun, hloaded⟩ := foldlM_succeeds
    (fun done (maps : Maps) => ∀ id, maps.get? id =
      if id ∈ done.map Prod.fst then saved.get? id else (saved.get? id).map StoredMap.bare)
    (t.loadTerrain json) (inOrder t.headers.rows)
    (by
      rintro done ⟨id, header⟩ rest maps hitems hdone
      have hmem : (id, header) ∈ t.headers.rows := by
        rw [← mem_inOrder, hitems]
        exact List.mem_append_right _ List.mem_cons_self
      have hrow := (t.headers.get?_eq_some_iff id header).mpr hmem
      have hfresh : id ∉ done.map Prod.fst := by
        have hkeys : ((inOrder t.headers.rows).map Prod.fst).Nodup :=
          ((stableSort_perm (fun row : ObjectId × Row => row.1) _).map Prod.fst).nodup_iff.mpr t.headers.unique
        rw [hitems, List.map_append, List.nodup_append] at hkeys
        exact fun hin => hkeys.2.2 _ hin _ List.mem_cons_self rfl
      obtain ⟨map, hget, hstored⟩ := stored_of_row t saved seen h (by
        intro hblank
        have hnone : t.headers.get? id = none := congrArg MapRows.header hblank
        rw [hrow] at hnone
        contradiction)
      obtain ⟨header', hheader', hversion⟩ := hstored.header
      have hsame : header' = header := Option.some.inj (hheader'.symm.trans hrow)
      have hcurrent : maps.get? id = some map.bare := by
        rw [hdone, if_neg hfresh, hget]
        rfl
      refine ⟨maps.insert id map,
        loadTerrain_ok t id hjson hstored hcurrent header (hsame ▸ hversion), fun other => ?_⟩
      rw [OrderedMap.get?_insert, hdone]
      have hkeys := mem_keys_concat done id other header
      by_cases hother : other = id
      · rw [if_pos hother, if_pos (hkeys.mpr (Or.inr hother)), hother, hget]
      · have hiff := hkeys.trans (or_iff_left hother)
        rw [if_neg hother]
        simp only [hiff])
    maps (fun id => hbare id)
  refine bind_ok hmaps (bind_ok (ensure_ok horphans) ?_)
  rw [hrun]
  refine congrArg Except.ok (OrderedMap.eq_of_get? _ _ fun id => ?_)
  rw [hloaded]
  split
  · rfl
  · rename_i hout
    cases hget : saved.get? id with
    | none => rfl
    | some map =>
        have hid := h id
        rw [hget] at hid
        obtain ⟨header, hheader, -⟩ := hid.header
        refine absurd (List.mem_map.mpr ⟨(id, header), (mem_inOrder _ _).mpr ?_, rfl⟩) hout
        exact (t.headers.get?_eq_some_iff id header).mp hheader

end Whole

end StompyMux.Persistence.Terrain
