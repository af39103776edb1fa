import StompyMux.Persistence.TerrainSave

-- A saved map is stored whole, whatever was stored of it before.
namespace StompyMux.Persistence.Terrain

open Library Library.Fallible
open StompyMux.Map
open StompyMux.World (ObjectId)

theorem valid_terrain {map : StoredMap} {tiles : List Hex} (hvalid : map.validate = .ok ())
    (hterrain : map.terrain = some tiles) : map.dimensionsValid = true ∧
      tiles.length = (map.width * map.height).toNat := by
  obtain ⟨⟨⟩, -, h⟩ := ok_of_bind hvalid
  simp only [hterrain] at h
  obtain ⟨-, h⟩ := ok_of_ensure h
  obtain ⟨hdimensions, h⟩ := ok_of_ensure h
  obtain ⟨hlength, -⟩ := ok_of_ensure h
  exact ⟨hdimensions, of_decide_eq_true hlength⟩

theorem dimensions_of_valid {map : StoredMap} (h : map.dimensionsValid = true) :
    1 ≤ map.width ∧ map.width ≤ 1000 ∧ 1 ≤ map.height ∧ map.height ≤ 1000 := by
  unfold StoredMap.dimensionsValid at h
  simp only [Bool.and_eq_true, decide_eq_true_eq] at h
  omega

theorem Savable.dimensions {map : StoredMap} (h : Savable map) :
    1 ≤ map.width ∧ map.width ≤ 1000 ∧ 1 ≤ map.height ∧ map.height ≤ 1000 := by
  obtain ⟨tiles, hterrain⟩ := Option.isSome_iff_exists.mp h.grid
  exact dimensions_of_valid (valid_terrain h.valid hterrain).1

theorem Savable.tiles {map : StoredMap} (h : Savable map) : ∃ tiles, map.terrain = some tiles ∧
    tiles.length = (map.width * map.height).toNat := by
  obtain ⟨tiles, hterrain⟩ := Option.isSome_iff_exists.mp h.grid
  exact ⟨tiles, hterrain, (valid_terrain h.valid hterrain).2⟩

theorem Savable.damage_below {map : StoredMap} (h : Savable map) :
    ∀ entry ∈ map.terrainDamage.entries, entry.1 < 1000000 ∧ 1 ≤ entry.2 := by
  intro entry hentry
  obtain ⟨htile, hpoints⟩ := h.damage entry hentry
  obtain ⟨hw, hw', hh, hh'⟩ := h.dimensions
  have hle : map.width * map.height ≤ 1000 * 1000 :=
    Int.mul_le_mul hw' hh' (by omega) (by omega)
  exact ⟨by omega, hpoints⟩

variable {json : HexJson} {seen : Finset Hex} {rows : MapRows} {map : StoredMap}

theorem Stored.value (h : Stored json rows map seen) (at' : Int × Int) (row : Row)
    (hrow : rows.hexes at' = some row) : ∃ index tiles hex code, map.terrain = some tiles ∧
      tiles[index]? = some hex ∧ place map.width index = at' ∧ row "value" = .Integer code ∧
      Means json rows.codes code hex := by
  obtain ⟨tiles, hterrain, hlength⟩ := h.savable.tiles
  obtain ⟨hw, -, -, -⟩ := h.savable.dimensions
  obtain ⟨index, hlt, hplace, -⟩ := exists_place map tiles hlength (by omega) (h.grid at' row hrow)
  obtain ⟨row', code, hrow', hvalue, hmeans⟩ := h.tiles tiles hterrain index tiles[index]
    (List.getElem?_eq_getElem hlt)
  rw [hplace, hrow] at hrow'
  injection hrow' with hrow'
  exact ⟨index, tiles, tiles[index], code, hterrain, List.getElem?_eq_getElem hlt, hplace,
    hrow' ▸ hvalue, hmeans⟩

theorem Stored.points (h : Stored json rows map seen) (tile : Int) (row : Row)
    (hrow : rows.damage tile = some row) : ∃ n points, tile = Int.ofNat n ∧
      map.terrainDamage.get? n = some points ∧ row "damage" = .Integer points.toNat := by
  obtain ⟨n, points, rfl, hget⟩ := h.damaged tile row hrow
  obtain ⟨row', hrow', hvalue⟩ := h.damage n points hget
  have hsame := Option.some.inj (hrow.symm.trans hrow')
  exact ⟨n, points, rfl, hget, hsame ▸ hvalue⟩

namespace TerrainTables

variable (t : TerrainTables) (id : ObjectId)

-- What a save of a map expects of its rows.
structure Ready (json : HexJson) (t : TerrainTables) (id : ObjectId) (seen : Finset Hex) : Prop where
  header : ∀ row, t.headers.get? id = some row → row "encoding_version" = .Integer ENCODING_VERSION
  coded : Dictionary json (fun code => t.codes.get? (id, code)) seen
  readable : t.Readable id
  damage : ∀ tile row, t.damage.get? (id, tile) = some row → ∃ points, row "damage" = .Integer points

theorem ready_of_image {previous : Option StoredMap} (h : Image json (rowsAt t id) seen previous) :
    Ready json t id seen := by
  cases previous with
  | none =>
      have hheader : t.headers.get? id = none := congrArg MapRows.header h
      have hcodes : ∀ code, t.codes.get? (id, code) = none := fun code => congrFun (congrArg MapRows.codes h) code
      have hhexes : ∀ at', t.hexes.get? (id, at') = none := fun at' => congrFun (congrArg MapRows.hexes h) at'
      have hdamage : ∀ tile, t.damage.get? (id, tile) = none := fun tile => congrFun (congrArg MapRows.damage h) tile
      refine ⟨?_, ⟨?_, ?_, ?_⟩, ?_, ?_⟩
      · simp [hheader]
      · simp [hcodes]
      · simp [hcodes]
      · simp [hcodes]
      · intro at' row hrow
        rw [hhexes] at hrow
        contradiction
      · simp [hdamage]
  | some old =>
      have h : Stored json (rowsAt t id) old seen := h
      obtain ⟨header, hheader, hversion⟩ := h.header
      refine ⟨fun row hrow => ?_, h.coded, fun at' row hrow => ?_, fun tile row hrow => ?_⟩
      · exact Option.some.inj (hheader.symm.trans hrow) ▸ hversion
      · obtain ⟨hx, -, hy, -⟩ := h.grid at' row hrow
        obtain ⟨-, -, -, code, -, -, -, hvalue, -⟩ := h.value at' row hrow
        exact ⟨hx, hy, code, hvalue⟩
      · obtain ⟨n, points, -, -, hvalue⟩ := h.points tile row hrow
        exact ⟨_, hvalue⟩

variable (hjson : json.Faithful) (hcard : seen.card ≤ MAX_CODE + 1)

-- What a save of a grid leaves in the tables.
variable (json) (seen) in
structure GridSaved (t' : TerrainTables) (map : StoredMap) : Prop where
  header : ∃ row, t'.headers.get? id = some row ∧ row "encoding_version" = .Integer ENCODING_VERSION
  coded : Dictionary json (fun code => t'.codes.get? (id, code)) seen
  tiles : ∀ tiles, map.terrain = some tiles → ∀ index hex, tiles[index]? = some hex →
    ∃ row code, t'.hexes.get? (id, place map.width index) = some row ∧ row "value" = .Integer code ∧
      Means json (fun code => t'.codes.get? (id, code)) code hex
  grid : ∀ at' row, t'.hexes.get? (id, at') = some row →
    0 ≤ at'.1 ∧ at'.1 < map.width ∧ 0 ≤ at'.2 ∧ at'.2 < map.height
  kept : ∀ key row, t.codes.get? key = some row → t'.codes.get? key = some row
  maps : t'.maps = t.maps
  damage : t'.damage = t.damage
  others : ∀ other, other ≠ id → rowsAt t' other = rowsAt t other

include hjson hcard in
theorem save_ok (h : Ready json t id seen) {map : StoredMap}
    (hs : Savable map) (hseen : ∀ hex ∈ map.terrain.getD [], hex ∈ seen) :
    ∃ t', t.save json id map = .ok t' ∧ t.GridSaved json seen id t' map := by
  obtain ⟨tiles, hterrain, hlength⟩ := hs.tiles
  obtain ⟨hw, -, -, -⟩ := hs.dimensions
  have hseen : ∀ hex ∈ tiles, hex ∈ seen := by
    rw [hterrain] at hseen
    exact hseen
  obtain ⟨headers, header, hheader, hown, hversion, hothers⟩ := t.saveHeader_ok id h.header
  let t₁ : TerrainTables := { t with headers := headers }
  obtain ⟨a, codes, hassign, hinsert, hc⟩ := t.saveCodes_ok id seen hjson h.coded tiles hseen hcard t₁
  obtain ⟨previous, hexes, hprevious, hrun, hts⟩ := t₁.saveTiles_ok id map tiles hlength (by omega)
    a.dictionary h.readable (fun hex hhex => by
      obtain ⟨code, hlook, -⟩ := hc.tiles hex hhex
      exact ⟨code, hlook⟩)
  refine ⟨{ t₁ with codes := codes, hexes := hexes }, ?_, ⟨header, hown, hversion⟩, hc.coded,
    fun tiles' hterrain' index hex hget => ?_, hts.grid, hc.kept, rfl, rfl, fun other hother => ?_⟩
  · refine bind_ok (ofOption_ok hterrain) (bind_ok hs.valid ?_)
    exact bind_ok hassign (bind_ok hheader (bind_ok hinsert
      (bind_ok hprevious (bind_ok hrun rfl))))
  · have htiles : tiles' = tiles := Option.some.inj (hterrain'.symm.trans hterrain)
    rw [htiles] at hget
    obtain ⟨row, code, hrow, hvalue, hlook⟩ := hts.tiles index hex hget
    obtain ⟨code', hlook', hmeans⟩ := hc.tiles hex (List.mem_of_getElem? hget)
    have hsame : code' = code := Option.some.inj (hlook'.symm.trans hlook)
    exact ⟨row, code, hrow, hvalue, hsame ▸ hmeans⟩
  · unfold rowsAt
    congr 1
    · exact hothers other hother
    · exact funext (hc.others other hother)
    · exact funext (hts.others other hother)

-- What a save of a map leaves in the tables.
variable (json) (seen) in
structure MapSaved (t' : TerrainTables) (map : StoredMap) : Prop where
  stored : Stored json (rowsAt t' id) map seen
  kept : ∀ key row, t.codes.get? key = some row → t'.codes.get? key = some row
  others : ∀ other, other ≠ id → rowsAt t' other = rowsAt t other

include hjson hcard in
theorem saveMap_ok (objects : List (ObjectId × Int)) (hobjects : ∀ object ∈ objects, object.2 ∈ OWNED_OBJECTS)
    {previous : Option StoredMap} (h : Image json (rowsAt t id) seen previous) {map : StoredMap}
    (hs : Savable map) (hseen : ∀ hex ∈ map.terrain.getD [], hex ∈ seen) :
    ∃ t', t.saveMap json id objects previous map = .ok t' ∧ t.MapSaved json seen id t' map := by
  unfold saveMap
  by_cases hsame : previous = some map
  · rw [if_pos hsame]
    rw [hsame] at h
    exact ⟨t, rfl, h, fun _ _ hrow => hrow, fun _ _ => rfl⟩
  · rw [if_neg hsame]
    obtain ⟨maps, row, hrow, hown, hmapRow, hmaps⟩ := t.saveMapRow_ok id json seen previous map h
    have hready := t.ready_of_image id h
    by_cases hgrid : sameGrid previous map = true
    · rw [if_pos hgrid]
      obtain ⟨old, rfl, hold⟩ := (Option.any_eq_true _ previous).mp hgrid
      simp only [Bool.and_eq_true, decide_eq_true_eq] at hold
      obtain ⟨⟨hterrain, hwidth⟩, hheight⟩ := hold
      have h : Stored json (rowsAt t id) old seen := h
      let t₁ : TerrainTables := { t with maps := maps }
      have hkept : ∀ damage : Table (ObjectId × Int) Row, t₁.DamageSaved id map damage →
          t.MapSaved json seen id { t₁ with damage := damage } map := by
        intro damage hd
        refine ⟨⟨hs, ⟨row, hown, hmapRow⟩, h.header, h.coded, fun tiles hmap index hex hget => ?_,
          fun at' stored hstored => ?_, hd.written, hd.damaged⟩, fun _ _ hrow => hrow, fun other hother => ?_⟩
        · rw [← hwidth]
          exact h.tiles tiles (hterrain.trans hmap) index hex hget
        · rw [← hwidth, ← hheight]
          exact h.grid at' stored hstored
        · unfold rowsAt
          congr 1
          · exact hmaps other hother
          · exact funext (hd.others other hother)
      by_cases hdamage : old.terrainDamage = map.terrainDamage
      · -- The damage is what was stored.
        refine ⟨t₁, ?_, hkept t.damage ⟨fun tile points hget => ?_, fun tile stored hstored => ?_,
          fun _ _ _ => rfl⟩⟩
        · refine bind_ok hrow (if_neg ?_)
          rw [Option.any_some, hdamage]
          simp
        · exact h.damage tile points (hdamage ▸ hget)
        · exact hdamage ▸ h.damaged tile stored hstored
      · obtain ⟨damage, hrun, hd⟩ := t₁.saveDamage_ok id map hready.damage hs.damage_below
        refine ⟨{ t₁ with damage := damage }, ?_, hkept damage hd⟩
        refine bind_ok hrow ((if_pos ?_).trans hrun)
        rw [Option.any_some]
        exact decide_eq_true hdamage
    · rw [if_neg hgrid]
      obtain ⟨registrations, hregister, hregistrations⟩ :=
        TerrainTables.register_ok { t with maps := maps } id previous (by
          intro hnone
          rw [hnone] at h
          exact congrArg MapRows.registration h)
      let t₂ : TerrainTables := { t with maps := maps, registrations := registrations }
      obtain ⟨t₃, hsave, hg⟩ := t₂.save_ok id hjson hcard ⟨hready.header, hready.coded, hready.readable,
        hready.damage⟩ hs hseen
      have hdamage₃ : ∀ tile row, t₃.damage.get? (id, tile) = some row →
          ∃ points, row "damage" = .Integer points := by
        rw [hg.damage]
        exact hready.damage
      obtain ⟨damage, hrun, hd⟩ := t₃.saveDamage_ok id map hdamage₃ hs.damage_below
      have hobject : objects.all (fun object => object.1 ≠ id || object.2 ∈ OWNED_OBJECTS) = true := by
        refine List.all_eq_true.mpr fun object hobject => ?_
        rw [decide_eq_true (hobjects object hobject), Bool.or_true]
      refine ⟨{ t₃ with damage := damage }, ?_, ⟨hs, ⟨row, ?_, hmapRow⟩, hg.header, hg.coded, hg.tiles,
        hg.grid, hd.written, hd.damaged⟩, hg.kept, fun other hother => ?_⟩
      · exact bind_ok (ensure_ok hobject) (bind_ok hrow (bind_ok hregister
          (bind_ok hsave hrun)))
      · show t₃.maps.get? id = some row
        rw [hg.maps]
        exact hown
      · have hrest := hg.others other hother
        unfold rowsAt at hrest ⊢
        injection hrest with hmap hregistration hheader hcodes hhexes _
        congr 1
        · exact hmap.trans (hmaps other hother)
        · exact hregistration.trans (hregistrations other hother)
        · funext tile
          show damage.get? (other, tile) = t.damage.get? (other, tile)
          rw [hd.others other hother, hg.damage]

include hjson in
-- More distinct hexes than there are codes cannot all have one.
theorem assignCodes_refuses (h : Dictionary json (fun code => t.codes.get? (id, code)) seen)
    {known : Finset Hex} {tiles : List Hex}
    (hknown : ∀ hex ∈ known, ∃ code, Means json (fun code => t.codes.get? (id, code)) code hex)
    (hmany : MAX_CODE + 1 < (known ∪ tiles.toFinset).card) (a : Assignment) :
    t.assignCodes json id tiles ≠ .ok a := by
  intro hassign
  obtain ⟨entries, hiff, ha⟩ := t.assignCodes_keeps id seen hjson h hassign
  have hentries : ∀ entry ∈ entries, entry ∈ a.dictionary := by
    intro entry hentry
    rw [ha.dictionary]
    exact List.mem_append_right _ (List.mem_reverse.mpr hentry)
  have hsub : known ∪ tiles.toFinset ⊆ (a.dictionary.map Prod.fst).toFinset := by
    intro hex hhex
    rw [List.mem_toFinset]
    rcases Finset.mem_union.mp hhex with hhex | hhex
    · obtain ⟨code, hmeans⟩ := hknown hex hhex
      exact List.mem_map.mpr ⟨(hex, code), hentries _ ((hiff hex code).mpr hmeans), rfl⟩
    · exact ha.covered hex ((mem_distinctHexes tiles hex).mpr (List.mem_toFinset.mp hhex))
  have hcodes : a.dictionary.map Prod.snd ⊆ CODES := by
    intro code hcode
    obtain ⟨entry, hentry, rfl⟩ := List.mem_map.mp hcode
    rw [mem_codes]
    rw [ha.dictionary, List.mem_append, List.mem_reverse, List.mem_reverse] at hentry
    rcases hentry with hentry | hentry
    · exact ha.range entry hentry
    · obtain ⟨row, hrow, -⟩ := (hiff entry.1 entry.2).mp hentry
      exact h.range entry.2 row hrow
  have hle := Finset.card_le_card hsub
  rw [List.toFinset_card_of_nodup ha.hexes, List.length_map] at hle
  have hlength := (ha.codes.subperm hcodes).length_le
  rw [List.length_map, codes_length] at hlength
  omega

include hjson in
theorem saveMap_refuses (objects : List (ObjectId × Int)) {old map : StoredMap}
    (h : Stored json (rowsAt t id) old seen) (hgrid : sameGrid (some old) map = false)
    (hmany : MAX_CODE + 1 < ((old.terrain.getD []).toFinset ∪ (map.terrain.getD []).toFinset).card)
    (t' : TerrainTables) : t.saveMap json id objects (some old) map ≠ .ok t' := by
  intro hrun
  have hsame : some old ≠ some map := by
    intro hsame
    rw [Option.some.inj hsame, Finset.union_self] at hmany
    rw [Option.some.inj hsame] at hgrid
    simp [sameGrid] at hgrid
  unfold saveMap at hrun
  rw [if_neg hsame, if_neg (by rw [hgrid]; exact Bool.noConfusion)] at hrun
  obtain ⟨maps, row, hrow, -, -, -⟩ := t.saveMapRow_ok id json seen (some old) map h
  obtain ⟨-, hrun⟩ := ok_of_ensure hrun
  rw [hrow] at hrun
  obtain ⟨t₁, hwritten, hrun⟩ := ok_of_bind hrun
  injection hwritten with hwritten
  subst hwritten
  obtain ⟨t₁, hregister, hrun⟩ := ok_of_bind hrun
  injection hregister with hregister
  subst hregister
  obtain ⟨t₂, hsave, -⟩ := ok_of_bind hrun
  obtain ⟨tiles, hterrain, hsave⟩ := ok_of_bind hsave
  have hterrain := ok_of_ofOption hterrain
  obtain ⟨⟨⟩, -, hsave⟩ := ok_of_bind hsave
  obtain ⟨a, hassign, -⟩ := ok_of_bind hsave
  rw [hterrain] at hmany
  refine TerrainTables.assignCodes_refuses { t with maps := maps } id hjson h.coded (fun hex hhex => ?_) hmany a hassign
  obtain ⟨known, hknown, -⟩ := h.savable.tiles
  rw [hknown] at hhex
  obtain ⟨index, hget⟩ := List.mem_iff_getElem?.mp (List.mem_toFinset.mp hhex)
  obtain ⟨-, code, -, -, hmeans⟩ := h.tiles known hknown index hex hget
  exact ⟨code, hmeans⟩

end TerrainTables

end StompyMux.Persistence.Terrain
