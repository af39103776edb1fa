import StompyMux.Persistence.TerrainCodes

-- A save of one map leaves its grid in the database and the rows of other maps alone.
namespace StompyMux.Persistence.Terrain

open Library Library.Fallible
open StompyMux.Map
open StompyMux.World (ObjectId)

structure MapRows where
  map : Option Row
  registration : Option Row
  header : Option Row
  codes : Int → Option Row
  hexes : Int × Int → Option Row
  damage : Int → Option Row

def MapRows.blank : MapRows := ⟨none, none, none, fun _ => none, fun _ => none, fun _ => none⟩

def rowsAt (t : TerrainTables) (id : ObjectId) : MapRows where
  map := t.maps.get? id
  registration := t.registrations.get? id
  header := t.headers.get? id
  codes := fun code => t.codes.get? (id, code)
  hexes := fun place => t.hexes.get? (id, place)
  damage := fun tile => t.damage.get? (id, tile)

-- A row with the columns of a map, and with those that only a new row sets.
structure MapRow (map : StoredMap) (row : Row) : Prop where
  holds : Holds (mapFields map) row
  reserved : row "reserved" ≠ .Null
  moves : row "moves" ≠ .Null

-- A saved map: it passes its own check, its terrain is there, and its damage is on its grid.
structure Savable (map : StoredMap) : Prop where
  valid : map.validate = .ok ()
  grid : map.terrain.isSome
  damage : ∀ entry ∈ map.terrainDamage.entries, (entry.1 : Int) < map.width * map.height ∧ 1 ≤ entry.2

-- What the rows of a saved map hold.
structure Stored (json : HexJson) (rows : MapRows) (map : StoredMap) (seen : Finset Hex) : Prop where
  savable : Savable map
  row : ∃ row, rows.map = some row ∧ MapRow map row
  header : ∃ row, rows.header = some row ∧ row "encoding_version" = .Integer ENCODING_VERSION
  coded : Dictionary json rows.codes seen
  tiles : ∀ tiles, map.terrain = some tiles → ∀ index hex, tiles[index]? = some hex →
    ∃ row code, rows.hexes (place map.width index) = some row ∧ row "value" = .Integer code ∧
      Means json rows.codes code hex
  grid : ∀ at' row, rows.hexes at' = some row →
    0 ≤ at'.1 ∧ at'.1 < map.width ∧ 0 ≤ at'.2 ∧ at'.2 < map.height
  damage : ∀ tile points, map.terrainDamage.get? tile = some points →
    ∃ row, rows.damage tile = some row ∧ row "damage" = .Integer points.toNat
  damaged : ∀ tile row, rows.damage tile = some row →
    ∃ n points, tile = Int.ofNat n ∧ map.terrainDamage.get? n = some points

-- What the database holds of a map whose last saved state is given.
def Image (json : HexJson) (rows : MapRows) (seen : Finset Hex) : Option StoredMap → Prop
  | none => rows = .blank
  | some map => Stored json rows map seen

section Places

variable (map : StoredMap) (tiles : List Hex) (hlength : tiles.length = (map.width * map.height).toNat)
  (hwidth : 0 < map.width)

theorem place_injective (width : Int) : Function.Injective (place width) := by
  intro i j heq
  obtain ⟨hx, hy⟩ := Prod.mk.inj heq
  have hi := Int.emod_add_mul_ediv (i : Int) width
  have hj := Int.emod_add_mul_ediv (j : Int) width
  rw [hx, hy, hj] at hi
  exact (Int.ofNat.inj hi).symm

include hlength hwidth in
theorem place_inside {index : Nat} (h : index < tiles.length) :
    0 ≤ (place map.width index).1 ∧ (place map.width index).1 < map.width ∧
      0 ≤ (place map.width index).2 ∧ (place map.width index).2 < map.height := by
  have hindex : (index : Int) < map.height * map.width := by
    rw [Int.mul_comm]
    omega
  refine ⟨Int.emod_nonneg _ (by omega), Int.emod_lt_of_pos _ hwidth, ?_, ?_⟩
  · exact Int.ediv_nonneg (Int.natCast_nonneg _) (le_of_lt hwidth)
  · exact Int.ediv_lt_of_lt_mul hwidth hindex

include hlength hwidth in
theorem exists_place {at' : Int × Int}
    (h : 0 ≤ at'.1 ∧ at'.1 < map.width ∧ 0 ≤ at'.2 ∧ at'.2 < map.height) :
    ∃ index, index < tiles.length ∧ place map.width index = at' ∧
      index = (at'.2 * map.width + at'.1).toNat := by
  obtain ⟨x, y⟩ := at'
  obtain ⟨hx, hxw, hy, hyh⟩ := h
  have hx : 0 ≤ x := hx
  have hxw : x < map.width := hxw
  have hy : 0 ≤ y := hy
  have hyh : y + 1 ≤ map.height := hyh
  have hbase : 0 ≤ y * map.width := Int.mul_nonneg hy (le_of_lt hwidth)
  have hrows : (y + 1) * map.width ≤ map.height * map.width :=
    Int.mul_le_mul_of_nonneg_right hyh (le_of_lt hwidth)
  rw [Int.add_mul, Int.one_mul, Int.mul_comm map.height] at hrows
  have hcast : (((y * map.width + x).toNat : Nat) : Int) = x + map.width * y := by
    rw [Int.toNat_of_nonneg (by omega), Int.mul_comm, Int.add_comm]
  refine ⟨(y * map.width + x).toNat, by omega, ?_, rfl⟩
  unfold place
  rw [hcast, Int.add_mul_emod_self_left, Int.add_mul_ediv_left _ _ (by omega),
    Int.emod_eq_of_lt hx hxw, Int.ediv_eq_zero_of_lt hx hxw, Int.zero_add]

end Places

namespace TerrainTables

variable (t : TerrainTables) (id : ObjectId)

variable (map : StoredMap) (row : Row)

theorem mapFields_notNull (hreserved : row "reserved" ≠ .Null)
    (hmoves : row "moves" ≠ .Null) : notNull MAP_COLUMNS (assign (mapFields map) row) := by
  have hfields : ∀ field ∈ mapFields map, field.2 ≠ .Null := by
    simp [mapFields]
  have hcolumn : ∀ column ∈ MAP_COLUMNS, column ∈ (mapFields map).map Prod.fst ∨ row column ≠ .Null := by
    simp [MAP_COLUMNS, mapFields, hreserved, hmoves]
  refine List.all_eq_true.mpr fun column hmem => decide_eq_true ?_
  cases hlookup : (mapFields map).lookup column with
  | some value =>
      rw [assign_of_lookup _ _ _ _ hlookup]
      exact hfields _ (mem_of_lookup _ _ _ hlookup)
  | none =>
      rw [assign, hlookup, Option.getD_none]
      refine (hcolumn column hmem).resolve_left fun hin => ?_
      obtain ⟨field, hfield, rfl⟩ := List.mem_map.mp hin
      have habsent := List.lookup_eq_none_iff.mp hlookup field hfield
      simp at habsent

theorem newMapFields_eq : assign (newMapFields map) row =
    assign (mapFields map) (assign [("reserved", .Integer 0), ("moves", .Integer 0)] row) := by
  funext column
  rw [assign, newMapFields, List.lookup_append, assign, assign]
  cases (mapFields map).lookup column with
  | none => rfl
  | some value => rfl

theorem mapRow_assign (hreserved : row "reserved" ≠ .Null)
    (hmoves : row "moves" ≠ .Null) : MapRow map (assign (mapFields map) row) := by
  refine ⟨holds_assign _ _, ?_, ?_⟩
  · rwa [assign_of_not_mem _ _ "reserved" (by simp [mapFields])]
  · rwa [assign_of_not_mem _ _ "moves" (by simp [mapFields])]

theorem mapFields_keys : ((mapFields map).map Prod.fst).Nodup := by
  have hkeys : (mapFields map).map Prod.fst = ["first_free", "on_map", "map_name", "width", "height",
      "gravity", "temperature", "flags", "cf", "cf_max", "build_flag", "regen_factor", "light", "weather",
      "cloudbase", "wind_direction", "wind_speed"] := rfl
  rw [hkeys]
  decide

theorem newMapFields_keys : ((newMapFields map).map Prod.fst).Nodup := by
  rw [newMapFields, List.map_append]
  refine List.nodup_append.mpr ⟨mapFields_keys map, by decide, ?_⟩
  simp [mapFields]

theorem saveMapRow_ok (json : HexJson) (seen : Finset Hex) (previous : Option StoredMap) (map : StoredMap)
    (h : Image json (rowsAt t id) seen previous) :
    ∃ maps row, t.saveMapRow id previous map = .ok { t with maps := maps } ∧ maps.get? id = some row ∧
      MapRow map row ∧ ∀ other, other ≠ id → maps.get? other = t.maps.get? other := by
  have hwrite : ∀ values : Fields, (values.map Prod.fst).Nodup →
      t.mapsSchema.check id (assign values (stored t.mapsSchema t.maps id)) →
      Stores (previous.map mapFields) (t.maps.get? id) →
      values = (if previous.isNone then newMapFields map else mapFields map) →
      MapRow map (assign values (stored t.mapsSchema t.maps id)) →
      ∃ maps row, t.saveMapRow id previous map = .ok { t with maps := maps } ∧ maps.get? id = some row ∧
        MapRow map row ∧ ∀ other, other ≠ id → maps.get? other = t.maps.get? other := by
    intro values hnodup hcheck hstores hvalues hrow
    obtain ⟨maps, changed, hwrite, hget⟩ := row_ok t.mapsSchema t.maps id _ values hnodup hcheck hstores
    refine ⟨maps, _, ?_, (hget id).trans (if_pos rfl), hrow,
      fun other hother => (hget other).trans (if_neg hother)⟩
    rw [hvalues] at hwrite
    exact bind_ok hwrite rfl
  cases previous with
  | none =>
      have hnone : t.maps.get? id = none := congrArg MapRows.map h
      have hstored : MapRow map (assign (newMapFields map) (stored t.mapsSchema t.maps id)) ∧
          notNull MAP_COLUMNS (assign (newMapFields map) (stored t.mapsSchema t.maps id)) := by
        rw [newMapFields_eq]
        exact ⟨mapRow_assign map _ Cell.noConfusion Cell.noConfusion,
          mapFields_notNull map _ Cell.noConfusion Cell.noConfusion⟩
      exact hwrite (newMapFields map) (newMapFields_keys map) hstored.2 (by rw [hnone]; trivial) rfl
        hstored.1
  | some old =>
      obtain ⟨row, hrow, hold⟩ := h.row
      have hrow : t.maps.get? id = some row := hrow
      have hstored : stored t.mapsSchema t.maps id = row := by
        rw [stored, hrow]
        rfl
      refine hwrite (mapFields map) (mapFields_keys map) ?_ (by rw [hrow]; exact hold.holds) rfl ?_
      · rw [hstored]
        exact mapFields_notNull map row hold.reserved hold.moves
      · rw [hstored]
        exact mapRow_assign map row hold.reserved hold.moves

theorem register_ok (previous : Option StoredMap)
    (h : previous = none → t.registrations.get? id = none) :
    ∃ registrations, t.register id previous = .ok { t with registrations := registrations } ∧
      ∀ other, other ≠ id → registrations.get? other = t.registrations.get? other := by
  cases previous with
  | some old => exact ⟨t.registrations, rfl, fun other _ => rfl⟩
  | none =>
      obtain ⟨registrations, changed, hrow, hget⟩ := row_ok t.registrationsSchema t.registrations id none
        registrationFields (List.nodup_singleton _) rfl (by rw [h rfl]; trivial)
      exact ⟨registrations, bind_ok hrow rfl,
        fun other hother => (hget other).trans (if_neg hother)⟩

theorem readHeader_ok
    (h : ∀ row, t.headers.get? id = some row → row "encoding_version" = .Integer ENCODING_VERSION) :
    ∃ old, t.readHeader id = .ok old ∧ Stores old (t.headers.get? id) := by
  unfold readHeader
  cases hget : t.headers.get? id with
  | none => exact ⟨none, rfl, trivial⟩
  | some row =>
      have hversion := h row hget
      have hread : getInteger row "encoding_version" = .ok ENCODING_VERSION := by
        unfold getInteger
        rw [hversion]
      refine ⟨some [("encoding_version", .Integer ENCODING_VERSION)], bind_ok hread rfl, ?_⟩
      refine holds_of_read _ row fun field hfield => ?_
      rw [List.mem_singleton.mp hfield]
      exact hversion.symm

theorem saveHeader_ok
    (h : ∀ row, t.headers.get? id = some row → row "encoding_version" = .Integer ENCODING_VERSION) :
    ∃ headers row, t.saveHeader id = .ok { t with headers := headers } ∧ headers.get? id = some row ∧
      row "encoding_version" = .Integer ENCODING_VERSION ∧
      ∀ other, other ≠ id → headers.get? other = t.headers.get? other := by
  obtain ⟨old, hread, hstores⟩ := t.readHeader_ok id h
  obtain ⟨headers, changed, hrow, hget⟩ := row_ok t.headersSchema t.headers id old headerFields
    (List.nodup_singleton _) rfl hstores
  refine ⟨headers, assign headerFields (stored t.headersSchema t.headers id), ?_,
    (hget id).trans (if_pos rfl), rfl, fun other hother => (hget other).trans (if_neg hother)⟩
  exact bind_ok hread (bind_ok hrow rfl)

section Tiles

variable (map : StoredMap) (tiles : List Hex) (hlength : tiles.length = (map.width * map.height).toNat)
  (hwidth : 0 < map.width)

-- What is stored of a grid can be read.
def Readable : Prop := ∀ at' row, t.hexes.get? (id, at') = some row →
  0 ≤ at'.1 ∧ 0 ≤ at'.2 ∧ ∃ code, row "value" = .Integer code

structure TilesSaved (dictionary : List (Hex × Int)) (hexes : Table (ObjectId × Int × Int) Row) : Prop where
  tiles : ∀ index hex, tiles[index]? = some hex → ∃ row code,
    hexes.get? (id, place map.width index) = some row ∧ row "value" = .Integer code ∧
      dictionary.lookup hex = some code
  grid : ∀ at' row, hexes.get? (id, at') = some row →
    0 ≤ at'.1 ∧ at'.1 < map.width ∧ 0 ≤ at'.2 ∧ at'.2 < map.height
  others : ∀ other, other ≠ id → ∀ at', hexes.get? (other, at') = t.hexes.get? (other, at')

def tileKey (tile : Hex × Nat) : ObjectId × Int × Int := (id, place map.width tile.2)

def storedValue (row : Row) : Int :=
  match row "value" with
  | .Integer code => code
  | _ => 0

include hlength hwidth in
theorem saveTiles_ok (dictionary : List (Hex × Int)) (hread : t.Readable id)
    (hcode : ∀ hex ∈ tiles, ∃ code, dictionary.lookup hex = some code) :
    ∃ previous hexes, (rowsOf t.hexes id).mapM readTile = .ok previous ∧
      tiles.zipIdx.foldlM (t.saveTile id previous map.width dictionary) (t.crop id map) = .ok hexes ∧
      t.TilesSaved id map tiles dictionary hexes := by
  obtain ⟨previous, hprevious, -, hlookup⟩ := readRows_ok t.hexes id readTile (fun _ row => storedValue row)
    (by
      intro at' row hrow
      obtain ⟨hx, hy, code, hvalue⟩ := hread at' row hrow
      have hget : getInteger row "value" = .ok code := by
        unfold getInteger
        rw [hvalue]
      have hcode : storedValue row = code := by
        unfold storedValue
        rw [hvalue]
      rw [hcode]
      exact bind_ok (ensure_ok (by simp [hx, hy])) (bind_ok hget rfl))
  let before := fun (tile : Hex × Nat) =>
    (previous.lookup (place map.width tile.2)).map (fun code => [("value", Cell.Integer code)])
  let after := fun (tile : Hex × Nat) => [("value", Cell.Integer ((dictionary.lookup tile.1).getD 0))]
  have hindex : ∀ tile ∈ tiles.zipIdx, tile.2 < tiles.length ∧ tiles[tile.2]? = some tile.1 := by
    rintro ⟨hex, index⟩ hmem
    have hget := List.mem_zipIdx_iff_getElem?.mp hmem
    exact ⟨(List.getElem?_eq_some_iff.mp hget).1, hget⟩
  have hinside : ∀ tile ∈ tiles.zipIdx, 0 ≤ (place map.width tile.2).1 ∧
      (place map.width tile.2).1 < map.width ∧ 0 ≤ (place map.width tile.2).2 ∧
      (place map.width tile.2).2 < map.height :=
    fun tile htile => place_inside map tiles hlength hwidth (hindex tile htile).1
  have hkeys : (tiles.zipIdx.map (tileKey id map)).Nodup := by
    have hnodup : (tiles.zipIdx.map Prod.snd).Nodup := by
      rw [List.zipIdx_map_snd]
      exact List.nodup_range'
    have hmap := hnodup.map (f := fun index => (id, place map.width index))
      (fun i j heq => place_injective map.width (Prod.mk.inj heq).2)
    rwa [List.map_map] at hmap
  have hcrop : ∀ tile ∈ tiles.zipIdx,
      (t.crop id map).get? (tileKey id map tile) = t.hexes.get? (tileKey id map tile) := by
    intro tile htile
    obtain ⟨-, hx, -, hy⟩ := hinside tile htile
    rw [crop, Table.get?_delete, if_neg]
    show ¬ (decide (id = id) && (decide (map.width ≤ (place map.width tile.2).1) ||
      decide (map.height ≤ (place map.width tile.2).2))) = true
    rw [decide_eq_false (not_le.mpr hx), decide_eq_false (not_le.mpr hy)]
    simp
  obtain ⟨hexes, hrun, hwritten, hother⟩ := writeRows_ok t.hexesSchema (tileKey id map) before after
    (t.crop id map, false) tiles.zipIdx hkeys (fun _ _ => List.nodup_singleton _) (fun _ _ => rfl)
    (by
      intro tile htile
      show Stores ((previous.lookup (place map.width tile.2)).map _) _
      rw [hlookup, hcrop tile htile]
      show Stores (((t.hexes.get? (tileKey id map tile)).map storedValue).map _) _
      cases hget : t.hexes.get? (tileKey id map tile) with
      | none => trivial
      | some row =>
          obtain ⟨-, -, code, hvalue⟩ := hread _ row hget
          refine holds_of_read _ row fun field hfield => ?_
          rw [List.mem_singleton.mp hfield]
          show Cell.Integer (storedValue row) = row "value"
          unfold storedValue
          rw [hvalue])
  have hfold : tiles.zipIdx.foldlM (t.saveTile id previous map.width dictionary) (t.crop id map) = .ok hexes.1 := by
    refine foldlM_project _ _ Prod.fst _ (fun tile htile b c hc => ?_) _ _ hrun
    obtain ⟨code, hlook⟩ := hcode tile.1 (List.mem_of_getElem? (hindex tile htile).2)
    refine bind_ok (ofOption_ok hlook) ?_
    have hafter : after tile = [("value", Cell.Integer code)] := by
      show [("value", Cell.Integer ((dictionary.lookup tile.1).getD 0))] = _
      rw [hlook]
      rfl
    obtain ⟨changed, hrow, -⟩ := ok_of_writeRow _ _ _ _ hc
    rw [hafter] at hrow
    exact bind_ok hrow rfl
  have houtside : ∀ other at', (∀ index, index < tiles.length → (other, at') ≠ (id, place map.width index)) →
      hexes.1.get? (other, at') = (t.crop id map).get? (other, at') := by
    intro other at' hout
    refine hother _ fun hmem => ?_
    obtain ⟨tile, htile, heq⟩ := List.mem_map.mp hmem
    exact hout tile.2 (hindex tile htile).1 heq.symm
  refine ⟨previous, hexes.1, hprevious, hfold, fun index hex hget => ?_, fun at' row hrow => ?_,
    fun other hne at' => ?_⟩
  · obtain ⟨code, hlook⟩ := hcode hex (List.mem_of_getElem? hget)
    have htile : (hex, index) ∈ tiles.zipIdx := List.mem_zipIdx_iff_getElem?.mpr hget
    refine ⟨_, code, hwritten _ htile, ?_, hlook⟩
    show Cell.Integer ((dictionary.lookup hex).getD 0) = _
    rw [hlook]
    rfl
  · by_cases hin : ∃ index, index < tiles.length ∧ place map.width index = at'
    · obtain ⟨index, hlt, rfl⟩ := hin
      exact place_inside map tiles hlength hwidth hlt
    · rw [houtside id at' fun index hlt heq => hin ⟨index, hlt, (Prod.mk.inj heq).2.symm⟩, crop,
        Table.get?_delete] at hrow
      split at hrow
      · contradiction
      · rename_i hkeep
        obtain ⟨hx, hy, -⟩ := hread at' row hrow
        simp at hkeep
        omega
  · rw [houtside other at' fun index _ heq => hne (Prod.mk.inj heq).1, crop, Table.get?_delete, if_neg]
    simp [hne]

end Tiles

section Damage

def storedDamage (row : Row) : Int :=
  match row "damage" with
  | .Integer damage => damage
  | _ => 0

variable (map : StoredMap)

structure DamageSaved (damage : Table (ObjectId × Int) Row) : Prop where
  written : ∀ tile points, map.terrainDamage.get? tile = some points →
    ∃ row, damage.get? (id, (tile : Int)) = some row ∧ row "damage" = .Integer points.toNat
  damaged : ∀ tile row, damage.get? (id, tile) = some row →
    ∃ n points, tile = Int.ofNat n ∧ map.terrainDamage.get? n = some points
  others : ∀ other, other ≠ id → ∀ tile, damage.get? (other, tile) = t.damage.get? (other, tile)

theorem saveDamage_ok
    (hread : ∀ tile row, t.damage.get? (id, tile) = some row → ∃ points, row "damage" = .Integer points)
    (hdamage : ∀ entry ∈ map.terrainDamage.entries, entry.1 < 1000000 ∧ 1 ≤ entry.2) :
    ∃ damage, t.saveDamage id map = .ok { t with damage := damage } ∧ t.DamageSaved id map damage := by
  obtain ⟨previous, hprevious, hkeysPrevious, hlookup⟩ := readRows_ok t.damage id readDamage
    (fun _ row => storedDamage row)
    (by
      intro tile row hrow
      obtain ⟨points, hvalue⟩ := hread tile row hrow
      have hget : getInteger row "damage" = .ok points := by
        unfold getInteger
        rw [hvalue]
      have hpoints : storedDamage row = points := by
        unfold storedDamage
        rw [hvalue]
      rw [hpoints]
      exact bind_ok hget rfl)
  let key := fun (entry : Nat × UInt16) => (id, (entry.1 : Int))
  let before := fun (entry : Nat × UInt16) => (previous.lookup (entry.1 : Int)).map damageFields
  let after := fun (entry : Nat × UInt16) => damageFields entry.2.toNat
  have hkeys : (map.terrainDamage.entries.map key).Nodup := by
    have hinj : Function.Injective (fun (tile : Nat) => (id, (tile : Int))) :=
      fun i j heq => Int.ofNat.inj (Prod.mk.inj heq).2
    have hmap := map.terrainDamage.keys_nodup.map hinj
    rwa [OrderedMap.keys, List.map_map] at hmap
  have hcheck : ∀ entry ∈ map.terrainDamage.entries,
      t.damageSchema.check (key entry) (assign (after entry) (stored t.damageSchema t.damage (key entry))) := by
    intro entry hentry
    obtain ⟨htile, hpoints⟩ := hdamage entry hentry
    have hlow : 1 ≤ entry.2.toNat := UInt16.le_iff_toNat_le.mp hpoints
    have hhigh := entry.2.toNat_lt
    have hwithin : within 1 65535 (.Integer entry.2.toNat) = true := decide_eq_true (by omega)
    unfold damageSchema
    simp only [Bool.and_eq_true, decide_eq_true_eq]
    have hkey : (key entry).2 = (entry.1 : Int) := rfl
    exact ⟨⟨⟨by omega, by omega⟩, rfl⟩, hwithin⟩
  have himage : ∀ entry ∈ map.terrainDamage.entries, Stores (before entry) (t.damage.get? (key entry)) := by
    intro entry _
    show Stores ((previous.lookup (entry.1 : Int)).map damageFields) (t.damage.get? (id, (entry.1 : Int)))
    rw [hlookup]
    cases hget : t.damage.get? (id, (entry.1 : Int)) with
    | none => trivial
    | some row =>
        obtain ⟨points, hvalue⟩ := hread _ row hget
        refine holds_of_read _ row fun field hfield => ?_
        rw [List.mem_singleton.mp hfield]
        show Cell.Integer (storedDamage row) = row "damage"
        unfold storedDamage
        rw [hvalue]
  obtain ⟨damage, hrun, hwritten, hother⟩ := writeRows_ok t.damageSchema key before after
    (t.damage, false) map.terrainDamage.entries hkeys (fun _ _ => List.nodup_singleton _) hcheck himage
  have hfold : map.terrainDamage.entries.foldlM (t.saveTileDamage id previous) t.damage = .ok damage.1 := by
    refine foldlM_project _ _ Prod.fst _ (fun entry _ b c hc => ?_) _ _ hrun
    obtain ⟨changed, hrow, -⟩ := ok_of_writeRow _ _ _ _ hc
    exact bind_ok hrow rfl
  let gone := previous.filter
    (fun entry => map.terrainDamage.keys.all (fun tile => (tile : Int) ≠ entry.1))
  refine ⟨gone.foldl (fun damage entry => damage.delete (fun key => key = (id, entry.1))) damage.1,
    bind_ok hprevious (bind_ok hfold rfl), fun tile points hget => ?_,
    fun tile row hrow => ?_, fun other hne tile => ?_⟩
  · have hentry := (map.terrainDamage.get?_eq_some_iff tile points).mp hget
    refine ⟨assign (after (tile, points)) (stored t.damageSchema t.damage (key (tile, points))), ?_, rfl⟩
    · rw [get?_deleteKeys (fun entry : Int × Int => (id, entry.1)), if_neg]
      · exact hwritten _ hentry
      · intro hmem
        obtain ⟨entry, hgone, heq⟩ := List.mem_map.mp hmem
        have hall := List.all_eq_true.mp (List.mem_filter.mp hgone).2 tile
          (List.mem_map.mpr ⟨_, hentry, rfl⟩)
        exact of_decide_eq_true hall (Prod.mk.inj heq).2.symm
  · rw [get?_deleteKeys (fun entry : Int × Int => (id, entry.1))] at hrow
    split at hrow
    · contradiction
    · rename_i hkept
      by_cases hin : ∃ entry ∈ map.terrainDamage.entries, tile = (entry.1 : Int)
      · obtain ⟨entry, hentry, rfl⟩ := hin
        exact ⟨entry.1, entry.2, rfl, (map.terrainDamage.get?_eq_some_iff _ _).mpr hentry⟩
      · -- A row that no tile has now was stored before, so it has gone.
        have hout : (id, tile) ∉ map.terrainDamage.entries.map key := fun hmem => by
          obtain ⟨entry, hentry, heq⟩ := List.mem_map.mp hmem
          exact hin ⟨entry, hentry, (Prod.mk.inj heq).2.symm⟩
        rw [hother _ hout] at hrow
        have hlook : previous.lookup tile = some (storedDamage row) := by
          rw [hlookup, hrow]
          rfl
        refine absurd (List.mem_map.mpr ⟨(tile, storedDamage row), List.mem_filter.mpr ⟨?_, ?_⟩, rfl⟩) hkept
        · exact (lookup_eq_some_iff_mem hkeysPrevious _ _).mp hlook
        · refine List.all_eq_true.mpr fun n hn => decide_eq_true fun heq => ?_
          obtain ⟨entry, hentry, hn⟩ := List.mem_map.mp hn
          exact hin ⟨entry, hentry, by rw [hn]; exact heq.symm⟩
  · rw [get?_deleteKeys (fun entry : Int × Int => (id, entry.1)), if_neg]
    · exact hother _ fun hmem => by
        obtain ⟨entry, -, heq⟩ := List.mem_map.mp hmem
        exact hne (Prod.mk.inj heq).1.symm
    · intro hmem
      obtain ⟨entry, -, heq⟩ := List.mem_map.mp hmem
      exact hne (Prod.mk.inj heq).1.symm

end Damage

end TerrainTables

end StompyMux.Persistence.Terrain
