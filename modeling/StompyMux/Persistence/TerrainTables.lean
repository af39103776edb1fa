import StompyMux.Library.StableSort
import StompyMux.Map.Hex
import StompyMux.Persistence.Autopilot

-- Terrain grids in the database: a dictionary of codes for each map and a grid of codes.
namespace StompyMux.Persistence.Terrain

open Library Library.Fallible
open StompyMux.Map
open StompyMux.World (ObjectId)

def I16_MAX : Int := 32767

structure BuildingState where
  integrity : Int
  maximumIntegrity : Int
  flags : Int
  regeneration : Int
  deriving DecidableEq

def isI32 (value : Int) : Bool := -2147483648 ≤ value && value ≤ 2147483647

def BuildingState.validate (b : BuildingState) : Except Error Unit := do
  ensure (0 ≤ b.maximumIntegrity && b.maximumIntegrity ≤ I16_MAX && 0 ≤ b.integrity &&
    b.integrity ≤ b.maximumIntegrity) "Invalid building integrity"
  ensure (0 ≤ b.flags && b.flags ≤ 255) "Invalid building flags"
  ensure (isI32 b.regeneration) "Invalid building regeneration factor"

-- The columns of a map's own row, its grid and the damage of its growth.
structure StoredMap where
  membershipExtent : UInt32
  buildingParent : Int
  name : List Char
  width : Int
  height : Int
  gravity : Int
  temperature : Int
  flags : Int
  building : BuildingState
  light : Int
  weather : Int
  cloudBase : Int16
  windDirection : Int
  windSpeed : Int
  terrain : Option (List Hex)
  terrainDamage : OrderedMap Nat UInt16
  deriving DecidableEq

def LIGHTS : Int := 6

def WEATHERS : Int := 18

namespace StoredMap

variable (map : StoredMap)

def dimensionsValid : Bool := 1 ≤ map.width && map.width ≤ 1000 && 1 ≤ map.height && map.height ≤ 1000

def validateTerrain (terrain : List Hex) : Except Error Unit := do
  ensure (0 ≤ map.light && map.light < LIGHTS && 0 ≤ map.weather && map.weather < WEATHERS)
    "Invalid map light or weather"
  ensure map.dimensionsValid "Invalid map dimensions"
  ensure (terrain.length = (map.width * map.height).toNat) "Incomplete map terrain"
  terrain.forM Hex.validateTile
  ensure (0 ≤ map.gravity && map.gravity ≤ 255 && -128 ≤ map.temperature && map.temperature ≤ 127)
    "Invalid map environment"
  ensure (0 ≤ map.windDirection && map.windDirection < 360 && 0 ≤ map.windSpeed &&
    map.windSpeed ≤ I16_MAX) "Invalid map wind"
  ensure (isI32 map.flags) "Invalid map flags"

def validate : Except Error Unit := do
  map.building.validate
  match map.terrain with
  | none => .ok ()
  | some terrain => map.validateTerrain terrain

end StoredMap

-- What the JSON library makes of the layers of a hex, and what the database takes as JSON.
structure HexJson where
  toString : Hex → List Char
  fromStr : List Char → Option Hex
  jsonValid : List Char → Bool

-- The library reads what it wrote, and its text is JSON.
structure HexJson.Faithful (json : HexJson) : Prop where
  read : ∀ hex, json.fromStr (json.toString hex) = some hex
  valid : ∀ hex, json.jsonValid (json.toString hex)

theorem HexJson.Faithful.injective {json : HexJson} (h : json.Faithful) :
    Function.Injective json.toString := by
  intro a b heq
  have hread := h.read a
  rw [heq, h.read b] at hread
  exact (Option.some.inj hread).symm

-- The place of a hex among others, layer by layer; an absent layer comes first.
def hexRank (hex : Hex) : List Nat :=
  [hex.level.toNat, hex.ground.ctorIdx,
    hex.water.elim 0 (fun water => 1 + water.depth.toNat * 3 + water.flow.ctorIdx),
    hex.foliage.elim 0 (fun foliage => 1 + foliage.ctorIdx),
    hex.route.elim 0 (fun route => 1 + route.ctorIdx),
    hex.structure'.elim 0 (fun s => 1 + s.rank),
    hex.condition.elim 0 (fun condition => 1 + condition.ctorIdx),
    hex.overlay.elim 0 (fun overlay => 1 + overlay.ctorIdx)]

theorem layer_injective {T : Type} {rank : T → Nat} (h : Function.Injective rank) :
    Function.Injective (fun layer : Option T => layer.elim 0 (fun value => 1 + rank value)) := by
  intro a b heq
  cases a with
  | none =>
      cases b with
      | none => rfl
      | some b =>
          have heq : 0 = 1 + rank b := heq
          omega
  | some a =>
      cases b with
      | none =>
          have heq : 1 + rank a = 0 := heq
          omega
      | some b =>
          have heq : 1 + rank a = 1 + rank b := heq
          rw [h (by omega : rank a = rank b)]

theorem waterRank_injective :
    Function.Injective (fun water : Water => water.depth.toNat * 3 + water.flow.ctorIdx) := by
  rintro ⟨depth, flow⟩ ⟨depth', flow'⟩ h
  have h : depth.toNat * 3 + flow.ctorIdx = depth'.toNat * 3 + flow'.ctorIdx := h
  have hindex : ∀ flow : Flow, flow.ctorIdx < 3 := by
    intro flow
    cases flow <;> decide
  have hf := hindex flow
  have hf' := hindex flow'
  have hdepth : depth = depth' := UInt8.toNat_inj.mp (by omega)
  have hflow : flow.ctorIdx = flow'.ctorIdx := by omega
  have hflow : flow = flow' := by
    cases flow <;> cases flow' <;> first | rfl | exact absurd hflow (by decide)
  rw [hdepth, hflow]

-- Distinct hexes have distinct places.
theorem hexRank_injective : Function.Injective hexRank := by
  intro a b h
  unfold hexRank at h
  injection h with hlevel h
  injection h with hground h
  injection h with hwater h
  injection h with hfoliage h
  injection h with hroute h
  injection h with hstructure h
  injection h with hcondition h
  injection h with hoverlay _
  have hground : a.ground = b.ground := by
    cases ha : a.ground <;> cases hb : b.ground <;> rw [ha, hb] at hground <;>
      first | rfl | exact absurd hground (by decide)
  have hwater : a.water = b.water := by
    refine layer_injective waterRank_injective ?_
    simpa only [Nat.add_assoc] using hwater
  have hfoliage : a.foliage = b.foliage := layer_injective (by
    intro x y hxy
    cases x <;> cases y <;> first | rfl | exact absurd hxy (by decide)) hfoliage
  have hroute : a.route = b.route := layer_injective (by
    intro x y hxy
    cases x <;> cases y <;> first | rfl | exact absurd hxy (by decide)) hroute
  have hstructure : a.structure' = b.structure' := layer_injective Structure.rank_injective hstructure
  have hcondition : a.condition = b.condition := layer_injective (by
    intro x y hxy
    cases x <;> cases y <;> first | rfl | exact absurd hxy (by decide)) hcondition
  have hoverlay : a.overlay = b.overlay := layer_injective (by
    intro x y hxy
    cases x <;> cases y <;> first | rfl | exact absurd hxy (by decide)) hoverlay
  have hlevel : a.level = b.level := UInt8.toNat_inj.mp hlevel
  cases a
  cases b
  simp only at hlevel hground hwater hfoliage hroute hstructure hcondition hoverlay
  rw [hlevel, hground, hwater, hfoliage, hroute, hstructure, hcondition, hoverlay]

structure TerrainTables where
  maps : Table ObjectId Row
  registrations : Table ObjectId Row
  headers : Table ObjectId Row
  codes : Table (ObjectId × Int) Row
  hexes : Table (ObjectId × Int × Int) Row
  damage : Table (ObjectId × Int) Row
  defaults : String → Row

def ENCODING_VERSION : Int := 2

def MAX_CODE : Nat := 65535

def MAP_COLUMNS : List String :=
  ["map_name", "width", "height", "temperature", "gravity", "cloudbase", "weather", "light",
    "wind_direction", "wind_speed", "reserved", "flags", "cf", "cf_max", "on_map", "build_flag",
    "first_free", "moves", "regen_factor"]

namespace TerrainTables

variable (json : HexJson) (t : TerrainTables)

def mapsSchema : Schema ObjectId where
  name := "btech_maps"
  key := fun id => [("dbref", id)]
  defaults := t.defaults "btech_maps"
  check := fun _ => notNull MAP_COLUMNS

def registrationsSchema : Schema ObjectId where
  name := "btech_special_registrations"
  key := fun id => [("dbref", id)]
  defaults := t.defaults "btech_special_registrations"
  check := fun _ => notNull ["special_type"]

def headersSchema : Schema ObjectId where
  name := "btech_map_terrain"
  key := fun id => [("map_dbref", id)]
  defaults := t.defaults "btech_map_terrain"
  check := fun _ row => notNull ["encoding_version"] row &&
    within ENCODING_VERSION ENCODING_VERSION (row "encoding_version")

def jsonColumn (column : String) (row : Row) : Bool :=
  match row column with
  | .Text value => json.jsonValid value
  | _ => false

def codesSchema : Schema (ObjectId × Int) where
  name := "btech_map_terrain_codes"
  key := fun key => [("map_dbref", key.1), ("code", key.2)]
  defaults := t.defaults "btech_map_terrain_codes"
  check := fun key row => (0 ≤ key.2 && key.2 ≤ 65535) && jsonColumn json "hex" row

def hexesSchema : Schema (ObjectId × Int × Int) where
  name := "btech_map_hexes"
  key := fun key => [("map_dbref", key.1), ("x", key.2.1), ("y", key.2.2)]
  defaults := t.defaults "btech_map_hexes"
  check := fun _ => notNull ["value"]

def damageSchema : Schema (ObjectId × Int) where
  name := "btech_map_terrain_damage"
  key := fun key => [("map_dbref", key.1), ("tile", key.2)]
  defaults := t.defaults "btech_map_terrain_damage"
  check := fun key row => (0 ≤ key.2 && key.2 < 1000000) && notNull ["damage"] row &&
    within 1 65535 (row "damage")

end TerrainTables

def mapFields (map : StoredMap) : Fields :=
  [("first_free", .Integer map.membershipExtent.toNat), ("on_map", .Integer map.buildingParent),
    ("map_name", .Text map.name), ("width", .Integer map.width), ("height", .Integer map.height),
    ("gravity", .Integer map.gravity), ("temperature", .Integer map.temperature),
    ("flags", .Integer map.flags), ("cf", .Integer map.building.integrity),
    ("cf_max", .Integer map.building.maximumIntegrity), ("build_flag", .Integer map.building.flags),
    ("regen_factor", .Integer map.building.regeneration), ("light", .Integer map.light),
    ("weather", .Integer map.weather), ("cloudbase", .Integer map.cloudBase.toInt),
    ("wind_direction", .Integer map.windDirection), ("wind_speed", .Integer map.windSpeed)]

-- A new row also holds the fixed defaults of a map.
def newMapFields (map : StoredMap) : Fields :=
  mapFields map ++ [("reserved", .Integer 0), ("moves", .Integer 0)]

-- The codes of a map's hexes: a later entry of a hex stands first. New ones keep the order in which
-- they were given.
structure Assignment where
  dictionary : List (Hex × Int)
  occupied : List Int
  additions : List (Hex × Int)

def CODES : List Int := (List.range' 0 (MAX_CODE + 1)).map Int.ofNat

def assignCode (a : Assignment) (hex : Hex) : Except Error Assignment :=
  if (a.dictionary.lookup hex).isSome then .ok a
  else do
    let code ← ofOption "Too many terrain combinations" (CODES.find? (fun code => code ∉ a.occupied))
    .ok ⟨(hex, code) :: a.dictionary, code :: a.occupied, a.additions ++ [(hex, code)]⟩

def place (width : Int) (index : Nat) : Int × Int := (index % width, index / width)

def distinctHexes (tiles : List Hex) : List Hex := stableSort hexRank tiles.dedup

namespace TerrainTables

variable (json : HexJson) (t : TerrainTables) (id : ObjectId)

def readHex (row : Row) : Except Error Hex :=
  match row "hex" with
  | .Text value => ofOption "Invalid terrain code" (json.fromStr value)
  | _ => .error ["error occurred while decoding column hex"]

def readEntry (entry : Int × Row) : Except Error (Hex × Int) := do
  let hex ← readHex json entry.2
  .ok (hex, entry.1)

def assignCodes (tiles : List Hex) : Except Error Assignment := do
  let entries ← (rowsOf t.codes id).mapM (readEntry json)
  let start : Assignment := ⟨entries.reverse, entries.map Prod.snd, []⟩
  (distinctHexes tiles).foldlM assignCode start

def headerFields : Fields := [("encoding_version", .Integer ENCODING_VERSION)]

def readHeader : Except Error (Option Fields) :=
  match t.headers.get? id with
  | some header => do
      let version ← getInteger header "encoding_version"
      .ok (some [("encoding_version", .Integer version)])
  | none => .ok none

def saveHeader : Except Error TerrainTables := do
  let old ← t.readHeader id
  let (headers, _) ← row t.headersSchema t.headers id old headerFields
  .ok { t with headers := headers }

def codeFields (hex : Hex) : Fields := [("hex", .Text (json.toString hex))]

def insertCode (codes : Table (ObjectId × Int) Row) (addition : Hex × Int) :
    Except Error (Table (ObjectId × Int) Row) := do
  ensure ((rowsOf codes id).all (fun entry => entry.2 "hex" ≠ .Text (json.toString addition.1)))
    "UNIQUE constraint failed"
  let (codes, _) ← row (t.codesSchema json) codes (id, addition.2) none (codeFields json addition.1)
  .ok codes

def readTile (entry : (Int × Int) × Row) : Except Error ((Int × Int) × Int) := do
  ensure (0 ≤ entry.1.1 && 0 ≤ entry.1.2) "Invalid stored grid coordinate"
  let value ← getInteger entry.2 "value"
  .ok (entry.1, value)

-- The row of each tile: its key, what was stored before the crop, and its code.
def saveTile (previous : List ((Int × Int) × Int)) (width : Int) (dictionary : List (Hex × Int))
    (hexes : Table (ObjectId × Int × Int) Row) (tile : Hex × Nat) :
    Except Error (Table (ObjectId × Int × Int) Row) := do
  let code ← ofOption "no entry found for key" (dictionary.lookup tile.1)
  let at' := place width tile.2
  let old := (previous.lookup at').map (fun code => [("value", Cell.Integer code)])
  let (hexes, _) ← row t.hexesSchema hexes (id, at') old [("value", .Integer code)]
  .ok hexes

-- Rows outside the new rectangle go; the others keep their other columns.
def crop (map : StoredMap) : Table (ObjectId × Int × Int) Row :=
  t.hexes.delete (fun key => key.1 = id && (map.width ≤ key.2.1 || map.height ≤ key.2.2))

def save (map : StoredMap) : Except Error TerrainTables := do
  let tiles ← ofOption "Map requires decoded terrain" map.terrain
  map.validate
  let assignment ← t.assignCodes json id tiles
  let t ← t.saveHeader id
  -- Codes that no tile uses any more stay assigned.
  let codes ← assignment.additions.foldlM (t.insertCode json id) t.codes
  let previous ← (rowsOf t.hexes id).mapM readTile
  let hexes ← tiles.zipIdx.foldlM (t.saveTile id previous map.width assignment.dictionary)
    (t.crop id map)
  .ok { t with codes := codes, hexes := hexes }

def readDamage (entry : Int × Row) : Except Error (Int × Int) := do
  let damage ← getInteger entry.2 "damage"
  .ok (entry.1, damage)

def damageFields (damage : Int) : Fields := [("damage", .Integer damage)]

def saveTileDamage (previous : List (Int × Int)) (damage : Table (ObjectId × Int) Row)
    (entry : Nat × UInt16) : Except Error (Table (ObjectId × Int) Row) := do
  let old := (previous.lookup (entry.1 : Int)).map damageFields
  let (damage, _) ← row t.damageSchema damage (id, (entry.1 : Int)) old (damageFields entry.2.toNat)
  .ok damage

def saveDamage (map : StoredMap) : Except Error TerrainTables := do
  let previous ← (rowsOf t.damage id).mapM readDamage
  let damage ← map.terrainDamage.entries.foldlM (t.saveTileDamage id previous) t.damage
  let gone := previous.filter (fun entry => map.terrainDamage.keys.all (fun tile => (tile : Int) ≠ entry.1))
  let damage := gone.foldl (fun damage entry => damage.delete (fun key => key = (id, entry.1))) damage
  .ok { t with damage := damage }

-- The kinds of map objects with writers of their own.
def OWNED_OBJECTS : List Int := [0, 1, 2, 3, 4, 5, 6, 9]

def saveMapRow (previous : Option StoredMap) (map : StoredMap) : Except Error TerrainTables := do
  let values := if previous.isNone then newMapFields map else mapFields map
  let (maps, _) ← row t.mapsSchema t.maps id (previous.map mapFields) values
  .ok { t with maps := maps }

def registrationFields : Fields := [("special_type", .Text "MAP".toList)]

def register (previous : Option StoredMap) : Except Error TerrainTables :=
  if previous.isNone then do
    let (registrations, _) ← row t.registrationsSchema t.registrations id none registrationFields
    .ok { t with registrations := registrations }
  else .ok t

def sameGrid (previous : Option StoredMap) (map : StoredMap) : Bool :=
  previous.any (fun old => old.terrain = map.terrain && old.width = map.width && old.height = map.height)

-- Save one map whose last saved state is given. The objects are the map objects of the database,
-- each by its map and kind.
def saveMap (objects : List (ObjectId × Int)) (previous : Option StoredMap) (map : StoredMap) :
    Except Error TerrainTables :=
  if previous = some map then .ok t
  else if sameGrid previous map then do
    let t ← t.saveMapRow id previous map
    if previous.any (fun old => old.terrainDamage ≠ map.terrainDamage) then t.saveDamage id map else .ok t
  else do
    ensure (objects.all (fun object => object.1 ≠ id || object.2 ∈ OWNED_OBJECTS))
      s!"Map #{id} has map objects; terrain reload with map objects is not implemented"
    let t ← t.saveMapRow id previous map
    let t ← t.register id previous
    let t ← t.save json id map
    t.saveDamage id map

end TerrainTables

end StompyMux.Persistence.Terrain
