import StompyMux.Library.Grid
import StompyMux.Library.OrderedMap
import StompyMux.Library.Toml
import StompyMux.Map.Asset

-- The settings, grids and lists of a map file, and how they are taken from its table.
namespace StompyMux.Map

open Library.Fallible Library.Toml

structure StructureEntry where
  kind : StructureKind
  class' : Option ConstructionClass
  cf : Option UInt16
  height : UInt8
  hexes : List (UInt16 × UInt16)
  deriving DecidableEq

def StructureEntry.structure' (entry : StructureEntry) : Except Error Structure := do
  let class' := entry.class'.getD .Medium
  let full := class'.constructionFactor
  let cf := entry.cf.getD full
  let label := Hex.lowercase class'.label
  ensure (1 ≤ cf && cf ≤ full)
    s!"structure cf {cf} must be between 1 and {full} for a {label} structure"
  ensure (entry.height ≤ MAX_HEIGHT) s!"structure height {entry.height} is too high"
  ensure (!entry.hexes.isEmpty) "a structure must cover at least one hex"
  pure ⟨entry.kind, class', entry.height, cf⟩

structure MapFile where
  gravity : UInt8
  temperature : Int8
  light : Option Light
  weather : Option Weather
  wind : Option Wind
  flags : Option (List MapFlag)
  terrain : List Char
  level : List Char
  depth : Option (List Char)
  flow : Option (List Char)
  foliage : Option (List Char)
  route : Option (List Char)
  condition : Option (List Char)
  overlay : Option (List Char)
  structures : List StructureEntry
  pointsOfInterest : List MapPointOfInterest
  regions : List MapRegion
  deriving DecidableEq

def u8 : Value → Option UInt8
  | .integer n => if 0 ≤ n ∧ n < 256 then some (UInt8.ofNat n.toNat) else none
  | _ => none

def i8 : Value → Option Int8
  | .integer n => if -128 ≤ n ∧ n < 128 then some (Int8.ofInt n) else none
  | _ => none

def u16 : Value → Option UInt16
  | .integer n => if 0 ≤ n ∧ n < 65536 then some (UInt16.ofNat n.toNat) else none
  | _ => none

def text : Value → Option (List Char)
  | .string text => some text
  | _ => none

def variantOf {T : Type} (all : List T) (variant : T → String) (value : Value) : Option T :=
  (text value).bind (named all variant)

def listOf {T : Type} (decode : Value → Option T) : Value → Option (List T)
  | .array items => items.mapM decode
  | _ => none

def spot : Value → Option (UInt16 × UInt16)
  | .array [x, y] => do
      let x ← u16 x
      let y ← u16 y
      some (x, y)
  | _ => none

def tableOf (keys : List String) : Value → Option Table
  | .table entries => if entries.all (fun entry => keys.contains entry.1) then some entries else none
  | _ => none

def required {T : Type} (table : Table) (key : String) (decode : Value → Option T) : Option T :=
  (table.lookup key).bind decode

def defaulted {T : Type} (table : Table) (key : String) (default' : T) (decode : Value → Option T) :
    Option T :=
  match table.lookup key with
  | none => some default'
  | some value => decode value

def optional {T : Type} (table : Table) (key : String) (decode : Value → Option T) :
    Option (Option T) := defaulted table key none (fun value => (decode value).map some)

def Wind.deserialize (value : Value) : Option Wind := do
  let table ← tableOf ["direction", "speed"] value
  let direction ← required table "direction" u16
  let speed ← required table "speed" u16
  some ⟨direction, speed⟩

def StructureEntry.deserialize (value : Value) : Option StructureEntry := do
  let table ← tableOf ["kind", "class", "cf", "height", "hexes"] value
  let kind ← required table "kind" (variantOf StructureKind.ALL StructureKind.variant)
  let class' ← optional table "class" (variantOf ConstructionClass.ALL ConstructionClass.variant)
  let cf ← optional table "cf" u16
  let height ← required table "height" u8
  let hexes ← required table "hexes" (listOf spot)
  some ⟨kind, class', cf, height, hexes⟩

def MapPointOfInterest.deserialize (value : Value) : Option MapPointOfInterest := do
  let table ← tableOf ["type", "name", "x", "y", "elevation"] value
  let kind ← required table "type" text
  let name ← required table "name" text
  let x ← required table "x" u16
  let y ← required table "y" u16
  let elevation ← optional table "elevation" i8
  some ⟨kind, name, x, y, elevation⟩

def MapRegion.deserialize (value : Value) : Option MapRegion := do
  let table ← tableOf ["type", "name", "corners"] value
  let kind ← required table "type" text
  let name ← required table "name" text
  let corners ← required table "corners" (listOf spot)
  some ⟨kind, name, corners⟩

namespace MapFile

def keys : List String :=
  ["gravity", "temperature", "light", "weather", "wind", "flags", "terrain", "level", "depth", "flow",
    "foliage", "route", "condition", "overlay", "structures", "points_of_interest", "regions"]

def deserialize (table : Table) : Option MapFile := do
  let table ← tableOf keys (.table table)
  let gravity ← defaulted table "gravity" 100 u8
  let temperature ← defaulted table "temperature" 20 i8
  let light ← optional table "light" (variantOf Light.ALL Light.variant)
  let weather ← optional table "weather" (variantOf Weather.ALL Weather.variant)
  let wind ← optional table "wind" Wind.deserialize
  let flags ← optional table "flags" (listOf (variantOf MapFlag.ALL MapFlag.variant))
  let terrain ← required table "terrain" text
  let level ← required table "level" text
  let depth ← optional table "depth" text
  let flow ← optional table "flow" text
  let foliage ← optional table "foliage" text
  let route ← optional table "route" text
  let condition ← optional table "condition" text
  let overlay ← optional table "overlay" text
  let structures ← defaulted table "structures" [] (listOf StructureEntry.deserialize)
  let pointsOfInterest ← defaulted table "points_of_interest" []
    (listOf MapPointOfInterest.deserialize)
  let regions ← defaulted table "regions" [] (listOf MapRegion.deserialize)
  some ⟨gravity, temperature, light, weather, wind, flags, terrain, level, depth, flow, foliage, route,
    condition, overlay, structures, pointsOfInterest, regions⟩

end MapFile

end StompyMux.Map

-- Map files as text: one grid per layer, and a list of structures.
namespace StompyMux.Map

open Library Library.Fallible Library.Text Library.Toml Library.Grid

def MAX_DIMENSION : Nat := 1000

-- The ground of a terrain symbol; water has none.
def ground : Char → Option (Option Ground)
  | '~' => some none
  | '.' => some (some .Clear)
  | '_' => some (some .Pavement)
  | '%' => some (some .Rough)
  | '^' => some (some .UltraRough)
  | ';' => some (some .Rubble)
  | '!' => some (some .UltraRubble)
  | '}' => some (some .Sand)
  | '{' => some (some .Tundra)
  | 'w' => some (some .Swamp)
  | 'm' => some (some .MagmaCrust)
  | 'M' => some (some .Magma)
  | '$' => some (some .HeavyIndustrial)
  | _ => none

def groundSymbol (hex : Hex) : Char :=
  if hex.water.isSome then '~'
  else
    match hex.ground with
    | .Clear => '.'
    | .Pavement => '_'
    | .Rough => '%'
    | .UltraRough => '^'
    | .Rubble => ';'
    | .UltraRubble => '!'
    | .Sand => '}'
    | .Tundra => '{'
    | .Swamp => 'w'
    | .MagmaCrust => 'm'
    | .Magma => 'M'
    | .HeavyIndustrial => '$'

-- The symbols of an optional grid.
class LayerSymbol (T : Type) where
  GRID : String
  SYMBOLS : List (T × Char)

instance : LayerSymbol Flow where
  GRID := "flow"
  SYMBOLS := [(.Rapids, 'r'), (.Torrent, 't')]

instance : LayerSymbol Foliage where
  GRID := "foliage"
  SYMBOLS := [(.LightWoods, Char.ofNat 96), (.HeavyWoods, '"'), (.UltraHeavyWoods, 'W'),
    (.LightJungle, 'j'), (.HeavyJungle, 'J'), (.UltraHeavyJungle, 'U'), (.PlantedFields, 'f')]

instance : LayerSymbol Route where
  GRID := "route"
  SYMBOLS := [(.PavedRoad, '#'), (.GravelRoad, 'g'), (.DirtRoad, 'd'), (.Rail, '|')]

instance : LayerSymbol Condition where
  GRID := "condition"
  SYMBOLS := [(.Ice, '-'), (.ThinSnow, '*'), (.DeepSnow, '+'), (.Mud, ',')]

instance : LayerSymbol DecorationKind where
  GRID := "overlay"
  SYMBOLS := [(.Fire, '&'), (.Smoke, ':'), (.HeavySmoke, '?')]

section

variable {T : Type} [LayerSymbol T]

def decode (symbol : Char) : Option (Option T) :=
  if symbol = '.' then some none
  else (LayerSymbol.SYMBOLS.find? (fun entry : T × Char => entry.2 = symbol)).map
    (fun entry => some entry.1)

def encode [DecidableEq T] : Option T → Char
  | none => '.'
  | some value =>
      ((LayerSymbol.SYMBOLS.find? (fun entry : T × Char => entry.1 = value)).map Prod.snd).getD '.'

end

def toDigit (radix : Nat) (symbol : Char) : Option UInt8 :=
  (digitValue radix symbol).map UInt8.ofNat

def fromDigit (radix value : Nat) : Option Char :=
  if value < radix then some (Char.ofNat (if value < 10 then 48 + value else 87 + value)) else none

def height (symbol : Char) : Option UInt8 := toDigit 36 symbol

def heightSymbol (value : UInt8) : Except Error Char :=
  ofOption "height within grid range" (fromDigit 36 value.toNat)

def grid (name : String) (text : List Char) : Except Error (List (List Char)) := do
  let rows := lines text
  ensure (!rows.isEmpty) s!"{name} grid is empty"
  let width := (rows.headD []).length
  ensure (0 < width) s!"{name} grid has an empty first row"
  rows.zipIdx.forM (fun (row, y) =>
    ensure (row.length = width)
      s!"{name} grid row {y} has {row.length} hexes; the first row has {width}")
  ensure (width ≤ MAX_DIMENSION && rows.length ≤ MAX_DIMENSION)
    s!"{name} grid is larger than {MAX_DIMENSION}x{MAX_DIMENSION}"
  pure rows

def matchingGrid (name : String) (text : Option (List Char)) (width height : Nat) :
    Except Error (Option (List (List Char))) :=
  match text with
  | none => pure none
  | some text => do
      let rows ← grid name text
      let first := (rows.headD []).length
      ensure (rows.length = height && first = width)
        s!"{name} grid is {first}x{rows.length}; the terrain grid is {width}x{height}"
      pure (some rows)

def symbolAt (rows : List (List Char)) (x y : Nat) : Except Error Char :=
  ofOption "index out of bounds" ((rows[y]?).bind (fun row => row[x]?))

structure LayerGrid (T : Type) where
  rows : Option (List (List Char))

namespace LayerGrid

variable {T : Type} [LayerSymbol T]

def new (text : Option (List Char)) (width height : Nat) : Except Error (LayerGrid T) := do
  let rows ← matchingGrid (LayerSymbol.GRID T) text width height
  pure ⟨rows⟩

def at' (grid : LayerGrid T) (x y : Nat) : Except Error (Option T) :=
  match grid.rows with
  | none => pure none
  | some rows => do
      let symbol ← symbolAt rows x y
      ofOption s!"unknown {LayerSymbol.GRID T} symbol {symbol.quote} at {x},{y}" (decode symbol)

end LayerGrid

structure Grids where
  terrain : List (List Char)
  level : List (List Char)
  depth : Option (List (List Char))
  flow : LayerGrid Flow
  foliage : LayerGrid Foliage
  route : LayerGrid Route
  condition : LayerGrid Condition
  overlay : LayerGrid DecorationKind

def waterAt (ground : Option Ground) (depth : Option Char) (x y : Nat) :
    Except Error (Option Water) :=
  match ground, depth with
  | some _, none => pure none
  | some _, some '.' => pure none
  | some _, some _ => .error [s!"depth given for a hex without water at {x},{y}"]
  | none, none => .error [s!"missing depth for water at {x},{y}"]
  | none, some '.' => .error [s!"missing depth for water at {x},{y}"]
  | none, some depth => do
      let levels ← ofOption s!"invalid depth {depth.quote} at {x},{y}" (toDigit 10 depth)
      pure (some ⟨levels, .Still⟩)

def Grids.depthAt (grids : Grids) (x y : Nat) : Except Error (Option Char) :=
  match grids.depth with
  | none => pure none
  | some rows => do
      let symbol ← symbolAt rows x y
      pure (some symbol)

def Grids.hexAt (grids : Grids) (x y : Nat) : Except Error Hex := do
  let symbol ← symbolAt grids.terrain x y
  let ground ← ofOption s!"unknown terrain symbol {symbol.quote} at {x},{y}" (ground symbol)
  let glyph ← symbolAt grids.level x y
  let level ← ofOption s!"invalid level {glyph.quote} at {x},{y}" (height glyph)
  let depth ← grids.depthAt x y
  let water ← waterAt ground depth x y
  let flow ← grids.flow.at' x y
  ensure (flow.isNone || water.isSome) s!"flow given for a hex without water at {x},{y}"
  let water := water.map (fun water => { water with flow := flow.getD .Still })
  let foliage ← grids.foliage.at' x y
  let route ← grids.route.at' x y
  let condition ← grids.condition.at' x y
  let overlay ← grids.overlay.at' x y
  pure ⟨level, ground.getD .Clear, water, foliage, route, none, condition, overlay⟩

def placeHex (width rows : Nat) (s : Structure) (hexes : List Hex) (spot : UInt16 × UInt16) :
    Except Error (List Hex) := do
  let x := spot.1.toNat
  let y := spot.2.toNat
  ensure (x < width && y < rows) s!"structure hex {x},{y} is off the map"
  let hex ← ofOption "index out of bounds" hexes[y * width + x]?
  ensure hex.structure'.isNone s!"structure hex {x},{y} already has a structure"
  pure (hexes.set (y * width + x) { hex with structure' := some s })

def placeStructure (width rows : Nat) (hexes : List Hex) (entry : StructureEntry) :
    Except Error (List Hex) := do
  let s ← entry.structure'
  entry.hexes.foldlM (placeHex width rows s) hexes

def validateHexes (width : Nat) (hexes : List Hex) : Except Error Unit :=
  hexes.zipIdx.forM (fun (hex, index) =>
    withContext s!"at {index % width},{index / width}" hex.validate)

namespace MapAsset

def build (file : MapFile) (inheritedFlags : Int64) : Except Error MapAsset := do
  let terrain ← grid "terrain" file.terrain
  let width := (terrain.headD []).length
  let rows := terrain.length
  let level ← matchingGrid "level" (some file.level) width rows
  let level ← ofOption "no level grid" level
  let depth ← matchingGrid "depth" file.depth width rows
  let flow ← LayerGrid.new file.flow width rows
  let foliage ← LayerGrid.new file.foliage width rows
  let route ← LayerGrid.new file.route width rows
  let condition ← LayerGrid.new file.condition width rows
  let overlay ← LayerGrid.new file.overlay width rows
  let grids : Grids := ⟨terrain, level, depth, flow, foliage, route, condition, overlay⟩
  let bare ← (List.range rows).mapM (fun y => (List.range width).mapM (fun x => grids.hexAt x y))
  let hexes ← file.structures.foldlM (placeStructure width rows) bare.flatten
  validateHexes width hexes
  file.pointsOfInterest.forM (fun point => point.validate width rows)
  file.regions.forM (fun region => region.validate width rows)
  file.wind.toList.forM Wind.validate
  let bits := match file.flags with
    | some flags => MapFlag.combine flags
    | none => inheritedFlags
  let flags ← ofOption "invalid map flags" (i32TryFrom bits)
  pure ⟨UInt16.ofNat width, UInt16.ofNat rows, flags, file.gravity, file.temperature, file.light,
    file.weather, file.wind, hexes, file.pointsOfInterest, file.regions⟩

def parseWithFlags (toml : Codec MapFile) (source : List Char) (inheritedFlags : Int64) :
    Except Error MapAsset := do
  let file ← ofOption "invalid map file" (toml.fromStr source)
  build file inheritedFlags

def parse (toml : Codec MapFile) (source : List Char) : Except Error MapAsset :=
  parseWithFlags toml source 0

def rows (map : MapAsset) (encode : Hex → Except Error Char) : Except Error (List Char) := do
  ensure (map.width != 0) "chunk size must be non-zero"
  let rows ← (chunks map.width.toNat map.hexes).mapM (fun row => row.mapM encode)
  pure (rowsText rows)

def gridText (name : String) (rows : List Char) : List Char :=
  name.toList ++ " = '''\n".toList ++ rows ++ "'''\n".toList

-- A grid that is left out when no hex has the layer.
def layerText (map : MapAsset) (name : String) (has : Hex → Bool) (encode : Hex → Except Error Char) :
    Except Error (List Char) :=
  if map.hexes.any has then do
    let rows ← map.rows encode
    pure (gridText name rows)
  else pure []

def structures (map : MapAsset) : OrderedMap Structure (List (UInt16 × UInt16)) :=
  map.hexes.zipIdx.foldl (fun structures (hex, index) =>
    match hex.structure' with
    | none => structures
    | some s =>
        let spot := (UInt16.ofNat (index % map.width.toNat), UInt16.ofNat (index / map.width.toNat))
        structures.insert s ((structures.get? s).getD [] ++ [spot])) OrderedMap.empty

end MapAsset

def kindName : StructureKind → String
  | .Building => "building"
  | .Wall => "wall"
  | .Bridge => "bridge"

def setting (name : String) (value : List Char) : List Char :=
  name.toList ++ " = ".toList ++ value ++ ['\n']

def inQuotes (text : List Char) : List Char := '"' :: text ++ ['"']

def spotText (spot : UInt16 × UInt16) : List Char :=
  '[' :: decimal spot.1.toNat ++ ", ".toList ++ decimal spot.2.toNat ++ [']']

def structureText (s : Structure) (hexes : List (UInt16 × UInt16)) : List Char :=
  "\n[[structures]]\n".toList ++
    setting "kind" (inQuotes (kindName s.kind).toList) ++
    setting "class" (inQuotes (Hex.lowercase s.class'.label).toList) ++
    (if s.cf = s.class'.constructionFactor then [] else setting "cf" (decimal s.cf.toNat)) ++
    setting "height" (decimal s.height.toNat) ++
    setting "hexes" ('[' :: List.intercalate ", ".toList (hexes.map spotText) ++ [']'])

def windText (wind : Wind) : List Char :=
  ['{', ' '] ++ "direction = ".toList ++ decimal wind.direction.toNat ++ ", speed = ".toList ++
    decimal wind.speed.toNat ++ [' ', '}']

-- The text without any number of leads.
def trimStartMatches (lead text : List Char) : List Char :=
  if _ : lead ≠ [] ∧ lead <+: text then trimStartMatches lead (text.drop lead.length) else text
termination_by text.length
decreasing_by
  have ⟨hlead, hprefix⟩ : lead ≠ [] ∧ lead <+: text := ‹_›
  have hpos := List.length_pos_iff.mpr hlead
  have hle := hprefix.length_le
  rw [List.length_drop]
  omega

-- What the library is given.
def flagsTable (flags : List MapFlag) : Table :=
  [("flags", .array (flags.map (fun flag => .string (snakeCase flag.variant.toList))))]

def integerU16 (value : UInt16) : Value := .integer value.toNat

def spotValue (spot : UInt16 × UInt16) : Value := .array [integerU16 spot.1, integerU16 spot.2]

def MapPointOfInterest.serialize (point : MapPointOfInterest) : Value :=
  .table ([("type", .string point.kind), ("name", .string point.name), ("x", integerU16 point.x),
    ("y", integerU16 point.y)] ++
      (point.elevation.map (fun elevation => ("elevation", .integer elevation.toInt))).toList)

def MapRegion.serialize (region : MapRegion) : Value :=
  .table [("type", .string region.kind), ("name", .string region.name),
    ("corners", .array (region.corners.map spotValue))]

-- An array of tables of its own, left out when it is empty.
def tablesText (toml : Codec MapFile) (name : String) (items : List Value) :
    Except Error (List Char) :=
  if items.isEmpty then pure []
  else do
    let text ← ofOption "unsupported value" (toml.toString [(name, .array items)])
    pure ('\n' :: trimEnd text ++ ['\n'])

namespace MapAsset

def toFile (toml : Codec MapFile) (map : MapAsset) : Except Error (List Char) := do
  validateHexes map.width.toNat map.hexes
  let flags := MapFlag.ALL.filter (fun flag => flag.isSet map.flags.toInt64)
  let flagsText ← ofOption "unsupported value" (toml.toString (flagsTable flags))
  let terrain ← map.rows (fun hex => pure (groundSymbol hex))
  let level ← map.rows (fun hex => heightSymbol hex.level)
  let depth ← map.layerText "depth" (fun hex => hex.water.isSome) (fun hex =>
    match hex.water with
    | none => pure '.'
    | some water => heightSymbol water.depth)
  let flow ← map.layerText "flow" (fun hex => hex.water.any (fun water => !water.flow.isStill))
    (fun hex => pure (encode (hex.water.map Water.flow)))
  let foliage ← map.layerText "foliage" (fun hex => hex.foliage.isSome)
    (fun hex => pure (encode hex.foliage))
  let route ← map.layerText "route" (fun hex => hex.route.isSome) (fun hex => pure (encode hex.route))
  let condition ← map.layerText "condition" (fun hex => hex.condition.isSome)
    (fun hex => pure (encode hex.condition))
  let overlay ← map.layerText "overlay" (fun hex => hex.overlay.isSome)
    (fun hex => pure (encode hex.overlay))
  map.pointsOfInterest.forM (fun point => point.validate map.width.toNat map.height.toNat)
  let points ← tablesText toml "points_of_interest"
    (map.pointsOfInterest.map MapPointOfInterest.serialize)
  map.regions.forM (fun region => region.validate map.width.toNat map.height.toNat)
  let regions ← tablesText toml "regions" (map.regions.map MapRegion.serialize)
  pure (setting "gravity" (decimal map.gravity.toNat) ++
    setting "temperature" (integerText map.temperature.toInt) ++
    (map.light.map (fun light => setting "light" (inQuotes light.name.toList))).getD [] ++
    (map.weather.map (fun weather => setting "weather" (inQuotes weather.name.toList))).getD [] ++
    (map.wind.map (fun wind => setting "wind" (windText wind))).getD [] ++
    setting "flags" (trimEnd (trimStartMatches "flags = ".toList flagsText)) ++
    ['\n'] ++ gridText "terrain" terrain ++ gridText "level" level ++ depth ++ flow ++ foliage ++
    route ++ condition ++ overlay ++
    map.structures.entries.flatMap (fun entry => structureText entry.1 entry.2) ++ points ++ regions)

end MapAsset

end StompyMux.Map
