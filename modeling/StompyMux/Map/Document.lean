import StompyMux.Library.TomlTable
import StompyMux.Map.File

-- The document of a map file, and the file it is read as.
namespace StompyMux.Map

open Library.Text Library.Toml

def basic (text : String) : Spelling := .string (.Basic, text.toList)

def quoted (text : List Char) : Spelling := .string (.Quoted, text)

def block (text : List Char) : Spelling := .string (.Block, text)

def whole (n : Nat) : Spelling := .integer n

def spotSpelling (spot : UInt16 × UInt16) : Spelling :=
  .array [whole spot.1.toNat, whole spot.2.toNat]

def flagsSpelling (flags : List MapFlag) : Spelling :=
  .array (flags.map (fun flag => quoted (snakeCase flag.variant.toList)))

def Wind.spelling (wind : Wind) : Spelling :=
  .table [("direction", whole wind.direction.toNat), ("speed", whole wind.speed.toNat)]

def StructureEntry.fields (entry : StructureEntry) : List (String × Option Spelling) :=
  [("kind", some (basic (kindName entry.kind))),
    ("class", entry.class'.map (fun class' => basic (Hex.lowercase class'.label))),
    ("cf", entry.cf.map (fun cf => whole cf.toNat)), ("height", some (whole entry.height.toNat)),
    ("hexes", some (.array (entry.hexes.map spotSpelling)))]

def MapPointOfInterest.fields (point : MapPointOfInterest) : List (String × Option Spelling) :=
  [("type", some (quoted point.kind)), ("name", some (quoted point.name)),
    ("x", some (whole point.x.toNat)), ("y", some (whole point.y.toNat)),
    ("elevation", point.elevation.map (fun elevation => .integer elevation.toInt))]

def MapRegion.fields (region : MapRegion) : List (String × Option Spelling) :=
  [("type", some (quoted region.kind)), ("name", some (quoted region.name)),
    ("corners", some (.array (region.corners.map spotSpelling)))]

namespace MapFile

def settings (file : MapFile) : List (String × Option Spelling) :=
  [("gravity", some (whole file.gravity.toNat)), ("temperature", some (.integer file.temperature.toInt)),
    ("light", file.light.map (fun light => basic light.name)),
    ("weather", file.weather.map (fun weather => basic weather.name)),
    ("wind", file.wind.map Wind.spelling), ("flags", file.flags.map flagsSpelling)]

def grids (file : MapFile) : List (String × Option Spelling) :=
  [("terrain", some (block file.terrain)), ("level", some (block file.level)),
    ("depth", file.depth.map block), ("flow", file.flow.map block),
    ("foliage", file.foliage.map block), ("route", file.route.map block),
    ("condition", file.condition.map block), ("overlay", file.overlay.map block)]

def document (file : MapFile) : Document where
  root := pairs file.settings ++ .blank :: pairs file.grids
  blocks := file.structures.map (fun entry => ("structures", pairs entry.fields)) ++
    file.pointsOfInterest.map (fun point => ("points_of_interest", pairs point.fields)) ++
    file.regions.map (fun region => ("regions", pairs region.fields))

end MapFile

section

variable {T : Type} (table : Table) (key : String) (decode : Value → Option T)

theorem required_of_lookup (t : T) (v : Value) (h : table.lookup key = some v)
    (hv : decode v = some t) : required table key decode = some t := by
  unfold required
  rw [h]
  exact hv

theorem optional_of_lookup (t : Option T) (spell : T → Value) (h : table.lookup key = t.map spell)
    (hspell : ∀ a, decode (spell a) = some a) : optional table key decode = some t := by
  unfold optional defaulted
  rw [h]
  cases t with
  | none => rfl
  | some a => exact congrArg (Option.map some) (hspell a)

theorem defaulted_of_lookup {t : T} (default' : T) {v : Value} (h : table.lookup key = some v)
    (hv : decode v = some t) : defaulted table key default' decode = some t := by
  unfold defaulted
  rw [h]
  exact hv

end

theorem bind_of_eq {A B : Type} {x : Option A} {f : A → Option B} {a : A} {b : Option B}
    (hx : x = some a) (hf : f a = b) : (x >>= f) = b := by
  rw [hx]
  exact hf

theorem u8_toNat (n : UInt8) : u8 (.integer n.toNat) = some n := by
  have hn := n.toNat_lt
  rw [u8, if_pos (by omega), Int.toNat_natCast, UInt8.ofNat_toNat]

theorem u16_toNat (n : UInt16) : u16 (.integer n.toNat) = some n := by
  have hn := n.toNat_lt
  rw [u16, if_pos (by omega), Int.toNat_natCast, UInt16.ofNat_toNat]

theorem i8_toInt (n : Int8) : i8 (.integer n.toInt) = some n := by
  have hlow := n.le_toInt
  have hhigh := n.toInt_lt
  rw [i8, if_pos (by omega), Int8.ofInt_toInt]

theorem named_light (light : Light) :
    named Light.ALL Light.variant light.name.toList = some light := by
  cases light <;> decide

theorem named_weather (weather : Weather) :
    named Weather.ALL Weather.variant weather.name.toList = some weather := by
  cases weather <;> decide

theorem named_kind (kind : StructureKind) :
    named StructureKind.ALL StructureKind.variant (kindName kind).toList = some kind := by
  cases kind <;> decide

theorem named_class (class' : ConstructionClass) :
    named ConstructionClass.ALL ConstructionClass.variant (Hex.lowercase class'.label).toList =
      some class' := by
  cases class' <;> decide

theorem named_flag (flag : MapFlag) :
    named MapFlag.ALL MapFlag.variant (snakeCase flag.variant.toList) = some flag := by
  cases flag <;> decide

theorem mapM_of_forall {A B : Type} (f : B → Option A) (g : A → B) (items : List A)
    (h : ∀ a ∈ items, f (g a) = some a) : (items.map g).mapM f = some items := by
  induction items with
  | nil => rfl
  | cons a items ih =>
      have ⟨ha, hlater⟩ := List.forall_mem_cons.mp h
      rw [List.map_cons, List.mapM_cons, ha, ih hlater]
      rfl

theorem spot_spelling (place : UInt16 × UInt16) : spot (spotSpelling place).value = some place := by
  show (u16 (.integer place.1.toNat) >>= fun x => u16 (.integer place.2.toNat) >>= _) = _
  rw [u16_toNat, u16_toNat]
  rfl

theorem listOf_value {T : Type} (decode : Value → Option T) (spell : T → Spelling) (items : List T)
    (h : ∀ a ∈ items, decode (spell a).value = some a) :
    listOf decode (Tree.array (items.map spell)).value = some items := by
  show (mapItems Prod.snd (items.map spell)).mapM decode = some items
  rw [mapItems_eq, List.map_map]
  exact mapM_of_forall decode _ items h

theorem flags_spelling (flags : List MapFlag) :
    listOf (variantOf MapFlag.ALL MapFlag.variant) (flagsSpelling flags).value = some flags :=
  listOf_value _ _ flags (fun flag _ => named_flag flag)

theorem tableOf_pairs (keys : List String) (fields : List (String × Option Spelling))
    (h : ∀ key ∈ fields.map Prod.fst, key ∈ keys) :
    tableOf keys (.table (entries (pairs fields))) = some (entries (pairs fields)) := by
  rw [tableOf, if_pos]
  apply List.all_eq_true.mpr
  intro entry hentry
  have hkey := (keys_pairs fields).subset (List.mem_map_of_mem hentry)
  simpa using h entry.1 hkey

theorem Wind.deserialize_spelling (wind : Wind) : Wind.deserialize wind.spelling.value = some wind := by
  have htable : tableOf ["direction", "speed"] wind.spelling.value =
      some [("direction", .integer wind.direction.toNat), ("speed", .integer wind.speed.toNat)] := by
    simp [Wind.spelling, Tree.value, Library.Toml.Tree.map, tableOf, whole]
  have hdirection := required_of_lookup
    [("direction", .integer wind.direction.toNat), ("speed", .integer wind.speed.toNat)] "direction" u16
    wind.direction (.integer wind.direction.toNat) (by simp) (u16_toNat wind.direction)
  have hspeed := required_of_lookup
    [("direction", .integer wind.direction.toNat), ("speed", .integer wind.speed.toNat)] "speed" u16
    wind.speed (.integer wind.speed.toNat) (by simp [List.lookup_cons]) (u16_toNat wind.speed)
  apply bind_of_eq htable
  apply bind_of_eq hdirection
  exact bind_of_eq hspeed rfl

theorem StructureEntry.deserialize_fields (entry : StructureEntry) :
    StructureEntry.deserialize (.table (entries (pairs entry.fields))) = some entry := by
  have hlookup := fun key => lookup_pairs key entry.fields (by simp [fields])
  have htable := tableOf_pairs ["kind", "class", "cf", "height", "hexes"] entry.fields (by simp [fields])
  have hkind := required_of_lookup (entries (pairs entry.fields)) "kind"
    (variantOf StructureKind.ALL StructureKind.variant) entry.kind (basic (kindName entry.kind)).value
    (by rw [hlookup]; simp [fields]) (named_kind entry.kind)
  have hclass := optional_of_lookup (entries (pairs entry.fields)) "class"
    (variantOf ConstructionClass.ALL ConstructionClass.variant) entry.class'
    (fun class' => (basic (Hex.lowercase class'.label)).value)
    (by rw [hlookup]; simp [fields, List.lookup_cons, Function.comp_def]) named_class
  have hcf := optional_of_lookup (entries (pairs entry.fields)) "cf" u16 entry.cf
    (fun cf => (whole cf.toNat).value)
    (by rw [hlookup]; simp [fields, List.lookup_cons, Function.comp_def]) u16_toNat
  have hheight := required_of_lookup (entries (pairs entry.fields)) "height" u8 entry.height
    (whole entry.height.toNat).value (by rw [hlookup]; simp [fields, List.lookup_cons])
    (u8_toNat entry.height)
  have hhexes := required_of_lookup (entries (pairs entry.fields)) "hexes" (listOf spot) entry.hexes
    (Tree.array (entry.hexes.map spotSpelling)).value (by rw [hlookup]; simp [fields, List.lookup_cons])
    (listOf_value spot spotSpelling entry.hexes (fun place _ => spot_spelling place))
  apply bind_of_eq htable
  apply bind_of_eq hkind
  apply bind_of_eq hclass
  apply bind_of_eq hcf
  apply bind_of_eq hheight
  exact bind_of_eq hhexes rfl

theorem MapPointOfInterest.deserialize_fields (point : MapPointOfInterest) :
    MapPointOfInterest.deserialize (.table (entries (pairs point.fields))) = some point := by
  have hlookup := fun key => lookup_pairs key point.fields (by simp [fields])
  have htable := tableOf_pairs ["type", "name", "x", "y", "elevation"] point.fields (by simp [fields])
  have hkind := required_of_lookup (entries (pairs point.fields)) "type" text point.kind
    (.string point.kind) (by rw [hlookup]; simp [fields]; rfl) rfl
  have hname := required_of_lookup (entries (pairs point.fields)) "name" text point.name
    (.string point.name) (by rw [hlookup]; simp [fields, List.lookup_cons]; rfl) rfl
  have hx := required_of_lookup (entries (pairs point.fields)) "x" u16 point.x
    (.integer point.x.toNat) (by rw [hlookup]; simp [fields, List.lookup_cons]; rfl) (u16_toNat point.x)
  have hy := required_of_lookup (entries (pairs point.fields)) "y" u16 point.y
    (.integer point.y.toNat) (by rw [hlookup]; simp [fields, List.lookup_cons]; rfl) (u16_toNat point.y)
  have helevation := optional_of_lookup (entries (pairs point.fields)) "elevation" i8 point.elevation
    (fun elevation => .integer elevation.toInt)
    (by rw [hlookup]; simp [fields, List.lookup_cons, Function.comp_def]; rfl) i8_toInt
  apply bind_of_eq htable
  apply bind_of_eq hkind
  apply bind_of_eq hname
  apply bind_of_eq hx
  apply bind_of_eq hy
  exact bind_of_eq helevation rfl

theorem MapRegion.deserialize_fields (region : MapRegion) :
    MapRegion.deserialize (.table (entries (pairs region.fields))) = some region := by
  have hlookup := fun key => lookup_pairs key region.fields (by simp [fields])
  have htable := tableOf_pairs ["type", "name", "corners"] region.fields (by simp [fields])
  have hkind := required_of_lookup (entries (pairs region.fields)) "type" text region.kind
    (.string region.kind) (by rw [hlookup]; simp [fields]; rfl) rfl
  have hname := required_of_lookup (entries (pairs region.fields)) "name" text region.name
    (.string region.name) (by rw [hlookup]; simp [fields, List.lookup_cons]; rfl) rfl
  have hcorners := required_of_lookup (entries (pairs region.fields)) "corners" (listOf spot)
    region.corners (Tree.array (region.corners.map spotSpelling)).value
    (by rw [hlookup]; simp [fields, List.lookup_cons])
    (listOf_value spot spotSpelling region.corners (fun place _ => spot_spelling place))
  apply bind_of_eq htable
  apply bind_of_eq hkind
  apply bind_of_eq hname
  exact bind_of_eq hcorners rfl

namespace MapFile

variable (file : MapFile)

def fields : List (String × Option Spelling) := file.settings ++ file.grids

theorem entries_root : entries file.document.root = entries (pairs file.fields) := by
  unfold document fields pairs
  rw [entries_append, entries_blank, List.filterMap_append, entries_append]

theorem fields_nodup : (file.fields.map Prod.fst).Nodup := by
  simp [fields, settings, grids]

theorem lookup_table (key : String) :
    file.document.table.lookup key = (((file.fields.lookup key).join).map Tree.value).or
      ((group (file.document.blocks.map (fun block => (block.1, entries block.2)))).lookup key) := by
  unfold Document.table
  rw [entries_root, List.lookup_append, lookup_pairs key file.fields file.fields_nodup]

def arrays : List String := ["structures", "points_of_interest", "regions"]

theorem block_name {block : String × List Line} (h : block ∈ file.document.blocks) :
    block.1 ∈ arrays := by
  unfold document at h
  rcases List.mem_append.mp h with h | h
  · rcases List.mem_append.mp h with h | h
    · obtain ⟨entry, -, rfl⟩ := List.mem_map.mp h
      simp [arrays]
    · obtain ⟨point, -, rfl⟩ := List.mem_map.mp h
      simp [arrays]
  · obtain ⟨region, -, rfl⟩ := List.mem_map.mp h
    simp [arrays]

theorem lookup_field (key : String) (hkey : key ∉ arrays) :
    file.document.table.lookup key = ((file.fields.lookup key).join).map Tree.value := by
  have habsent : (group (file.document.blocks.map (fun block => (block.1, entries block.2)))).lookup key =
      none := by
    rw [lookup_group, if_neg]
    intro hmem
    obtain ⟨block, hblock, rfl⟩ := List.mem_map.mp hmem
    obtain ⟨written, hwritten, rfl⟩ := List.mem_map.mp hblock
    exact hkey (file.block_name hwritten)
  rw [lookup_table, habsent, Option.or_none]

-- The tables of one array, which no top-level setting shares its name with.
theorem lookup_array {T : Type} (key : String) (items : List T) (spell : T → Table)
    (hfield : file.fields.lookup key = none)
    (hblocks : (file.document.blocks.map (fun block => (block.1, entries block.2))).filter
      (fun block => block.1 = key) = items.map (fun item => (key, spell item))) :
    file.document.table.lookup key =
      if items.isEmpty then none else some (.array (items.map (fun item => .table (spell item)))) := by
  rw [lookup_table, hfield, lookup_group, hblocks]
  have hmem : key ∈ (file.document.blocks.map (fun block => (block.1, entries block.2))).map Prod.fst ↔
      items ≠ [] := by
    constructor
    · intro hmem
      obtain ⟨block, hblock, hname⟩ := List.mem_map.mp hmem
      have hfilter : block ∈ (file.document.blocks.map (fun block => (block.1, entries block.2))).filter
          (fun block => block.1 = key) := List.mem_filter.mpr ⟨hblock, decide_eq_true hname⟩
      rw [hblocks] at hfilter
      rintro rfl
      contradiction
    · intro hne
      obtain ⟨item, rest, rfl⟩ := List.exists_cons_of_ne_nil hne
      have hin : (key, spell item) ∈ (file.document.blocks.map
          (fun block => (block.1, entries block.2))).filter (fun block => block.1 = key) := by
        rw [hblocks]
        exact List.mem_cons_self
      exact List.mem_map.mpr ⟨_, (List.mem_filter.mp hin).1, rfl⟩
  by_cases hempty : items = []
  · rw [if_neg (by simpa [hempty] using hmem), if_pos (by simp [hempty])]
    rfl
  · rw [if_pos (hmem.mpr hempty), if_neg (by simpa using hempty), List.map_map]
    rfl

theorem defaulted_of_array {T : Type} {table : Table} {key : String} {items : List T}
    {spell : T → Value} (decode : Value → Option T)
    (h : table.lookup key = if items.isEmpty then none else some (.array (items.map spell)))
    (hspell : ∀ item, decode (spell item) = some item) :
    defaulted table key [] (listOf decode) = some items := by
  unfold defaulted
  rw [h]
  cases items with
  | nil => rfl
  | cons item items => exact mapM_of_forall decode spell (item :: items) (fun a _ => hspell a)

theorem keys_known : ∀ key ∈ file.document.table.map Prod.fst, key ∈ keys := by
  intro key hkey
  unfold Document.table at hkey
  rw [entries_root, List.map_append, List.mem_append, keys_group] at hkey
  rcases hkey with hkey | hkey
  · have hfield := (keys_pairs file.fields).subset hkey
    have hfields : file.fields.map Prod.fst = keys.take 14 := rfl
    rw [hfields] at hfield
    exact List.mem_of_mem_take hfield
  · obtain ⟨block, hblock, rfl⟩ := List.mem_map.mp (List.mem_dedup.mp hkey)
    obtain ⟨written, hwritten, rfl⟩ := List.mem_map.mp hblock
    have harrays : ∀ name ∈ arrays, name ∈ keys := by decide
    exact harrays _ (file.block_name hwritten)

-- What the document spells is read back field by field.
theorem deserialize_document : deserialize file.document.table = some file := by
  have htable : tableOf keys (.table file.document.table) = some file.document.table := by
    rw [tableOf, if_pos]
    apply List.all_eq_true.mpr
    intro entry hentry
    simpa using file.keys_known entry.1 (List.mem_map_of_mem hentry)
  have hlookup := file.lookup_field
  have hgravity := defaulted_of_lookup file.document.table "gravity" u8 100 (by rw [hlookup _ (by decide)]; simp [fields, settings]; rfl)
    (u8_toNat file.gravity)
  have htemperature := defaulted_of_lookup file.document.table "temperature" i8 20
    (by rw [hlookup _ (by decide)]; simp [fields, settings, List.lookup_cons]; rfl) (i8_toInt file.temperature)
  have hlight := optional_of_lookup file.document.table "light" (variantOf Light.ALL Light.variant)
    file.light (fun light => (basic light.name).value)
    (by rw [hlookup _ (by decide)]; simp [fields, settings, List.lookup_cons, Function.comp_def]) named_light
  have hweather := optional_of_lookup file.document.table "weather"
    (variantOf Weather.ALL Weather.variant) file.weather (fun weather => (basic weather.name).value)
    (by rw [hlookup _ (by decide)]; simp [fields, settings, List.lookup_cons, Function.comp_def])
    named_weather
  have hwind := optional_of_lookup file.document.table "wind" Wind.deserialize file.wind
    (fun wind => wind.spelling.value)
    (by rw [hlookup _ (by decide)]; simp [fields, settings, List.lookup_cons, Function.comp_def])
    Wind.deserialize_spelling
  have hflags := optional_of_lookup file.document.table "flags"
    (listOf (variantOf MapFlag.ALL MapFlag.variant)) file.flags (fun flags => (flagsSpelling flags).value)
    (by rw [hlookup _ (by decide)]; simp [fields, settings, List.lookup_cons, Function.comp_def])
    flags_spelling
  have hterrain := required_of_lookup file.document.table "terrain" text file.terrain
    (block file.terrain).value
    (by rw [hlookup _ (by decide)]; simp [fields, settings, grids, List.lookup_cons]) rfl
  have hlevel := required_of_lookup file.document.table "level" text file.level
    (block file.level).value
    (by rw [hlookup _ (by decide)]; simp [fields, settings, grids, List.lookup_cons]) rfl
  have hgrid : ∀ key (grid : Option (List Char)), key ∉ arrays →
      file.fields.lookup key = some (grid.map block) →
      optional file.document.table key text = some grid := by
    intro key grid hkey hfield
    apply optional_of_lookup _ _ _ grid (fun text => (block text).value)
    · rw [hlookup key hkey, hfield]
      simp [Function.comp_def]
    · intro text
      rfl
  have hdepth := hgrid "depth" file.depth (by decide)
    (by simp [fields, settings, grids, List.lookup_cons])
  have hflow := hgrid "flow" file.flow (by decide) (by simp [fields, settings, grids, List.lookup_cons])
  have hfoliage := hgrid "foliage" file.foliage (by decide)
    (by simp [fields, settings, grids, List.lookup_cons])
  have hroute := hgrid "route" file.route (by decide) (by simp [fields, settings, grids, List.lookup_cons])
  have hcondition := hgrid "condition" file.condition (by decide)
    (by simp [fields, settings, grids, List.lookup_cons])
  have hoverlay := hgrid "overlay" file.overlay (by decide)
    (by simp [fields, settings, grids, List.lookup_cons])
  have hstructures := defaulted_of_array StructureEntry.deserialize
    (file.lookup_array "structures" file.structures (fun entry => entries (pairs entry.fields))
      (by simp [fields, settings, grids, List.lookup_cons])
      (by simp [document, List.filter_map, Function.comp_def])) StructureEntry.deserialize_fields
  have hpoints := defaulted_of_array MapPointOfInterest.deserialize
    (file.lookup_array "points_of_interest" file.pointsOfInterest
      (fun point => entries (pairs point.fields)) (by simp [fields, settings, grids, List.lookup_cons])
      (by simp [document, List.filter_map, Function.comp_def])) MapPointOfInterest.deserialize_fields
  have hregions := defaulted_of_array MapRegion.deserialize
    (file.lookup_array "regions" file.regions (fun region => entries (pairs region.fields))
      (by simp [fields, settings, grids, List.lookup_cons])
      (by simp [document, List.filter_map, Function.comp_def])) MapRegion.deserialize_fields
  apply bind_of_eq htable
  apply bind_of_eq hgravity
  apply bind_of_eq htemperature
  apply bind_of_eq hlight
  apply bind_of_eq hweather
  apply bind_of_eq hwind
  apply bind_of_eq hflags
  apply bind_of_eq hterrain
  apply bind_of_eq hlevel
  apply bind_of_eq hdepth
  apply bind_of_eq hflow
  apply bind_of_eq hfoliage
  apply bind_of_eq hroute
  apply bind_of_eq hcondition
  apply bind_of_eq hoverlay
  apply bind_of_eq hstructures
  apply bind_of_eq hpoints
  exact bind_of_eq hregions rfl

end MapFile

end StompyMux.Map
