import StompyMux.Library.TomlReader
import StompyMux.Map.Structures

-- A map is read back as it was written.
namespace StompyMux.Map

open Library Library.Fallible Library.Toml Library.Grid

namespace MapAsset

theorem new_ok {T : Type} [LayerSymbol T] {text : Option (List Char)} {width height : Nat}
    {rows : Option (List (List Char))}
    (h : matchingGrid (LayerSymbol.GRID T) text width height = .ok rows) :
    (LayerGrid.new text width height : Except Error (LayerGrid T)) = .ok ⟨rows⟩ := by
  apply bind_ok h
  rfl

theorem build_of (file : MapFile) (inherited : Int64) (width height : Nat)
    (terrain level : List (List Char)) (depth : Option (List (List Char)))
    (flow : LayerGrid Flow) (foliage : LayerGrid Foliage) (route : LayerGrid Route)
    (condition : LayerGrid Condition) (overlay : LayerGrid DecorationKind) (bare : List (List Hex))
    (hexes : List Hex) (flags : Int32) (hterrain : grid "terrain" file.terrain = .ok terrain)
    (hwidth : (terrain.headD []).length = width) (hheight : terrain.length = height)
    (hlevel : matchingGrid "level" (some file.level) width height = .ok (some level))
    (hdepth : matchingGrid "depth" file.depth width height = .ok depth)
    (hflow : LayerGrid.new file.flow width height = .ok flow)
    (hfoliage : LayerGrid.new file.foliage width height = .ok foliage)
    (hroute : LayerGrid.new file.route width height = .ok route)
    (hcondition : LayerGrid.new file.condition width height = .ok condition)
    (hoverlay : LayerGrid.new file.overlay width height = .ok overlay)
    (hbare : (List.range height).mapM (fun y => (List.range width).mapM (fun x =>
      (Grids.mk terrain level depth flow foliage route condition overlay).hexAt x y)) = .ok bare)
    (hplaced : file.structures.foldlM (placeStructure width height) bare.flatten = .ok hexes)
    (hvalid : validateHexes width hexes = .ok ())
    (hpoints : file.pointsOfInterest.forM (fun point => point.validate width height) = .ok ())
    (hregions : file.regions.forM (fun region => region.validate width height) = .ok ())
    (hwind : file.wind.toList.forM Wind.validate = .ok ())
    (hflags : i32TryFrom (match file.flags with
      | some flags => MapFlag.combine flags
      | none => inherited) = some flags) :
    build file inherited = .ok ⟨UInt16.ofNat width, UInt16.ofNat height, flags, file.gravity,
      file.temperature, file.light, file.weather, file.wind, hexes, file.pointsOfInterest,
      file.regions⟩ := by
  subst hwidth hheight
  apply bind_ok hterrain
  apply bind_ok hlevel
  apply bind_ok (ofOption_ok rfl)
  apply bind_ok hdepth
  apply bind_ok hflow
  apply bind_ok hfoliage
  apply bind_ok hroute
  apply bind_ok hcondition
  apply bind_ok hoverlay
  apply bind_ok hbare
  apply bind_ok hplaced
  apply bind_ok hvalid
  apply bind_ok hpoints
  apply bind_ok hregions
  apply bind_ok hwind
  apply bind_ok (ofOption_ok hflags)
  rfl

-- The hexes of the file, the structures set on them, are those of the map.
theorem build_file (map : MapAsset) (h : map.Valid) (inherited : Int64) :
    build map.file inherited = .ok map := by
  obtain ⟨rows, hflat, hcount, hrows, hchunks⟩ := map.exists_hexRows h
  have ⟨hterrain, hwidth⟩ := grid_gridRows map h rows hcount hrows hchunks "terrain" groundSymbol
    gridChar_ground
  have hlevel := matchingGrid_gridRows map h rows hcount hrows hchunks "level" levelChar
    (fun hex => gridChar_digit _)
  have hlayer := matchingGrid_layerRows map h rows hcount hrows hchunks
  have hdepth := hlayer "depth" (fun hex => hex.water.isSome) depthChar gridChar_depth
  have hflow := hlayer "flow" (fun hex => hex.water.any (fun water => !water.flow.isStill)) flowChar
    (fun hex => gridChar_flow _)
  have hfoliage := hlayer "foliage" (fun hex => hex.foliage.isSome) (fun hex => encode hex.foliage)
    (fun hex => gridChar_foliage _)
  have hroute := hlayer "route" (fun hex => hex.route.isSome) (fun hex => encode hex.route)
    (fun hex => gridChar_route _)
  have hcondition := hlayer "condition" (fun hex => hex.condition.isSome)
    (fun hex => encode hex.condition) (fun hex => gridChar_condition _)
  have hoverlay := hlayer "overlay" (fun hex => hex.overlay.isSome) (fun hex => encode hex.overlay)
    (fun hex => gridChar_overlay _)
  have hbare : (List.range map.height.toNat).mapM (fun y => (List.range map.width.toNat).mapM
      (fun x => (map.grids rows).hexAt x y)) = .ok (rows.map (List.map Hex.bare)) := by
    rw [← hcount]
    apply mapM_range
    intro y row hy
    have hlength := hrows row (List.mem_of_getElem? hy)
    rw [← hlength]
    apply mapM_range
    intro x hex hx
    exact hexAt_grids map rows hflat x y row hex hy hx h
  have hplaced := map.placeStructures_ok h
  rw [← hflat, List.map_flatten, hflat] at hplaced
  have hflags : i32TryFrom (MapFlag.combine map.setFlags) = some map.flags := by
    have hcombine : MapFlag.combine map.setFlags = map.flags.toInt64 :=
      MapFlag.combine_filter h.flags
    rw [hcombine]
    exact i32TryFrom_toInt64 map.flags
  have hlength : (rows.map (List.map groundSymbol)).length = map.height.toNat := by
    rw [List.length_map, hcount]
  have hbuilt := build_of map.file inherited _ _ _ _ _ _ _ _ _ _ _ map.hexes map.flags hterrain hwidth
    hlength hlevel hdepth (new_ok hflow) (new_ok hfoliage) (new_ok hroute)
    (new_ok hcondition) (new_ok hoverlay) hbare hplaced (validateHexes_ok _ _ h.hexes)
    (forM_ok h.points) (forM_ok h.regions)
    (forM_ok (fun wind hin => h.wind wind (Option.mem_toList.mp hin))) hflags
  rw [hbuilt, UInt16.ofNat_toNat, UInt16.ofNat_toNat]
  rfl

theorem grid_sound {name : String} {text : List Char} {rows : List (List Char)}
    (h : grid name text = .ok rows) : (1 ≤ (rows.headD []).length ∧ (rows.headD []).length ≤ 1000) ∧
      1 ≤ rows.length ∧ rows.length ≤ 1000 := by
  obtain ⟨hrows, h⟩ := ok_of_ensure h
  obtain ⟨hwidth, h⟩ := ok_of_ensure h
  obtain ⟨⟨⟩, -, h⟩ := ok_of_bind h
  obtain ⟨hlimit, h⟩ := ok_of_ensure h
  injection h with h
  subst h
  simp only [Bool.and_eq_true, decide_eq_true_eq] at hwidth hlimit
  have hpos : 1 ≤ (lines text).length := by
    apply List.length_pos_iff.mpr
    intro hnil
    rw [hnil] at hrows
    contradiction
  exact ⟨⟨hwidth, hlimit.1⟩, hpos, hlimit.2⟩

theorem placeHex_length {width rows : Nat} {s : Structure} {hexes : List Hex}
    {spot : UInt16 × UInt16} {placed : List Hex}
    (h : placeHex width rows s hexes spot = .ok placed) : placed.length = hexes.length := by
  obtain ⟨-, h⟩ := ok_of_ensure h
  obtain ⟨hex, -, h⟩ := ok_of_bind h
  obtain ⟨-, h⟩ := ok_of_ensure h
  injection h with h
  rw [← h, List.length_set]

theorem placeStructure_length {width rows : Nat} {hexes : List Hex} {entry : StructureEntry}
    {placed : List Hex} (h : placeStructure width rows hexes entry = .ok placed) :
    placed.length = hexes.length := by
  obtain ⟨s, -, h⟩ := ok_of_bind h
  exact foldlM_keeps (fun _ after => after.length = hexes.length)
    (fun _ spot _ before after _ hbefore hstep => (placeHex_length hstep).trans
      hbefore) rfl h

-- Each check of a valid map is one that reading made, or holds of what it builds.
theorem build_valid {file : MapFile} {inherited : Int64} {map : MapAsset}
    (hknown : MapFlag.Known inherited) (h : build file inherited = .ok map) : map.Valid := by
  obtain ⟨terrain, hterrain, h⟩ := ok_of_bind h
  obtain ⟨hwidth, hheight⟩ := grid_sound hterrain
  obtain ⟨level, -, h⟩ := ok_of_bind h
  obtain ⟨level, -, h⟩ := ok_of_bind h
  obtain ⟨depth, -, h⟩ := ok_of_bind h
  obtain ⟨flow, -, h⟩ := ok_of_bind h
  obtain ⟨foliage, -, h⟩ := ok_of_bind h
  obtain ⟨route, -, h⟩ := ok_of_bind h
  obtain ⟨condition, -, h⟩ := ok_of_bind h
  obtain ⟨overlay, -, h⟩ := ok_of_bind h
  obtain ⟨bare, hbare, h⟩ := ok_of_bind h
  obtain ⟨hexes, hplaced, h⟩ := ok_of_bind h
  obtain ⟨⟨⟩, hvalid, h⟩ := ok_of_bind h
  obtain ⟨⟨⟩, hpoints, h⟩ := ok_of_bind h
  obtain ⟨⟨⟩, hregions, h⟩ := ok_of_bind h
  obtain ⟨⟨⟩, hwind, h⟩ := ok_of_bind h
  obtain ⟨flags, hflags, h⟩ := ok_of_bind h
  injection h with h
  subst h
  have hw : (UInt16.ofNat (terrain.headD []).length).toNat = (terrain.headD []).length :=
    UInt16.toNat_ofNat_of_lt' (by
      show (terrain.headD []).length < 65536
      omega)
  have hh : (UInt16.ofNat terrain.length).toNat = terrain.length :=
    UInt16.toNat_ofNat_of_lt' (by
      show terrain.length < 65536
      omega)
  refine ⟨?_, ?_, ?_, ?_, ?_, ?_, ?_, ?_⟩
  · rw [hw]
    exact hwidth
  · rw [hh]
    exact hheight
  · rw [hw, hh]
    have hcount := length_of_mapM _ _ _ hbare
    have hrows := of_mapM (fun row : List Hex => row.length = (terrain.headD []).length) _ _ (by
      intro y _ row hrow
      rw [length_of_mapM _ _ _ hrow, List.length_range]) _ hbare
    have hsame := foldlM_keeps (fun _ after => after.length = bare.flatten.length)
      (fun _ entry _ before after _ hbefore hstep =>
        (placeStructure_length hstep).trans hbefore) rfl hplaced
    have hflatten := length_flatten_rows _ bare hrows
    show hexes.length = _
    rw [hsame, hflatten, hcount, List.length_range]
  · intro hex hhex
    obtain ⟨index, hindex⟩ := List.mem_iff_getElem?.mp hhex
    have hin : (hex, index) ∈ hexes.zipIdx := List.mem_zipIdx_iff_getElem?.mpr hindex
    exact ok_of_withContext (ok_of_forM hvalid (hex, index) hin)
  · show MapFlag.Known flags.toInt64
    rw [toInt64_of_i32TryFrom (ok_of_ofOption hflags)]
    cases file.flags with
    | none => exact hknown
    | some named => exact MapFlag.known_combine named
  · rw [hw, hh]
    exact ok_of_forM hpoints
  · rw [hw, hh]
    exact ok_of_forM hregions
  · intro wind hsome
    exact ok_of_forM hwind wind (Option.mem_toList.mpr hsome)

theorem parse_document {toml : Codec MapFile} (htoml : toml.Lawful MapFile.deserialize)
    {map : MapAsset} (h : map.Valid) (inherited : Int64) :
    parseWithFlags toml (map.file.document.text toml.quote) inherited = .ok map := by
  have hfile := htoml.reads map.file.document map.file map.document_wellFormed
    map.file.deserialize_document
  apply bind_ok (ofOption_ok hfile)
  exact map.build_file h inherited

-- A valid map survives a save, and so does each map that was read; saving it again gives the same
-- text. A file without flags keeps the inherited ones, which must be flags of maps.
theorem file_roundTrips (toml : Codec MapFile) (htoml : toml.Lawful MapFile.deserialize) :
    (∀ map : MapAsset, map.Valid → ∃ text, map.toFile toml = .ok text ∧
      ∀ inherited, parseWithFlags toml text inherited = .ok map) ∧
    ∀ source inherited map, MapFlag.Known inherited →
      parseWithFlags toml source inherited = .ok map →
      ∃ text, map.toFile toml = .ok text ∧ parse toml text = .ok map ∧
        (parse toml text >>= toFile toml) = .ok text := by
  constructor
  · intro map h
    exact ⟨_, toFile_document toml htoml h, parse_document htoml h⟩
  · intro source inherited map hknown hparse
    obtain ⟨file, -, hbuild⟩ := ok_of_bind hparse
    have h := build_valid hknown hbuild
    have hread : parse toml (map.file.document.text toml.quote) = .ok map :=
      parse_document htoml h 0
    refine ⟨_, toFile_document toml htoml h, hread, ?_⟩
    rw [hread]
    exact toFile_document toml htoml h

-- A bridge over rapids, and woods on a hill.
def bridgeMap : MapAsset where
  width := 2
  height := 1
  flags := 36
  gravity := 80
  temperature := -10
  light := some .MoonlessNight
  weather := none
  wind := some ⟨270, 15⟩
  hexes := [⟨0, .Clear, some ⟨3, .Rapids⟩, none, none, some ⟨.Bridge, .Heavy, 2, 60⟩, some .Ice, none⟩,
    ⟨12, .Rough, none, some .HeavyWoods, some .DirtRoad, none, none, some .Smoke⟩]
  pointsOfInterest := [⟨"objective".toList, "Ford".toList, 0, 0, some (-2)⟩]
  regions := [⟨"deployment".toList, "Hill".toList, [(1, 0)]⟩]

theorem bridgeMap_valid : bridgeMap.Valid where
  width := by decide
  height := by decide
  count := by decide
  hexes := by decide
  flags := by decide
  points := by decide
  regions := by decide
  wind := by
    intro wind hwind
    injection hwind with hwind
    subst hwind
    decide

theorem file_roundTrips_bridge : ∃ text, bridgeMap.toFile (reference MapFile.deserialize) = .ok text ∧
    parse (reference MapFile.deserialize) text = .ok bridgeMap ∧
    (parse (reference MapFile.deserialize) text >>= toFile (reference MapFile.deserialize)) =
      .ok text := by
  have ⟨hwrites, hreads⟩ := file_roundTrips (reference MapFile.deserialize)
    (reference_lawful MapFile.deserialize)
  obtain ⟨source, -, hsource⟩ := hwrites bridgeMap bridgeMap_valid
  exact hreads source 0 bridgeMap MapFlag.known_zero (hsource 0)

end MapAsset

end StompyMux.Map
