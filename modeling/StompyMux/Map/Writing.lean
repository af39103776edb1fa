import StompyMux.Map.Saving

-- What the library writes for flags, points of interest and regions.
namespace StompyMux.Map

open Library Library.Fallible Library.Text Library.Toml Library.Grid

theorem trimStartMatches_once {lead text : List Char} (hlead : lead ≠ []) (hrest : ¬ lead <+: text) :
    trimStartMatches lead (lead ++ text) = text := by
  rw [trimStartMatches, dif_pos ⟨hlead, List.prefix_append lead text⟩, List.drop_left, trimStartMatches,
    dif_neg (fun h => hrest h.2)]

theorem flags_quoted (flags : List MapFlag) :
    (Tree.array (flags.map (fun flag => .string (snakeCase flag.variant.toList))) : Value).quoted =
      flagsSpelling flags := by
  simp only [Tree.quoted, Library.Toml.Tree.map, mapItems_eq, List.map_map]
  rfl

theorem tables?_strings (texts : List (List Char)) :
    tables? (.array (texts.map Tree.string)) = none := by
  cases texts <;> rfl

theorem layout_flags (flags : List MapFlag) :
    Document.layout (flagsTable flags) = ⟨[.pair "flags" (flagsSpelling flags)], []⟩ := by
  have hnone : tables? (.array (flags.map (fun flag => .string (snakeCase flag.variant.toList)))) =
      none := by
    have hstrings := tables?_strings (flags.map (fun flag => snakeCase flag.variant.toList))
    rw [List.map_map] at hstrings
    exact hstrings
  unfold Document.layout flagsTable
  simp only [List.filterMap_cons, List.filterMap_nil, List.flatMap_cons, List.flatMap_nil, hnone,
    flags_quoted]
  rfl

theorem whole_text (render : Style × List Char → List Char) (n : Nat) :
    (whole n).text render = decimal n := by
  show integerText n = decimal n
  unfold integerText
  rw [if_neg (by omega), Int.natAbs_natCast]

theorem corners_quoted (corners : List (UInt16 × UInt16)) :
    (Tree.array (corners.map spotValue) : Value).quoted = .array (corners.map spotSpelling) := by
  simp only [Tree.quoted, Library.Toml.Tree.map, mapItems_eq, List.map_map]
  rfl

section

variable (toml : Codec MapFile) (htoml : toml.Lawful MapFile.deserialize)
include htoml

theorem flags_written (flags : List MapFlag) : ∃ text,
    toml.toString (flagsTable flags) = some text ∧
      setting "flags" (trimEnd (trimStartMatches "flags = ".toList text)) =
        linesText toml.quote [.pair "flags" (flagsSpelling flags)] := by
  have hvalue : Ends ((flagsSpelling flags).text (stringText toml.quote)) := ends_array _ _
  have hwell : (Document.layout (flagsTable flags)).WellFormed := by
    rw [layout_flags]
    refine ⟨⟨?_, by simp [entries, Line.entry?]⟩, fun block h => by contradiction,
      fun block h => by contradiction⟩
    intro line hline
    rw [List.mem_singleton.mp hline]
    exact ⟨bare_name (by decide), fits_flags flags _⟩
  have hflat : (Document.layout (flagsTable flags)).Flat := by
    rw [layout_flags]
    refine ⟨?_, fun block h => by contradiction⟩
    intro entry hentry
    rw [List.mem_singleton.mp hentry]
    simp only [flagsSpelling, Tree.value, Library.Toml.Tree.map, mapItems_eq, List.map_map,
      Tree.TableFree, itemsTableFree_iff]
    intro item hitem
    obtain ⟨flag, -, rfl⟩ := List.mem_map.mp hitem
    trivial
  have hwritten := htoml.writes (flagsTable flags) hwell hflat
  rw [layout_flags] at hwritten
  refine ⟨_, hwritten, ?_⟩
  have htext : (Document.text toml.quote ⟨[.pair "flags" (flagsSpelling flags)], []⟩).dropWhile
      (fun c => c == '\n') = "flags = ".toList ++
        ((flagsSpelling flags).text (stringText toml.quote) ++ ['\n']) := by
    simp [Document.text, linesText, Line.text]
  have hbracket : ¬ "flags = ".toList <+: (flagsSpelling flags).text (stringText toml.quote) ++ ['\n'] := by
    have hstart : ∃ rest, (flagsSpelling flags).text (stringText toml.quote) ++ ['\n'] = '[' :: rest := by
      unfold flagsSpelling
      cases flags with
      | nil => exact ⟨_, rfl⟩
      | cons flag flags => exact ⟨_, rfl⟩
    obtain ⟨rest, hrest⟩ := hstart
    rw [hrest]
    rintro ⟨more, hmore⟩
    injection hmore with hmore
    contradiction
  rw [htext, trimStartMatches_once (by decide) hbracket, trimEnd_ends hvalue]
  simp [setting, linesText, Line.text]

omit htoml in
theorem dropWhile_block (name : String) (lines : List Line) (rest : List Char) :
    '\n' :: (blockText toml.quote (name, lines) ++ rest).dropWhile (fun c => c == '\n') =
      blockText toml.quote (name, lines) ++ rest := by
  simp [blockText]

omit htoml in
theorem blocks_end {T : Type} (name : String) (items : List T)
    (fields : T → List (String × Option Spelling)) (hitems : items ≠ [])
    (hends : ∀ a, ∃ text, Ends text ∧ linesText toml.quote (pairs (fields a)) = text ++ ['\n']) :
    ∃ text, Ends text ∧ (items.map (fun item => (name, pairs (fields item)))).flatMap
      (blockText toml.quote) = text ++ ['\n'] := by
  induction items with
  | nil => contradiction
  | cons item items ih =>
      cases items with
      | nil =>
          obtain ⟨text, htext, hend⟩ := hends item
          refine ⟨"\n[[".toList ++ name.toList ++ "]]\n".toList ++ text, ends_append _ _ htext, ?_⟩
          simp [blockText, hend]
      | cons next items =>
          obtain ⟨text, htext, hend⟩ := ih (by simp)
          refine ⟨blockText toml.quote (name, pairs (fields item)) ++ text, ends_append _ _ htext, ?_⟩
          rw [List.map_cons, List.flatMap_cons, hend, List.append_assoc]

omit htoml in
-- The library leaves out the first line feed, and trimming the last one.
theorem trimEnd_blocks {blocks text : List Char} (htext : Ends text) (hend : blocks = text ++ ['\n'])
    (hdrop : '\n' :: blocks.dropWhile (fun c => c == '\n') = blocks) :
    '\n' :: trimEnd (blocks.dropWhile (fun c => c == '\n')) ++ ['\n'] = blocks := by
  obtain ⟨start, c, rfl, hc⟩ := htext
  cases start with
  | nil =>
      rw [hend] at hdrop
      injection hdrop with hdrop
      subst hdrop
      contradiction
  | cons first start =>
      have hrest : blocks.dropWhile (fun c => c == '\n') = (start ++ [c]) ++ ['\n'] := by
        rw [hend] at hdrop ⊢
        injection hdrop
      have hfirst : blocks = '\n' :: ((start ++ [c]) ++ ['\n']) := by
        rw [← hrest, hdrop]
      rw [hrest, trimEnd_ends ⟨start, c, rfl, hc⟩, hfirst]
      rfl

-- By induction on the tables, which the writer separates and ends alike.
theorem tables_written {T : Type} (name : String) (items : List T) (serialize : T → Value)
    (fields : T → List (String × Option Spelling)) (hname : name ∈ MapFile.arrays)
    (hserialize : ∀ a, ∃ table, serialize a = .table table ∧
      table.map (fun field => Line.pair field.1 field.2.quoted) = pairs (fields a))
    (hn : ∀ a, ((fields a).map Prod.fst).Nodup) (hfit : ∀ a, FieldsFit (fields a))
    (hflat : ∀ a, ∀ entry ∈ entries (pairs (fields a)), entry.2.TableFree)
    (hends : ∀ a, ∃ text, Ends text ∧ linesText toml.quote (pairs (fields a)) = text ++ ['\n']) :
    tablesText toml name (items.map serialize) =
      .ok ((items.map (fun item => (name, pairs (fields item)))).flatMap (blockText toml.quote)) := by
  cases items with
  | nil => rfl
  | cons item items =>
      have htables : ∀ (decode : Value → Option Table) (_ : ∀ table, decode (.table table) = some table)
          (all : List T), ∃ tables : List Table, (all.map serialize).mapM decode = some tables ∧
          tables.map (fun block => (name, block.map (fun field => Line.pair field.1 field.2.quoted))) =
            all.map (fun item => (name, pairs (fields item))) := by
        intro decode hdecode all
        induction all with
        | nil => exact ⟨[], rfl, rfl⟩
        | cons a all ih =>
            obtain ⟨tables, htables, hlines⟩ := ih
            obtain ⟨table, htable, hline⟩ := hserialize a
            refine ⟨table :: tables, ?_, ?_⟩
            · rw [List.map_cons, List.mapM_cons, htable, htables, hdecode]
              rfl
            · rw [List.map_cons, List.map_cons, hlines, hline]
      obtain ⟨tables, hfound, hlines⟩ : ∃ tables,
          tables? (.array ((item :: items).map serialize)) = some tables ∧
          tables.map (fun block => (name, block.map (fun field => Line.pair field.1 field.2.quoted))) =
            (item :: items).map (fun item => (name, pairs (fields item))) := by
        show ∃ tables, ((item :: items).map serialize).mapM _ = some tables ∧ _
        refine htables _ ?_ _
        intro table
        rfl
      have hlayout : Document.layout [(name, .array ((item :: items).map serialize))] =
          ⟨[], (item :: items).map (fun item => (name, pairs (fields item)))⟩ := by
        unfold Document.layout
        simp only [List.filterMap_cons, List.filterMap_nil, List.flatMap_cons, List.flatMap_nil, hfound,
          Option.isSome_some, if_true, Option.getD_some, List.append_nil, hlines]
      have hwell : (Document.layout [(name, .array ((item :: items).map serialize))]).WellFormed := by
        rw [hlayout]
        refine ⟨⟨fun line h => by contradiction, List.nodup_nil⟩, ?_, fun block _ h => by contradiction⟩
        intro block hblock
        obtain ⟨a, -, rfl⟩ := List.mem_map.mp hblock
        exact block_wellFormed hname (hn a) (hfit a)
      have hall : (Document.layout [(name, .array ((item :: items).map serialize))]).Flat := by
        rw [hlayout]
        refine ⟨fun entry h => by contradiction, ?_⟩
        intro block hblock
        obtain ⟨a, -, rfl⟩ := List.mem_map.mp hblock
        exact hflat a
      have hwritten := htoml.writes _ hwell hall
      rw [hlayout] at hwritten
      unfold tablesText
      rw [if_neg (by simp), hwritten]
      obtain ⟨text, htext, hend⟩ := blocks_end toml name (item :: items) fields (by simp) hends
      have hdrop := dropWhile_block toml name (pairs (fields item))
        ((items.map (fun item => (name, pairs (fields item)))).flatMap (blockText toml.quote))
      exact congrArg Except.ok (trimEnd_blocks htext hend hdrop)

omit htoml in
theorem lines_end (lines : List Line) (key : String) {value : Spelling}
    (h : Ends (value.text (stringText toml.quote))) : ∃ text, Ends text ∧
      linesText toml.quote (lines ++ [.pair key value]) = text ++ ['\n'] := by
  refine ⟨linesText toml.quote lines ++ (key.toList ++ " = ".toList ++
    value.text (stringText toml.quote)), ends_append _ _ (ends_append _ _ h), ?_⟩
  rw [linesText_append, List.append_assoc]
  simp [linesText, Line.text]

theorem points_written (points : List MapPointOfInterest) :
    tablesText toml "points_of_interest" (points.map MapPointOfInterest.serialize) =
      .ok ((points.map (fun point => ("points_of_interest", pairs point.fields))).flatMap
        (blockText toml.quote)) := by
  apply tables_written toml htoml
  · decide
  · rintro ⟨kind, name, x, y, elevation⟩
    cases elevation with
    | none => exact ⟨_, rfl, rfl⟩
    | some elevation => exact ⟨_, rfl, rfl⟩
  · simp [MapPointOfInterest.fields]
  · exact MapPointOfInterest.fields_fit
  · rintro ⟨kind, name, x, y, elevation⟩ entry hentry
    cases elevation with
    | none =>
        obtain ⟨line, hline, hentry⟩ := List.mem_filterMap.mp hentry
        obtain ⟨key, value, hfield, rfl⟩ := (mem_pairs _ _).mp hline
        injection hentry with hentry
        subst hentry
        simp only [MapPointOfInterest.fields, List.mem_cons, List.not_mem_nil, or_false,
          Prod.mk.injEq, Option.some.injEq] at hfield
        rcases hfield with ⟨-, rfl⟩ | ⟨-, rfl⟩ | ⟨-, rfl⟩ | ⟨-, rfl⟩ | ⟨-, hnone⟩
        · trivial
        · trivial
        · trivial
        · trivial
        · contradiction
    | some elevation =>
        obtain ⟨line, hline, hentry⟩ := List.mem_filterMap.mp hentry
        obtain ⟨key, value, hfield, rfl⟩ := (mem_pairs _ _).mp hline
        injection hentry with hentry
        subst hentry
        simp only [MapPointOfInterest.fields, List.mem_cons, List.not_mem_nil, or_false,
          Prod.mk.injEq, Option.some.injEq, Option.map_some] at hfield
        rcases hfield with ⟨-, rfl⟩ | ⟨-, rfl⟩ | ⟨-, rfl⟩ | ⟨-, rfl⟩ | ⟨-, rfl⟩
        · trivial
        · trivial
        · trivial
        · trivial
        · trivial
  · rintro ⟨kind, name, x, y, elevation⟩
    cases elevation with
    | none =>
        exact lines_end toml (pairs [("type", some (quoted kind)), ("name", some (quoted name)),
          ("x", some (whole x.toNat))]) "y" (ends_integer _)
    | some elevation =>
        exact lines_end toml (pairs [("type", some (quoted kind)), ("name", some (quoted name)),
          ("x", some (whole x.toNat)), ("y", some (whole y.toNat))]) "elevation" (ends_integer _)

theorem regions_written (regions : List MapRegion) :
    tablesText toml "regions" (regions.map MapRegion.serialize) =
      .ok ((regions.map (fun region => ("regions", pairs region.fields))).flatMap
        (blockText toml.quote)) := by
  apply tables_written toml htoml
  · decide
  · intro region
    refine ⟨_, rfl, ?_⟩
    simp only [List.map_cons, List.map_nil, corners_quoted]
    rfl
  · simp [MapRegion.fields]
  · exact MapRegion.fields_fit
  · intro region entry hentry
    obtain ⟨line, hline, hentry⟩ := List.mem_filterMap.mp hentry
    obtain ⟨key, value, hfield, rfl⟩ := (mem_pairs _ _).mp hline
    injection hentry with hentry
    subst hentry
    simp only [MapRegion.fields, List.mem_cons, List.not_mem_nil, or_false, Prod.mk.injEq,
      Option.some.injEq] at hfield
    rcases hfield with ⟨-, rfl⟩ | ⟨-, rfl⟩ | ⟨-, rfl⟩
    · trivial
    · trivial
    · simp only [Tree.value, Library.Toml.Tree.map, mapItems_eq, List.map_map, Tree.TableFree,
        itemsTableFree_iff]
      intro item hitem
      obtain ⟨corner, -, rfl⟩ := List.mem_map.mp hitem
      exact ⟨trivial, trivial, trivial⟩
  · intro region
    exact lines_end toml (pairs [("type", some (quoted region.kind)), ("name", some (quoted region.name))])
      "corners" (ends_array _ _)

omit htoml in
theorem spots_text (spots : List (UInt16 × UInt16)) :
    '[' :: List.intercalate ", ".toList (spots.map spotText) ++ [']'] =
      (Tree.array (spots.map spotSpelling)).text (stringText toml.quote) := by
  have hspot : ∀ place : UInt16 × UInt16,
      (spotSpelling place).text (stringText toml.quote) = spotText place := by
    intro place
    simp only [spotSpelling, Tree.text, moreItems, whole_text, spotText]
    simp
  have hmore : ∀ (place : UInt16 × UInt16) (spots : List (UInt16 × UInt16)),
      List.intercalate ", ".toList ((place :: spots).map spotText) ++ [']'] =
        spotText place ++ moreItems (stringText toml.quote) (spots.map spotSpelling) := by
    intro place spots
    induction spots generalizing place with
    | nil => simp [moreItems]
    | cons next spots ih =>
        rw [List.map_cons, List.map_cons, List.intercalate_cons_cons, ← List.map_cons,
          List.append_assoc, ih next, List.map_cons, moreItems, hspot]
        simp
  cases spots with
  | nil => rfl
  | cons place spots =>
      rw [List.cons_append, hmore place spots, List.map_cons, Tree.text, hspot]
      rfl

omit htoml in
theorem structureText_eq {s : Structure} {spots : List (UInt16 × UInt16)} {entry : StructureEntry}
    (hentry : entry = ⟨s.kind, some s.class',
      if s.cf = s.class'.constructionFactor then none else some s.cf, s.height, spots⟩) :
    structureText s spots = blockText toml.quote ("structures", pairs entry.fields) := by
  subst hentry
  unfold structureText blockText
  rw [spots_text toml]
  by_cases hfull : s.cf = s.class'.constructionFactor
  · simp [hfull, StructureEntry.fields, pairs, linesText, Line.text, setting, whole_text, basic, Tree.text,
      stringText, inQuotes]
  · simp [hfull, StructureEntry.fields, pairs, linesText, Line.text, setting, whole_text, basic, Tree.text,
      stringText, inQuotes]

omit htoml in
theorem settings_text (file : MapFile) (flagsText : List Char)
    (hflags : setting "flags" flagsText =
      linesText toml.quote (pairs [("flags", file.flags.map flagsSpelling)])) :
    linesText toml.quote (pairs file.settings) =
      setting "gravity" (decimal file.gravity.toNat) ++
      setting "temperature" (integerText file.temperature.toInt) ++
      (file.light.map (fun light => setting "light" (inQuotes light.name.toList))).getD [] ++
      (file.weather.map (fun weather => setting "weather" (inQuotes weather.name.toList))).getD [] ++
      (file.wind.map (fun wind => setting "wind" (windText wind))).getD [] ++
      setting "flags" flagsText := by
  have hwind : ∀ wind : Wind, wind.spelling.text (stringText toml.quote) = windText wind := by
    intro wind
    simp [Wind.spelling, Tree.text, moreEntries, whole_text, windText]
  have hsplit : pairs file.settings = pairs (file.settings.take 5) ++
      pairs [("flags", file.flags.map flagsSpelling)] := by
    unfold pairs
    rw [← List.filterMap_append]
    rfl
  rw [hsplit, linesText_append, ← hflags]
  congr 1
  cases hlight : file.light <;> cases hweather : file.weather <;> cases hw : file.wind <;>
    simp [MapFile.settings, pairs, linesText, Line.text, setting, whole_text, basic, Tree.text,
      stringText, inQuotes, hwind, hlight, hweather, hw]

omit htoml in
theorem grid_text (name : String) (grid : Option (List Char)) :
    linesText toml.quote (pairs [(name, grid.map block)]) =
      (grid.map (MapAsset.gridText name)).getD [] := by
  cases grid with
  | none => rfl
  | some rows => simp [pairs, linesText, Line.text, block, Tree.text, stringText, MapAsset.gridText]

omit htoml in
theorem grids_text (file : MapFile) :
    linesText toml.quote (pairs file.grids) =
      MapAsset.gridText "terrain" file.terrain ++ MapAsset.gridText "level" file.level ++
      (file.depth.map (MapAsset.gridText "depth")).getD [] ++
      (file.flow.map (MapAsset.gridText "flow")).getD [] ++
      (file.foliage.map (MapAsset.gridText "foliage")).getD [] ++
      (file.route.map (MapAsset.gridText "route")).getD [] ++
      (file.condition.map (MapAsset.gridText "condition")).getD [] ++
      (file.overlay.map (MapAsset.gridText "overlay")).getD [] := by
  have hsplit : pairs file.grids = pairs [("terrain", (some file.terrain).map block)] ++
      pairs [("level", (some file.level).map block)] ++ pairs [("depth", file.depth.map block)] ++
      pairs [("flow", file.flow.map block)] ++ pairs [("foliage", file.foliage.map block)] ++
      pairs [("route", file.route.map block)] ++ pairs [("condition", file.condition.map block)] ++
      pairs [("overlay", file.overlay.map block)] := by
    unfold pairs
    simp only [← List.filterMap_append]
    rfl
  rw [hsplit]
  simp only [linesText_append, grid_text toml]
  rfl

-- The text is that of the document, part by part in the order of the writer.
theorem MapAsset.toFile_document {map : MapAsset} (h : map.Valid) :
    map.toFile toml = .ok (map.file.document.text toml.quote) := by
  obtain ⟨flagsText, hflagsText, hflags⟩ := flags_written toml htoml map.setFlags
  have hground := map.rows_ok h (fun hex => pure (groundSymbol hex)) groundSymbol (fun hex _ => rfl)
  have hlevel := map.rows_ok h (fun hex => heightSymbol hex.level) levelChar
    (fun hex hhex => heightSymbol_ok (map.sound h hex hhex).level)
  have hdepth := map.layerText_ok h "depth" (fun hex => hex.water.isSome) _ depthChar (map.depth_ok h)
  have hflow := map.layerText_ok h "flow"
    (fun hex => hex.water.any (fun water => !water.flow.isStill))
    (fun hex => pure (encode (hex.water.map Water.flow))) flowChar (fun hex _ => rfl)
  have hfoliage := map.layerText_ok h "foliage" (fun hex => hex.foliage.isSome)
    (fun hex => pure (encode hex.foliage)) (fun hex => encode hex.foliage) (fun hex _ => rfl)
  have hroute := map.layerText_ok h "route" (fun hex => hex.route.isSome)
    (fun hex => pure (encode hex.route)) (fun hex => encode hex.route) (fun hex _ => rfl)
  have hcondition := map.layerText_ok h "condition" (fun hex => hex.condition.isSome)
    (fun hex => pure (encode hex.condition)) (fun hex => encode hex.condition) (fun hex _ => rfl)
  have hoverlay := map.layerText_ok h "overlay" (fun hex => hex.overlay.isSome)
    (fun hex => pure (encode hex.overlay)) (fun hex => encode hex.overlay) (fun hex _ => rfl)
  apply bind_ok (MapAsset.validateHexes_ok _ _ h.hexes)
  apply bind_ok (ofOption_ok hflagsText)
  apply bind_ok hground
  apply bind_ok hlevel
  apply bind_ok hdepth
  apply bind_ok hflow
  apply bind_ok hfoliage
  apply bind_ok hroute
  apply bind_ok hcondition
  apply bind_ok hoverlay
  apply bind_ok (forM_ok h.points)
  apply bind_ok (points_written toml htoml map.pointsOfInterest)
  apply bind_ok (forM_ok h.regions)
  apply bind_ok (regions_written toml htoml map.regions)
  apply congrArg Except.ok
  have hstructures : map.structures.entries.flatMap (fun entry => structureText entry.1 entry.2) =
      (map.structureEntries.map (fun entry => ("structures", pairs entry.fields))).flatMap
        (blockText toml.quote) := by
    unfold MapAsset.structureEntries
    rw [List.map_map, List.flatMap_map]
    apply List.flatMap_congr
    intro entry _
    exact structureText_eq toml rfl
  have hsettings := settings_text toml map.file _ hflags
  have hgrids := grids_text toml map.file
  unfold Document.text MapFile.document
  rw [linesText_append, hsettings]
  show _ = _ ++ ('\n' :: linesText toml.quote (pairs map.file.grids)) ++ _
  rw [hgrids, hstructures, List.flatMap_append, List.flatMap_append]
  simp only [List.append_assoc, List.cons_append, List.nil_append]
  rfl

end

end StompyMux.Map
