import StompyMux.Map.Document

-- The text that a map is written as is the text of its document.
namespace StompyMux.Map

open Library Library.Fallible Library.Text Library.Toml Library.Grid

def levelChar (hex : Hex) : Char := (fromDigit 36 hex.level.toNat).getD '?'

def depthChar (hex : Hex) : Char :=
  match hex.water with
  | none => '.'
  | some water => (fromDigit 36 water.depth.toNat).getD '?'

def flowChar (hex : Hex) : Char := encode (hex.water.map Water.flow)

namespace MapAsset

variable (map : MapAsset)

def gridRows (symbol : Hex → Char) : List Char :=
  rowsText ((chunks map.width.toNat map.hexes).map (List.map symbol))

def layerRows (has : Hex → Bool) (symbol : Hex → Char) : Option (List Char) :=
  if map.hexes.any has then some (map.gridRows symbol) else none

def structureEntries : List StructureEntry :=
  map.structures.entries.map (fun entry =>
    { kind := entry.1.kind
      class' := some entry.1.class'
      cf := if entry.1.cf = entry.1.class'.constructionFactor then none else some entry.1.cf
      height := entry.1.height
      hexes := entry.2 })

def setFlags : List MapFlag := MapFlag.ALL.filter (fun flag => flag.isSet map.flags.toInt64)

def file : MapFile where
  gravity := map.gravity
  temperature := map.temperature
  light := map.light
  weather := map.weather
  wind := map.wind
  flags := some map.setFlags
  terrain := map.gridRows groundSymbol
  level := map.gridRows levelChar
  depth := map.layerRows (fun hex => hex.water.isSome) depthChar
  flow := map.layerRows (fun hex => hex.water.any (fun water => !water.flow.isStill)) flowChar
  foliage := map.layerRows (fun hex => hex.foliage.isSome) (fun hex => encode hex.foliage)
  route := map.layerRows (fun hex => hex.route.isSome) (fun hex => encode hex.route)
  condition := map.layerRows (fun hex => hex.condition.isSome) (fun hex => encode hex.condition)
  overlay := map.layerRows (fun hex => hex.overlay.isSome) (fun hex => encode hex.overlay)
  structures := map.structureEntries
  pointsOfInterest := map.pointsOfInterest
  regions := map.regions

end MapAsset

theorem fromDigit_isSome {radix value : Nat} (h : value < radix) : ∃ c, fromDigit radix value = some c := by
  unfold fromDigit
  rw [if_pos h]
  exact ⟨_, rfl⟩

theorem heightSymbol_ok {value : UInt8} (h : value ≤ MAX_HEIGHT) :
    heightSymbol value = .ok ((fromDigit 36 value.toNat).getD '?') := by
  have hlt : value.toNat < 36 := by
    have hle : value.toNat ≤ 35 := h
    omega
  obtain ⟨c, hc⟩ := fromDigit_isSome hlt
  unfold heightSymbol
  rw [hc]
  rfl

namespace MapAsset

variable (map : MapAsset)

theorem exists_hexRows (h : map.Valid) : ∃ rows : List (List Hex), rows.flatten = map.hexes ∧
    rows.length = map.height.toNat ∧ (∀ row ∈ rows, row.length = map.width.toNat) ∧
    chunks map.width.toNat map.hexes = rows := by
  obtain ⟨rows, hflat, hcount, hrows⟩ := exists_rows map.width.toNat map.height.toNat map.hexes h.count
  refine ⟨rows, hflat, hcount, hrows, ?_⟩
  rw [← hflat]
  exact chunks_flatten map.width.toNat rows h.width.1 hrows

theorem rows_ok (h : map.Valid) (encode : Hex → Except Error Char) (symbol : Hex → Char)
    (hsymbol : ∀ hex ∈ map.hexes, encode hex = .ok (symbol hex)) :
    map.rows encode = .ok (map.gridRows symbol) := by
  obtain ⟨rows, hflat, -, -, hchunks⟩ := map.exists_hexRows h
  have hwidth : (map.width != 0) = true := by
    have hpos := h.width.1
    rw [bne_iff_ne]
    rintro hzero
    rw [hzero] at hpos
    contradiction
  have hrows := mapM_ok (fun row => row.mapM encode) (List.map symbol) rows (by
    intro row hrow
    apply mapM_ok
    intro hex hhex
    apply hsymbol
    rw [← hflat]
    exact List.mem_flatten.mpr ⟨row, hrow, hhex⟩)
  unfold MapAsset.rows gridRows
  rw [hwidth, hchunks]
  show (rows.mapM (fun row => row.mapM encode) >>= _) = _
  rw [hrows]
  rfl

theorem layerText_ok (h : map.Valid) (name : String) (has : Hex → Bool)
    (encode : Hex → Except Error Char) (symbol : Hex → Char)
    (hsymbol : ∀ hex ∈ map.hexes, encode hex = .ok (symbol hex)) :
    map.layerText name has encode =
      .ok (((map.layerRows has symbol).map (gridText name)).getD []) := by
  unfold layerText layerRows
  by_cases hany : map.hexes.any has = true
  · rw [if_pos hany, if_pos hany, map.rows_ok h encode symbol hsymbol]
    rfl
  · rw [if_neg hany, if_neg hany]
    rfl

theorem validateHexes_ok (width : Nat) (hexes : List Hex) (h : ∀ hex ∈ hexes, hex.validate = .ok ()) :
    validateHexes width hexes = .ok () := by
  apply forM_ok
  rintro ⟨hex, index⟩ hin
  have hmem : hex ∈ hexes := List.fst_mem_of_mem_zipIdx hin
  exact withContext_ok (h hex hmem)

theorem sound (h : map.Valid) : ∀ hex ∈ map.hexes, hex.Sound :=
  fun hex hhex => hex.sound_of_validate (h.hexes hex hhex)

theorem depth_ok (h : map.Valid) (hex : Hex) (hhex : hex ∈ map.hexes) :
    (match hex.water with
      | none => pure '.'
      | some water => heightSymbol water.depth) = (.ok (depthChar hex) : Except Error Char) := by
  have hsound := map.sound h hex hhex
  unfold depthChar
  cases hwater : hex.water with
  | none => rfl
  | some water =>
      have hdepth : water.depth.toNat ≤ 9 := hsound.depth water hwater
      apply heightSymbol_ok
      show water.depth.toNat ≤ 35
      omega

end MapAsset

theorem fits_whole {n : Nat} (depth : Nat) (h : n < 2 ^ 16) : (whole n).Fits Spelled depth := by
  have hrange : (-2 ^ 63 : Int) ≤ n ∧ (n : Int) < 2 ^ 63 := by omega
  cases depth with
  | zero => exact hrange
  | succ depth => exact hrange

theorem fits_i8 (n : Int8) (depth : Nat) : (Tree.integer n.toInt : Spelling).Fits Spelled depth := by
  have hlow := n.le_toInt
  have hhigh := n.toInt_lt
  have hrange : (-2 ^ 63 : Int) ≤ n.toInt ∧ n.toInt < 2 ^ 63 := by omega
  cases depth with
  | zero => exact hrange
  | succ depth => exact hrange

theorem fits_u8 (n : UInt8) (depth : Nat) : (whole n.toNat).Fits Spelled depth := by
  have hn := n.toNat_lt
  exact fits_whole depth (by omega)

theorem fits_u16 (n : UInt16) (depth : Nat) : (whole n.toNat).Fits Spelled depth :=
  fits_whole depth n.toNat_lt

theorem fits_quoted (text : List Char) (depth : Nat) : (quoted text).Fits Spelled depth := by
  cases depth with
  | zero => trivial
  | succ depth => trivial

theorem fits_string {text : Style × List Char} (depth : Nat) (h : Spelled text) :
    (Tree.string text).Fits Spelled depth := by
  cases depth with
  | zero => exact h
  | succ depth => exact h

theorem fits_spots (spots : List (UInt16 × UInt16)) (depth : Nat) :
    (Tree.array (spots.map spotSpelling)).Fits Spelled (depth + 2) := by
  apply (itemsFit_iff _ _ _).mpr
  intro item hitem
  obtain ⟨place, -, rfl⟩ := List.mem_map.mp hitem
  exact ⟨fits_u16 place.1 depth, fits_u16 place.2 depth, trivial⟩

theorem fits_flags (flags : List MapFlag) (depth : Nat) :
    (flagsSpelling flags).Fits Spelled (depth + 1) := by
  apply (itemsFit_iff _ _ _).mpr
  intro item hitem
  obtain ⟨flag, -, rfl⟩ := List.mem_map.mp hitem
  exact fits_quoted _ depth

theorem fits_wind (wind : Wind) (depth : Nat) : wind.spelling.Fits Spelled (depth + 1) := by
  refine ⟨by simp, ?_⟩
  have hdirection : BareKey "direction" := ⟨by decide, by decide⟩
  have hspeed : BareKey "speed" := ⟨by decide, by decide⟩
  exact ⟨hdirection, fits_u16 wind.direction depth, hspeed, fits_u16 wind.speed depth, trivial⟩

theorem spelled_light (light : Light) : Spelled (.Basic, light.name.toList) := by
  cases light <;> decide

theorem spelled_weather (weather : Weather) : Spelled (.Basic, weather.name.toList) := by
  cases weather <;> decide

theorem spelled_kind (kind : StructureKind) : Spelled (.Basic, (kindName kind).toList) := by
  cases kind <;> decide

theorem spelled_class (class' : ConstructionClass) :
    Spelled (.Basic, (Hex.lowercase class'.label).toList) := by
  cases class' <;> decide

-- What may stand in a grid.
def GridChar (c : Char) : Prop := printable c = true ∧ c ≠ '\''

instance : DecidablePred GridChar :=
  fun c => inferInstanceAs (Decidable (printable c = true ∧ c ≠ '\''))

theorem gridChar_digit (n : Nat) : GridChar ((fromDigit 36 n).getD '?') := by
  by_cases h : n < 36
  · have hall : ∀ n < 36, GridChar ((fromDigit 36 n).getD '?') := by decide
    exact hall n h
  · unfold fromDigit
    rw [if_neg h]
    decide

theorem gridChar_ground (hex : Hex) : GridChar (groundSymbol hex) := by
  unfold groundSymbol
  by_cases hwater : hex.water.isSome = true
  · rw [if_pos hwater]
    decide
  · rw [if_neg hwater]
    cases hex.ground <;> decide

theorem gridChar_depth (hex : Hex) : GridChar (depthChar hex) := by
  unfold depthChar
  cases hex.water with
  | none => decide
  | some water => exact gridChar_digit water.depth.toNat

theorem gridChar_flow (flow : Option Flow) : GridChar (encode flow) := by
  rcases flow with _ | flow
  · decide
  · cases flow <;> decide

theorem gridChar_foliage (foliage : Option Foliage) : GridChar (encode foliage) := by
  rcases foliage with _ | foliage
  · decide
  · cases foliage <;> decide

theorem gridChar_route (route : Option Route) : GridChar (encode route) := by
  rcases route with _ | route
  · decide
  · cases route <;> decide

theorem gridChar_condition (condition : Option Condition) : GridChar (encode condition) := by
  rcases condition with _ | condition
  · decide
  · cases condition <;> decide

theorem gridChar_overlay (overlay : Option DecorationKind) : GridChar (encode overlay) := by
  rcases overlay with _ | overlay
  · decide
  · cases overlay <;> decide

namespace MapAsset

variable (map : MapAsset)

theorem fits_gridRows (symbol : Hex → Char) (hsymbol : ∀ hex, GridChar (symbol hex)) :
    (block (map.gridRows symbol)).Fits Spelled nesting := by
  apply fits_string
  intro c hc
  obtain ⟨row, hrow, hc⟩ := List.mem_flatMap.mp hc
  obtain ⟨hexes, -, rfl⟩ := List.mem_map.mp hrow
  rcases List.mem_append.mp hc with hc | hc
  · obtain ⟨hex, -, rfl⟩ := List.mem_map.mp hc
    exact .inr (hsymbol hex)
  · exact .inl (List.mem_singleton.mp hc)

theorem fits_layerRows (has : Hex → Bool) (symbol : Hex → Char)
    (hsymbol : ∀ hex, GridChar (symbol hex)) (value : Spelling)
    (h : (map.layerRows has symbol).map block = some value) : value.Fits Spelled nesting := by
  unfold layerRows at h
  by_cases hany : map.hexes.any has = true
  · rw [if_pos hany] at h
    injection h with h
    rw [← h]
    exact map.fits_gridRows symbol hsymbol
  · rw [if_neg hany] at h
    contradiction

end MapAsset

theorem fits_map {T : Type} (spell : T → Spelling) (field : Option T)
    (h : ∀ a, (spell a).Fits Spelled nesting) (value : Spelling) (hv : field.map spell = some value) :
    value.Fits Spelled nesting := by
  obtain ⟨a, -, rfl⟩ := Option.map_eq_some_iff.mp hv
  exact h a

theorem fits_some (spelling : Spelling) (h : spelling.Fits Spelled nesting) (value : Spelling)
    (hv : some spelling = some value) : value.Fits Spelled nesting := by
  injection hv with hv
  rw [← hv]
  exact h

theorem bare_name {name : String} (h : name.toList ≠ [] ∧ name.toList.all isBare = true) :
    BareKey name := ⟨h.1, List.all_eq_true.mp h.2⟩

theorem StructureEntry.fields_fit (entry : StructureEntry) : FieldsFit entry.fields := by
  simp only [FieldsFit, fields, List.forall_mem_cons]
  refine ⟨⟨bare_name (by decide), fits_some _ (fits_string _ (spelled_kind entry.kind))⟩,
    ⟨bare_name (by decide), fits_map _ _ (fun class' => fits_string _ (spelled_class class'))⟩,
    ⟨bare_name (by decide), fits_map _ _ (fun cf => fits_u16 cf _)⟩,
    ⟨bare_name (by decide), fits_some _ (fits_u8 entry.height _)⟩,
    ⟨bare_name (by decide), fits_some _ (fits_spots entry.hexes _)⟩, fun field h => by contradiction⟩

theorem MapPointOfInterest.fields_fit (point : MapPointOfInterest) : FieldsFit point.fields := by
  simp only [FieldsFit, fields, List.forall_mem_cons]
  refine ⟨⟨bare_name (by decide), fits_some _ (fits_quoted point.kind _)⟩,
    ⟨bare_name (by decide), fits_some _ (fits_quoted point.name _)⟩,
    ⟨bare_name (by decide), fits_some _ (fits_u16 point.x _)⟩,
    ⟨bare_name (by decide), fits_some _ (fits_u16 point.y _)⟩,
    ⟨bare_name (by decide), fits_map _ _ (fun elevation => fits_i8 elevation _)⟩,
    fun field h => by contradiction⟩

theorem MapRegion.fields_fit (region : MapRegion) : FieldsFit region.fields := by
  simp only [FieldsFit, fields, List.forall_mem_cons]
  refine ⟨⟨bare_name (by decide), fits_some _ (fits_quoted region.kind _)⟩,
    ⟨bare_name (by decide), fits_some _ (fits_quoted region.name _)⟩,
    ⟨bare_name (by decide), fits_some _ (fits_spots region.corners _)⟩,
    fun field h => by contradiction⟩

theorem MapAsset.fields_fit (map : MapAsset) : FieldsFit map.file.fields := by
  simp only [FieldsFit, MapFile.fields, MapFile.settings, MapFile.grids, List.forall_mem_append,
    List.forall_mem_cons]
  refine ⟨⟨⟨bare_name (by decide), fits_some _ (fits_u8 map.gravity _)⟩,
      ⟨bare_name (by decide), fits_some _ (fits_i8 map.temperature _)⟩,
      ⟨bare_name (by decide), fits_map _ _ (fun light => fits_string _ (spelled_light light))⟩,
      ⟨bare_name (by decide), fits_map _ _ (fun weather => fits_string _ (spelled_weather weather))⟩,
      ⟨bare_name (by decide), fits_map _ _ (fun wind => fits_wind wind _)⟩,
      ⟨bare_name (by decide), fits_map _ _ (fun flags => fits_flags flags _)⟩,
      fun field h => by contradiction⟩,
    ⟨bare_name (by decide), fits_some _ (map.fits_gridRows _ gridChar_ground)⟩,
    ⟨bare_name (by decide), fits_some _ (map.fits_gridRows _ (fun hex => gridChar_digit _))⟩,
    ⟨bare_name (by decide), map.fits_layerRows _ _ gridChar_depth⟩,
    ⟨bare_name (by decide), map.fits_layerRows _ _ (fun hex => gridChar_flow _)⟩,
    ⟨bare_name (by decide), map.fits_layerRows _ _ (fun hex => gridChar_foliage _)⟩,
    ⟨bare_name (by decide), map.fits_layerRows _ _ (fun hex => gridChar_route _)⟩,
    ⟨bare_name (by decide), map.fits_layerRows _ _ (fun hex => gridChar_condition _)⟩,
    ⟨bare_name (by decide), map.fits_layerRows _ _ (fun hex => gridChar_overlay _)⟩,
    fun field h => by contradiction⟩

theorem block_wellFormed {name : String} {fields : List (String × Option Spelling)}
    (hname : name ∈ MapFile.arrays) (hn : (fields.map Prod.fst).Nodup) (hfit : FieldsFit fields) :
    BareKey name ∧ LinesWellFormed (pairs fields) := by
  refine ⟨?_, pairs_wellFormed fields hn hfit⟩
  have hall : ∀ name ∈ MapFile.arrays, name.toList ≠ [] ∧ name.toList.all isBare = true := by decide
  exact bare_name (hall name hname)

-- The keys are fixed words, no two the same.
theorem MapAsset.document_wellFormed (map : MapAsset) : map.file.document.WellFormed where
  root := by
    have hpairs := pairs_wellFormed map.file.fields map.file.fields_nodup map.fields_fit
    refine ⟨?_, ?_⟩
    · intro line hline
      rcases List.mem_append.mp hline with hline | hline
      · apply hpairs.1
        unfold MapFile.fields pairs
        rw [List.filterMap_append]
        exact List.mem_append_left _ hline
      · rcases List.mem_cons.mp hline with rfl | hline
        · trivial
        · apply hpairs.1
          unfold MapFile.fields pairs
          rw [List.filterMap_append]
          exact List.mem_append_right _ hline
    · rw [MapFile.entries_root]
      exact hpairs.2
  blocks := by
    intro block hblock
    have hname := map.file.block_name hblock
    unfold MapFile.document at hblock
    rcases List.mem_append.mp hblock with hblock | hblock
    · rcases List.mem_append.mp hblock with hblock | hblock
      · obtain ⟨entry, -, rfl⟩ := List.mem_map.mp hblock
        exact block_wellFormed hname (by simp [StructureEntry.fields]) entry.fields_fit
      · obtain ⟨point, -, rfl⟩ := List.mem_map.mp hblock
        exact block_wellFormed hname (by simp [MapPointOfInterest.fields]) point.fields_fit
    · obtain ⟨region, -, rfl⟩ := List.mem_map.mp hblock
      exact block_wellFormed hname (by simp [MapRegion.fields]) region.fields_fit
  apart := by
    intro block hblock hmem
    rw [MapFile.entries_root] at hmem
    have hkey := (keys_pairs map.file.fields).subset hmem
    have hfields : map.file.fields.map Prod.fst = MapFile.keys.take 14 := rfl
    rw [hfields] at hkey
    have hapart : ∀ name ∈ MapFile.arrays, name ∉ MapFile.keys.take 14 := by decide
    exact hapart _ (map.file.block_name hblock) hkey

end StompyMux.Map
