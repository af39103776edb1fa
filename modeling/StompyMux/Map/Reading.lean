import StompyMux.Map.Writing

-- The hexes that the grids of a written map describe.
namespace StompyMux.Map

open Library Library.Fallible Library.Text Library.Toml Library.Grid

theorem GridChar.not_end (c : Char) (h : GridChar c) : c ≠ '\n' ∧ c ≠ '\r' := by
  constructor <;> rintro rfl <;> exact absurd h.1 (by decide)

-- Rows of one width are split where they were joined.
theorem grid_rowsText (name : String) (rows : List (List Char)) (width : Nat)
    (hcount : 1 ≤ rows.length ∧ rows.length ≤ MAX_DIMENSION) (hwidth : 1 ≤ width ∧ width ≤ MAX_DIMENSION)
    (hrows : ∀ row ∈ rows, row.length = width) (hchars : ∀ row ∈ rows, ∀ c ∈ row, GridChar c) :
    grid name (rowsText rows) = .ok rows ∧ (rows.headD []).length = width := by
  have hlines := lines_rowsText rows (fun row hrow =>
    ⟨fun hmem => (hchars row hrow _ hmem).not_end.1 rfl, fun hmem => (hchars row hrow _ hmem).not_end.2 rfl⟩)
  have hhead : (rows.headD []).length = width := by
    cases rows with
    | nil => exact absurd hcount.1 (by decide)
    | cons row rows => exact hrows row List.mem_cons_self
  refine ⟨?_, hhead⟩
  unfold grid
  rw [hlines]
  apply bind_ok (ensure_ok (by
    cases rows with
    | nil => exact absurd hcount.1 (by decide)
    | cons row rows => rfl))
  apply bind_ok (ensure_ok (by
    rw [hhead]
    exact decide_eq_true hwidth.1))
  apply bind_ok (forM_ok (by
    rintro ⟨row, y⟩ hin
    apply ensure_ok
    rw [hhead, hrows row (List.fst_mem_of_mem_zipIdx hin)]
    exact decide_eq_true rfl))
  apply bind_ok (ensure_ok (by
    rw [hhead]
    simp only [Bool.and_eq_true, decide_eq_true_eq]
    exact ⟨hwidth.2, hcount.2⟩))
  rfl

section

variable (map : MapAsset) (h : map.Valid) (rows : List (List Hex))
  (hcount : rows.length = map.height.toNat) (hrows : ∀ row ∈ rows, row.length = map.width.toNat)
  (hchunks : chunks map.width.toNat map.hexes = rows)
include h hcount hrows hchunks

theorem grid_gridRows (name : String) (symbol : Hex → Char) (hsymbol : ∀ hex, GridChar (symbol hex)) :
    grid name (map.gridRows symbol) = .ok (rows.map (List.map symbol)) ∧
      ((rows.map (List.map symbol)).headD []).length = map.width.toNat := by
  unfold MapAsset.gridRows
  rw [hchunks]
  apply grid_rowsText
  · rw [List.length_map, hcount]
    exact h.height
  · exact h.width
  · intro row hrow
    obtain ⟨hexes, hhexes, rfl⟩ := List.mem_map.mp hrow
    rw [List.length_map]
    exact hrows hexes hhexes
  · intro row hrow c hc
    obtain ⟨hexes, -, rfl⟩ := List.mem_map.mp hrow
    obtain ⟨hex, -, rfl⟩ := List.mem_map.mp hc
    exact hsymbol hex

theorem matchingGrid_gridRows (name : String) (symbol : Hex → Char)
    (hsymbol : ∀ hex, GridChar (symbol hex)) :
    matchingGrid name (some (map.gridRows symbol)) map.width.toNat map.height.toNat =
      .ok (some (rows.map (List.map symbol))) := by
  have ⟨hgrid, hhead⟩ := grid_gridRows map h rows hcount hrows hchunks name symbol hsymbol
  apply bind_ok hgrid
  apply bind_ok (ensure_ok (by
    rw [List.length_map, hcount, hhead]
    simp))
  rfl

theorem matchingGrid_layerRows (name : String) (has : Hex → Bool) (symbol : Hex → Char)
    (hsymbol : ∀ hex, GridChar (symbol hex)) :
    matchingGrid name (map.layerRows has symbol) map.width.toNat map.height.toNat =
      .ok (if map.hexes.any has then some (rows.map (List.map symbol)) else none) := by
  unfold MapAsset.layerRows
  by_cases hany : map.hexes.any has = true
  · rw [if_pos hany, if_pos hany]
    exact matchingGrid_gridRows map h rows hcount hrows hchunks name symbol hsymbol
  · rw [if_neg hany, if_neg hany]
    rfl

end

theorem symbolAt_map {rows : List (List Hex)} (symbol : Hex → Char) {x y : Nat} {row : List Hex}
    {hex : Hex} (hy : rows[y]? = some row) (hx : row[x]? = some hex) :
    symbolAt (rows.map (List.map symbol)) x y = .ok (symbol hex) := by
  apply ofOption_ok
  rw [List.getElem?_map, hy, Option.map_some, Option.bind_some, List.getElem?_map, hx, Option.map_some]

theorem height_symbol {n : Nat} (h : n < 36) : height ((fromDigit 36 n).getD '?') = some (UInt8.ofNat n) := by
  have hall : ∀ n < 36, height ((fromDigit 36 n).getD '?') = some (UInt8.ofNat n) := by decide
  exact hall n h

theorem depth_symbol (n : Nat) (h : n < 10) :
    (fromDigit 36 n).getD '?' ≠ '.' ∧ toDigit 10 ((fromDigit 36 n).getD '?') = some (UInt8.ofNat n) := by
  have hall : ∀ n < 10, (fromDigit 36 n).getD '?' ≠ '.' ∧
      toDigit 10 ((fromDigit 36 n).getD '?') = some (UInt8.ofNat n) := by decide
  exact hall n h

theorem ground_symbol (hex : Hex) :
    ground (groundSymbol hex) = some (if hex.water.isSome then none else some hex.ground) := by
  unfold groundSymbol
  by_cases hwater : hex.water.isSome = true
  · rw [if_pos hwater, if_pos hwater]
    rfl
  · rw [if_neg hwater, if_neg hwater]
    cases hex.ground <;> rfl

-- Symbols that are read as what they were written for.
class LawfulSymbol (T : Type) [LayerSymbol T] [DecidableEq T] : Prop where
  decode_encode : ∀ value : Option T, decode (encode value) = some value

instance : LawfulSymbol Foliage where
  decode_encode value := by
    rcases value with _ | foliage
    · rfl
    · cases foliage <;> decide

instance : LawfulSymbol Route where
  decode_encode value := by
    rcases value with _ | route
    · rfl
    · cases route <;> decide

instance : LawfulSymbol Condition where
  decode_encode value := by
    rcases value with _ | condition
    · rfl
    · cases condition <;> decide

instance : LawfulSymbol DecorationKind where
  decode_encode value := by
    rcases value with _ | overlay
    · rfl
    · cases overlay <;> decide

-- Still water has no symbol of its own.
theorem decode_flow (flow : Option Flow) :
    decode (encode flow) = some (flow.filter (fun flow => !flow.isStill)) := by
  rcases flow with _ | flow
  · rfl
  · cases flow <;> decide

section

variable (map : MapAsset) (rows : List (List Hex)) (hflat : rows.flatten = map.hexes)
  (x y : Nat) (row : List Hex) (hex : Hex) (hy : rows[y]? = some row) (hx : row[x]? = some hex)
include hflat hy hx

theorem hex_mem : hex ∈ map.hexes := by
  rw [← hflat]
  exact List.mem_flatten.mpr ⟨row, List.mem_of_getElem? hy, List.mem_of_getElem? hx⟩

theorem layer_at {T : Type} [LayerSymbol T] (has : Hex → Bool) (symbol : Hex → Char)
    (layer : Hex → Option T) (hlayer : ∀ hex, has hex = false → layer hex = none)
    (hdecode : ∀ hex, decode (symbol hex) = some (layer hex)) :
    (⟨if map.hexes.any has then some (rows.map (List.map symbol)) else none⟩ : LayerGrid T).at' x y =
      .ok (layer hex) := by
  by_cases hany : map.hexes.any has = true
  · rw [if_pos hany]
    apply bind_ok (symbolAt_map symbol hy hx)
    exact ofOption_ok (hdecode hex)
  · rw [if_neg hany]
    have hmem := hex_mem map rows hflat x y row hex hy hx
    have hnone := List.any_eq_false.mp (Bool.eq_false_iff.mpr hany) hex hmem
    rw [hlayer hex (Bool.eq_false_iff.mpr hnone)]
    rfl

def MapAsset.grids (map : MapAsset) (rows : List (List Hex)) : Grids where
  terrain := rows.map (List.map groundSymbol)
  level := rows.map (List.map levelChar)
  depth := if map.hexes.any (fun hex => hex.water.isSome) then some (rows.map (List.map depthChar)) else none
  flow := ⟨if map.hexes.any (fun hex => hex.water.any (fun water => !water.flow.isStill)) then
    some (rows.map (List.map flowChar)) else none⟩
  foliage := ⟨if map.hexes.any (fun hex => hex.foliage.isSome) then
    some (rows.map (List.map (fun hex => encode hex.foliage))) else none⟩
  route := ⟨if map.hexes.any (fun hex => hex.route.isSome) then
    some (rows.map (List.map (fun hex => encode hex.route))) else none⟩
  condition := ⟨if map.hexes.any (fun hex => hex.condition.isSome) then
    some (rows.map (List.map (fun hex => encode hex.condition))) else none⟩
  overlay := ⟨if map.hexes.any (fun hex => hex.overlay.isSome) then
    some (rows.map (List.map (fun hex => encode hex.overlay))) else none⟩

def Hex.bare (hex : Hex) : Hex := { hex with structure' := none }

-- The depth grid decides: where there is water, the ground is not spelled.
theorem water_at (h : map.Valid) : ∃ depth, (map.grids rows).depthAt x y = .ok depth ∧
    waterAt (if hex.water.isSome then none else some hex.ground) depth x y =
      .ok (hex.water.map (fun water => ⟨water.depth, .Still⟩)) := by
  have hmem := hex_mem map rows hflat x y row hex hy hx
  have hsound := map.sound h hex hmem
  unfold Grids.depthAt MapAsset.grids
  by_cases hany : map.hexes.any (fun hex => hex.water.isSome) = true
  · rw [if_pos hany]
    refine ⟨some (depthChar hex), ?_, ?_⟩
    · apply bind_ok (symbolAt_map depthChar hy hx)
      rfl
    · unfold depthChar
      cases hwater : hex.water with
      | none => rfl
      | some water =>
          have hdepth : water.depth.toNat ≤ 9 := hsound.depth water hwater
          have ⟨hdot, hdigit⟩ := depth_symbol water.depth.toNat (by omega)
          simp only [Option.isSome_some, if_true]
          unfold waterAt
          split
          · rename_i hsome _
            contradiction
          · rename_i hsome _
            contradiction
          · rename_i hsome _
            contradiction
          · rename_i hnone
            contradiction
          · rename_i heq
            injection heq with heq
            exact absurd heq hdot
          · rename_i depth _ heq
            injection heq with heq
            rw [← heq]
            apply bind_ok (ofOption_ok hdigit)
            rw [UInt8.ofNat_toNat]
            rfl
  · rw [if_neg hany]
    have hnone : hex.water = none := by
      simpa using List.any_eq_false.mp (Bool.eq_false_iff.mpr hany) hex hmem
    refine ⟨none, rfl, ?_⟩
    rw [hnone]
    rfl

-- Each place is read as its hex without a structure.
theorem hexAt_grids (h : map.Valid) : (map.grids rows).hexAt x y = .ok hex.bare := by
  have hmem := hex_mem map rows hflat x y row hex hy hx
  have hsound := map.sound h hex hmem
  have hlevel : hex.level.toNat ≤ 35 := hsound.level
  obtain ⟨depth, hdepth, hwater⟩ := water_at map rows hflat x y row hex hy hx h
  have hflow := layer_at map rows hflat x y row hex hy hx
    (fun hex => hex.water.any (fun water => !water.flow.isStill)) flowChar
    (fun hex => (hex.water.map Water.flow).filter (fun flow : Flow => !flow.isStill)) (by
      intro hex hstill
      cases hw : hex.water with
      | none => rfl
      | some water =>
          rw [hw] at hstill
          simp only [Option.any_some, Bool.not_eq_false'] at hstill
          simp [hstill]) (fun hex => decode_flow (hex.water.map Water.flow))
  have hfoliage := layer_at map rows hflat x y row hex hy hx (fun hex => hex.foliage.isSome)
    (fun hex => encode hex.foliage) Hex.foliage (fun hex hnone => by simpa using hnone)
    (fun hex => LawfulSymbol.decode_encode hex.foliage)
  have hroute := layer_at map rows hflat x y row hex hy hx (fun hex => hex.route.isSome)
    (fun hex => encode hex.route) Hex.route (fun hex hnone => by simpa using hnone)
    (fun hex => LawfulSymbol.decode_encode hex.route)
  have hcondition := layer_at map rows hflat x y row hex hy hx (fun hex => hex.condition.isSome)
    (fun hex => encode hex.condition) Hex.condition (fun hex hnone => by simpa using hnone)
    (fun hex => LawfulSymbol.decode_encode hex.condition)
  have hoverlay := layer_at map rows hflat x y row hex hy hx (fun hex => hex.overlay.isSome)
    (fun hex => encode hex.overlay) Hex.overlay (fun hex hnone => by simpa using hnone)
    (fun hex => LawfulSymbol.decode_encode hex.overlay)
  apply bind_ok (symbolAt_map groundSymbol hy hx)
  apply bind_ok (ofOption_ok (ground_symbol hex))
  apply bind_ok (symbolAt_map levelChar hy hx)
  apply bind_ok (ofOption_ok (height_symbol (by omega)))
  apply bind_ok hdepth
  apply bind_ok hwater
  apply bind_ok hflow
  apply bind_ok (ensure_ok (by cases hex.water <;> simp))
  apply bind_ok hfoliage
  apply bind_ok hroute
  apply bind_ok hcondition
  apply bind_ok hoverlay
  apply congrArg Except.ok
  obtain ⟨level, ground, water, foliage, route, s, condition, overlay⟩ := hex
  rw [UInt8.ofNat_toNat]
  cases water with
  | none => rfl
  | some water =>
      have hclear : ground = .Clear := hsound.ground water rfl
      obtain ⟨depth, flow⟩ := water
      subst hclear
      cases flow <;> rfl

end

end StompyMux.Map
