import Mathlib.Data.Finset.Prod
import StompyMux.Library.Contour
import StompyMux.Library.Smallest
import StompyMux.Mapgen.Path

-- The outline of a footprint, traced around its edge and thinned to the corners that matter.
namespace StompyMux.Mapgen

open Library.Contour Library.Smallest
open StompyMux.Map

abbrev Corner := UInt16 × UInt16

-- The neighbor by direction, clockwise from north.
def HexMap.adjacent (map : HexMap) (hex : HexCoordinate) (direction : Fin 6) : Option HexCoordinate :=
  ((hex.neighborsWithin map.width map.height)[direction.val]?).join

-- The centers lie half a hex further south in even columns.
def topmost (footprint : List HexCoordinate) : Option HexCoordinate :=
  footprint.minOn? fun hex => toLex (2 * hex.y + (if hex.x % 2 = 0 then 1 else 0), hex.x)

section Trace

variable (map : HexMap)

def marks (footprint : List HexCoordinate) : List Bool :=
  footprint.foldl (fun inside hex => inside.set (map.index hex) true) (List.replicate map.hexes.length false)

def isInside (inside : List Bool) (hex : Option HexCoordinate) : Bool :=
  hex.any fun hex => inside.getD (map.index hex) false

def stepFrom (inside : List Bool) (hex : HexCoordinate) (back : Fin 6) : Option (Fin 6) :=
  ((List.range 6).map fun turn => turned back (turn + 1)).find? fun direction =>
    isInside map inside (map.adjacent hex direction)

-- So many turns of the loop at most. Each state has its place in the walk.
def walkFrom (inside : List Bool) : Nat → HexCoordinate → Fin 6 → (HexCoordinate × Fin 6 → Option Nat) →
    List HexCoordinate → Option (List HexCoordinate)
  | 0, _, _, _, _ => none
  | fuel + 1, hex, back, seen, walk =>
      match seen (hex, back) with
      | some first => some (walk.drop first)
      | none =>
          match stepFrom map inside hex back with
          | none => some (walk ++ [hex])
          | some step =>
              match map.adjacent hex step with
              | none => none
              | some next =>
                  walkFrom inside fuel next (step + 4)
                    (Function.update seen (hex, back) (some walk.length)) (walk ++ [hex])

def trace (fuel : Nat) (footprint : List HexCoordinate) : Option (List HexCoordinate) :=
  match topmost footprint with
  | none => some []
  | some start => walkFrom map (marks map footprint) fuel start 0 (fun _ => none) []

end Trace

section Thin

variable (hexes : List Corner → Option (List HexCoordinate))

variable (target : Option (List HexCoordinate)) (corners : List Corner) (index : Nat)

theorem eraseIdx_shorter (h : index < corners.length ∧ 1 < corners.length) :
    (corners.eraseIdx index).length - index < corners.length - index := by
  rw [List.length_eraseIdx_of_lt h.1]
  omega

theorem next_shorter (h : index < corners.length ∧ 1 < corners.length) :
    corners.length - (index + 1) < corners.length - index := by omega

def thinPass (target : Option (List HexCoordinate)) (corners : List Corner) (index : Nat) : List Corner :=
  if index < corners.length ∧ 1 < corners.length then
    if hexes (corners.eraseIdx index) = target then thinPass target (corners.eraseIdx index) index
    else thinPass target corners (index + 1)
  else corners
termination_by corners.length - index
decreasing_by
  · rename_i h _
    exact eraseIdx_shorter corners index h
  · rename_i h _
    exact next_shorter corners index h

theorem thinPass_length_le : (thinPass hexes target corners index).length ≤ corners.length := by
  fun_induction thinPass hexes target corners index with
  | case1 corners index h _ ih => rw [List.length_eraseIdx_of_lt h.1] at ih; omega
  | case2 corners index _ _ ih => exact ih
  | case3 corners index _ => exact Nat.le_refl _

theorem thinPass_shorter (h : ¬ (thinPass hexes target corners 0).length = corners.length) :
    (thinPass hexes target corners 0).length < corners.length :=
  lt_of_le_of_ne (thinPass_length_le hexes target corners 0) h

def thinFrom (target : Option (List HexCoordinate)) (corners : List Corner) : List Corner :=
  if (thinPass hexes target corners 0).length = corners.length then thinPass hexes target corners 0
  else thinFrom target (thinPass hexes target corners 0)
termination_by corners.length
decreasing_by
  rename_i h
  exact thinPass_shorter hexes target corners h

def thin (corners : List Corner) : List Corner := thinFrom hexes (hexes corners) corners

def outline (map : HexMap) (fuel : Nat) (footprint : List HexCoordinate) : Option (List Corner) :=
  (trace map fuel footprint).map fun walk => thin hexes (walk.map fun hex => (UInt16.ofInt hex.x, UInt16.ofInt hex.y))

theorem thinPass_same
    (h : hexes corners = target) : hexes (thinPass hexes target corners index) = target := by
  fun_induction thinPass hexes target corners index with
  | case1 corners index _ hsame ih => exact ih hsame
  | case2 corners index _ _ ih => exact ih h
  | case3 corners index _ => exact h

-- A pass that drops nothing has tried every corner.
theorem thinPass_tried (h : (thinPass hexes target corners index).length = corners.length) :
    thinPass hexes target corners index = corners ∧ ∀ i, index ≤ i → i < corners.length → 1 < corners.length →
      hexes (corners.eraseIdx i) ≠ target := by
  fun_induction thinPass hexes target corners index with
  | case1 corners index hmany _ _ =>
    have hle := thinPass_length_le hexes target (corners.eraseIdx index) index
    rw [List.length_eraseIdx_of_lt hmany.1] at hle
    omega
  | case2 corners index _ hdiffer ih =>
    obtain ⟨hsame, htried⟩ := ih h
    refine ⟨hsame, fun i hi hlt hmany => ?_⟩
    by_cases he : i = index
    · rw [he]
      exact hdiffer
    · exact htried i (by omega) hlt hmany
  | case3 corners index hfew => exact ⟨rfl, fun i hi hlt hmany => absurd ⟨by omega, hmany⟩ hfew⟩

theorem thinFrom_spec (h : hexes corners = target) :
    hexes (thinFrom hexes target corners) = target ∧
      ∀ i, i < (thinFrom hexes target corners).length → 1 < (thinFrom hexes target corners).length →
        hexes ((thinFrom hexes target corners).eraseIdx i) ≠ target := by
  fun_induction thinFrom hexes target corners with
  | case1 corners hsame =>
    obtain ⟨hfixed, htried⟩ := thinPass_tried hexes target corners 0 hsame
    rw [hfixed]
    exact ⟨h, fun i hi hmany => htried i (Nat.zero_le i) hi hmany⟩
  | case2 corners _ ih => exact ih (thinPass_same hexes target corners 0 h)

-- A corner of a thinned outline cannot be spared; a last corner is kept for the hex it is.
theorem thin_spec (hsingle : ∀ corner, hexes [corner] ≠ hexes []) (corners : List Corner) :
    hexes (thin hexes corners) = hexes corners ∧ ∀ i, i < (thin hexes corners).length →
      hexes ((thin hexes corners).eraseIdx i) ≠ hexes corners := by
  obtain ⟨hsame, htried⟩ := thinFrom_spec hexes (hexes corners) corners rfl
  refine ⟨hsame, fun i hi => ?_⟩
  by_cases hmany : 1 < (thin hexes corners).length
  · exact htried i hi hmany
  · obtain ⟨corner, hcorner⟩ := List.length_eq_one_iff.mp (by omega : (thin hexes corners).length = 1)
    have hkept : hexes (thin hexes corners) = hexes corners := hsame
    rw [hcorner] at hkept hi ⊢
    obtain rfl : i = 0 := by simpa using hi
    rw [← hkept]
    exact (hsingle corner).symm

end Thin

def axial (hex : HexCoordinate) : Cell := (hex.cube.1, hex.cube.2.1)

def ofAxial (cell : Cell) : HexCoordinate := ⟨cell.1, cell.2 + (cell.1 + cell.1 % 2) / 2⟩

@[simp] theorem axial_ofAxial (cell : Cell) : axial (ofAxial cell) = cell := by
  unfold axial ofAxial HexCoordinate.cube
  ext
  · rfl
  · dsimp only
    omega

@[simp] theorem ofAxial_axial (hex : HexCoordinate) : ofAxial (axial hex) = hex := by
  unfold axial ofAxial HexCoordinate.cube
  dsimp only
  rw [HexCoordinate.mk.injEq]
  omega

theorem adjacent_eq (hex : HexCoordinate) :
    hex.adjacent = (List.finRange 6).map fun d => ofAxial (go (axial hex) d) := rfl

theorem distance_one_iff (hex other : HexCoordinate) :
    hex.distance other = 1 ↔ ∃ d, axial other = go (axial hex) d := by
  rw [← HexCoordinate.mem_adjacent_iff, adjacent_eq, List.mem_map]
  constructor
  · rintro ⟨d, -, rfl⟩
    exact ⟨d, axial_ofAxial _⟩
  · rintro ⟨d, hd⟩
    exact ⟨d, List.mem_finRange d, by rw [← hd, ofAxial_axial]⟩

theorem HexMap.adjacent_eq (map : HexMap) (hex : HexCoordinate) (d : Fin 6) :
    map.adjacent hex d = if map.contains (ofAxial (go (axial hex) d)) then some (ofAxial (go (axial hex) d)) else none := by
  have hlist : hex.neighborsWithin map.width map.height = (List.finRange 6).map fun d =>
      if map.contains (ofAxial (go (axial hex) d)) then some (ofAxial (go (axial hex) d)) else none := by
    unfold HexCoordinate.neighborsWithin
    rw [Mapgen.adjacent_eq, List.map_map]
    simp only [Function.comp_def, HexMap.onMap_eq]
  unfold HexMap.adjacent
  rw [hlist, List.getElem?_map, List.getElem?_eq_getElem (by rw [List.length_finRange]; exact d.isLt), List.getElem_finRange]
  rfl

section Marks

variable (map : HexMap) (footprint : List HexCoordinate)

theorem marks_get (hon : ∀ hex ∈ footprint, map.contains hex = true) (hex : HexCoordinate)
    (hhex : map.contains hex = true) : (marks map footprint).getD (map.index hex) false = decide (hex ∈ footprint) := by
  have hfold : ∀ (cells : List HexCoordinate) (inside : List Bool), (∀ cell ∈ cells, map.contains cell = true) →
      inside.length = map.hexes.length →
      (cells.foldl (fun inside cell => inside.set (map.index cell) true) inside).getD (map.index hex) false =
        (decide (hex ∈ cells) || inside.getD (map.index hex) false) := by
    intro cells
    induction cells with
    | nil => simp
    | cons cell cells ih =>
      intro inside hcells hlength
      obtain ⟨hcell, hrest⟩ := List.forall_mem_cons.mp hcells
      rw [List.foldl_cons, ih _ hrest (by rw [List.length_set, hlength])]
      by_cases he : hex = cell
      · subst he
        have hlt := map.index_lt hex hhex
        simp [List.getD_eq_getElem?_getD, hlength, hlt]
      · have hne : map.index cell ≠ map.index hex := fun hi => he (map.index_inj hhex hcell hi.symm)
        simp [List.getD_eq_getElem?_getD, List.getElem?_set_ne hne, he]
  unfold marks
  rw [hfold footprint _ hon (List.length_replicate)]
  have hlt := map.index_lt hex hhex
  simp [List.getD_eq_getElem?_getD, hlt]

def Within (cell : Cell) : Prop := ofAxial cell ∈ footprint

theorem within_axial (hex : HexCoordinate) : Within footprint (axial hex) ↔ hex ∈ footprint := by
  unfold Within
  rw [ofAxial_axial]

theorem isInside_iff (hon : ∀ hex ∈ footprint, map.contains hex = true) (hex : HexCoordinate) (d : Fin 6) :
    isInside map (marks map footprint) (map.adjacent hex d) = true ↔ Within footprint (go (axial hex) d) := by
  rw [HexMap.adjacent_eq]
  unfold isInside Within
  split
  · rename_i hcontains
    rw [Option.any_some, marks_get map footprint hon _ hcontains, decide_eq_true_eq]
  · rename_i hoff
    refine iff_of_false (by simp) fun hmem => hoff (hon _ hmem)

theorem stepFrom_some (hon : ∀ hex ∈ footprint, map.contains hex = true) {hex : HexCoordinate} {back step : Fin 6}
    (hside : Side (Within footprint) (axial hex) back)
    (h : stepFrom map (marks map footprint) hex back = some step) :
    ∃ next, map.adjacent hex step = some next ∧
      Steps (Within footprint) (axial hex) back (axial next) (step + 4) := by
  unfold stepFrom at h
  rw [List.find?_map, Option.map_eq_some_iff] at h
  obtain ⟨turn, hturn, rfl⟩ := h
  obtain ⟨hfound, -, hearlier⟩ := List.find?_range_eq_some.mp hturn
  have hin := (isInside_iff map footprint hon hex _).mp hfound
  refine ⟨ofAxial (go (axial hex) (turned back (turn + 1))), ?_, turn + 1, hin, fun k hk => ?_, axial_ofAxial _, rfl⟩
  · rw [HexMap.adjacent_eq, if_pos (hon _ hin)]
  · cases k with
    | zero =>
      rw [turned_zero]
      exact hside.2
    | succ k =>
      have hnot := hearlier k (by omega)
      rw [← isInside_iff map footprint hon]
      simpa using hnot

theorem stepFrom_none (hon : ∀ hex ∈ footprint, map.contains hex = true) {hex : HexCoordinate} {back : Fin 6}
    (h : stepFrom map (marks map footprint) hex back = none) (d : Fin 6) : ¬ Within footprint (go (axial hex) d) := by
  unfold stepFrom at h
  rw [List.find?_map, Option.map_eq_none_iff, List.find?_range_eq_none] at h
  obtain ⟨turn, rfl⟩ := turned_covers back d
  rw [← isInside_iff map footprint hon]
  simpa using h turn.val turn.isLt

end Marks

section Walk

variable (map : HexMap) (footprint : List HexCoordinate)

abbrev State := HexCoordinate × Fin 6

def Touches (state : State) : Prop := Side (Within footprint) (axial state.1) state.2

def Moves (state next : State) : Prop :=
  Steps (Within footprint) (axial state.1) state.2 (axial next.1) next.2

-- The states the hand has been in, each followed by the next, and the one it is in.
structure Walking (states : List State) (current : State) (seen : State → Option Nat) (walk : List HexCoordinate) :
    Prop where
  walked : walk = states.map Prod.fst
  placed : ∀ state i, seen state = some i ↔ states[i]? = some state
  moved : (states ++ [current]).IsChain (Moves footprint)
  touching : ∀ state ∈ states ++ [current], Touches footprint state

variable (states : List State) (current : State) (seen : State → Option Nat)
  (walk : List HexCoordinate)

theorem Walking.nodup (h : Walking footprint states current seen walk) : states.Nodup := by
  rw [List.nodup_iff_getElem?_ne_getElem?]
  intro i j hij hj he
  obtain ⟨state, hstate⟩ : ∃ state, states[j]? = some state := ⟨_, List.getElem?_eq_getElem hj⟩
  have hfirst := (h.placed state i).mpr (he.trans hstate)
  have hsecond := (h.placed state j).mpr hstate
  have hsame := Option.some.inj (hfirst.symm.trans hsecond)
  omega

-- There are fewer states than six for each hex: a hex the hand has left has a neighbor inside.
theorem Walking.length_lt (h : Walking footprint states current seen walk) (hsome : footprint ≠ []) :
    states.length < 6 * footprint.toFinset.card := by
  have hpos : 0 < footprint.toFinset.card := by
    rw [Finset.card_pos]
    obtain ⟨hex, hhex⟩ := List.exists_mem_of_ne_nil footprint hsome
    exact ⟨hex, List.mem_toFinset.mpr hhex⟩
  cases states with
  | nil =>
    rw [List.length_nil]
    omega
  | cons first rest =>
    obtain ⟨hin, hout⟩ := h.touching first List.mem_cons_self
    obtain ⟨d, hd⟩ : ∃ d, Within footprint (go (axial first.1) d) := by
      cases rest with
      | nil =>
        obtain ⟨turn, hnext, -⟩ := (List.isChain_cons_cons.mp h.moved).1
        exact ⟨_, hnext⟩
      | cons second rest =>
        obtain ⟨turn, hnext, -⟩ := (List.isChain_cons_cons.mp h.moved).1
        exact ⟨_, hnext⟩
    have hsub : (first :: rest).toFinset ⊆ (footprint.toFinset ×ˢ Finset.univ).erase (first.1, d) := by
      intro state hstate
      have hmem := List.mem_toFinset.mp hstate
      obtain ⟨hin', hout'⟩ := h.touching state (List.mem_append_left _ hmem)
      refine Finset.mem_erase.mpr ⟨?_, Finset.mem_product.mpr ⟨List.mem_toFinset.mpr ?_, Finset.mem_univ _⟩⟩
      · rintro rfl
        exact hout' hd
      · exact (within_axial footprint _).mp hin'
    have hcard := Finset.card_le_card hsub
    have hmem : (first.1, d) ∈ footprint.toFinset ×ˢ (Finset.univ : Finset (Fin 6)) :=
      Finset.mem_product.mpr ⟨List.mem_toFinset.mpr ((within_axial footprint _).mp hin), Finset.mem_univ _⟩
    rw [List.toFinset_card_of_nodup (h.nodup footprint), Finset.card_erase_of_mem hmem, Finset.card_product,
      Finset.card_univ, Fintype.card_fin] at hcard
    omega

-- States that follow one another round, or one alone.
def Circuit (cycle : List State) : Prop :=
  cycle ≠ [] ∧ (∀ state ∈ cycle, Touches footprint state) ∧ ∀ i state, cycle[i]? = some state →
    ∃ next, cycle[(i + 1) % cycle.length]? = some next ∧ Moves footprint state next

def Alone (cycle : List State) : Prop :=
  ∃ state, cycle = [state] ∧ Touches footprint state ∧ ∀ d, ¬ Within footprint (go (axial state.1) d)

theorem Walking.circuit (h : Walking footprint states current seen walk) (first : Nat)
    (hfirst : states[first]? = some current) : Circuit footprint (states.drop first) := by
  obtain ⟨hlt, hget⟩ := List.getElem?_eq_some_iff.mp hfirst
  refine ⟨?_, fun state hstate => h.touching state (List.mem_append_left _ (List.mem_of_mem_drop hstate)), ?_⟩
  · intro hnil
    have hlength := List.drop_eq_nil_iff.mp hnil
    omega
  · intro i state hstate
    rw [List.getElem?_drop] at hstate
    obtain ⟨hi, rfl⟩ := List.getElem?_eq_some_iff.mp hstate
    rw [List.length_drop]
    have hmove := List.isChain_iff_getElem.mp h.moved (first + i) (by rw [List.length_append, List.length_singleton]; omega)
    rw [List.getElem_append_left hi] at hmove
    by_cases hlast : first + i + 1 < states.length
    · refine ⟨states[first + i + 1], ?_, ?_⟩
      · rw [Nat.mod_eq_of_lt (by omega), List.getElem?_drop, ← Nat.add_assoc, List.getElem?_eq_getElem hlast]
      · rw [List.getElem_append_left hlast] at hmove
        exact hmove
    · have hround : i + 1 = states.length - first := by omega
      refine ⟨current, ?_, ?_⟩
      · rw [hround, Nat.mod_self, List.getElem?_drop, Nat.add_zero, hfirst]
      · rw [List.getElem_append_right (by omega)] at hmove
        simpa using hmove

theorem Walking.advance (current next : State) (seen : State → Option Nat)
    (walk : List HexCoordinate) (h : Walking footprint states current seen walk) (hnew : seen current = none)
    (hmoves : Moves footprint current next) : Walking footprint (states ++ [current]) next
      (Function.update seen current (some walk.length)) (walk ++ [current.1]) := by
  have hlength : walk.length = states.length := by rw [h.walked, List.length_map]
  refine ⟨?_, fun state i => ?_, ?_, fun state hstate => ?_⟩
  · rw [h.walked, List.map_append, List.map_singleton]
  · by_cases he : state = current
    · subst he
      rw [Function.update_self, hlength, Option.some.injEq]
      constructor
      · rintro rfl
        rw [List.getElem?_concat_length]
      · intro hget
        by_cases hlt : i < states.length
        · rw [List.getElem?_append_left hlt, ← h.placed, hnew] at hget
          cases hget
        · obtain ⟨hi, -⟩ := List.getElem?_eq_some_iff.mp hget
          rw [List.length_append, List.length_singleton] at hi
          omega
    · rw [Function.update_of_ne he, h.placed]
      by_cases hlt : i < states.length
      · rw [List.getElem?_append_left hlt]
      · refine iff_of_false (fun hget => hlt (List.getElem?_eq_some_iff.mp hget).1) fun hget => he ?_
        rw [List.getElem?_append_right (by omega)] at hget
        exact List.mem_singleton.mp (List.mem_of_getElem? hget)
  · refine List.IsChain.append h.moved (.singleton next) ?_
    intro last hlast first hfirst
    rw [List.getLast?_append_of_ne_nil _ (List.cons_ne_nil _ _)] at hlast
    obtain rfl : current = last := by simpa using hlast
    obtain rfl : next = first := by simpa using hfirst
    exact hmoves
  · rcases List.mem_append.mp hstate with hold | hnext
    · exact h.touching state hold
    · rw [List.mem_singleton.mp hnext]
      exact hmoves.side _ _ _ _ (h.touching current (List.mem_append_right _ (List.mem_singleton_self _)))

-- The loop ends within six turns for each hex, however many more it could take.
theorem walkFrom_result (hon : ∀ hex ∈ footprint, map.contains hex = true) (hsome : footprint ≠ []) (fuel : Nat)
    (states : List State) (current : State) (seen : State → Option Nat) (walk : List HexCoordinate)
    (h : Walking footprint states current seen walk) (hbudget : 6 * footprint.toFinset.card ≤ states.length + fuel) :
    ∃ cycle, (∀ extra, walkFrom map (marks map footprint) (fuel + extra) current.1 current.2 seen walk =
      some (cycle.map Prod.fst)) ∧ (Circuit footprint cycle ∨ Alone footprint cycle) := by
  induction fuel generalizing states current seen walk with
  | zero =>
    have hlt := h.length_lt footprint states current seen walk hsome
    omega
  | succ fuel ih =>
    have htouches := h.touching current (List.mem_append_right _ (List.mem_singleton_self _))
    cases hseen : seen current with
    | some first =>
      refine ⟨states.drop first, fun extra => ?_, .inl (h.circuit footprint _ _ _ _ _ ((h.placed _ _).mp hseen))⟩
      rw [Nat.succ_add, walkFrom]
      simp only [hseen]
      rw [h.walked, List.map_drop]
    | none =>
      cases hstep : stepFrom map (marks map footprint) current.1 current.2 with
      | none =>
        have halone := stepFrom_none map footprint hon hstep
        have hfirst : states = [] := by
          by_contra hne
          obtain ⟨earlier, last, rfl⟩ := List.eq_nil_or_concat states |>.resolve_left hne
          have hmoves : Moves footprint last current := by
            have hchain := h.moved
            rw [List.concat_eq_append, List.append_assoc] at hchain
            exact (List.isChain_append_cons_cons.mp hchain).2.1
          obtain ⟨e, he⟩ := (hmoves.neighbors _ _ _ _).2
          have hlast := h.touching last (by simp)
          exact halone e (he ▸ hlast.1)
        subst hfirst
        refine ⟨[current], fun extra => ?_, .inr ⟨current, rfl, htouches, halone⟩⟩
        rw [Nat.succ_add, walkFrom]
        simp only [hseen, hstep]
        rw [h.walked]
        rfl
      | some step =>
        obtain ⟨next, hnext, hmoves⟩ := stepFrom_some map footprint hon htouches hstep
        obtain ⟨cycle, hcycle, hkind⟩ := ih (states ++ [current]) (next, step + 4) _ _
          (h.advance footprint states current (next, step + 4) seen walk hseen hmoves)
          (by rw [List.length_append, List.length_singleton]; omega)
        refine ⟨cycle, fun extra => ?_, hkind⟩
        rw [Nat.succ_add, walkFrom]
        simp only [hseen, hstep, hnext]
        exact hcycle extra

end Walk

section Outside

variable (map : HexMap) (footprint : List HexCoordinate)

theorem ofAxial_north (hex : HexCoordinate) : ofAxial (go (axial hex) 0) = ⟨hex.x, hex.y - 1⟩ := by
  unfold ofAxial go axial HexCoordinate.cube way
  dsimp only
  rw [HexCoordinate.mk.injEq]
  omega

-- Nothing of a footprint lies north of its topmost hex.
theorem topmost_touches {start : HexCoordinate} (h : topmost footprint = some start) :
    Touches footprint (start, 0) := by
  have hmem := List.minOn?_mem h
  refine ⟨(within_axial footprint start).mpr hmem, fun hnorth => ?_⟩
  unfold Within at hnorth
  rw [ofAxial_north] at hnorth
  have hle := minOn?_le h hnorth
  rw [Prod.Lex.toLex_le_toLex] at hle
  dsimp only at hle
  omega

def Apart (u v : Cell) : Prop := (¬ Within footprint u ∧ ¬ Within footprint v) ∧ ∃ e, v = go u e

def northOf : Int := -(map.width.toNat : Int) - 1

variable (hon : ∀ hex ∈ footprint, map.contains hex = true)

include hon

theorem northOf_lt (cell : Cell) (h : Within footprint cell) : northOf map < cell.2 := by
  obtain ⟨⟨hleft, hright⟩, htop, -⟩ := (map.contains_iff _).mp (hon _ h)
  unfold northOf
  unfold ofAxial at hleft hright htop
  dsimp only at hleft hright htop
  omega

theorem not_within_of_off {hex : HexCoordinate} (h : map.contains hex = false) : ¬ Within footprint (axial hex) := by
  rw [within_axial]
  intro hmem
  rw [hon hex hmem] at h
  cases h

theorem column_open (x y : Int) (hcolumn : ∀ y' ≤ y, map.contains ⟨x, y'⟩ = false) :
    ∃ b, b.2 ≤ northOf map ∧ Relation.ReflTransGen (Apart footprint) (axial ⟨x, y⟩) b := by
  obtain ⟨n, hn⟩ : ∃ n : Nat, (axial ⟨x, y⟩).2 ≤ northOf map + n :=
    ⟨((axial ⟨x, y⟩).2 - northOf map).toNat, by omega⟩
  induction n generalizing y with
  | zero => exact ⟨_, by omega, .refl⟩
  | succ n ih =>
    have hstep : axial ⟨x, y - 1⟩ = go (axial ⟨x, y⟩) 0 := by
      rw [← axial_ofAxial (go _ 0), ofAxial_north]
    have hrow : (axial ⟨x, y - 1⟩).2 = (axial ⟨x, y⟩).2 - 1 := by
      rw [hstep]
      rfl
    obtain ⟨b, hb, hway⟩ := ih (y - 1) (fun y' hy' => hcolumn y' (by omega)) (by omega)
    refine ⟨b, hb, .head ⟨⟨?_, ?_⟩, 0, hstep⟩ hway⟩
    · exact not_within_of_off map footprint hon (hcolumn y (by omega))
    · exact not_within_of_off map footprint hon (hcolumn (y - 1) (by omega))

theorem off_open {hex : HexCoordinate} (hoff : map.contains hex = false) :
    ∃ b, b.2 ≤ northOf map ∧ Relation.ReflTransGen (Apart footprint) (axial hex) b := by
  obtain ⟨x, y⟩ := hex
  have hiff := fun x y => (map.contains_iff ⟨x, y⟩)
  by_cases hcolumn : ∀ y' ≤ y, map.contains ⟨x, y'⟩ = false
  · exact column_open map footprint hon x y hcolumn
  · -- South of the map: east along the row until the column is clear.
    have hsouth : (map.height.toNat : Int) ≤ y ∧ 0 ≤ x := by
      push Not at hcolumn
      obtain ⟨y', hy', hcontains⟩ := hcolumn
      have hon' := (hiff x y').mp (by simpa using hcontains)
      have hnot : ¬ map.contains ⟨x, y⟩ = true := by rw [hoff]; simp
      rw [hiff] at hnot
      dsimp only at hon' hnot
      omega
    clear hcolumn hoff
    obtain ⟨n, hn⟩ : ∃ n : Nat, (map.width.toNat : Int) ≤ x + n := ⟨map.width.toNat, by omega⟩
    induction n generalizing x with
    | zero =>
      refine column_open map footprint hon x y fun y' _ => ?_
      rw [Bool.eq_false_iff, Ne, hiff]
      dsimp only
      omega
    | succ n ih =>
      obtain ⟨b, hb, hway⟩ := ih (x + 1) (by omega) (by omega)
      have hout : ∀ x', ¬ Within footprint (axial ⟨x', y⟩) := by
        intro x'
        refine not_within_of_off map footprint hon ?_
        rw [Bool.eq_false_iff, Ne, hiff]
        dsimp only
        omega
      have hbeside : ∃ e, axial ⟨x + 1, y⟩ = go (axial ⟨x, y⟩) e := by
        rw [← distance_one_iff]
        unfold HexCoordinate.distance HexCoordinate.cube
        dsimp only
        omega
      exact ⟨b, hb, .head ⟨⟨hout x, hout (x + 1)⟩, hbeside⟩ hway⟩

end Outside

-- Every two hexes of a footprint are joined over its hexes.
def Whole (footprint : List HexCoordinate) : Prop :=
  ∀ a ∈ footprint, ∀ b ∈ footprint, Relation.ReflTransGen
    (fun u v => (u ∈ footprint ∧ v ∈ footprint) ∧ HexCoordinate.distance u v = 1) a b

-- Every hex of the map outside a footprint leads off the map without crossing it.
def HoleFree (map : HexMap) (footprint : List HexCoordinate) : Prop :=
  ∀ hex, map.contains hex = true → hex ∉ footprint → ∃ off, map.contains off = false ∧ Relation.ReflTransGen
    (fun u v => (u ∉ footprint ∧ v ∉ footprint) ∧ HexCoordinate.distance u v = 1) hex off

section Outlined

variable (map : HexMap) (footprint : List HexCoordinate)

def Visited (cycle : List State) (cell : Cell) (d : Fin 6) : Prop := ∃ state ∈ cycle, axial state.1 = cell ∧ state.2 = d

theorem Circuit.rounded {cycle : List State} (h : Circuit footprint cycle) :
    Rounded (Within footprint) (Visited cycle) := by
  obtain ⟨-, htouches, hnext⟩ := h
  refine ⟨?_, ?_, ?_⟩
  · rintro cell d ⟨state, hstate, rfl, rfl⟩
    exact htouches state hstate
  · rintro cell d ⟨state, hstate, rfl, rfl⟩ cell' d' hsteps
    obtain ⟨i, hi⟩ := List.getElem?_of_mem hstate
    obtain ⟨next, hget, hmoves⟩ := hnext i state hi
    obtain ⟨rfl, rfl⟩ := hmoves.unique _ _ _ _ _ _ hsteps
    exact ⟨next, List.mem_of_getElem? hget, rfl, rfl⟩
  · rintro cell d ⟨state, hstate, rfl, rfl⟩
    obtain ⟨i, hlt, rfl⟩ := List.getElem_of_mem hstate
    -- The state before it, the last one before the first.
    obtain ⟨j, hj, hround⟩ : ∃ j, j < cycle.length ∧ (j + 1) % cycle.length = i := by
      cases i with
      | zero => exact ⟨cycle.length - 1, by omega, by rw [Nat.sub_add_cancel (by omega), Nat.mod_self]⟩
      | succ i => exact ⟨i, by omega, Nat.mod_eq_of_lt hlt⟩
    obtain ⟨next, hget, hmoves⟩ := hnext j cycle[j] (List.getElem?_eq_getElem hj)
    rw [hround, List.getElem?_eq_getElem hlt] at hget
    obtain rfl := Option.some.inj hget
    exact ⟨_, _, ⟨cycle[j], List.getElem_mem hj, rfl, rfl⟩, hmoves⟩

theorem axial_way {r : HexCoordinate → HexCoordinate → Prop} (p : Cell → Cell → Prop)
    (hstep : ∀ u v, r u v → p (axial u) (axial v)) {a b : HexCoordinate} (h : Relation.ReflTransGen r a b) :
    Relation.ReflTransGen p (axial a) (axial b) := by
  induction h with
  | refl => exact .refl
  | tail _ hlast ih => exact ih.tail (hstep _ _ hlast)

theorem side_iff (hex : HexCoordinate) : (∃ d, Side (Within footprint) (axial hex) d) ↔
    hex ∈ footprint ∧ ∃ other, other ∉ footprint ∧ hex.distance other = 1 := by
  constructor
  · rintro ⟨d, hin, hout⟩
    exact ⟨(within_axial footprint hex).mp hin, _, hout, (distance_one_iff _ _).mpr ⟨d, axial_ofAxial _⟩⟩
  · rintro ⟨hmem, other, hother, hdistance⟩
    obtain ⟨d, hd⟩ := (distance_one_iff hex other).mp hdistance
    refine ⟨d, (within_axial footprint hex).mpr hmem, ?_⟩
    rw [← hd, within_axial]
    exact hother

theorem Circuit.visits (hon : ∀ hex ∈ footprint, map.contains hex = true) (hwhole : Whole footprint)
    (hholes : HoleFree map footprint) (cycle : List State) (h : Circuit footprint cycle) (hex : HexCoordinate) :
    hex ∈ cycle.map Prod.fst ↔ hex ∈ footprint ∧ ∃ other, other ∉ footprint ∧ hex.distance other = 1 := by
  rw [← side_iff]
  constructor
  · intro hmem
    obtain ⟨state, hstate, rfl⟩ := List.mem_map.mp hmem
    exact ⟨state.2, h.2.1 state hstate⟩
  · rintro ⟨d, hside⟩
    obtain ⟨first, hfirst⟩ := List.exists_mem_of_ne_nil cycle h.1
    have hconnected : ∀ a b, Within footprint a → Within footprint b → Relation.ReflTransGen
        (fun u v => (Within footprint u ∧ Within footprint v) ∧ ∃ e, v = go u e) a b := by
      intro a b ha hb
      have hway := axial_way (fun u v => (Within footprint u ∧ Within footprint v) ∧ ∃ e, v = go u e)
        (fun u v hstep => ⟨⟨(within_axial footprint u).mpr hstep.1.1, (within_axial footprint v).mpr hstep.1.2⟩,
          (distance_one_iff u v).mp hstep.2⟩) (hwhole _ ha _ hb)
      rw [axial_ofAxial, axial_ofAxial] at hway
      exact hway
    have hopen : ∀ a, ¬ Within footprint a → ∃ b, b.2 ≤ northOf map ∧
        Relation.ReflTransGen (fun u v => (¬ Within footprint u ∧ ¬ Within footprint v) ∧ ∃ e, v = go u e) a b := by
      intro a ha
      by_cases hmap : map.contains (ofAxial a) = true
      · obtain ⟨off, hoff, hleads⟩ := hholes _ hmap ha
        obtain ⟨b, hb, hrest⟩ := off_open map footprint hon hoff
        have hway := axial_way (Apart footprint) (fun u v hstep =>
          ⟨⟨fun hin => hstep.1.1 ((within_axial footprint u).mp hin),
            fun hin => hstep.1.2 ((within_axial footprint v).mp hin)⟩, (distance_one_iff u v).mp hstep.2⟩) hleads
        rw [axial_ofAxial] at hway
        exact ⟨b, hb, hway.trans hrest⟩
      · obtain ⟨b, hb, hway⟩ := off_open map footprint hon (by simpa using hmap)
        rw [axial_ofAxial] at hway
        exact ⟨b, hb, hway⟩
    obtain ⟨b, state, hstate, haxial, -⟩ := (h.rounded footprint).visits _ (axial first.1) first.2
      ⟨first, hfirst, rfl, rfl⟩ (northOf map) (northOf_lt map footprint hon) hconnected hopen (axial hex) d hside
    have hsame : state.1 = hex := by rw [← ofAxial_axial state.1, haxial, ofAxial_axial]
    exact List.mem_map.mpr ⟨state, hstate, hsame⟩

theorem Alone.visits (hwhole : Whole footprint) (cycle : List State) (h : Alone footprint cycle) (hex : HexCoordinate) :
    hex ∈ cycle.map Prod.fst ↔ hex ∈ footprint ∧ ∃ other, other ∉ footprint ∧ hex.distance other = 1 := by
  obtain ⟨state, rfl, htouches, halone⟩ := h
  rw [List.map_singleton, List.mem_singleton]
  constructor
  · rintro rfl
    exact (side_iff footprint _).mp ⟨state.2, htouches⟩
  · rintro ⟨hmem, -⟩
    have hstate := (within_axial footprint state.1).mp htouches.1
    rcases Relation.ReflTransGen.cases_head (hwhole _ hstate _ hmem) with hsame | ⟨next, hstep, -⟩
    · exact hsame.symm
    · obtain ⟨d, hd⟩ := (distance_one_iff _ _).mp hstep.2
      refine absurd ?_ (halone d)
      rw [← hd]
      exact (within_axial footprint next).mpr hstep.1.2

-- Consecutive hexes of a walk of more than one, the last and the first included.
theorem Circuit.adjacent (cycle : List State) (h : Circuit footprint cycle) (i : Nat) (here next : HexCoordinate)
    (hhere : (cycle.map Prod.fst)[i]? = some here)
    (hnext : (cycle.map Prod.fst)[(i + 1) % (cycle.map Prod.fst).length]? = some next) : here.distance next = 1 := by
  rw [List.getElem?_map, Option.map_eq_some_iff] at hhere
  obtain ⟨state, hstate, rfl⟩ := hhere
  obtain ⟨follower, hget, hmoves⟩ := h.2.2 i state hstate
  rw [List.length_map, List.getElem?_map, hget] at hnext
  obtain rfl := Option.some.inj hnext
  exact (distance_one_iff _ _).mpr (hmoves.neighbors _ _ _ _).1

end Outlined

theorem outline_walk (map : HexMap) (footprint : List HexCoordinate) (hsome : footprint ≠ [])
    (hon : ∀ hex ∈ footprint, map.contains hex = true) (hwhole : Whole footprint) (hholes : HoleFree map footprint)
    (hexes : List Corner → Option (List HexCoordinate)) (hsingle : ∀ corner, hexes [corner] ≠ hexes []) :
    (∃ walk, (∀ fuel, 6 * footprint.toFinset.card ≤ fuel → trace map fuel footprint = some walk) ∧
      (∀ hex, hex ∈ walk ↔ hex ∈ footprint ∧ ∃ other, other ∉ footprint ∧ hex.distance other = 1) ∧
      (1 < walk.length → ∀ i here next, walk[i]? = some here → walk[(i + 1) % walk.length]? = some next →
        here.distance next = 1)) ∧
    ∀ corners, hexes (thin hexes corners) = hexes corners ∧ ∀ i, i < (thin hexes corners).length →
      hexes ((thin hexes corners).eraseIdx i) ≠ hexes corners := by
  refine ⟨?_, thin_spec hexes hsingle⟩
  have hleast : (topmost footprint).isSome := List.isSome_minOn?_iff.mpr hsome
  obtain ⟨start, hstart⟩ := Option.isSome_iff_exists.mp hleast
  have hbegun : Walking footprint [] (start, 0) (fun _ => none) [] := by
    refine ⟨rfl, fun state i => by simp, .singleton _, fun state hstate => ?_⟩
    rw [List.mem_singleton.mp hstate]
    exact topmost_touches footprint hstart
  obtain ⟨cycle, hcycle, hkind⟩ := walkFrom_result map footprint hon hsome (6 * footprint.toFinset.card) [] (start, 0)
    _ _ hbegun (Nat.le_add_left _ _)
  refine ⟨cycle.map Prod.fst, fun fuel hfuel => ?_, ?_, ?_⟩
  · obtain ⟨extra, rfl⟩ := Nat.exists_eq_add_of_le hfuel
    unfold trace
    rw [hstart]
    exact hcycle extra
  · intro hex
    rcases hkind with hcircuit | halone
    · exact hcircuit.visits map footprint hon hwhole hholes cycle hex
    · exact halone.visits footprint hwhole cycle hex
  · intro hlong i here next hhere hnext
    rcases hkind with hcircuit | ⟨state, rfl, -⟩
    · exact hcircuit.adjacent footprint cycle i here next hhere hnext
    · simp at hlong

def strip : HexMap := ⟨3, 3, List.replicate 9 ⟨0, .Clear, none, none, none, none, none, none⟩, rfl⟩

-- The corners themselves, which is all that a region with corners next to one another holds.
def spots (corners : List Corner) : Option (List HexCoordinate) :=
  some ((corners.map fun corner => HexCoordinate.mk corner.1.toNat corner.2.toNat).eraseDups.mergeSort
    fun a b => a.y < b.y || a.y = b.y && a.x ≤ b.x)

theorem strip_whole : Whole [⟨1, 0⟩, ⟨1, 1⟩] := by
  intro a ha b hb
  by_cases he : a = b
  · rw [he]
  · refine .single ⟨⟨ha, hb⟩, ?_⟩
    simp only [List.mem_cons, List.not_mem_nil, or_false] at ha hb
    rcases ha with rfl | rfl <;> rcases hb with rfl | rfl
    · exact absurd rfl he
    · decide
    · decide
    · exact absurd rfl he

-- Every other hex lies on an edge of the map that a single step leaves.
theorem strip_holeFree : HoleFree strip [⟨1, 0⟩, ⟨1, 1⟩] := by
  intro hex hcontains hout
  obtain ⟨x, y⟩ := hex
  obtain ⟨⟨hleft, hright⟩, htop, hbottom⟩ := (strip.contains_iff ⟨x, y⟩).mp hcontains
  have hwidth : (strip.width.toNat : Int) = 3 := rfl
  have hheight : (strip.height.toNat : Int) = 3 := rfl
  simp only [List.mem_cons, List.not_mem_nil, or_false, HexCoordinate.mk.injEq] at hout
  dsimp only at hleft hright htop hbottom
  obtain ⟨off, hoff, hnear⟩ : ∃ off : HexCoordinate, strip.contains off = false ∧ HexCoordinate.distance ⟨x, y⟩ off = 1 := by
    have hrow : y = 0 ∨ y = 1 ∨ y = 2 := by omega
    obtain rfl | rfl | rfl : x = 0 ∨ x = 1 ∨ x = 2 := by omega
    · exact ⟨⟨-1, y⟩, rfl, by rcases hrow with rfl | rfl | rfl <;> rfl⟩
    · obtain rfl : y = 2 := by omega
      exact ⟨⟨1, 3⟩, rfl, rfl⟩
    · exact ⟨⟨3, y⟩, by rcases hrow with rfl | rfl | rfl <;> rfl, by rcases hrow with rfl | rfl | rfl <;> rfl⟩
  refine ⟨off, hoff, .single ⟨⟨by simpa using hout, fun hin => ?_⟩, hnear⟩⟩
  rcases List.mem_cons.mp hin with rfl | hin
  · cases hoff
  · cases List.mem_singleton.mp hin
    cases hoff

theorem outline_walk_strip :
    (∃ walk, (∀ fuel, 6 * ([⟨1, 0⟩, ⟨1, 1⟩] : List HexCoordinate).toFinset.card ≤ fuel →
        trace strip fuel [⟨1, 0⟩, ⟨1, 1⟩] = some walk) ∧
      (∀ hex, hex ∈ walk ↔ hex ∈ [⟨1, 0⟩, ⟨1, 1⟩] ∧ ∃ other, other ∉ [⟨1, 0⟩, ⟨1, 1⟩] ∧ hex.distance other = 1) ∧
      (1 < walk.length → ∀ i here next, walk[i]? = some here → walk[(i + 1) % walk.length]? = some next →
        here.distance next = 1)) ∧
    ∀ corners, spots (thin spots corners) = spots corners ∧ ∀ i, i < (thin spots corners).length →
      spots ((thin spots corners).eraseIdx i) ≠ spots corners := by
  refine outline_walk strip [⟨1, 0⟩, ⟨1, 1⟩] (List.cons_ne_nil _ _) (by decide) strip_whole strip_holeFree spots ?_
  intro corner
  unfold spots
  simp [List.eraseDups_cons]

end StompyMux.Mapgen
