import StompyMux.Woodland.FireSpread

-- What holds while the fires that are due in a second are worked off.
namespace StompyMux.Woodland

open Library Library.Fallible
open StompyMux.Map

namespace Decoration

-- A fire that a second's pass has still to work off.
def Due (effect : Decoration) : Prop := effect.kind = .Fire ∧ effect.order < 0 ∧
  (effect.remaining ≠ 0 ∧ effect.nextSpread = some 0 ∨ effect.remaining = 0 ∧ effect.nextSpread = none)

end Decoration

namespace StoredMap

variable (map : StoredMap)

def size : Nat := (map.width * map.height).toNat

-- What holds of a map throughout a second, with the fires that are due in it.
structure Sound (due : List Nat) : Prop where
  dimensions : (1 ≤ map.width ∧ map.width ≤ 1000) ∧ 1 ≤ map.height ∧ map.height ≤ 1000
  terrain : ∃ terrain, map.terrain = some terrain ∧ terrain.length = map.size ∧
    ∀ tile ∈ terrain, tile.validate = .ok () ∧ tile.overlay = none
  statics : ∀ kind, map.validateStatics kind = .ok ()
  dice : map.fireDice.isSome = true
  wind : (0 ≤ map.windDirection ∧ map.windDirection < 360) ∧ 0 ≤ map.windSpeed ∧ map.windSpeed ≤ 2 ^ 15 - 1
  placed : ∀ j effect, map.decorations.get? j = some effect → j < map.size
  apart : ∀ j effect k other, map.decorations.get? j = some effect → map.decorations.get? k = some other →
    effect.isFire = other.isFire → effect.order = other.order → j = k
  settled : ∀ j effect, map.decorations.get? j = some effect → j ∉ due → effect.valid = true
  pending : ∀ j ∈ due, ∃ effect, map.decorations.get? j = some effect ∧ effect.Due

def woodsAt (j : Nat) : Nat := (((map.terrain.getD [])[j]?).map Hex.woodsDensity).getD 0

-- Growth that burns already feeds no other fire.
def site (j : Nat) : Library.Site where
  fuel := map.woodsAt j
  clock := (map.decorations.get? j).bind (fun effect => if effect.isFire then some effect.clock else none)

def potential : Nat := Library.Site.total Decoration.longest map.size map.site

-- The creation orders leave room for so many more overlays.
def Room (more : Nat) : Prop := (more : Int) ≤ 2 ^ 63 ∧
  ∀ j effect, map.decorations.get? j = some effect → -2 ^ 63 + (more : Int) ≤ effect.order

variable {map}

theorem mem_values_iff (effect : Decoration) :
    effect ∈ map.decorations.values ↔ ∃ j, map.decorations.get? j = some effect := by
  unfold OrderedMap.values
  rw [List.mem_map]
  constructor
  · rintro ⟨⟨j, e⟩, hmem, rfl⟩
    exact ⟨j, (map.decorations.get?_eq_some_iff j e).mpr hmem⟩
  · rintro ⟨j, h⟩
    exact ⟨(j, effect), (map.decorations.get?_eq_some_iff j effect).mp h, rfl⟩

theorem Room.mono {more less : Nat} (hroom : map.Room more) (h : less ≤ more) : map.Room less := by
  obtain ⟨hmore, horders⟩ := hroom
  exact ⟨by omega, fun j effect he => by
    have := horders j effect he
    omega⟩

section Orders

theorem oldestOrder_nonpos (fire : Bool) : map.oldestOrder fire ≤ 0 := min_le_right _ _

theorem oldestOrder_le (j : Nat) (effect : Decoration) (h : map.decorations.get? j = some effect) :
    map.oldestOrder effect.isFire ≤ effect.order := by
  have hmem : effect.order ∈ (map.decorations.values.filter
      (fun existing => existing.isFire = effect.isFire)).map Decoration.order :=
    List.mem_map.mpr ⟨effect, List.mem_filter.mpr ⟨(mem_values_iff effect).mpr ⟨j, h⟩, by simp⟩, rfl⟩
  unfold oldestOrder
  dsimp only
  cases hmin : ((map.decorations.values.filter
      (fun existing => existing.isFire = effect.isFire)).map Decoration.order).min? with
  | none =>
    rw [List.min?_eq_none_iff.mp hmin] at hmem
    contradiction
  | some least => exact le_trans (min_le_left _ _) ((List.min?_eq_some_iff.mp hmin).2 _ hmem)

theorem le_oldestOrder (fire : Bool) (bound : Int) (hbound : bound ≤ 0)
    (h : ∀ j effect, map.decorations.get? j = some effect → bound ≤ effect.order) :
    bound ≤ map.oldestOrder fire := by
  unfold oldestOrder
  refine le_min ?_ hbound
  cases hmin : ((map.decorations.values.filter
      (fun existing => existing.isFire = fire)).map Decoration.order).min? with
  | none => exact hbound
  | some least =>
    obtain ⟨effect, heffect, rfl⟩ := List.mem_map.mp (List.min?_mem hmin)
    obtain ⟨j, hj⟩ := (mem_values_iff effect).mp (List.mem_filter.mp heffect).1
    exact h j effect hj

end Orders

section Places

variable {due : List Nat} (hsound : map.Sound due)

include hsound

theorem Sound.inside (j : Nat) (hj : j < map.size) :
    (0 ≤ (map.coordinateAt j).x ∧ (map.coordinateAt j).x < map.width) ∧
      (0 ≤ (map.coordinateAt j).y ∧ (map.coordinateAt j).y < map.height) ∧
      map.position (map.coordinateAt j).x (map.coordinateAt j).y = j := by
  obtain ⟨⟨hwidth, -⟩, hheight, -⟩ := hsound.dimensions
  unfold size at hj
  have hj' : (j : Int) < map.height * map.width := by
    rw [mul_comm]
    omega
  have hmod : 0 ≤ (j : Int) % map.width := Int.emod_nonneg _ (by omega)
  refine ⟨⟨hmod, Int.emod_lt_of_pos _ (by omega)⟩, ⟨Int.ediv_nonneg (by omega) (by omega),
    Int.ediv_lt_of_lt_mul (by omega) hj'⟩, ?_⟩
  unfold position coordinateAt
  rw [Int.ediv_mul_add_emod]
  exact Int.toNat_natCast j

theorem Sound.baseHex_ok {j : Nat} (hj : j < map.size) :
    ∃ terrain tile, map.terrain = some terrain ∧ terrain[j]? = some tile ∧
      tile.validate = .ok () ∧ tile.overlay = none ∧ map.woodsAt j = tile.woodsDensity ∧
      map.baseHex (map.coordinateAt j).x (map.coordinateAt j).y = .ok tile := by
  obtain ⟨terrain, hterrain, hlength, htiles⟩ := hsound.terrain
  obtain ⟨hx, hy, hposition⟩ := hsound.inside j hj
  have hat : terrain[j]? = some terrain[j] := List.getElem?_eq_getElem (by omega)
  obtain ⟨hvalid, hoverlay⟩ := htiles _ (List.getElem_mem (by omega : j < terrain.length))
  refine ⟨terrain, terrain[j], hterrain, hat, hvalid, hoverlay, ?_, ?_⟩
  · unfold woodsAt
    rw [hterrain, Option.getD_some, hat]
    rfl
  · refine (map.baseHex_ok_iff _ _ _).mpr ⟨terrain, hterrain, ⟨hx.1, hx.2, hy⟩, ?_, by rw [hposition, hat]⟩
    have hj' : (map.position (map.coordinateAt j).x (map.coordinateAt j).y : Int) = j := by rw [hposition]
    unfold position at hj'
    obtain ⟨⟨-, hwidth⟩, -, hheight⟩ := hsound.dimensions
    have hsize : map.width * map.height ≤ 1000 * 1000 :=
      mul_le_mul hwidth hheight (by omega) (by omega)
    unfold size at hj
    omega

end Places

section Validity

theorem entries_apart_iff : (map.decorations.values.map (fun effect => (effect.isFire, effect.order))).Nodup ↔
    ∀ j effect k other, map.decorations.get? j = some effect → map.decorations.get? k = some other →
      effect.isFire = other.isFire → effect.order = other.order → j = k := by
  have hentries : map.decorations.entries.Nodup := List.Nodup.of_map Prod.fst map.decorations.keys_nodup
  unfold OrderedMap.values
  rw [List.map_map, List.nodup_map_iff_inj_on hentries]
  constructor
  · intro h j effect k other hj hk hfire horder
    have hsame := h (j, effect) ((map.decorations.get?_eq_some_iff j effect).mp hj) (k, other)
      ((map.decorations.get?_eq_some_iff k other).mp hk) (Prod.ext hfire horder)
    exact congrArg Prod.fst hsame
  · rintro h ⟨j, effect⟩ hj ⟨k, other⟩ hk hsame
    have hj' := (map.decorations.get?_eq_some_iff j effect).mpr hj
    have hk' := (map.decorations.get?_eq_some_iff k other).mpr hk
    obtain rfl := h j effect k other hj' hk' (congrArg Prod.fst hsame) (congrArg Prod.snd hsame)
    rw [hj'] at hk'
    rw [Option.some.inj hk']

theorem statics_iff : (∀ kind, map.validateStatics kind = .ok ()) ↔
    map.validateStatics .Fire = .ok () ∧ map.validateStatics .Smoke = .ok () ∧
      map.validateStatics .Decoration = .ok () :=
  ⟨fun h => ⟨h .Fire, h .Smoke, h .Decoration⟩, fun ⟨hfire, hsmoke, hdecoration⟩ kind => by
    cases kind <;> assumption⟩

-- A map with decoded terrain and its random stream passes its check exactly when it is sound.
theorem validate_iff {terrain : List Hex} (hterrain : map.terrain = some terrain)
    (hdice : map.fireDice.isSome = true) : map.validate = .ok () ↔ map.Sound [] := by
  unfold validate
  rw [hterrain]
  simp only [unit_bind_ok_iff, ensure_ok_iff, Bool.and_eq_true, decide_eq_true_eq,
    List.all_eq_true, entries_apart_iff, hdice, Bool.true_or, true_and]
  constructor
  · rintro ⟨hfire, hsmoke, hdecoration, hsize, hlength, hentries, hapart, htiles, hwind⟩
    have hplaced : ∀ j effect, map.decorations.get? j = some effect → j < map.size ∧ effect.valid = true := by
      intro j effect hj
      have := hentries _ ((map.decorations.get?_eq_some_iff j effect).mp hj)
      rw [hlength] at this
      exact this
    refine ⟨⟨⟨hsize.1.1.1, hsize.1.1.2⟩, hsize.1.2, hsize.2⟩, ⟨terrain, hterrain, hlength, fun tile ht => ?_⟩,
      statics_iff.mpr ⟨hfire, hsmoke, hdecoration⟩, hdice, ⟨⟨hwind.1.1.1, hwind.1.1.2⟩, hwind.1.2, hwind.2⟩,
      fun j effect hj => (hplaced j effect hj).1, hapart, fun j effect hj _ => (hplaced j effect hj).2,
      fun j hj => by contradiction⟩
    exact tile.validateTile_ok_iff.mp (ok_of_forM htiles tile ht)
  · intro h
    obtain ⟨terrain', hterrain', hlength, htiles⟩ := h.terrain
    obtain rfl : terrain = terrain' := Option.some.inj (hterrain.symm.trans hterrain')
    obtain ⟨hfire, hsmoke, hdecoration⟩ := statics_iff.mp h.statics
    refine ⟨hfire, hsmoke, hdecoration, ⟨⟨h.dimensions.1, h.dimensions.2.1⟩, h.dimensions.2.2⟩, hlength,
      fun entry hentry => ?_, h.apart, ?_, ⟨⟨h.wind.1, h.wind.2.1⟩, h.wind.2.2⟩⟩
    · have hj := (map.decorations.get?_eq_some_iff entry.1 entry.2).mpr hentry
      rw [hlength]
      exact ⟨h.placed _ _ hj, h.settled _ _ hj List.not_mem_nil⟩
    · exact forM_ok fun tile ht => tile.validateTile_ok_iff.mpr (htiles tile ht)

end Validity

section Installing

variable {due : List Nat}

-- The map with an overlay over a hex in place of the stored records there.
def laid (map : StoredMap) (j : Nat) (effect : Decoration) : StoredMap :=
  { map with
    staticDecorations := fun kind =>
      if kind = .Decoration then map.staticDecorations kind
      else (map.staticDecorations kind).retain (fun _ record => record.coordinate ≠ map.coordinateAt j)
    decorations := map.decorations.insert j effect }

theorem get?_laid (j k : Nat) (effect : Decoration) :
    (map.laid j effect).decorations.get? k = if k = j then some effect else map.decorations.get? k :=
  map.decorations.get?_insert j k effect

theorem validateStatics_laid (j : Nat) (effect : Decoration) {kind : StaticDecorationKind}
    (h : map.validateStatics kind = .ok ()) : (map.laid j effect).validateStatics kind = .ok () := by
  unfold validateStatics at h ⊢
  rw [unit_bind_ok_iff, ensure_ok_iff, ensure_ok_iff, decide_eq_true_eq, List.all_eq_true] at h ⊢
  obtain ⟨hlength, hinside⟩ := h
  dsimp only [laid]
  split
  · exact ⟨hlength, hinside⟩
  · refine ⟨le_trans (List.length_filter_le _ _) hlength, fun record hrecord => ?_⟩
    obtain ⟨entry, hentry, rfl⟩ := List.mem_map.mp hrecord
    exact hinside _ (List.mem_map.mpr ⟨entry, (List.mem_filter.mp hentry).1, rfl⟩)

-- An overlay that is older than its like goes onto any hex that no due fire holds.
theorem Sound.laid (hsound : map.Sound due) (j : Nat) (hj : j < map.size) (hfree : j ∉ due)
    (effect : Decoration) (hvalid : effect.valid = true)
    (holdest : ∀ k other, map.decorations.get? k = some other → other.isFire = effect.isFire →
      effect.order < other.order) : (map.laid j effect).Sound due := by
  have hcases : ∀ k other, (map.laid j effect).decorations.get? k = some other →
      k = j ∧ other = effect ∨ k ≠ j ∧ map.decorations.get? k = some other := by
    intro k other hk
    rw [get?_laid] at hk
    split at hk
    · rename_i hsame
      exact .inl ⟨hsame, (Option.some.inj hk).symm⟩
    · rename_i hother
      exact .inr ⟨hother, hk⟩
  refine ⟨hsound.dimensions, hsound.terrain, fun kind => validateStatics_laid j effect (hsound.statics kind),
    hsound.dice, hsound.wind, ?_, ?_, ?_, ?_⟩
  · intro k other hk
    rcases hcases k other hk with ⟨rfl, -⟩ | ⟨-, hold⟩
    · exact hj
    · exact hsound.placed k other hold
  · intro k other l another hk hl hfire horder
    rcases hcases k other hk with ⟨hkj, hko⟩ | ⟨-, hkold⟩ <;>
      rcases hcases l another hl with ⟨hlj, hlo⟩ | ⟨-, hlold⟩
    · rw [hkj, hlj]
    · rw [hko] at hfire horder
      exact absurd horder (ne_of_lt (holdest l another hlold hfire.symm))
    · rw [hlo] at hfire horder
      exact absurd horder.symm (ne_of_lt (holdest k other hkold hfire))
    · exact hsound.apart k other l another hkold hlold hfire horder
  · intro k other hk hnot
    rcases hcases k other hk with ⟨-, rfl⟩ | ⟨-, hold⟩
    · exact hvalid
    · exact hsound.settled k other hold hnot
  · intro k hk
    obtain ⟨other, hother, hdue⟩ := hsound.pending k hk
    refine ⟨other, ?_, hdue⟩
    rw [get?_laid, if_neg fun hsame : k = j => hfree (hsame ▸ hk)]
    exact hother

theorem Sound.install (hsound : map.Sound due) (more : Nat) (hroom : map.Room (more + 1)) (j : Nat)
    (hj : j < map.size) (hfree : j ∉ due) (effect : Decoration)
    (hvalid : ∀ order, order < 0 → { effect with order := order }.valid = true) :
    ∃ order, map.installDecoration j effect = .ok (map.laid j { effect with order := order }) ∧
      (map.laid j { effect with order := order }).Sound due ∧
      (map.laid j { effect with order := order }).Room more := by
  obtain ⟨hmore, horders⟩ := hroom
  have hnonpos := map.oldestOrder_nonpos effect.isFire
  have hleast : -2 ^ 63 + ((more + 1 : Nat) : Int) ≤ map.oldestOrder effect.isFire :=
    map.le_oldestOrder effect.isFire _ (by omega) horders
  obtain ⟨-, tile, -, -, -, -, -, htile⟩ := hsound.baseHex_ok hj
  refine ⟨map.oldestOrder effect.isFire - 1, ?_, ?_, by omega, ?_⟩
  · unfold installDecoration
    dsimp only
    rw [ensure_ok (by rw [decide_eq_true_eq]; omega)]
    dsimp only [bind, Except.bind]
    rw [htile]
    rfl
  · refine hsound.laid j hj hfree _ (hvalid _ (by omega)) fun k other hk hfire => ?_
    have hle := map.oldestOrder_le k other hk
    rw [hfire] at hle
    exact lt_of_lt_of_le (sub_one_lt _) hle
  · intro k other hk
    rw [get?_laid] at hk
    split at hk
    · cases hk
      dsimp only
      omega
    · have hold := horders k other hk
      omega

-- A fire takes the place of the piece of growth that it will spend.
theorem potential_laid (j : Nat) (effect other : Decoration)
    (hfree : (map.decorations.get? j).any Decoration.isFire = false)
    (hfeeds : effect.isFire = true → 0 < map.woodsAt j ∧ effect.clock ≤ Decoration.longest)
    (hother : other.isFire = effect.isFire ∧ other.clock = effect.clock) :
    (map.laid j other).potential ≤ map.potential := by
  refine Library.Site.total_le_of _ _ _ _ fun i _ => ?_
  have hwoods : (map.laid j other).woodsAt i = map.woodsAt i := rfl
  unfold site
  rw [hwoods, get?_laid]
  by_cases hsame : i = j
  · rw [if_pos hsame, hsame]
    have hidle : (map.decorations.get? j).bind
        (fun effect => if effect.isFire then some effect.clock else none) = none := by
      cases hget : map.decorations.get? j with
      | none => rfl
      | some existing =>
        rw [hget] at hfree
        exact if_neg (Bool.not_eq_true _ ▸ hfree)
    rw [hidle, Option.bind_some, hother.1, hother.2]
    split
    · rename_i hfire
      obtain ⟨hwoods, hclock⟩ := hfeeds hfire
      exact Library.Site.potential_ignite _ hwoods hclock
    · exact le_refl _
  · rw [if_neg hsame]

end Installing

section Spreading

variable {due : List Nat} (hsound : map.Sound due)

include hsound

theorem Sound.position_lt {coordinate : HexCoordinate}
    (h : coordinate.onMap (UInt16.ofNat map.width.toNat) (UInt16.ofNat map.height.toNat) = true) :
    map.position coordinate.x coordinate.y < map.size := by
  obtain ⟨⟨hwidth, hwidest⟩, hheight, hhighest⟩ := hsound.dimensions
  have hfits : ∀ n < 2 ^ 16, (UInt16.ofNat n).toNat = n := fun n hn => UInt16.toNat_ofNat_of_lt' hn
  unfold HexCoordinate.onMap at h
  simp only [Bool.and_eq_true, decide_eq_true_eq] at h
  rw [hfits _ (by omega), hfits _ (by omega)] at h
  obtain ⟨⟨⟨hleft, hright⟩, htop⟩, hbottom⟩ := h
  have hrows : (coordinate.y + 1) * map.width ≤ map.height * map.width :=
    mul_le_mul_of_nonneg_right (by omega) (by omega)
  have hpast : 0 ≤ coordinate.y * map.width := mul_nonneg htop (by omega)
  unfold position size
  rw [mul_comm map.width]
  rw [add_mul, one_mul] at hrows
  omega

theorem Sound.neighbors_ok (coordinate : HexCoordinate) :
    map.neighbors coordinate = .ok (coordinate.neighborsWithin (UInt16.ofNat map.width.toNat)
      (UInt16.ofNat map.height.toNat)) := by
  obtain ⟨⟨hwidth, hwidest⟩, hheight, hhighest⟩ := hsound.dimensions
  unfold neighbors
  rw [ensure_ok (by simp only [Bool.and_eq_true, decide_eq_true_eq]; omega),
    ensure_ok (by simp only [Bool.and_eq_true, decide_eq_true_eq]; omega)]
  rfl

theorem Sound.neighbor_lt (coordinate other : HexCoordinate) (k : Nat)
    (h : ((coordinate.neighborsWithin (UInt16.ofNat map.width.toNat)
      (UInt16.ofNat map.height.toNat))[k]?).join = some other) :
    map.position other.x other.y < map.size := by
  have hmem := List.mem_of_getElem? (Option.join_eq_some_iff.mp h)
  exact hsound.position_lt ((coordinate.mem_neighborsWithin_iff other _ _).mp hmem).2

theorem Sound.neighborOf_ok (direction : Nat) (hex : Option HexCoordinate) :
    ∃ other, map.neighborOf direction hex = .ok other ∧
      ∀ coordinate, other = some coordinate → map.position coordinate.x coordinate.y < map.size := by
  cases hex with
  | none => exact ⟨none, rfl, fun _ h => by contradiction⟩
  | some coordinate =>
    refine ⟨_, ?_, fun other h => hsound.neighbor_lt coordinate other direction h⟩
    dsimp only [neighborOf]
    rw [hsound.neighbors_ok coordinate]
    rfl

-- A spread has four candidates, and those that exist are on the map.
theorem Sound.spreadHexes_ok (origin : HexCoordinate) :
    ∃ hexes, map.spreadHexes origin = .ok hexes ∧ hexes.length = 4 ∧
      ∀ j, some j ∈ hexes → j < map.size := by
  let downwind := ((map.windDirection + 180 + 30) / 60 % 6).toNat
  let around := origin.neighborsWithin (UInt16.ofNat map.width.toNat) (UInt16.ofNat map.height.toNat)
  obtain ⟨second, hsecond, hbeyond⟩ := hsound.neighborOf_ok downwind (around[downwind]?).join
  refine ⟨[(around[downwind]?).join, (around[(downwind + 5) % 6]?).join, (around[(downwind + 1) % 6]?).join,
    second].map (fun hex => hex.map (fun hex => map.position hex.x hex.y)), ?_, rfl, ?_⟩
  · unfold spreadHexes
    rw [hsound.neighbors_ok origin]
    dsimp only [bind, Except.bind]
    rw [hsecond]
  · intro j hj
    obtain ⟨hex, hhex, hj⟩ := List.mem_map.mp hj
    obtain ⟨coordinate, rfl, rfl⟩ := Option.map_eq_some_iff.mp hj
    simp only [List.mem_cons, List.not_mem_nil, or_false] at hhex
    rcases hhex with h | h | h | h
    · exact hsound.neighbor_lt origin coordinate _ h.symm
    · exact hsound.neighbor_lt origin coordinate _ h.symm
    · exact hsound.neighbor_lt origin coordinate _ h.symm
    · exact hbeyond coordinate h.symm

end Spreading

theorem writeHex_eq {x y : Int} {j : Nat} {hex tile : Hex} {terrain : List Hex}
    (hbase : map.baseHex x y = .ok tile) (hj : map.position x y = j) (hterrain : map.terrain = some terrain)
    (hvalid : hex.validate = .ok ()) (hoverlay : hex.overlay = none) :
    map.writeHex x y hex = .ok { map with terrain := some (terrain.set j hex) } := by
  unfold writeHex
  rw [hvalid, ensure_ok (by rw [hoverlay]; rfl), hbase, hterrain, ← hj]
  rfl

theorem Sound.interval {due : List Nat} (hsound : map.Sound due) :
    20 ≤ map.fireSpreadInterval.toNat ∧ map.fireSpreadInterval.toNat ≤ 60 := by
  obtain ⟨-, hspeed, -⟩ := hsound.wind
  have hfits : (max (60 - map.windSpeed) 20).toNat < 2 ^ 16 := by omega
  unfold fireSpreadInterval
  rw [UInt16.toNat_ofNat_of_lt' hfits]
  omega

theorem Sound.redraw {due : List Nat} (hsound : map.Sound due) (dice : Btech.Dice) :
    { map with fireDice := some dice }.Sound due :=
  ⟨hsound.dimensions, hsound.terrain, hsound.statics, rfl, hsound.wind, hsound.placed, hsound.apart,
    hsound.settled, hsound.pending⟩

theorem draw_ok (sides : Nat) (hsides : 0 < sides) (hdice : map.fireDice.isSome = true) :
    ∃ roll dice, map.draw sides = .ok (roll, { map with fireDice := some dice }) ∧ 0 < roll ∧ roll ≤ sides := by
  obtain ⟨dice, hstream⟩ := Option.isSome_iff_exists.mp hdice
  refine ⟨(dice.die sides).1, (dice.die sides).2, ?_, Nat.succ_pos _, Nat.mod_lt _ hsides⟩
  unfold draw
  rw [hstream]
  rfl

end StoredMap

namespace StoredMap

variable {map : StoredMap} {index : Nat} {rest : List Nat}

-- A fire that has been worked off stands with its next clock, and keeps its place in the orders.
theorem Sound.settle (hsound : map.Sound (index :: rest)) (hnew : index ∉ rest) (effect : Decoration)
    (f : Decoration → Decoration) (hget : map.decorations.get? index = some effect)
    (hkind : (f effect).isFire = effect.isFire) (horder : (f effect).order = effect.order)
    (hvalid : (f effect).valid = true) :
    { map with decorations := map.decorations.modify index f }.Sound rest := by
  have hcases : ∀ k other, (map.decorations.modify index f).get? k = some other →
      ∃ old, map.decorations.get? k = some old ∧ other.isFire = old.isFire ∧ other.order = old.order ∧
        (k = index → other = f effect) ∧ (k ≠ index → other = old) := by
    intro k other hk
    rw [OrderedMap.get?_modify] at hk
    by_cases hsame : k = index
    · rw [if_pos hsame, hget] at hk
      cases hk
      exact ⟨effect, hsame ▸ hget, hkind, horder, fun _ => rfl, fun hother => absurd hsame hother⟩
    · rw [if_neg hsame] at hk
      exact ⟨other, hk, rfl, rfl, fun h => absurd h hsame, fun _ => rfl⟩
  refine ⟨hsound.dimensions, hsound.terrain, hsound.statics, hsound.dice, hsound.wind, ?_, ?_, ?_, ?_⟩
  · intro k other hk
    obtain ⟨old, hold, -⟩ := hcases k other hk
    exact hsound.placed k old hold
  · intro k other l another hk hl hfire heq
    obtain ⟨old, hold, hfire', horder', -⟩ := hcases k other hk
    obtain ⟨old', hold', hfire'', horder'', -⟩ := hcases l another hl
    exact hsound.apart k old l old' hold hold' (hfire' ▸ hfire'' ▸ hfire) (horder' ▸ horder'' ▸ heq)
  · intro k other hk hdone
    obtain ⟨old, hold, -, -, hthere, helse⟩ := hcases k other hk
    by_cases hsame : k = index
    · rw [hthere hsame]
      exact hvalid
    · rw [helse hsame]
      exact hsound.settled k old hold fun hmem => (List.mem_cons.mp hmem).elim hsame hdone
  · intro k hk
    obtain ⟨other, hother, hdue⟩ := hsound.pending k (List.mem_cons_of_mem _ hk)
    refine ⟨other, ?_, hdue⟩
    show (map.decorations.modify index f).get? k = some other
    rw [OrderedMap.get?_modify, if_neg fun hsame : k = index => hnew (hsame ▸ hk)]
    exact hother

-- A fire that has burnt out leaves its hex with other ground.
theorem Sound.douse (hsound : map.Sound (index :: rest)) (hnew : index ∉ rest) {terrain : List Hex}
    (damage : OrderedMap Nat Nat) (hlength : terrain.length = map.size)
    (htiles : ∀ tile ∈ terrain, tile.validate = .ok () ∧ tile.overlay = none) :
    { map with decorations := map.decorations.remove index, terrain := some terrain, terrainDamage := damage }.Sound rest := by
  have hcases : ∀ k other, (map.decorations.remove index).get? k = some other →
      k ≠ index ∧ map.decorations.get? k = some other := by
    intro k other hk
    rw [OrderedMap.get?_remove] at hk
    split at hk
    · contradiction
    · rename_i hother
      exact ⟨hother, hk⟩
  refine ⟨hsound.dimensions, ⟨terrain, rfl, hlength, htiles⟩, hsound.statics, hsound.dice, hsound.wind, ?_, ?_, ?_, ?_⟩
  · exact fun k other hk => hsound.placed k other (hcases k other hk).2
  · exact fun k other l another hk hl => hsound.apart k other l another (hcases k other hk).2 (hcases l another hl).2
  · intro k other hk hdone
    obtain ⟨hother, hold⟩ := hcases k other hk
    exact hsound.settled k other hold fun hmem => (List.mem_cons.mp hmem).elim hother hdone
  · intro k hk
    obtain ⟨other, hother, hdue⟩ := hsound.pending k (List.mem_cons_of_mem _ hk)
    refine ⟨other, ?_, hdue⟩
    show (map.decorations.remove index).get? k = some other
    rw [OrderedMap.get?_remove, if_neg fun hsame : k = index => hnew (hsame ▸ hk)]
    exact hother

end StoredMap

-- Fires go onto woods that do not burn, and smoke onto hexes without any overlay.
structure Installation.Proper (installation : Installation) : Prop where
  light : installation.effect.kind ≠ .HeavySmoke
  fire : installation.effect.isFire = true →
    (installation.before.decorations.get? installation.index).any Decoration.isFire = false ∧
      ∃ tile, installation.before.baseHex (installation.before.coordinateAt installation.index).x
        (installation.before.coordinateAt installation.index).y = .ok tile ∧ tile.isWoods = true
  smoke : installation.effect.isFire = false →
    installation.before.decorations.get? installation.index = none

-- What holds while the fires that are due are worked off, with those that are left.
structure Sweep.Worked (start : StoredMap) (rest : List Nat) (more : Nat) (sweep : Sweep) : Prop where
  sound : sweep.map.Sound rest
  room : sweep.map.Room more
  size : sweep.map.size = start.size
  waiting : ∀ k ∈ rest, sweep.map.decorations.get? k = start.decorations.get? k
  proper : ∀ installation ∈ sweep.installed, installation.Proper
  fresh : ∀ installation ∈ sweep.installed, installation.index ∉ rest ∧
    ∃ last ∈ sweep.installed, last.index = installation.index ∧ ∃ order,
      sweep.map.decorations.get? installation.index = some { last.effect with order := order }
  light : ∀ k effect, sweep.map.decorations.get? k = some effect → effect.kind = .HeavySmoke →
    start.decorations.get? k = some effect

namespace Sweep.Worked

variable {start : StoredMap} {rest : List Nat} {more : Nat} {sweep : Sweep}

theorem mono (h : sweep.Worked start rest more) (less : Nat) (hless : less ≤ more) :
    sweep.Worked start rest less :=
  { h with room := h.room.mono hless }

-- No fire that is due is installed over.
theorem free (h : sweep.Worked start rest more) (j : Nat)
    (hidle : (sweep.map.decorations.get? j).any Decoration.isFire = false) : j ∉ rest := by
  intro hj
  obtain ⟨effect, heffect, hkind, -⟩ := h.sound.pending j hj
  rw [heffect] at hidle
  simp [Decoration.isFire, hkind] at hidle

theorem install (h : sweep.Worked start rest (more + 1)) (dice : Btech.Dice) (j : Nat) (effect : Decoration)
    (hj : j < sweep.map.size) (hproper : Installation.Proper ⟨{ sweep.map with fireDice := some dice }, j, effect⟩)
    (hidle : (sweep.map.decorations.get? j).any Decoration.isFire = false)
    (hclock : effect.isFire = true → effect.clock ≤ Decoration.longest)
    (hvalid : ∀ order, order < 0 → { effect with order := order }.valid = true) :
    ∃ later, sweep.install { sweep.map with fireDice := some dice } j effect = .ok later ∧
      later.Worked start rest more ∧ later.map.potential ≤ sweep.map.potential := by
  have hfree := h.free j hidle
  have hsound := h.sound.redraw dice
  obtain ⟨order, hinstall, hlaid, hroom⟩ := hsound.install more h.room j hj hfree effect hvalid
  have hget : ∀ k, ({ sweep.map with fireDice := some dice }.laid j
      { effect with order := order }).decorations.get? k =
        if k = j then some { effect with order := order } else sweep.map.decorations.get? k :=
    fun k => StoredMap.get?_laid j k _
  refine ⟨⟨{ sweep.map with fireDice := some dice }.laid j { effect with order := order },
    sweep.installed ++ [⟨{ sweep.map with fireDice := some dice }, j, effect⟩]⟩, ?_, ?_, ?_⟩
  · unfold Sweep.install
    rw [hinstall]
    rfl
  · refine ⟨hlaid, hroom, h.size, fun k hk => ?_, fun i hi => ?_, fun i hi => ?_, fun k e hk hkind => ?_⟩
    · rw [hget, if_neg fun hsame : k = j => hfree (hsame ▸ hk)]
      exact h.waiting k hk
    · rcases List.mem_append.mp hi with hold | hnew
      · exact h.proper i hold
      · rw [List.mem_singleton.mp hnew]
        exact hproper
    · by_cases hsame : i.index = j
      · refine ⟨hsame ▸ hfree, ⟨{ sweep.map with fireDice := some dice }, j, effect⟩,
          List.mem_append_right _ (List.mem_singleton_self _), hsame.symm, order, ?_⟩
        rw [hget, if_pos hsame]
      · have hold : i ∈ sweep.installed := (List.mem_append.mp hi).resolve_right fun hnew =>
          hsame (by rw [List.mem_singleton.mp hnew])
        obtain ⟨hdone, last, hlast, hindex, order', hstands⟩ := h.fresh i hold
        refine ⟨hdone, last, List.mem_append_left _ hlast, hindex, order', ?_⟩
        rw [hget, if_neg hsame]
        exact hstands
    · rw [hget] at hk
      split at hk
      · cases hk
        exact absurd hkind hproper.light
      · exact h.light k e hk hkind
  · refine @StoredMap.potential_laid { sweep.map with fireDice := some dice } j effect _ hidle
      (fun hfire => ⟨?_, hclock hfire⟩) ⟨rfl, rfl⟩
    obtain ⟨-, tile, htile, hwoods⟩ := hproper.fire hfire
    obtain ⟨-, tile', -, -, -, -, hdensity, htile'⟩ := hsound.baseHex_ok hj
    rw [hdensity]
    rw [htile'] at htile
    cases htile
    exact (isWoods_iff _).mp hwoods

theorem placeSmoke (h : sweep.Worked start rest (more + 1)) (j : Nat) (hj : j < sweep.map.size) :
    ∃ later, sweep.placeSmoke j = .ok later ∧ later.Worked start rest more ∧
      later.map.potential ≤ sweep.map.potential := by
  unfold Sweep.placeSmoke
  cases hget : sweep.map.decorations.get? j with
  | some existing => exact ⟨sweep, rfl, h.mono more (Nat.le_succ _), le_refl _⟩
  | none =>
    obtain ⟨roll, dice, hdraw, hlow, hhigh⟩ := StoredMap.draw_ok 61 (by omega) h.sound.dice
    have hidle : (sweep.map.decorations.get? j).any Decoration.isFire = false := by
      rw [hget]
      rfl
    obtain ⟨later, hinstall, hworked, hle⟩ := h.install dice j (.new .Smoke (89 + roll) none) hj
      ⟨show DecorationKind.Smoke ≠ .HeavySmoke by decide, fun hfire => by contradiction, fun _ => hget⟩ hidle (fun hfire => by contradiction)
      (fun order horder => by
        refine (Decoration.valid_iff _).mpr ⟨horder, ?_, .inl ?_, fun _ => rfl, fun _ h => by contradiction, .inr rfl⟩
        · dsimp only [Decoration.new]
          omega
        · dsimp only [Decoration.new]
          omega)
    refine ⟨later, ?_, hworked, hle⟩
    rw [hdraw]
    exact hinstall

theorem ignite (h : sweep.Worked start rest (more + 1)) (target : Option Nat × Bool)
    (hj : ∀ j, target.1 = some j → j < sweep.map.size) :
    ∃ later, sweep.ignite target = .ok later ∧ later.Worked start rest more ∧
      later.map.potential ≤ sweep.map.potential := by
  have hsame : ∃ later, Except.ok sweep = (.ok later : Except Error Sweep) ∧ later.Worked start rest more ∧
      later.map.potential ≤ sweep.map.potential := ⟨sweep, rfl, h.mono more (Nat.le_succ _), le_refl _⟩
  obtain ⟨place, lit⟩ := target
  cases place with
  | none => exact hsame
  | some j =>
    cases lit with
    | false => exact hsame
    | true =>
      have hon := hj j rfl
      unfold Sweep.ignite
      dsimp only
      cases hidle : (sweep.map.decorations.get? j).any Decoration.isFire with
      | true => exact hsame
      | false =>
        obtain ⟨-, tile, -, -, -, -, -, htile⟩ := h.sound.baseHex_ok hon
        rw [if_neg Bool.false_ne_true, htile]
        dsimp only [bind, Except.bind]
        cases hwoods : tile.isWoods with
        | false => exact hsame
        | true =>
          obtain ⟨roll, dice, hdraw, hlow, hhigh⟩ :=
            StoredMap.draw_ok 121 (by omega) h.sound.dice
          have hinterval := (h.sound.redraw dice).interval
          have hduration : (59 + (roll : Int)) = ((59 + roll : Nat) : Int) := by omega
          have hnew : (Decoration.new .Fire (59 + roll)
              (some { sweep.map with fireDice := some dice }.fireSpreadInterval)).clock ≤ Decoration.longest := by
            rw [hduration]
            exact Decoration.clock_new (by omega) (by omega) hinterval.2
          obtain ⟨later, hinstall, hworked, hle⟩ := h.install dice j
            (.new .Fire (59 + roll) (some { sweep.map with fireDice := some dice }.fireSpreadInterval)) hon
            ⟨show DecorationKind.Fire ≠ .HeavySmoke by decide, fun _ => ⟨hidle, tile, htile, hwoods⟩,
              fun hsmoke => by contradiction⟩ hidle (fun _ => hnew)
            (fun order horder => by
              refine (Decoration.valid_iff _).mpr ⟨horder, ?_, .inl ?_, fun hzero => ?_, fun seconds hs => ?_, .inl rfl⟩
              · dsimp only [Decoration.new]
                omega
              · dsimp only [Decoration.new]
                omega
              · dsimp only [Decoration.new] at hzero
                omega
              · cases hs
                exact ⟨UInt16.le_iff_toNat_le.mpr (le_trans (by decide) hinterval.1),
                  UInt16.le_iff_toNat_le.mpr hinterval.2⟩)
          refine ⟨later, ?_, hworked, hle⟩
          rw [if_neg (by decide), hdraw]
          exact hinstall

theorem redraw (h : sweep.Worked start rest more) (dice : Btech.Dice) :
    { sweep with map := { sweep.map with fireDice := some dice } }.Worked start rest more :=
  ⟨h.sound.redraw dice, h.room, h.size, h.waiting, h.proper, h.fresh, h.light⟩

-- Each of a list of steps takes the room of one overlay.
theorem fold {T : Type} (f : Sweep → T → Except Error Sweep) (items : List T)
    (hstep : ∀ a ∈ items, ∀ (sweep : Sweep) (more : Nat), sweep.Worked start rest (more + 1) →
      ∃ later, f sweep a = .ok later ∧ later.Worked start rest more ∧ later.map.potential ≤ sweep.map.potential)
    (sweep : Sweep) (h : sweep.Worked start rest (more + items.length)) :
    ∃ later, items.foldlM f sweep = .ok later ∧ later.Worked start rest more ∧
      later.map.potential ≤ sweep.map.potential := by
  induction items generalizing sweep with
  | nil => exact ⟨sweep, rfl, h, le_refl _⟩
  | cons a items ih =>
    obtain ⟨ha, hitems⟩ := List.forall_mem_cons.mp hstep
    obtain ⟨next, hnext, hworked, hle⟩ := ha sweep (more + items.length) h
    obtain ⟨later, hlater, hworked', hle'⟩ := ih hitems next hworked
    refine ⟨later, ?_, hworked', le_trans hle' hle⟩
    rw [List.foldlM_cons, hnext]
    exact hlater

theorem spread (h : sweep.Worked start rest (more + 8)) (index : Nat) :
    ∃ later, sweep.spread index = .ok later ∧ later.Worked start rest more ∧
      later.map.potential ≤ sweep.map.potential := by
  obtain ⟨targets, htargets, hfour, honMap⟩ := h.sound.spreadHexes_ok (sweep.map.coordinateAt index)
  obtain ⟨dice, hdice⟩ := Option.isSome_iff_exists.mp h.sound.dice
  obtain ⟨lit, dice', hlit⟩ : ∃ lit dice', StoredMap.ignitions sweep.map.windSpeed [9, 11, 11, 12] dice = (lit, dice') :=
    ⟨_, _, rfl⟩
  have hinside : ∀ j, some j ∈ targets → j < start.size := fun j hj => h.size ▸ honMap j hj
  obtain ⟨smoked, hsmoked, hworked, hle⟩ := @fold start rest (more + 4) _ Sweep.placeSmoke (targets.filterMap id)
    (fun j hj sweep more hsweep => hsweep.placeSmoke j
      (hsweep.size ▸ hinside j (by
        obtain ⟨target, ht, hsome⟩ := List.mem_filterMap.mp hj
        rw [← show target = some j from hsome]
        exact ht))) _
    ((h.redraw dice').mono _ (by
      have := List.length_filterMap_le id targets
      omega))
  obtain ⟨later, hlater, hworked', hle'⟩ := @fold start rest more _ Sweep.ignite (targets.zip lit)
    (fun target ht sweep more hsweep => hsweep.ignite target (fun j hj =>
      hsweep.size ▸ hinside j (hj ▸ (List.of_mem_zip ht).1))) smoked
    (hworked.mono _ (by
      rw [List.length_zip]
      omega))
  refine ⟨later, ?_, hworked', le_trans hle' hle⟩
  unfold Sweep.spread
  rw [htargets, hdice]
  dsimp only [bind, Except.bind, ofOption]
  rw [hlit]
  rw [show List.foldlM Sweep.placeSmoke _ _ = Except.ok smoked from hsmoked]
  exact hlater

section Finishing

variable {index : Nat} (h : sweep.Worked start (index :: rest) more) (hnew : index ∉ rest)

include h hnew

-- When the work on a fire touches its own hex only, what was noted of the others still holds.
theorem finish (map : StoredMap) (less : Nat) (hsound : map.Sound rest) (hroom : map.Room less)
    (hsize : map.size = sweep.map.size)
    (hothers : ∀ k, k ≠ index → map.decorations.get? k = sweep.map.decorations.get? k)
    (hthere : ∀ effect, map.decorations.get? index = some effect → effect.isFire = true) :
    { sweep with map := map }.Worked start rest less := by
  have helse : ∀ k, k ∉ index :: rest → k ≠ index := fun k hk hsame =>
    hk (hsame ▸ List.mem_cons_self)
  refine ⟨hsound, hroom, hsize.trans h.size, fun k hk => ?_, h.proper, fun i hi => ?_, fun k e hk hheavy => ?_⟩
  · rw [hothers k fun hsame => hnew (hsame ▸ hk)]
    exact h.waiting k (List.mem_cons_of_mem _ hk)
  · obtain ⟨hdone, last, hlast, hindex, order, hstands⟩ := h.fresh i hi
    refine ⟨fun hmem => hdone (List.mem_cons_of_mem _ hmem), last, hlast, hindex, order, ?_⟩
    rw [hothers _ (helse _ hdone)]
    exact hstands
  · by_cases hsame : k = index
    · rw [hsame] at hk
      have hfire := hthere e hk
      simp [Decoration.isFire, hheavy] at hfire
    · rw [hothers k hsame] at hk
      exact h.light k e hk hheavy

-- What burns out takes its piece of growth along.
theorem burnDown : ∃ later, sweep.burnDown index = .ok later ∧ later.Worked start rest more ∧
    later.map.potential ≤ sweep.map.potential := by
  obtain ⟨effect, heffect, hkind, -⟩ := h.sound.pending index List.mem_cons_self
  have hon := h.sound.placed index effect heffect
  obtain ⟨terrain, tile, hterrain, hat, hvalid, hoverlay, hwoods, htile⟩ := h.sound.baseHex_ok hon
  obtain ⟨terrain', hterrain', hlength, htiles⟩ := h.sound.terrain
  obtain rfl : terrain = terrain' := Option.some.inj (hterrain.symm.trans hterrain')
  have hremoved : ∀ k, k ≠ index →
      (sweep.map.decorations.remove index).get? k = sweep.map.decorations.get? k := fun k hk => by
    rw [OrderedMap.get?_remove, if_neg hk]
  have hgone : (sweep.map.decorations.remove index).get? index = none := by
    rw [OrderedMap.get?_remove, if_pos rfl]
  have hroom : ∀ map : StoredMap, map.decorations = sweep.map.decorations.remove index → map.Room more := by
    intro map hmap
    refine ⟨h.room.1, fun k other hk => h.room.2 k other ?_⟩
    rw [hmap, OrderedMap.get?_remove] at hk
    split at hk
    · contradiction
    · exact hk
  -- the map afterwards, with whatever ground the fire has left
  have hleaves : ∀ (ground : List Hex) (damage : OrderedMap Nat Nat), ground.length = terrain.length →
      (∀ tile ∈ ground, tile.validate = .ok () ∧ tile.overlay = none) →
      (∀ k, k ≠ index → ground[k]? = terrain[k]?) →
      ((ground[index]?).map Hex.woodsDensity).getD 0 = sweep.map.woodsAt index - 1 →
      ∀ map, map = { sweep.map with
        decorations := sweep.map.decorations.remove index, terrain := some ground, terrainDamage := damage } →
      { sweep with map := map }.Worked start rest more ∧ map.potential ≤ sweep.map.potential := by
    rintro ground damage hground htiles' helse hburnt map rfl
    refine ⟨h.finish hnew _ more (h.sound.douse hnew damage (hground.trans hlength) htiles')
      (hroom _ rfl) rfl hremoved fun other hother => ?_, ?_⟩
    · rw [show _ = none from hgone] at hother
      contradiction
    · refine Library.Site.total_le_of _ _ _ _ fun k _ => ?_
      by_cases hsame : k = index
      · rw [hsame]
        have hfuel : { sweep.map with
            decorations := sweep.map.decorations.remove index, terrain := some ground, terrainDamage := damage }.woodsAt
              index = sweep.map.woodsAt index - 1 := hburnt
        unfold StoredMap.site
        rw [hfuel]
        rw [hgone, heffect]
        have hfire : effect.isFire = true := decide_eq_true hkind
        rw [Option.bind_some, if_pos hfire]
        exact Library.Site.potential_burn _ _ _
      · have hfuel : { sweep.map with
            decorations := sweep.map.decorations.remove index, terrain := some ground, terrainDamage := damage }.woodsAt
              k = sweep.map.woodsAt k := by
          unfold StoredMap.woodsAt
          rw [hterrain, Option.getD_some, Option.getD_some, helse k hsame]
        unfold StoredMap.site
        rw [hfuel]
        rw [hremoved k hsame]
  obtain ⟨-, -, hposition⟩ := h.sound.inside index hon
  obtain ⟨hlt, -⟩ := List.getElem?_eq_some_iff.mp hat
  have hbase : { sweep.map with decorations := sweep.map.decorations.remove index }.baseHex
      (sweep.map.coordinateAt index).x (sweep.map.coordinateAt index).y = .ok tile := htile
  unfold Sweep.burnDown
  cases hburnt : burnOut tile with
  | none =>
    have hbare : ((terrain[index]?).map Hex.woodsDensity).getD 0 = sweep.map.woodsAt index - 1 := by
      rw [hat, hwoods, burnOut_none tile hburnt]
      exact burnOut_none tile hburnt
    obtain ⟨hworked, hle⟩ := hleaves terrain sweep.map.terrainDamage rfl htiles (fun _ _ => rfl) hbare
      { sweep.map with decorations := sweep.map.decorations.remove index } (by rw [← hterrain])
    refine ⟨_, ?_, hworked, hle⟩
    refine bind_ok hbase ?_
    rw [hburnt]
  | some burnt =>
    obtain ⟨hvalid', hoverlay', hdensity⟩ := burnOut_some tile hvalid hburnt
    rw [hoverlay] at hoverlay'
    have hset : ∀ other ∈ terrain.set index burnt, other.validate = .ok () ∧ other.overlay = none := by
      intro other hother
      rcases List.mem_or_eq_of_mem_set hother with hold | rfl
      · exact htiles other hold
      · exact ⟨hvalid', hoverlay'⟩
    obtain ⟨hworked, hle⟩ := hleaves (terrain.set index burnt) (sweep.map.terrainDamage.remove index)
      List.length_set hset (fun k hk => List.getElem?_set_ne (Ne.symm hk))
      (by rw [List.getElem?_set_self hlt, hwoods, ← hdensity]; rfl) _ rfl
    refine ⟨_, ?_, hworked, hle⟩
    refine bind_ok hbase ?_
    rw [hburnt]
    exact bind_ok (StoredMap.writeHex_eq hbase hposition hterrain hvalid'
      hoverlay') rfl

-- A fire that spreads has its next clock, shorter than the last by more than what it installs.
theorem settle (effect : Decoration) (hget : sweep.map.decorations.get? index = some effect)
    (hremaining : effect.remaining ≠ 0) (hnext : effect.nextSpread = some 0) :
    (sweep.map.spend index).potential + 8 ≤ sweep.map.potential ∧
      { sweep with map := sweep.map.spend index }.Worked start rest more := by
  obtain ⟨due, hdue, hkind, horder, -⟩ := h.sound.pending index List.mem_cons_self
  obtain rfl : effect = due := Option.some.inj (hget.symm.trans hdue)
  obtain ⟨hlow, hhigh⟩ := h.sound.interval
  have hfire : effect.isFire = true := decide_eq_true hkind
  have hmodified : ∀ k, (sweep.map.spend index).decorations.get? k =
      if k = index then some (effect.spent sweep.map.fireSpreadInterval) else sweep.map.decorations.get? k := by
    intro k
    unfold StoredMap.spend
    rw [OrderedMap.get?_modify, hget]
    rfl
  have hvalid : (effect.spent sweep.map.fireSpreadInterval).valid = true := by
    have hshort := (effect.spent sweep.map.fireSpreadInterval).objectDuration.toInt_lt
    have hleft : (effect.spent sweep.map.fireSpreadInterval).remaining =
      max (effect.spent sweep.map.fireSpreadInterval).objectDuration.toInt 1 := rfl
    refine (Decoration.valid_iff _).mpr ⟨horder, by omega, .inl (by omega), fun hzero => by omega,
      fun seconds hs => ?_, .inl hkind⟩
    unfold Decoration.spent at hs
    dsimp only at hs
    split at hs
    · cases hs
      exact ⟨UInt16.le_iff_toNat_le.mpr (le_trans (by decide) hlow), UInt16.le_iff_toNat_le.mpr hhigh⟩
    · contradiction
  constructor
  · refine Library.Site.total_drop _ _ _ _ (h.sound.placed index effect hget) (fun k _ hk => ?_) ?_
    · unfold StoredMap.site
      rw [hmodified, if_neg hk]
      exact le_refl _
    · unfold StoredMap.site
      rw [hmodified, if_pos rfl, hget]
      have hfire' : (effect.spent sweep.map.fireSpreadInterval).isFire = true := hfire
      rw [Option.bind_some, Option.bind_some, if_pos hfire, if_pos hfire']
      exact Library.Site.potential_run _ _ (effect.clock_spent _ hlow hhigh hremaining hnext)
  · refine h.finish hnew _ more (h.sound.settle hnew effect _ hget rfl rfl hvalid) ⟨h.room.1, ?_⟩ rfl
      (fun k hk => ?_) fun other hother => ?_
    · intro k other hk
      rw [hmodified] at hk
      split at hk
      · cases hk
        exact h.room.2 index effect hget
      · exact h.room.2 k other hk
    · rw [hmodified, if_neg hk]
    · rw [hmodified, if_pos rfl] at hother
      cases hother
      exact hfire

end Finishing

-- A fire that is due is worked off in its turn, and what remains to burn never grows by it.
theorem work {index : Nat} (h : sweep.Worked start (index :: rest) sweep.map.potential) (hnew : index ∉ rest) :
    ∃ later, sweep.work index = .ok later ∧ later.Worked start rest later.map.potential ∧
      later.map.potential ≤ sweep.map.potential := by
  obtain ⟨effect, heffect, hkind, horder, hclock⟩ := h.sound.pending index List.mem_cons_self
  have hstands : ∀ (sweep : Sweep) more, sweep.Worked start (index :: rest) more → sweep.replaced index = false := by
    intro sweep more h
    unfold Sweep.replaced
    rw [List.any_eq_false]
    intro i hi hsame
    exact (h.fresh i hi).1 (of_decide_eq_true hsame ▸ List.mem_cons_self)
  unfold Sweep.work
  rw [if_neg (by rw [hstands sweep _ h]; decide), heffect]
  dsimp only [ofOption, bind, Except.bind]
  rcases hclock with ⟨hremaining, hnext⟩ | ⟨hremaining, hnext⟩
  · -- the room that the spread takes comes off the clock of its own fire
    rw [if_pos hnext]
    have height : 8 ≤ sweep.map.potential :=
      le_trans (Nat.le_add_left _ _) (h.settle hnew effect heffect hremaining hnext).1
    obtain ⟨middle, hmiddle, hworked, hle⟩ := (h.mono (sweep.map.potential - 8 + 8) (by omega)).spread index
    have hkept : middle.map.decorations.get? index = some effect := by
      rw [hworked.waiting index List.mem_cons_self, ← h.waiting index List.mem_cons_self]
      exact heffect
    obtain ⟨hdrop, hlater⟩ := hworked.settle hnew effect hkept hremaining hnext
    have hless : (middle.map.spend index).potential ≤ sweep.map.potential - 8 := by omega
    refine ⟨{ middle with map := middle.map.spend index }, ?_, hlater.mono _ hless, le_trans hless (Nat.sub_le _ _)⟩
    rw [hmiddle]
    dsimp only
    rw [if_neg (by rw [hstands middle _ hworked]; decide), hkept]
  · rw [if_neg (by rw [hnext]; decide), if_pos hremaining]
    obtain ⟨later, hlater, hworked, hle⟩ := h.burnDown hnew
    exact ⟨later, hlater, hworked.mono _ hle, hle⟩

end Sweep.Worked

end StompyMux.Woodland
