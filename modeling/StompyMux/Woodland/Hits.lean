import StompyMux.Woodland.Ignition

-- Hit after hit on one hex of growth, and how that compares with one hit of the summed damage.
namespace StompyMux.Woodland

open StompyMux.Construction
open Library Library.Fallible
open StompyMux.Map

-- One weapon's damage to a hex that is not named here.
structure Hit where
  shooter : ObjectId
  weapon : Weapon
  ammunition : AmmunitionMode
  damage : Nat
  intent : WoodlandIntent

namespace Hit

def attack (hit : Hit) (coordinate : HexCoordinate) : WoodlandAttack :=
  ⟨hit.shooter, coordinate, hit.weapon, hit.ammunition, hit.damage, hit.intent⟩

structure Clears (hit : Hit) : Prop where
  intent : hit.intent = .Clear ∨ hit.intent = .Absorb
  weapon : hit.weapon.canClearTerrain = true
  damage : 0 < hit.damage

end Hit

namespace World

variable (w : World) (map : ObjectId) (coordinate : HexCoordinate)

def tileAt : Option Hex :=
  (w.maps.get? map).bind fun record => (record.hex coordinate.x coordinate.y).toOption

def growthAt : Option Foliage := (w.tileAt map coordinate).bind Hex.foliage

def burningAt : Bool := (w.tileAt map coordinate).any Hex.isBurning

def recordedAt : Nat :=
  ((w.maps.get? map).bind fun record =>
    record.terrainDamage.get? (record.position coordinate.x coordinate.y)).getD 0

def placedOn (id : ObjectId) : Option ObjectId := (w.units.get? id).bind Shooter.map

-- Whether the dice of the shooter would start a fire.
def lights (hit : Hit) : Bool :=
  (w.tileAt map coordinate).any fun tile =>
    (w.units.get? hit.shooter).any fun unit =>
      (terrainIgnitionTarget hit.weapon hit.ammunition).any fun target =>
        (ignites tile target unit.dice).1

-- An aimed hit that leaves the growth at its density and sets it alight.
def loses (hit : Hit) : Bool :=
  hit.intent = .Clear &&
    (w.growthAt map coordinate).any
      (fun foliage => holds foliage (w.recordedAt map coordinate + hit.damage)) &&
    w.lights map coordinate hit

end World

section Strikes

variable (game : Game) (coordinate : HexCoordinate)

-- One hit; a fire that it started is put out before the next.
def strike (w : World) (hit : Hit) : Except Error World := do
  let (w, impact) ← resolveWoodlandAttack game w (hit.attack coordinate)
  match impact.effect with
  | .Ignite _ => setMapDecoration game w impact.map coordinate none
  | _ => .ok w

def strikes (w : World) (hits : List Hit) : Except Error World := hits.foldlM (strike game coordinate) w

-- The damage of the hits that set nothing alight.
def keptDamage (map : ObjectId) (w : World) : List Hit → List Nat
  | [] => []
  | hit :: hits =>
      (if w.loses map coordinate hit then [] else [hit.damage]) ++
        match strike game coordinate w hit with
        | .ok w => keptDamage map w hits
        | .error _ => []

end Strikes

structure StoredMap.Grown (record : StoredMap) (coordinate : HexCoordinate)
    (s : Option growth.Standing) (tile : Hex) : Prop where
  ground : record.baseHex coordinate.x coordinate.y = .ok tile
  foliage : tile.foliage = s.map (·.grade)
  taken : (record.terrainDamage.get? (record.position coordinate.x coordinate.y)).getD 0 =
    (s.map (·.taken)).getD 0

-- The same of a hex that is not burning.
structure StoredMap.Site (record : StoredMap) (coordinate : HexCoordinate)
    (s : Option growth.Standing) (tile : Hex) : Prop extends record.Grown coordinate s tile where
  quiet : ∀ effect,
    record.decorations.get? (record.position coordinate.x coordinate.y) = some effect →
      effect.kind ≠ .Fire

def World.Site (w : World) (map : ObjectId) (coordinate : HexCoordinate)
    (s : Option growth.Standing) : Prop :=
  ∃ record tile, w.maps.get? map = some record ∧ record.Site coordinate s tile

section Sites

variable (record : StoredMap) (coordinate : HexCoordinate) (s : Option growth.Standing) (tile : Hex)

def StoredMap.overlaid : Hex :=
  tile.withOverlay
    ((record.decorations.get? (record.position coordinate.x coordinate.y)).map Decoration.kind)

theorem StoredMap.Site.hex (h : record.Site coordinate s tile) :
    record.hex coordinate.x coordinate.y = .ok (record.overlaid coordinate tile) :=
  (record.hex_ok_iff _ _ _).mpr ⟨tile, h.ground, rfl⟩

theorem StoredMap.Site.notBurning (h : record.Site coordinate s tile) :
    (record.overlaid coordinate tile).isBurning = false := by
  refine decide_eq_false fun hfire => ?_
  obtain ⟨effect, heffect, hkind⟩ := Option.map_eq_some_iff.mp hfire
  exact h.quiet effect heffect hkind

variable (w : World) (map : ObjectId)

theorem World.Site.growthAt (h : w.Site map coordinate s) :
    w.growthAt map coordinate = s.map (·.grade) := by
  obtain ⟨record, tile, hrecord, hsite⟩ := h
  unfold World.growthAt World.tileAt
  rw [hrecord, Option.bind_some, hsite.hex]
  exact hsite.foliage

theorem World.Site.recordedAt (h : w.Site map coordinate s) :
    w.recordedAt map coordinate = (s.map (·.taken)).getD 0 := by
  obtain ⟨record, tile, hrecord, hsite⟩ := h
  unfold World.recordedAt
  rw [hrecord, Option.bind_some]
  exact hsite.taken

theorem World.site_of {foliage : Foliage} (hgrowth : w.growthAt map coordinate = some foliage)
    (hquiet : w.burningAt map coordinate = false)
    (hbelow : w.recordedAt map coordinate < foliage.terrainFactor) :
    w.Site map coordinate (some ⟨foliage, w.recordedAt map coordinate, hbelow⟩) := by
  obtain ⟨seen, hseen, hfoliage⟩ := Option.bind_eq_some_iff.mp hgrowth
  obtain ⟨record, hrecord, hhex⟩ := Option.bind_eq_some_iff.mp hseen
  have hok : record.hex coordinate.x coordinate.y = .ok seen := by
    cases hresult : record.hex coordinate.x coordinate.y with
    | error e =>
      rw [hresult] at hhex
      contradiction
    | ok hex =>
      rw [hresult] at hhex
      cases hhex
      rfl
  obtain ⟨tile, htile, rfl⟩ := (record.hex_ok_iff _ _ _).mp hok
  refine ⟨record, tile, hrecord, ⟨htile, hfoliage, ?_⟩, fun effect heffect hfire => ?_⟩
  · have htaken : w.recordedAt map coordinate =
        (record.terrainDamage.get? (record.position coordinate.x coordinate.y)).getD 0 := by
      unfold World.recordedAt
      rw [hrecord]
      rfl
    exact htaken.symm
  · unfold World.burningAt at hquiet
    rw [hseen, heffect] at hquiet
    exact of_decide_eq_false hquiet (congrArg some hfire)

end Sites

theorem felled_foliage (hex : Hex) (foliage : Foliage) : (felled hex foliage).foliage = none := by
  unfold felled
  split <;> rfl

section Effects

variable (hex : Hex) (s : growth.Standing) (hit : Hit) (dice : Btech.Dice)

-- The dice start a fire.
def Hit.lit : Bool :=
  hit.intent = .Clear &&
    (terrainIgnitionTarget hit.weapon hit.ammunition).any (fun target => (ignites hex target dice).1)

def Hit.effect (terrainDamage : Nat) : WoodlandEffect :=
  (resolveWoodlandEffect hex hit.weapon hit.ammunition hit.damage hit.intent terrainDamage dice).1

theorem effect_cases (hfoliage : hex.foliage = some s.grade) (hquiet : hex.isBurning = false)
    (hclears : hit.Clears) :
    (∃ reduction, reduceWoodland hex (s.taken + hit.damage) = some reduction ∧
      hit.effect hex dice s.taken = .Clear reduction.clearing (min (s.taken + hit.damage) U16_MAX)) ∨
    (reduceWoodland hex (s.taken + hit.damage) = none ∧
      ((hit.lit hex dice = true ∧ ∃ seconds, hit.effect hex dice s.taken = .Ignite seconds) ∨
        (hit.lit hex dice = false ∧
          hit.effect hex dice s.taken = .Damage (min (s.taken + hit.damage) U16_MAX)))) := by
  have hstanding : (hex.foliage.isNone || hex.isBurning) = false := by
    rw [hfoliage, hquiet]
    rfl
  have hbranch : ((hit.intent = .Clear || hit.intent = .Absorb) && hit.weapon.canClearTerrain &&
      0 < hit.damage) = true := by
    rw [hclears.weapon, decide_eq_true hclears.damage]
    cases hclears.intent with
    | inl h => rw [h]; rfl
    | inr h => rw [h]; rfl
  unfold Hit.effect resolveWoodlandEffect
  rw [hstanding, if_neg (by decide), if_pos hbranch]
  dsimp only
  rw [reduceWoodland_saturated hex (s.taken + hit.damage) (by decide)]
  cases reduceWoodland hex (s.taken + hit.damage) with
  | some reduction => exact .inl ⟨reduction, rfl, rfl⟩
  | none =>
    refine .inr ⟨rfl, ?_⟩
    unfold Hit.lit
    cases hclears.intent with
    | inr habsorb =>
      rw [if_pos habsorb, habsorb]
      exact .inr ⟨rfl, rfl⟩
    | inl haimed =>
      rw [haimed, if_neg (by decide)]
      cases terrainIgnitionTarget hit.weapon hit.ammunition with
      | none => exact .inr ⟨rfl, rfl⟩
      | some target =>
        dsimp only [Option.any_some]
        by_cases hlit : (ignites hex target dice).1 = true
        · rw [if_pos hlit, hlit]
          exact .inl ⟨rfl, _, rfl⟩
        · rw [if_neg hlit]
          rw [Bool.not_eq_true] at hlit
          rw [hlit]
          exact .inr ⟨rfl, rfl⟩

end Effects

section Writes

variable (game : Game) (record record' : StoredMap) (coordinate : HexCoordinate)
  (s : Option growth.Standing) (tile : Hex)

theorem decorate_ok {index : Nat} {decoration : Option Decoration}
    (h : decorate game record index decoration = .ok record') :
    record'.terrain = record.terrain ∧ record'.width = record.width ∧
      record'.height = record.height ∧ record'.terrainDamage = record.terrainDamage := by
  cases decoration with
  | none =>
    cases h
    exact ⟨rfl, rfl, rfl, rfl⟩
  | some effect =>
    unfold decorate StoredMap.installDecoration at h
    obtain ⟨-, h⟩ := ok_of_ensure h
    obtain ⟨_, -, h⟩ := ok_of_bind h
    cases h
    split
    · split <;> exact ⟨rfl, rfl, rfl, rfl⟩
    · split <;> exact ⟨rfl, rfl, rfl, rfl⟩

theorem StoredMap.Grown.decorate {index : Nat} {decoration : Option Decoration}
    (hgrown : record.Grown coordinate s tile)
    (h : Woodland.decorate game record index decoration = .ok record') :
    record'.Grown coordinate s tile := by
  obtain ⟨hterrain, hwidth, hheight, hdamage⟩ := decorate_ok game record record' h
  have hposition : record'.position = record.position := by
    funext x y
    unfold StoredMap.position
    rw [hwidth]
  refine ⟨?_, hgrown.foliage, ?_⟩
  · rw [← hgrown.ground]
    unfold StoredMap.baseHex
    rw [hterrain, hwidth, hheight, hposition]
  · rw [hdamage, hposition]
    exact hgrown.taken

theorem StoredMap.Grown.extinguish (hgrown : record.Grown coordinate s tile)
    (h : Woodland.decorate game record (record.position coordinate.x coordinate.y) none =
      .ok record') : record'.Site coordinate s tile := by
  refine ⟨hgrown.decorate game record record' coordinate s tile h, fun effect heffect => ?_⟩
  cases h
  have hgone : (record.decorations.remove (record.position coordinate.x coordinate.y)).get?
      (record.position coordinate.x coordinate.y) = some effect := heffect
  rw [OrderedMap.get?_remove, if_pos rfl] at hgone
  contradiction

theorem setMapDecoration_ok {w w' : World} {map : ObjectId} {decoration : Option Decoration}
    (hrecord : w.maps.get? map = some record)
    (h : setMapDecoration game w map coordinate decoration = .ok w') :
    ∃ record', Woodland.decorate game record (record.position coordinate.x coordinate.y) decoration =
      .ok record' ∧ w' = { w with maps := w.maps.insert map record' } := by
  unfold setMapDecoration at h
  obtain ⟨-, h⟩ := ok_of_ensure h
  obtain ⟨found, hfound, h⟩ := ok_of_bind h
  have hsame := ok_of_ofOption hfound
  rw [hrecord] at hsame
  cases hsame
  obtain ⟨⟨⟩, -, h⟩ := ok_of_bind h
  obtain ⟨_, -, h⟩ := ok_of_bind h
  obtain ⟨-, h⟩ := ok_of_ensure h
  obtain ⟨record', hrecord', h⟩ := ok_of_bind h
  obtain ⟨⟨⟩, -, h⟩ := ok_of_bind h
  cases h
  exact ⟨record', hrecord', rfl⟩

theorem recordCarried_getD (damage : OrderedMap Nat Nat) (index carried : Nat) :
    ((recordCarried damage index carried).get? index).getD 0 = carried := by
  unfold recordCarried
  split
  · rename_i hzero
    rw [OrderedMap.get?_remove, if_pos rfl, hzero]
    rfl
  · rw [OrderedMap.get?_insert, if_pos rfl]
    rfl

-- A clearing leaves the growth that the reduction says, with what it carries.
theorem applyWoodlandClearing_site (w w' : World) (map : ObjectId) (total : Nat)
    (change : WoodlandChange) (reduction : WoodlandReduction) (s' : Option growth.Standing)
    (hrecord : w.maps.get? map = some record) (hsite : record.Site coordinate s tile)
    (hreduction : reduceWoodland (tile.withOverlay none) total = some reduction)
    (hgrowth : reduction.hex.foliage = s'.map (·.grade))
    (hcarried : reduction.carried = (s'.map (·.taken)).getD 0)
    (h : applyWoodlandClearing game w map coordinate (record.overlaid coordinate tile) total =
      .ok (w', change)) : w'.Site map coordinate s' := by
  unfold applyWoodlandClearing at h
  obtain ⟨-, h⟩ := ok_of_ensure h
  obtain ⟨found, hfound, h⟩ := ok_of_bind h
  have hsame := ok_of_ofOption hfound
  rw [hrecord] at hsame
  cases hsame
  obtain ⟨⟨⟩, -, h⟩ := ok_of_bind h
  rw [hsite.hex] at h
  obtain ⟨before, hbefore, h⟩ := ok_of_bind h
  cases hbefore
  obtain ⟨-, h⟩ := ok_of_ensure h
  obtain ⟨-, h⟩ := ok_of_ensure h
  obtain ⟨found, hfound, h⟩ := ok_of_bind h
  have hsame := ok_of_ofOption hfound
  have hbare : (record.overlaid coordinate tile).withOverlay none = tile.withOverlay none := rfl
  rw [hbare, hreduction] at hsame
  cases hsame
  obtain ⟨written, hwritten, h⟩ := ok_of_bind h
  obtain ⟨index, hindex, h⟩ := ok_of_bind h
  obtain ⟨⟨⟩, -, h⟩ := ok_of_bind h
  cases h
  have hground := record.baseHex_writeHex hsite.ground hwritten
  obtain ⟨terrain, -, -, -, rfl⟩ := record.writeHex_ok hwritten
  obtain ⟨_, -, hindex⟩ := ok_of_bind hindex
  cases hindex
  refine ⟨_, reduction.hex, (OrderedMap.get?_insert _ _ _ _).trans (if_pos rfl),
    ⟨hground, hgrowth, ?_⟩, hsite.quiet⟩
  exact (recordCarried_getD _ _ _).trans hcarried

end Writes

section Steps

variable (game : Game) (w w' : World) (map : ObjectId) (coordinate : HexCoordinate) (hit : Hit)

theorem World.placedOn_keepDice {id : ObjectId} {unit : Shooter} (dice : Btech.Dice)
    (hunit : w.units.get? id = some unit) (other : ObjectId) :
    (w.keepDice id unit dice).placedOn other = w.placedOn other := by
  unfold World.placedOn World.keepDice
  rw [OrderedMap.get?_insert]
  split
  · rename_i hother
    rw [hother, hunit]
    rfl
  · rfl

theorem resolve_ok {impact : WoodlandImpact}
    (h : resolveWoodlandAttack game w (hit.attack coordinate) = .ok (w', impact)) :
    ∃ map record tile unit, w.placedOn hit.shooter = some map ∧ w.maps.get? map = some record ∧
      record.hex coordinate.x coordinate.y = .ok tile ∧ w.units.get? hit.shooter = some unit ∧
      impact.map = map ∧
      impact.effect = hit.effect tile unit.dice
        ((record.terrainDamage.get? (record.position coordinate.x coordinate.y)).getD 0) ∧
      ∃ rolled : World, rolled.maps = w.maps ∧ (∀ id, rolled.placedOn id = w.placedOn id) ∧
        applyEffect game rolled map record coordinate tile (record.position coordinate.x coordinate.y)
          impact.effect = .ok w' := by
  unfold resolveWoodlandAttack at h
  obtain ⟨-, h⟩ := ok_of_ensure h
  obtain ⟨map, hmap, h⟩ := ok_of_bind h
  obtain ⟨-, h⟩ := ok_of_ensure h
  obtain ⟨record, hrecord, h⟩ := ok_of_bind h
  obtain ⟨⟨⟩, -, h⟩ := ok_of_bind h
  obtain ⟨tile, htile, h⟩ := ok_of_bind h
  obtain ⟨index, hindex, h⟩ := ok_of_bind h
  obtain ⟨unit, hunit, h⟩ := ok_of_bind h
  obtain ⟨candidate, hcandidate, h⟩ := ok_of_bind h
  obtain ⟨⟨⟩, -, h⟩ := ok_of_bind h
  cases h
  obtain ⟨_, -, hindex⟩ := ok_of_bind hindex
  cases hindex
  have hunit := ok_of_ofOption hunit
  exact ⟨map, record, tile, unit, ok_of_ofOption hmap, ok_of_ofOption hrecord, htile,
    hunit, rfl, rfl, w.keepDice hit.shooter unit _, rfl, w.placedOn_keepDice _ hunit,
    hcandidate⟩

section Applied

variable (record : StoredMap) (tile : Hex) (s : growth.Standing)

theorem site_damaged (t : growth.Standing) (hrecord : w.maps.get? map = some record)
    (hsite : record.Site coordinate (some s) tile) (hwear : s.wear hit.damage = some t)
    (hsame : t.grade = s.grade)
    (h : applyEffect game w map record coordinate (record.overlaid coordinate tile)
      (record.position coordinate.x coordinate.y)
      (.Damage (min (s.taken + hit.damage) U16_MAX)) = .ok w') : w'.Site map coordinate (some t) := by
  cases h
  have htotal := standing_total s hit.damage t hwear hsame
  have hbelow : s.taken + hit.damage ≤ U16_MAX := by
    rw [← htotal]
    have hfactor : ∀ f : Foliage, f.terrainFactor ≤ U16_MAX := by
      intro f
      cases f <;> decide
    exact le_trans (le_of_lt t.stands) (hfactor t.grade)
  refine ⟨_, tile, (OrderedMap.get?_modify _ _ _ _).trans ((if_pos rfl).trans
    (congrArg (Option.map _) hrecord)), ⟨hsite.ground, ?_, ?_⟩, hsite.quiet⟩
  · rw [hsite.foliage, Option.map_some, Option.map_some, hsame]
  · show ((record.terrainDamage.insert (record.position coordinate.x coordinate.y)
      (min (s.taken + hit.damage) U16_MAX)).get? (record.position coordinate.x coordinate.y)).getD 0 =
        t.taken
    rw [OrderedMap.get?_insert, if_pos rfl, Nat.min_eq_left hbelow, htotal]
    rfl

theorem site_cleared {clearing : WoodlandClearing} {seen : WoodlandReduction}
    (hrecord : w.maps.get? map = some record) (hsite : record.Site coordinate (some s) tile)
    (hseen : reduceWoodland (record.overlaid coordinate tile) (s.taken + hit.damage) = some seen)
    (h : applyEffect game w map record coordinate (record.overlaid coordinate tile)
      (record.position coordinate.x coordinate.y)
      (.Clear clearing (min (s.taken + hit.damage) U16_MAX)) = .ok w') :
    w'.Site map coordinate (s.wear hit.damage) := by
  obtain ⟨⟨w'', change⟩, happlied, h⟩ := ok_of_bind h
  cases h
  have happly := applyWoodlandClearing_site game record coordinate (some s) tile w w' map
    (min (s.taken + hit.damage) U16_MAX) change
  rw [reduceWoodland_saturated _ _ (by decide)] at happly
  cases hwear : s.wear hit.damage with
  | none =>
    obtain ⟨clearing, hreduction⟩ :=
      reduceWoodland_fallen (tile.withOverlay none) s hit.damage hsite.foliage hwear
    exact happly _ none hrecord hsite hreduction (felled_foliage _ _) rfl happlied
  | some t =>
    have hreduction :=
      reduceWoodland_standing (tile.withOverlay none) s hit.damage hsite.foliage hwear
    rw [reduceWoodland_standing (record.overlaid coordinate tile) s hit.damage hsite.foliage hwear] at hseen
    split at hseen
    · contradiction
    · rename_i hother
      rw [if_neg hother] at hreduction
      exact happly _ (some t) hrecord hsite hreduction rfl rfl happlied

-- An effect without fire leaves what the growth is worn down to.
theorem applyEffect_site {dice : Btech.Dice} (hrecord : w.maps.get? map = some record)
    (hsite : record.Site coordinate (some s) tile) (hclears : hit.Clears) {effect : WoodlandEffect}
    (heffect : effect = hit.effect (record.overlaid coordinate tile) dice s.taken)
    (hfire : ∀ seconds, effect ≠ .Ignite seconds)
    (h : applyEffect game w map record coordinate (record.overlaid coordinate tile)
      (record.position coordinate.x coordinate.y) effect = .ok w') :
    w'.Site map coordinate (s.wear hit.damage) := by
  have hcases := effect_cases (record.overlaid coordinate tile) s hit dice hsite.foliage hsite.notBurning
    hclears
  rw [← heffect] at hcases
  rcases hcases with ⟨seen, hseen, hclear⟩ | ⟨hnone, ⟨-, seconds, hignite⟩ | ⟨-, hdamage⟩⟩
  · rw [hclear] at h
    exact site_cleared game w w' map coordinate hit record tile s hrecord hsite hseen h
  · exact absurd hignite (hfire seconds)
  · rw [hdamage] at h
    obtain ⟨t, hwear, hsame⟩ := (reduceWoodland_none_iff (record.overlaid coordinate tile) s hit.damage hsite.foliage).mp hnone
    rw [hwear]
    exact site_damaged game w w' map coordinate hit record tile s t hrecord hsite hwear hsame h

end Applied

theorem loses_iff {record : StoredMap} {tile : Hex} {s : growth.Standing} {unit : Shooter}
    (hrecord : w.maps.get? map = some record) (hsite : record.Site coordinate (some s) tile)
    (hunit : w.units.get? hit.shooter = some unit) : w.loses map coordinate hit = true ↔
      (∃ t, s.wear hit.damage = some t ∧ t.grade = s.grade) ∧
        hit.lit (record.overlaid coordinate tile) unit.dice = true := by
  have hseen : w.tileAt map coordinate = some (record.overlaid coordinate tile) := by
    unfold World.tileAt
    rw [hrecord, Option.bind_some, hsite.hex]
    rfl
  have hworld : w.Site map coordinate (some s) := ⟨record, tile, hrecord, hsite⟩
  unfold World.loses World.lights Hit.lit
  rw [hworld.growthAt, hworld.recordedAt, hseen, hunit]
  simp only [Option.map_some, Option.any_some, Option.getD_some, Bool.and_eq_true, holds_iff]
  tauto

def worn (s : growth.Standing) : Option growth.Standing :=
  if w.loses map coordinate hit then some s else s.wear hit.damage

theorem strike_site (s : growth.Standing) (hsite : w.Site map coordinate (some s))
    (hplaced : w.placedOn hit.shooter = some map) (hclears : hit.Clears)
    (h : strike game coordinate w hit = .ok w') :
    w'.Site map coordinate (worn w map coordinate hit s) := by
  obtain ⟨record, tile, hrecord, hsite⟩ := hsite
  obtain ⟨⟨w₁, impact⟩, hresolve, h⟩ := ok_of_bind h
  obtain ⟨map', record', tile', unit, hmap, hrecord', htile, hunit, himpact, heffect, rolled, hmaps,
    -, happly⟩ :=
    resolve_ok game w w₁ coordinate hit hresolve
  rw [hplaced] at hmap
  cases hmap
  rw [hrecord] at hrecord'
  cases hrecord'
  rw [hsite.hex] at htile
  cases htile
  rw [hsite.taken, Option.map_some, Option.getD_some] at heffect
  have hrolled : rolled.maps.get? map = some record := by rw [hmaps, hrecord]
  have hlost := loses_iff w map coordinate hit hrecord hsite hunit
  have hcases := effect_cases (record.overlaid coordinate tile) s hit unit.dice hsite.foliage
    hsite.notBurning hclears
  have hworn := fun hfire => applyEffect_site game rolled w₁ map coordinate hit record tile s hrolled hsite hclears heffect hfire happly
  have hnone := reduceWoodland_none_iff (record.overlaid coordinate tile) s hit.damage hsite.foliage
  unfold worn
  rw [← heffect] at hcases
  rcases hcases with ⟨seen, hseen, hclear⟩ | ⟨hsame, ⟨hlit, seconds, hignite⟩ | ⟨hlit, hdamage⟩⟩
  · have hkept : ¬w.loses map coordinate hit = true := fun hloses => by
      have hcontra := hnone.mpr (hlost.mp hloses).1
      rw [hseen] at hcontra
      contradiction
    dsimp only at h
    rw [hclear] at h
    cases h
    rw [if_neg hkept]
    exact hworn (fun seconds hfire => by rw [hclear] at hfire; contradiction)
  · rw [if_pos (hlost.mpr ⟨hnone.mp hsame, hlit⟩)]
    dsimp only at h
    rw [hignite] at h happly
    obtain ⟨-, happly⟩ := ok_of_ensure happly
    obtain ⟨burning, hburning, hfire⟩ :=
      setMapDecoration_ok game record coordinate hrolled happly
    have hlaid : w₁.maps.get? map = some burning := by
      rw [hfire]
      exact (OrderedMap.get?_insert _ _ _ _).trans (if_pos rfl)
    have hgrown := hsite.toGrown.decorate game record burning coordinate (some s) tile hburning
    rw [himpact] at h
    obtain ⟨out, hout, rfl⟩ := setMapDecoration_ok game burning coordinate hlaid h
    exact ⟨out, tile, (OrderedMap.get?_insert _ _ _ _).trans (if_pos rfl),
      hgrown.extinguish game burning out coordinate (some s) tile hout⟩
  · have hkept : ¬w.loses map coordinate hit = true := fun hloses => by
      have hcontra := (hlost.mp hloses).2
      rw [hlit] at hcontra
      contradiction
    dsimp only at h
    rw [hdamage] at h
    cases h
    rw [if_neg hkept]
    exact hworn (fun seconds hfire => by rw [hdamage] at hfire; contradiction)

theorem strike_bare (hsite : w.Site map coordinate none)
    (hplaced : w.placedOn hit.shooter = some map)
    (h : strike game coordinate w hit = .ok w') : w'.Site map coordinate none := by
  obtain ⟨record, tile, hrecord, hsite⟩ := hsite
  obtain ⟨⟨w₁, impact⟩, hresolve, h⟩ := ok_of_bind h
  obtain ⟨map', record', tile', unit, hmap, hrecord', htile, hunit, himpact, heffect, rolled, hmaps, -,
    happly⟩ := resolve_ok game w w₁ coordinate hit hresolve
  rw [hplaced] at hmap
  cases hmap
  rw [hrecord] at hrecord'
  cases hrecord'
  rw [hsite.hex] at htile
  cases htile
  have hnone : impact.effect = .None := by
    have hbare : (record.overlaid coordinate tile).foliage = none := hsite.foliage
    rw [heffect]
    unfold Hit.effect resolveWoodlandEffect
    rw [hbare]
    rfl
  dsimp only at h
  rw [hnone] at h happly
  cases h
  cases happly
  exact ⟨record, tile, by rw [hmaps, hrecord], hsite⟩

theorem setMapDecoration_units {decoration : Option Decoration}
    (h : setMapDecoration game w map coordinate decoration = .ok w') : w'.units = w.units := by
  unfold setMapDecoration at h
  obtain ⟨-, h⟩ := ok_of_ensure h
  obtain ⟨_, -, h⟩ := ok_of_bind h
  obtain ⟨_, -, h⟩ := ok_of_bind h
  obtain ⟨_, -, h⟩ := ok_of_bind h
  obtain ⟨-, h⟩ := ok_of_ensure h
  obtain ⟨_, -, h⟩ := ok_of_bind h
  obtain ⟨_, -, h⟩ := ok_of_bind h
  cases h
  rfl

theorem applyWoodlandClearing_units {expected : Hex} {total : Nat} {change : WoodlandChange}
    (h : applyWoodlandClearing game w map coordinate expected total = .ok (w', change)) :
    w'.units = w.units := by
  unfold applyWoodlandClearing at h
  obtain ⟨-, h⟩ := ok_of_ensure h
  obtain ⟨_, -, h⟩ := ok_of_bind h
  obtain ⟨_, -, h⟩ := ok_of_bind h
  obtain ⟨_, -, h⟩ := ok_of_bind h
  obtain ⟨-, h⟩ := ok_of_ensure h
  obtain ⟨-, h⟩ := ok_of_ensure h
  obtain ⟨_, -, h⟩ := ok_of_bind h
  obtain ⟨_, -, h⟩ := ok_of_bind h
  obtain ⟨_, -, h⟩ := ok_of_bind h
  obtain ⟨_, -, h⟩ := ok_of_bind h
  cases h
  rfl

theorem applyEffect_units {record : StoredMap} {tile : Hex} {index : Nat} {effect : WoodlandEffect}
    (h : applyEffect game w map record coordinate tile index effect = .ok w') : w'.units = w.units := by
  cases effect with
  | None =>
    cases h
    rfl
  | Damage total =>
    cases h
    rfl
  | Clear clearing total =>
    obtain ⟨⟨w'', change⟩, happlied, h⟩ := ok_of_bind h
    cases h
    exact applyWoodlandClearing_units game w w' map coordinate happlied
  | Ignite seconds =>
    obtain ⟨-, h⟩ := ok_of_ensure h
    exact setMapDecoration_units game w w' map coordinate h

theorem strike_placedOn (id : ObjectId) (h : strike game coordinate w hit = .ok w') :
    w'.placedOn id = w.placedOn id := by
  obtain ⟨⟨w₁, impact⟩, hresolve, h⟩ := ok_of_bind h
  obtain ⟨map, record, tile, unit, -, -, -, -, -, -, rolled, -, hplaced, happly⟩ :=
    resolve_ok game w w₁ coordinate hit hresolve
  have hunits : w'.units = w₁.units := by
    dsimp only at h
    split at h
    · exact setMapDecoration_units game w₁ w' impact.map coordinate h
    · cases h
      rfl
  rw [← hplaced id]
  unfold World.placedOn
  rw [hunits, applyEffect_units game rolled w₁ map coordinate happly]

end Steps

section Runs

variable (game : Game) (map : ObjectId) (coordinate : HexCoordinate)

-- A run of hits wears the growth down by the damage that it keeps.
theorem strikes_site (hits : List Hit) (hclears : ∀ hit ∈ hits, hit.Clears) (w w' : World)
    (s : Option growth.Standing) (hsite : w.Site map coordinate s)
    (hplaced : ∀ hit ∈ hits, w.placedOn hit.shooter = some map)
    (h : strikes game coordinate w hits = .ok w') :
    w'.Site map coordinate (Grades.Standing.wearAll s (keptDamage game coordinate map w hits)) := by
  induction hits generalizing w s with
  | nil =>
    cases h
    exact hsite
  | cons hit hits ih =>
    obtain ⟨next, hnext, h⟩ := ok_of_bind h
    have hhit := hclears hit List.mem_cons_self
    have hshooter := hplaced hit List.mem_cons_self
    have hrest := ih (fun other hother => hclears other (List.mem_cons_of_mem _ hother)) next
    have hstay : ∀ other ∈ hits, next.placedOn other.shooter = some map := by
      intro other hother
      rw [strike_placedOn game w next coordinate hit other.shooter hnext]
      exact hplaced other (List.mem_cons_of_mem _ hother)
    unfold keptDamage
    rw [hnext]
    cases s with
    | none =>
      have hbare := hrest none (strike_bare game w next map coordinate hit hsite hshooter hnext) hstay h
      rw [Grades.Standing.wearAll_none] at hbare ⊢
      exact hbare
    | some s =>
      have hstep := hrest _ (strike_site game w next map coordinate hit s hsite hshooter hhit hnext) hstay h
      unfold worn at hstep
      split at hstep
      · rename_i hlost
        rw [if_pos hlost]
        exact hstep
      · rename_i hkept
        rw [if_neg hkept]
        exact hstep

theorem strikes_placedOn (hits : List Hit) (w w' : World) (id : ObjectId)
    (h : strikes game coordinate w hits = .ok w') : w'.placedOn id = w.placedOn id := by
  induction hits generalizing w with
  | nil =>
    cases h
    rfl
  | cons hit hits ih =>
    obtain ⟨next, hnext, h⟩ := ok_of_bind h
    rw [ih next h]
    exact strike_placedOn game w next coordinate hit id hnext

theorem keptDamage_le (w : World) (hits : List Hit) :
    (keptDamage game coordinate map w hits).sum ≤ (hits.map Hit.damage).sum := by
  induction hits generalizing w with
  | nil => exact le_rfl
  | cons hit hits ih =>
    unfold keptDamage
    rw [List.sum_append, List.map_cons, List.sum_cons]
    have hfirst : (if w.loses map coordinate hit then [] else [hit.damage]).sum ≤ hit.damage := by
      split
      · exact Nat.zero_le _
      · exact le_of_eq (List.sum_singleton)
    refine Nat.add_le_add hfirst ?_
    split
    · exact ih _
    · exact Nat.zero_le _

theorem strikes_append (w : World) (before after : List Hit) : strikes game coordinate w (before ++ after) =
    (strikes game coordinate w before >>= fun w => strikes game coordinate w after) :=
  List.foldlM_append

theorem World.Site.recorded_lt (w : World) (s : Option growth.Standing) (hsite : w.Site map coordinate s)
    (foliage : Foliage) (h : w.growthAt map coordinate = some foliage) :
    w.recordedAt map coordinate < foliage.terrainFactor := by
  have hgrowth := hsite.growthAt
  have hrecorded := hsite.recordedAt
  rw [h] at hgrowth
  obtain ⟨t, rfl, rfl⟩ := Option.map_eq_some_iff.mp hgrowth.symm
  rw [hrecorded]
  exact t.stands

theorem World.Site.noDenser {w w' : World} {s : Option growth.Standing} {damages : List Nat}
    (hsite : w.Site map coordinate s)
    (hsite' : w'.Site map coordinate (Grades.Standing.wearAll s damages)) :
    NoDenser (w'.growthAt map coordinate) (w.growthAt map coordinate) := by
  rw [hsite.growthAt, hsite'.growthAt]
  intro f' hf'
  obtain ⟨t, ht, rfl⟩ := Option.map_eq_some_iff.mp hf'
  obtain ⟨u, rfl, hdown⟩ := Grades.Standing.wearAll_lighter damages s t ht
  exact ⟨u.grade, rfl, hdown⟩

theorem World.Site.eq_iff {w w' : World} {s s' : Option growth.Standing} (hsite : w.Site map coordinate s)
    (hsite' : w'.Site map coordinate s') :
    (w.growthAt map coordinate = w'.growthAt map coordinate ∧
      w.recordedAt map coordinate = w'.recordedAt map coordinate) ↔ s = s' := by
  rw [hsite.growthAt, hsite.recordedAt, hsite'.growthAt, hsite'.recordedAt]
  constructor
  · rintro ⟨hgrade, htaken⟩
    cases s with
    | none =>
      cases s' with
      | none => rfl
      | some t => contradiction
    | some s =>
      cases s' with
      | none => contradiction
      | some t =>
        obtain ⟨g, a, hs⟩ := s
        cases hgrade
        cases htaken
        rfl
  · rintro rfl
    exact ⟨rfl, rfl⟩

theorem resolve_site {w w' : World} {hit : Hit} {impact : WoodlandImpact} {s : growth.Standing}
    (hsite : w.Site map coordinate (some s)) (hplaced : w.placedOn hit.shooter = some map)
    (h : resolveWoodlandAttack game w (hit.attack coordinate) = .ok (w', impact)) :
    ∃ record tile unit rolled, rolled.maps.get? map = some record ∧
      record.Site coordinate (some s) tile ∧
      impact.effect = hit.effect (record.overlaid coordinate tile) (unit : Shooter).dice s.taken ∧
      applyEffect game rolled map record coordinate (record.overlaid coordinate tile)
        (record.position coordinate.x coordinate.y) impact.effect = .ok w' := by
  obtain ⟨record, tile, hrecord, hsite⟩ := hsite
  obtain ⟨map', record', tile', unit, hmap, hrecord', htile, hunit, -, heffect, rolled, hmaps, -, happly⟩ :=
    resolve_ok game w w' coordinate hit h
  rw [hplaced] at hmap
  cases hmap
  rw [hrecord] at hrecord'
  cases hrecord'
  rw [hsite.hex] at htile
  cases htile
  rw [hsite.taken, Option.map_some, Option.getD_some] at heffect
  exact ⟨record, tile, unit, rolled, by rw [hmaps, hrecord], hsite, heffect, happly⟩

theorem single_site {w w' : World} {hit : Hit} {impact : WoodlandImpact} {s : growth.Standing}
    (hsite : w.Site map coordinate (some s)) (hplaced : w.placedOn hit.shooter = some map)
    (hclears : hit.Clears) (hfire : ∀ seconds, impact.effect ≠ .Ignite seconds)
    (h : resolveWoodlandAttack game w (hit.attack coordinate) = .ok (w', impact)) :
    w'.Site map coordinate (s.wear hit.damage) := by
  obtain ⟨record, tile, unit, rolled, hrolled, hsite, heffect, happly⟩ :=
    resolve_site game map coordinate hsite hplaced h
  exact applyEffect_site game rolled w' map coordinate hit record tile s hrolled hsite hclears heffect hfire happly

-- Without damage there is nothing but a fire to expect.
theorem idle_site {w w' : World} {hit : Hit} {impact : WoodlandImpact} {s : growth.Standing}
    (hsite : w.Site map coordinate (some s)) (hplaced : w.placedOn hit.shooter = some map)
    (hzero : hit.damage = 0) (hfire : ∀ seconds, impact.effect ≠ .Ignite seconds)
    (h : resolveWoodlandAttack game w (hit.attack coordinate) = .ok (w', impact)) :
    w'.Site map coordinate (some s) := by
  obtain ⟨record, tile, unit, rolled, hrolled, hsite, heffect, happly⟩ :=
    resolve_site game map coordinate hsite hplaced h
  have hnone : impact.effect = .None := by
    have hstanding : ((record.overlaid coordinate tile).foliage.isNone ||
        (record.overlaid coordinate tile).isBurning) = false := by
      rw [hsite.notBurning, Bool.or_false]
      exact Option.isNone_eq_false_iff.mpr (Option.isSome_iff_exists.mpr ⟨_, hsite.foliage⟩)
    rw [heffect] at hfire ⊢
    unfold Hit.effect resolveWoodlandEffect at hfire ⊢
    rw [hzero, hstanding, if_neg (by decide), if_neg (by simp)] at hfire ⊢
    cases htarget : terrainIgnitionTarget hit.weapon hit.ammunition with
    | none => rfl
    | some target =>
      rw [htarget] at hfire
      dsimp only at hfire ⊢
      split
      · rename_i hlit
        rw [if_pos hlit] at hfire
        exact absurd rfl (hfire _)
      · rfl
  rw [hnone] at happly
  cases happly
  exact ⟨record, tile, hrolled, hsite⟩

-- Growth never gets denser and always has taken less than its factor. The hits come to the same as one
-- hit of their sum exactly when none of their damage is lost to a fire, or when the damage that is
-- not lost is enough to fell the growth.
theorem woodland_path (w w' single : World) (foliage : Foliage) (hits : List Hit) (one : Hit)
    (impact : WoodlandImpact) (hgrowth : w.growthAt map coordinate = some foliage)
    (hquiet : w.burningAt map coordinate = false)
    (hbelow : w.recordedAt map coordinate < foliage.terrainFactor)
    (hclears : ∀ hit ∈ hits, hit.Clears)
    (hplaced : ∀ hit ∈ hits, w.placedOn hit.shooter = some map)
    (hrun : strikes game coordinate w hits = .ok w')
    (hintent : one.intent = .Clear ∨ one.intent = .Absorb) (hweapon : one.weapon.canClearTerrain = true)
    (hshooter : w.placedOn one.shooter = some map) (hsum : one.damage = (hits.map Hit.damage).sum)
    (hfire : ∀ seconds, impact.effect ≠ .Ignite seconds)
    (hsingle : resolveWoodlandAttack game w (one.attack coordinate) = .ok (single, impact)) :
    (∀ before after u, hits = before ++ after → strikes game coordinate w before = .ok u →
      NoDenser (u.growthAt map coordinate) (w.growthAt map coordinate) ∧
        NoDenser (w'.growthAt map coordinate) (u.growthAt map coordinate) ∧
        ∀ f, u.growthAt map coordinate = some f → u.recordedAt map coordinate < f.terrainFactor) ∧
    ((w'.growthAt map coordinate = single.growthAt map coordinate ∧
        w'.recordedAt map coordinate = single.recordedAt map coordinate) ↔
      (keptDamage game coordinate map w hits).sum = (hits.map Hit.damage).sum ∨
        foliage.terrainFactor ≤
          w.recordedAt map coordinate + (keptDamage game coordinate map w hits).sum) := by
  have hsite := w.site_of coordinate map hgrowth hquiet hbelow
  constructor
  · intro before after u hsplit hbefore
    subst hsplit
    have hrest : strikes game coordinate u after = .ok w' := by
      rw [strikes_append, hbefore] at hrun
      exact hrun
    have hu := strikes_site game map coordinate before
      (fun hit hhit => hclears hit (List.mem_append_left _ hhit)) w u _ hsite
      (fun hit hhit => hplaced hit (List.mem_append_left _ hhit)) hbefore
    have hw' := strikes_site game map coordinate after
      (fun hit hhit => hclears hit (List.mem_append_right _ hhit)) u w' _ hu
      (fun hit hhit => by
        rw [strikes_placedOn game coordinate before w u hit.shooter hbefore]
        exact hplaced hit (List.mem_append_right _ hhit)) hrest
    exact ⟨hsite.noDenser map coordinate hu, hu.noDenser map coordinate hw',
      hu.recorded_lt map coordinate u _⟩
  · have hw' := strikes_site game map coordinate hits hclears w w' _ hsite hplaced hrun
    cases hits with
    | nil =>
      have hone' := idle_site game map coordinate hsite hshooter hsum hfire hsingle
      exact ⟨fun _ => .inl rfl, fun _ => (hw'.eq_iff map coordinate hone').mpr rfl⟩
    | cons hit rest =>
      have hpos : 0 < ((hit :: rest).map Hit.damage).sum := by
        have hhit := (hclears hit List.mem_cons_self).damage
        rw [List.map_cons, List.sum_cons]
        omega
      have hone : one.Clears := ⟨hintent, hweapon, by rw [hsum]; exact hpos⟩
      have hone' :=
        single_site game map coordinate hsite hshooter hone hfire hsingle
      rw [hsum] at hone'
      rw [hw'.eq_iff map coordinate hone', Grades.Standing.wearAll_eq_wear_iff _ _ _ hpos
        (keptDamage_le game map coordinate w (hit :: rest))]
      exact or_congr_right Nat.sub_le_iff_le_add'

end Runs

-- One hex of light woods, a unit with high dice beside it, and a large laser.
namespace Grove

def game : Game where
  validate := fun _ => .ok ()
  validateAction := fun _ => .ok ()
  observerNotices := fun _ _ _ => []
  fresh := fun _ => 0

def record : StoredMap where
  width := 1
  height := 1
  windDirection := 0
  windSpeed := 0
  fireDice := some (fun _ => 0)
  terrain := some [(Hex.atLevel 0).withFoliage (some .LightWoods)]
  terrainDamage := .empty
  decorations := .empty
  staticDecorations := fun _ => .empty

def world : World where
  objects := OrderedMap.ofList [(0, ⟨false⟩), (1, ⟨false⟩)]
  units := OrderedMap.ofList [(1, ⟨some 0, fun _ => 5⟩)]
  maps := OrderedMap.ofList [(0, record)]

def laser (damage : Nat) (intent : WoodlandIntent) : Hit := ⟨1, .LargeLaser, .Normal, damage, intent⟩

theorem laser_clears (damage : Nat) (intent : WoodlandIntent) (hdamage : 0 < damage)
    (hintent : intent = .Clear ∨ intent = .Absorb) : (laser damage intent).Clears :=
  ⟨hintent, rfl, hdamage⟩

-- The aimed shot starts a fire and nothing else.
theorem struck : ∃ w', strikes game ⟨0, 0⟩ world [laser 8 .Clear] = .ok w' ∧
    w'.recordedAt 0 ⟨0, 0⟩ = 0 := ⟨_, rfl, rfl⟩

theorem absorbed : ∃ single impact,
    resolveWoodlandAttack game world ((laser 8 .Absorb).attack ⟨0, 0⟩) = .ok (single, impact) ∧
      (∀ seconds, impact.effect ≠ .Ignite seconds) ∧ single.recordedAt 0 ⟨0, 0⟩ = 8 :=
  ⟨_, _, rfl, fun _ h => WoodlandEffect.noConfusion h, rfl⟩

-- A stray shot and an aimed one, the damage of which is lost: eight points at once take more.
theorem woodland_path_burnt : ∃ u w' single impact,
    resolveWoodlandAttack game world ((laser 8 .Absorb).attack ⟨0, 0⟩) = .ok (single, impact) ∧
      strikes game ⟨0, 0⟩ world [laser 5 .Absorb] = .ok u ∧
      strikes game ⟨0, 0⟩ world [laser 5 .Absorb, laser 3 .Clear] = .ok w' ∧
      NoDenser (w'.growthAt 0 ⟨0, 0⟩) (u.growthAt 0 ⟨0, 0⟩) ∧
      (∀ f, u.growthAt 0 ⟨0, 0⟩ = some f → u.recordedAt 0 ⟨0, 0⟩ < f.terrainFactor) ∧
      ¬ (w'.growthAt 0 ⟨0, 0⟩ = single.growthAt 0 ⟨0, 0⟩ ∧
        w'.recordedAt 0 ⟨0, 0⟩ = single.recordedAt 0 ⟨0, 0⟩) := by
  obtain ⟨u, hfirst⟩ : ∃ u, strikes game ⟨0, 0⟩ world [laser 5 .Absorb] = .ok u := ⟨_, rfl⟩
  obtain ⟨w', hrun⟩ : ∃ w', strikes game ⟨0, 0⟩ world [laser 5 .Absorb, laser 3 .Clear] = .ok w' :=
    ⟨_, rfl⟩
  obtain ⟨single, impact, hsingle, hfire, -⟩ := absorbed
  have hpath := woodland_path game 0 ⟨0, 0⟩ world w' single .LightWoods
    [laser 5 .Absorb, laser 3 .Clear] (laser 8 .Absorb) impact rfl rfl (by decide)
    (List.forall_mem_cons.mpr ⟨laser_clears 5 .Absorb (by decide) (.inr rfl),
      List.forall_mem_singleton.mpr (laser_clears 3 .Clear (by decide) (.inl rfl))⟩)
    (List.forall_mem_cons.mpr ⟨rfl, List.forall_mem_singleton.mpr rfl⟩) hrun (.inr rfl) rfl rfl rfl
    hfire hsingle
  obtain ⟨-, hless, hbelow⟩ := hpath.1 [laser 5 .Absorb] [laser 3 .Clear] u rfl hfirst
  refine ⟨u, w', single, impact, hsingle, hfirst, hrun, hless, hbelow, fun hsame => ?_⟩
  have hkept : keptDamage game ⟨0, 0⟩ 0 world [laser 5 .Absorb, laser 3 .Clear] = [5] := rfl
  have hsum := hpath.2.mp hsame
  rw [hkept] at hsum
  exact absurd hsum (by decide)

theorem ignition_forgets : ∃ w' single impact, world.growthAt 0 ⟨0, 0⟩ = some .LightWoods ∧
    world.burningAt 0 ⟨0, 0⟩ = false ∧ world.recordedAt 0 ⟨0, 0⟩ < Foliage.LightWoods.terrainFactor ∧
    (laser 8 .Clear).Clears ∧ strikes game ⟨0, 0⟩ world [laser 8 .Clear] = .ok w' ∧
    resolveWoodlandAttack game world ((laser 8 .Absorb).attack ⟨0, 0⟩) = .ok (single, impact) ∧
    (∀ seconds, impact.effect ≠ .Ignite seconds) ∧
    w'.recordedAt 0 ⟨0, 0⟩ ≠ single.recordedAt 0 ⟨0, 0⟩ := by
  obtain ⟨w', hrun, hforgot⟩ := struck
  obtain ⟨single, impact, hsingle, hfire, hrecorded⟩ := absorbed
  refine ⟨w', single, impact, rfl, rfl, by decide, laser_clears 8 .Clear (by decide) (.inl rfl), hrun, hsingle, hfire, ?_⟩
  rw [hforgot, hrecorded]
  decide

end Grove

end StompyMux.Woodland
