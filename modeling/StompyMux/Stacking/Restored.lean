import StompyMux.Stacking.Displacement

-- The stacking limits along the line of a displacement.
namespace StompyMux.Stacking

open Library Library.Fallible
open StompyMux.Map

section

variable (world : World) (id : ObjectId) (position : Position) (after : World)
  (h : Moved world id position after) (unit : Mech) (hget : world.constructed.get? id = some unit)

include h hget

theorem Moved.left (hex : Position) (hne : hex ≠ position) (other : Occupant)
    (hmem : other ∈ after.standing hex) : other ∈ world.standing hex ∧ other.id ≠ id := by
  obtain ⟨moved, hmoved, hposition, -, -⟩ := h.mech unit hget
  have hid : other.id ≠ id := by
    intro hid
    obtain ⟨hhex, -, -⟩ := after.standing_mech hmoved hmem hid
    rw [hposition] at hhex
    injection hhex with hhex
    exact hne hhex.symm
  refine ⟨?_, hid⟩
  unfold World.standing at hmem ⊢
  rw [World.mem_gather, h.vehicles, h.others other.id hid] at hmem
  exact (world.mem_gather hex _ other).mpr hmem

theorem Moved.entered {other : Occupant} (hmem : other ∈ after.standing position) :
    (other ∈ world.standing position ∧ other.id ≠ id) ∨
    (unit.stands = true ∧ other = ⟨id, true, unit.team⟩) := by
  obtain ⟨moved, hmoved, -, hteam, hstands⟩ := h.mech unit hget
  by_cases hid : other.id = id
  · obtain ⟨-, hup, hother⟩ := after.standing_mech hmoved hmem hid
    exact Or.inr ⟨hstands ▸ hup, hteam ▸ hother⟩
  · refine Or.inl ⟨?_, hid⟩
    unfold World.standing at hmem ⊢
    rw [World.mem_gather, h.vehicles, h.others other.id hid] at hmem
    exact (world.mem_gather position _ other).mpr hmem

end

-- A 'Mech may join units that have no 'Mech and room for one more, on its side and in all.
theorem Respected.join (others : List Occupant) (h : Respected others) (id : ObjectId) (team : Int)
    (hmechs : others.countP (fun unit => unit.mech) = 0)
    (hside : others.countP (fun unit => unit.team = team) < SIDE_LIMIT)
    (htotal : others.length < HEX_LIMIT) : Respected (⟨id, true, team⟩ :: others) := by
  refine ⟨?_, fun side => ?_, ?_⟩
  · rw [List.countP_cons, hmechs]
    rfl
  · rw [List.countP_cons]
    have hrest := h.side side
    by_cases hteam : team = side
    · subst hteam
      rw [if_pos (decide_eq_true rfl)]
      omega
    · rw [if_neg (by simpa using hteam)]
      exact hrest
  · rw [List.length_cons]
    omega

section

variable (direction : Nat) (world : World)

def Gentle (id : ObjectId) : Prop :=
  ∀ position level source, destination world id direction = .ok (.ok (position, level, source)) →
    source - level < 2 ∧
    ∀ map tile, world.maps.get? position.map = some map →
      map.baseHex position.coordinate = .ok tile → tile.hasBuilding = false

-- Not two vehicles of the 'Mech's side stand where it goes, if it counts there itself.
def Roomy (id : ObjectId) : Prop :=
  ∀ position level source unit,
    destination world id direction = .ok (.ok (position, level, source)) →
    world.constructed.get? id = some unit → unit.stands = true →
    (world.occupants position id).countP (fun other => !other.mech && other.team = unit.team) <
      SIDE_LIMIT

def Ahead (here hex : Position) : Prop :=
  hex.map = here.map ∧ along direction here.coordinate < along direction hex.coordinate

end

section

variable (aftermath : Aftermath) (direction : Nat) (world : World)

variable (position : Position) (links : Nat) (id : ObjectId) (after : World)
  (dominoes : List ObjectId)

theorem Bound.ahead (position : Position) (level source : Int) (unit : Mech)
    (h : Bound direction world id position level source unit) (here : Position)
    (hplaced : world.Placed id here) : Ahead direction here position := by
  obtain ⟨there, hthere, hmap, halong⟩ :=
    world.destination_ahead h.destination
  rw [hplaced.unique world hthere]
  exact ⟨hmap, by omega⟩

theorem placed_of_found {other : Occupant}
    (h : (world.occupants position id).find? (fun other => other.mech) = some other) :
    other ∈ world.occupants position id ∧ other.mech = true ∧ world.Placed other.id position := by
  have hmem := List.mem_of_find?_eq_some h
  have hmech : other.mech = true := List.find?_some h
  exact ⟨hmem, hmech,
    world.placed_of_standing ((world.mem_occupants position id other).mp hmem).1 hmech⟩

theorem Driven.placed (h : Driven aftermath direction world links id after dominoes) :
    ∃ here, world.Placed id here := by
  cases h with
  | alone links id position level source unit crowded after report bound room free entered =>
      obtain ⟨here, hhere, -⟩ := world.destination_ahead bound.destination
      exact ⟨here, hhere⟩
  | shoving links id position level source unit other mid after dominoes report bound found chain
      entered =>
      obtain ⟨here, hhere, -⟩ := world.destination_ahead bound.destination
      exact ⟨here, hhere⟩

-- The 'Mechs of a chain stand one after the other along the line.
theorem Driven.line (h : Driven aftermath direction world links id after dominoes) (here : Position)
    (hplaced : world.Placed id here) : dominoes.length ≤ links ∧ (id :: dominoes).Nodup ∧
    ∀ domino ∈ dominoes, ∃ there, world.Placed domino there ∧ Ahead direction here there := by
  induction h generalizing here with
  | alone links id position level source unit crowded after report bound room free entered =>
      refine ⟨Nat.zero_le _, by simp, ?_⟩
      intro domino hdomino
      contradiction
  | shoving links id position level source unit other mid after dominoes report bound found chain
      entered ih =>
      obtain ⟨-, -, hother⟩ := placed_of_found world position id found
      obtain ⟨hlength, hnodup, hline⟩ := ih position hother
      obtain ⟨hmap, halong⟩ := bound.ahead direction world id position level source unit here hplaced
      have hall : ∀ domino ∈ other.id :: dominoes, ∃ there, world.Placed domino there ∧
          Ahead direction here there := by
        intro domino hdomino
        rcases List.mem_cons.mp hdomino with rfl | hdomino
        · exact ⟨position, hother, hmap, halong⟩
        · obtain ⟨there, hthere, hsame, hfurther⟩ := hline domino hdomino
          exact ⟨there, hthere, hsame.trans hmap, halong.trans hfurther⟩
      refine ⟨Nat.succ_le_succ hlength, List.nodup_cons.mpr ⟨?_, hnodup⟩, hall⟩
      intro hid
      obtain ⟨there, hthere, -, hfurther⟩ := hall id hid
      rw [hplaced.unique world hthere] at hfurther
      exact lt_irrefl _ hfurther

theorem ahead_trans {here there hex : Position} (h : Ahead direction here there)
    (h' : Ahead direction there hex) : Ahead direction here hex := ⟨h'.1.trans h.1, h.2.trans h'.2⟩

theorem not_ahead_self (here : Position) : ¬ Ahead direction here here := fun h => lt_irrefl _ h.2

theorem respected_entered (unit : Mech) {rest : List Occupant}
    (hrest : Respected rest) (hmechs : rest.countP (fun unit => unit.mech) = 0)
    (hside : unit.stands = true → rest.countP (fun other => other.team = unit.team) < SIDE_LIMIT)
    (htotal : rest.length < HEX_LIMIT) (hsub : ∀ other ∈ world.standing position, other ∈ rest ∨
      (unit.stands = true ∧ other = ⟨id, true, unit.team⟩)) : Respected (world.standing position) := by
  have hnodup := world.gather_nodup position (fun _ => true)
  by_cases hup : unit.stands = true
  · refine (hrest.join rest id unit.team hmechs (hside hup) htotal).mono _ _ hnodup ?_
    intro other hother
    rcases hsub other hother with hmem | ⟨-, rfl⟩
    · exact List.mem_cons_of_mem _ hmem
    · exact List.mem_cons_self
  · refine hrest.mono _ _ hnodup (fun other hother => ?_)
    exact (hsub other hother).resolve_right (fun h => hup h.1)

-- The hex of a 'Mech that has been shoved on holds the 'Mech that comes in, unless two vehicles of
-- its side stay.
theorem respected_shoved {position : Position} {id : ObjectId} (unit : Mech)
    {other : Occupant} (hoccupant : other ∈ world.occupants position id) (hmech : other.mech = true)
    (hstood : Respected (world.standing position))
    (hroomy : unit.stands = true → (world.occupants position id).countP
      (fun other => !other.mech && other.team = unit.team) < SIDE_LIMIT)
    (hsub : ∀ occupant ∈ after.standing position,
      (occupant ∈ world.occupants position id ∧ occupant.id ≠ other.id) ∨
      (unit.stands = true ∧ occupant = ⟨id, true, unit.team⟩)) :
    Respected (after.standing position) := by
  let rest := (world.occupants position id).filter (fun occupant => occupant.id ≠ other.id)
  have hperm : (world.occupants position id).Perm (other :: rest) :=
    perm_rest _ (world.gather_ids_nodup position _) hoccupant
  have hoccupants : Respected (world.occupants position id) := hstood.mono _ _
    (world.gather_nodup position _) (fun occupant h => ((world.mem_occupants position id _).mp h).1)
  have hrest : Respected rest := hoccupants.mono _ _
    ((world.gather_nodup position _).filter _) (fun occupant h => List.mem_of_mem_filter h)
  have hmechs : rest.countP (fun unit => unit.mech) = 0 := by
    have hone := hoccupants.mechs
    rw [hperm.countP_eq, List.countP_cons, if_pos hmech] at hone
    omega
  have htotal : rest.length < HEX_LIMIT := by
    have hfour := hoccupants.total
    rwa [hperm.length_eq, List.length_cons] at hfour
  -- only vehicles are left
  have hvehicles : rest.countP (fun occupant => occupant.team = unit.team) ≤
      (world.occupants position id).countP
        (fun other => !other.mech && other.team = unit.team) := by
    refine (List.countP_mono_left (fun occupant hmem hteam => ?_)).trans
      (List.filter_sublist.countP_le)
    have hvehicle : ¬ occupant.mech = true := List.countP_eq_zero.mp hmechs occupant hmem
    simpa [hvehicle] using hteam
  refine respected_entered after position id unit hrest hmechs
    (fun hup => hvehicles.trans_lt (hroomy hup)) htotal (fun occupant hmem => ?_)
  refine (hsub occupant hmem).imp_left (fun ⟨hthere, hne⟩ => ?_)
  exact List.mem_filter.mpr ⟨hthere, decide_eq_true hne⟩

-- What a chain leaves behind and ahead of the hex that it began in.
structure Shifted (id : ObjectId) (here : Position) (dominoes : List ObjectId) (after : World) :
    Prop where
  maps : after.maps = world.maps
  others : ∀ other, other ∉ id :: dominoes →
    after.constructed.get? other = world.constructed.get? other
  behind : ∀ hex, ¬ Ahead direction here hex → ∀ other ∈ after.standing hex,
    other ∈ world.standing hex ∧ other.id ≠ id
  ahead : ∀ hex, Ahead direction here hex → Respected (after.standing hex)

theorem shifted_alone {position : Position} {level source : Int} {unit : Mech}
    {after : World} (bound : Bound direction world id position level source unit)
    (room : exceedsLimit true unit.team (world.occupants position id) = false)
    (hmoved : Moved world id position after) {here : Position} (hplaced : world.Placed id here)
    (hahead : ∀ hex, Ahead direction here hex → Respected (world.standing hex)) :
    Shifted direction world id here [] after := by
  have hposition := bound.ahead direction world id position level source unit here hplaced
  have hleft := hmoved.left world id position after unit bound.unit
  obtain ⟨hmechs, hside, htotal⟩ := (exceedsLimit_eq_false_iff _ _ _).mp room
  refine ⟨hmoved.maps, fun other hother => hmoved.others other (by simpa using hother), ?_, ?_⟩
  · intro hex hhex other hother
    refine hleft hex ?_ other hother
    rintro rfl
    exact hhex hposition
  · intro hex hhex
    by_cases hsame : hex = position
    · subst hsame
      have hrest : Respected (world.occupants hex id) := (hahead hex hhex).mono _ _
        (world.gather_nodup hex _) (fun other h => ((world.mem_occupants hex id other).mp h).1)
      refine respected_entered after hex id unit hrest (by simpa using hmechs) (fun _ => hside)
        htotal (fun other hother => ?_)
      exact (hmoved.entered world id hex after unit bound.unit hother).imp_left
        (world.mem_occupants hex id other).mpr
    · exact (hahead hex hhex).mono _ _ (after.gather_nodup hex _)
        (fun other hother => (hleft hex hsame other hother).1)

theorem Driven.shifted
    (h : Driven aftermath direction world links id after dominoes) (here : Position)
    (hplaced : world.Placed id here)
    (hahead : ∀ hex, Ahead direction here hex → Respected (world.standing hex))
    (hgentle : ∀ mech ∈ id :: dominoes, Gentle direction world mech)
    (hroomy : ∀ mech ∈ id :: dominoes, Roomy direction world mech) :
    Shifted direction world id here dominoes after := by
  induction h generalizing here with
  | alone links id position level source unit crowded after report bound room free entered =>
      obtain ⟨hdrop, hopen⟩ := hgentle id List.mem_cons_self position level source bound.destination
      have hmoved := enter_moved aftermath world id position hdrop
        hopen entered
      have hroom : exceedsLimit true unit.team (world.occupants position id) = false := by
        rw [← room]
        exact Bool.eq_false_iff.mpr (fun hcrowded => free ⟨hcrowded, hdrop⟩)
      exact shifted_alone direction world id bound hroom hmoved
        hplaced hahead
  | shoving links id position level source unit other mid after dominoes report bound found chain
      entered ih =>
      obtain ⟨hoccupant, hmech, hother⟩ := placed_of_found world position id found
      have hposition := bound.ahead direction world id position level source unit here hplaced
      have hmid := ih position hother
        (fun hex hhex => hahead hex (ahead_trans direction hposition hhex))
        (fun mech hmem => hgentle mech (List.mem_cons_of_mem _ hmem))
        (fun mech hmem => hroomy mech (List.mem_cons_of_mem _ hmem))
      obtain ⟨-, hnodup, -⟩ := Driven.line aftermath direction world _ id after _
        (.shoving links id position level source unit other mid after dominoes report bound found
          chain entered) here hplaced
      have hid : id ∉ other.id :: dominoes := (List.nodup_cons.mp hnodup).1
      obtain ⟨hdrop, hopen⟩ := hgentle id List.mem_cons_self position level source bound.destination
      have hmoved : Moved mid id position after :=
        enter_moved aftermath mid id position hdrop
          (by rw [hmid.maps]; exact hopen) entered
      have hunit : mid.constructed.get? id = some unit := (hmid.others id hid).trans bound.unit
      have hleft := hmoved.left mid id position after unit hunit
      refine ⟨hmoved.maps.trans hmid.maps, ?_, ?_, ?_⟩
      · intro mech hmem
        obtain ⟨hne, hrest⟩ := List.ne_and_not_mem_of_not_mem_cons hmem
        exact (hmoved.others mech hne).trans (hmid.others mech hrest)
      · intro hex hhex occupant hoccupant
        have hne : hex ≠ position := by
          rintro rfl
          exact hhex hposition
        obtain ⟨hstood, hother⟩ := hleft hex hne occupant hoccupant
        have hbeyond : ¬ Ahead direction position hex :=
          fun h => hhex (ahead_trans direction hposition h)
        exact ⟨(hmid.behind hex hbeyond occupant hstood).1, hother⟩
      · intro hex hhex
        by_cases hsame : hex = position
        · rw [hsame] at hhex ⊢
          refine respected_shoved world after unit hoccupant hmech
            (hahead position hhex)
            (hroomy id List.mem_cons_self position level source unit bound.destination bound.unit)
            (fun occupant hmem => ?_)
          refine (hmoved.entered mid id position after unit hunit hmem).imp_left ?_
          rintro ⟨hstood, hne⟩
          obtain ⟨hthere, hothers⟩ := hmid.behind position (not_ahead_self direction position)
            occupant hstood
          exact ⟨(world.mem_occupants position id occupant).mpr ⟨hthere, hne⟩, hothers⟩
        · by_cases hbeyond : Ahead direction position hex
          · exact (hmid.ahead hex hbeyond).mono _ _ (after.gather_nodup hex _)
              (fun occupant h => (hleft hex hsame occupant h).1)
          · exact (hahead hex hhex).mono _ _ (after.gather_nodup hex _)
              (fun occupant h => (hmid.behind hex hbeyond occupant (hleft hex hsame occupant h).1).1)

-- A displacement moves nothing, or a line of at most eight 'Mechs. Where the hexes ahead respected
-- the limits, no 'Mech drops two levels or goes into a building or to two vehicles of its side, and
-- the hex of the displaced 'Mech respects the limits without it, all of them do afterwards.
theorem displace_exact (id : ObjectId) (after : World) (report : Displacement)
    (h : displace aftermath direction world id = .ok (after, report)) :
    (report.moved = false → after = world) ∧
    report.dominoes.length ≤ DOMINO_LIMIT ∧ (id :: report.dominoes).Nodup ∧
    (report.moved = true →
      (∀ hex, ¬ world.Placed id hex → Respected (world.standing hex)) →
      (∀ hex, world.Placed id hex → Respected (world.occupants hex id)) →
      (∀ mech ∈ id :: report.dominoes, Gentle direction world mech ∧ Roomy direction world mech) →
      ∀ hex, Respected (after.standing hex)) := by
  rcases displaceChain_cases aftermath direction world _ id after report h with
    ⟨hunmoved, hafter, hnone⟩ | ⟨hmoved, hdriven⟩
  · rw [hnone, hunmoved]
    exact ⟨fun _ => hafter, Nat.zero_le _, List.nodup_singleton id, fun hmoved => by contradiction⟩
  · obtain ⟨here, hplaced⟩ := hdriven.placed
    obtain ⟨hlength, hnodup, -⟩ := hdriven.line aftermath direction world _ id after _ here hplaced
    refine ⟨fun hunmoved => ?_, hlength.trans (Nat.sub_le _ _), hnodup, ?_⟩
    · rw [hmoved] at hunmoved
      contradiction
    · intro _ hothers hown hline hex
      have hahead : ∀ hex, Ahead direction here hex → Respected (world.standing hex) := by
        intro hex hhex
        refine hothers hex (fun h => ?_)
        rw [hplaced.unique world h] at hhex
        exact not_ahead_self direction hex hhex
      have hshifted := hdriven.shifted aftermath direction world _ id after _ here hplaced hahead
        (fun mech hmem => (hline mech hmem).1) (fun mech hmem => (hline mech hmem).2)
      by_cases hhex : Ahead direction here hex
      · exact hshifted.ahead hex hhex
      · by_cases hsame : world.Placed id hex
        · refine (hown hex hsame).mono _ _ (after.gather_nodup hex _) (fun other hother => ?_)
          exact (world.mem_occupants hex id other).mpr (hshifted.behind hex hhex other hother)
        · exact (hothers hex hsame).mono _ _ (after.gather_nodup hex _)
            (fun other hother => (hshifted.behind hex hhex other hother).1)

end

namespace Reading

section

variable (world : World) (direction : Nat) (id : ObjectId) (position : Position) (level source : Int)
  (h : destination world id direction = .ok (.ok (position, level, source)))

include h

theorem gentle_of {map : Battlefield} {tile : Hex} (hmap : world.maps.get? position.map = some map)
    (htile : map.baseHex position.coordinate = .ok tile) (hdrop : source - level < 2)
    (hopen : tile.hasBuilding = false) : Gentle direction world id := by
  intro hex found from' hfound
  rw [h] at hfound
  injection hfound with hfound
  injection hfound with hfound
  injection hfound with hhex hfound
  injection hfound with hlevel hsource
  subst hhex hlevel hsource
  refine ⟨hdrop, fun other ground hother hground => ?_⟩
  rw [hmap] at hother
  injection hother with hother
  rw [← hother, htile] at hground
  injection hground with hground
  rw [← hground]
  exact hopen

theorem roomy_of {unit : Mech} (hunit : world.constructed.get? id = some unit)
    (hroom : (world.occupants position id).countP
      (fun other => !other.mech && other.team = unit.team) < SIDE_LIMIT) :
    Roomy direction world id := by
  intro hex found from' mech hfound hmech _
  rw [h] at hfound
  injection hfound with hfound
  injection hfound with hfound
  injection hfound with hhex _
  rw [hunit] at hmech
  injection hmech with hmech
  rwa [← hhex, ← hmech]

end

-- The hexes that hold any unit.
def places (world : World) : List Position :=
  world.constructed.entries.filterMap (fun entry => entry.2.position) ++
    world.vehicles.entries.filterMap (fun entry => entry.2.position)

-- No unit of the hex exceeds the limits among the others.
def fits (world : World) (hex : Position) : Bool :=
  (world.standing hex).all (fun unit => !exceedsLimit unit.mech unit.team
    ((world.standing hex).filter (fun other => other.id ≠ unit.id)))

theorem respected_of_fits (world : World) (hex : Position)
    (h : hex ∈ places world → fits world hex = true) : Respected (world.standing hex) := by
  refine (respected_iff _ (world.gather_ids_nodup hex _)).mpr (fun unit hunit => ?_)
  have hplace : hex ∈ places world := by
    unfold places
    rw [List.mem_append, List.mem_filterMap, List.mem_filterMap]
    rcases (world.mem_gather hex _ unit).mp hunit with
      ⟨mech, hget, -, hposition, -⟩ | ⟨vehicle, hget, -, hposition, -⟩
    · exact Or.inl ⟨(unit.id, mech), (OrderedMap.get?_eq_some_iff _ _ _).mp hget, hposition⟩
    · exact Or.inr ⟨(unit.id, vehicle), (OrderedMap.get?_eq_some_iff _ _ _).mp hget, hposition⟩
  have hfits := List.all_eq_true.mp (h hplace) unit hunit
  rwa [Bool.not_eq_true'] at hfits

theorem ran {T : Type} (aftermath : Aftermath) (direction : Nat) (world : World) (id : ObjectId)
    (f : World × Displacement → T) (value : T)
    (h : (displace aftermath direction world id).toOption.map f = some value) :
    ∃ after report, displace aftermath direction world id = .ok (after, report) ∧
      f (after, report) = value := by
  cases hresult : displace aftermath direction world id with
  | error e =>
      rw [hresult] at h
      contradiction
  | ok result =>
      rw [hresult] at h
      injection h with h
      exact ⟨result.1, result.2, rfl, h⟩

-- A road of clear hexes from north to south.
def road : Battlefield := ⟨1, 4, some (List.replicate 4 (Hex.atLevel 0)), .empty⟩

def hex (y : UInt16) : Position := ⟨1, 0, y⟩

def mech (y : UInt16) (team : Int) : Mech :=
  ⟨some (hex y), team, false, none, none, true, false, none, ⟨none, false⟩, false, none⟩

def vehicle (y : UInt16) (team : Int) : Vehicle := ⟨some (hex y), team, false, none⟩

def quiet : Aftermath := ⟨fun world _ => .ok world, fun world _ _ => .ok world, fun world _ => .ok world⟩

def field (mechs : List (ObjectId × Mech)) (vehicles : List (ObjectId × Vehicle))
    (apart : ∀ id, id ∈ (OrderedMap.ofList mechs).keys → id ∉ (OrderedMap.ofList vehicles).keys) :
    World := ⟨.ofList [(1, road)], .ofList mechs, .ofList vehicles, apart⟩

-- A 'Mech is driven into a hex with an enemy 'Mech and a vehicle of its side.
def line : World :=
  field [(10, mech 3 0), (11, mech 2 1)] [(20, vehicle 2 0)] (by decide)

theorem line_destination : destination line 10 0 = .ok (.ok (hex 2, 0, 0)) ∧
    destination line 11 0 = .ok (.ok (hex 1, 0, 0)) := ⟨rfl, rfl⟩

theorem line_fits : ∀ place ∈ places line, fits line place = true := by decide

theorem displace_exact_line : ∃ after report, displace quiet 0 line 10 = .ok (after, report) ∧
    report.dominoes = [11] ∧ ∀ place, Respected (after.standing place) := by
  obtain ⟨after, report, hrun, hreport⟩ := ran quiet 0 line 10 Prod.snd ⟨true, none, [11], false⟩
    (by decide +kernel)
  obtain ⟨-, -, -, hrespected⟩ := displace_exact quiet 0 line 10 after report hrun
  dsimp only at hreport
  rw [hreport] at hrespected
  refine ⟨after, report, hrun, by rw [hreport], hrespected rfl ?_ ?_ ?_⟩
  · intro place _
    exact respected_of_fits line place (line_fits place)
  · intro place _
    have hall : Respected (line.standing place) :=
      respected_of_fits line place (line_fits place)
    exact hall.mono _ _ (line.gather_nodup place _)
      (fun other h => ((line.mem_occupants place 10 other).mp h).1)
  · intro id hid
    rcases List.mem_cons.mp hid with rfl | hid
    · exact ⟨gentle_of line 0 10 _ _ _ line_destination.1 rfl rfl (by decide) rfl,
        roomy_of line 0 10 _ _ _ line_destination.1 rfl (by decide +kernel)⟩
    · rw [List.mem_singleton.mp hid]
      exact ⟨gentle_of line 0 11 _ _ _ line_destination.2 rfl rfl (by decide) rfl,
        roomy_of line 0 11 _ _ _ line_destination.2 rfl (by decide +kernel)⟩

-- Three 'Mechs share the hex that one is driven out of. Two are left.
def pile : World := field [(10, mech 3 0), (11, mech 3 1), (12, mech 3 1)] [] (by decide)

theorem pile_destination : destination pile 10 0 = .ok (.ok (hex 2, 0, 0)) := rfl

theorem pile_stays_overfull : ∃ after report, displace quiet 0 pile 10 = .ok (after, report) ∧
    report.moved = true ∧
    (∀ place, ¬ pile.Placed 10 place → Respected (pile.standing place)) ∧
    (∀ id ∈ 10 :: report.dominoes, Gentle 0 pile id) ∧
    ¬ Respected (after.standing (hex 3)) := by
  obtain ⟨after, report, hrun, hreport⟩ := ran quiet 0 pile 10
    (fun result => (result.2, result.1.standing (hex 3)))
    (⟨true, none, [], false⟩, [⟨11, true, 1⟩, ⟨12, true, 1⟩]) (by decide +kernel)
  injection hreport with hreport hstanding
  dsimp only at hreport hstanding
  refine ⟨after, report, hrun, by rw [hreport], ?_, ?_, ?_⟩
  · intro place hplace
    refine respected_of_fits pile place (fun hmem => absurd ?_ hplace)
    have hhere : place = hex 3 := (by decide +kernel : ∀ place ∈ places pile, place = hex 3) place hmem
    exact ⟨mech 3 0, rfl, by rw [hhere]; rfl⟩
  · intro id hid
    rw [hreport] at hid
    rw [List.mem_singleton.mp hid]
    exact gentle_of pile 0 10 _ _ _ pile_destination rfl rfl (by decide) rfl
  · rw [hstanding]
    intro h
    exact absurd h.mechs (by decide)

-- An enemy 'Mech and two vehicles of the driven 'Mech's side: the 'Mech is shoved on, and three
-- units of one side are left in the hex. Two vehicles alone would have kept the driven 'Mech out.
def jam : World :=
  field [(10, mech 3 0), (11, mech 2 1)] [(20, vehicle 2 0), (21, vehicle 2 0)] (by decide)

theorem shove_leaves_overfull : (∀ place, Respected (jam.standing place)) ∧
    ∃ after report, displace quiet 0 jam 10 = .ok (after, report) ∧ report.dominoes = [11] ∧
      ¬ Respected (after.standing (hex 2)) := by
  have hfits : ∀ place ∈ places jam, fits jam place = true := by decide +kernel
  refine ⟨fun place => respected_of_fits jam place (hfits place), ?_⟩
  obtain ⟨after, report, hrun, hreport⟩ := ran quiet 0 jam 10
    (fun result => (result.2, result.1.standing (hex 2)))
    (⟨true, none, [11], false⟩, [⟨10, true, 0⟩, ⟨20, false, 0⟩, ⟨21, false, 0⟩]) (by decide +kernel)
  injection hreport with hreport hstanding
  dsimp only at hreport hstanding
  refine ⟨after, report, hrun, by rw [hreport], ?_⟩
  rw [hstanding]
  intro h
  exact absurd (h.side 0) (by decide)

end Reading

end StompyMux.Stacking
