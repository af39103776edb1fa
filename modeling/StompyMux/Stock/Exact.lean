import Mathlib.Algebra.BigOperators.Group.Finset.Basic
import StompyMux.Stock.Conservation

-- Transfers between a unit and its map.
namespace StompyMux.Stock

open Library Library.Fallible Library.Text

variable {β μ ρ : Type} (game : Game β μ ρ) {w : World β μ ρ}

section Shipping

variable (s : Shipment) (parts : List Int)

def moved (w : World β μ ρ) (part : Int) : Int := min s.limit (quantity w s.source part)

-- What a holder gets of a part that is moved.
def flow (w : World β μ ρ) (object : ObjectId) (part : Int) : Int :=
  if object = s.source then -moved s w part
  else if object = s.destination then moved s w part
  else 0

structure Shipped (w later : World β μ ρ) : Prop where
  valid : Valid game later
  quantities : ∀ object part, quantity later object part =
    quantity w object part + if part ∈ parts then flow s w object part else 0

-- One part leaves the source and arrives at the destination, and no other row changes.
theorem moveEntry_ok (entry : InventoryEntry) (hvalid : Valid game w) (hsides : s.source ≠ s.destination)
    (hentry : quantity w s.source entry.partId = entry.quantity)
    (h : (moveEntry game w s entry).2 = .ok ()) :
    Shipped game s [entry.partId] w (moveEntry game w s entry).1 := by
  unfold moveEntry at h ⊢
  cases hnext : arrived w s entry with
  | error e =>
      rw [hnext] at h
      contradiction
  | ok next =>
      rw [hnext] at h
      obtain ⟨⟨⟩, hsource, hdestination, hlater⟩ := ok_of_andThen h
      have hfirst := editQuantity_ok game s.source _ _ hvalid hsource
      have hsecond := editQuantity_ok game s.destination _ _ hfirst.valid hdestination
      obtain ⟨existing, hexisting, hsum⟩ := ok_of_bind hnext
      obtain ⟨-, rfl⟩ := (quantityOf_ok_iff s.destination entry.partId existing).mp hexisting
      have harrived := checkedAdd_some (ok_of_ofOption hsum)
      rw [hlater]
      refine ⟨hsecond.valid, ?_⟩
      · intro object part
        rw [hsecond.quantities, hfirst.quantities]
        unfold flow moved
        by_cases hpart : part = entry.partId
        · subst hpart
          rw [if_pos (List.mem_singleton.mpr rfl), hentry]
          by_cases hobject : object = s.source
          · rw [if_neg (fun hboth => hsides (hobject.symm.trans hboth.1)), if_pos ⟨hobject, rfl⟩,
              if_pos hobject, hobject, hentry]
            unfold Shipment.count
            omega
          · rw [if_neg hobject]
            by_cases hother : object = s.destination
            · rw [if_pos ⟨hother, rfl⟩, if_pos hother, hother, harrived]
              rfl
            · rw [if_neg (fun hboth => hother hboth.1), if_neg (fun hboth => hobject hboth.1),
                if_neg hother, Int.add_zero]
        · rw [if_neg (fun hboth => hpart hboth.2), if_neg (fun hboth => hpart hboth.2),
            if_neg (fun hmem => hpart (List.mem_singleton.mp hmem)), Int.add_zero]

-- By induction on the entries. The parts differ, so a later one finds its row as it was selected.
theorem moveEntries_ok {entries : List InventoryEntry} (hvalid : Valid game w)
    (hsides : s.source ≠ s.destination) (hnodup : (entries.map InventoryEntry.partId).Nodup)
    (hentries : ∀ entry ∈ entries, quantity w s.source entry.partId = entry.quantity)
    (h : (moveEntries game s w entries).2 = .ok ()) :
    Shipped game s (entries.map InventoryEntry.partId) w (moveEntries game s w entries).1 := by
  induction entries generalizing w with
  | nil =>
      refine ⟨hvalid, ?_⟩
      intro object part
      rw [List.map_nil, if_neg List.not_mem_nil, Int.add_zero]
      rfl
  | cons entry entries ih =>
      rw [moveEntries] at h ⊢
      obtain ⟨⟨⟩, hmoved, hrest, hlater⟩ := ok_of_andThen h
      rw [List.map_cons, List.nodup_cons] at hnodup
      have hfirst := moveEntry_ok game s entry hvalid hsides (hentries entry List.mem_cons_self) hmoved
      have hkept : ∀ object part, part ≠ entry.partId →
          quantity (moveEntry game w s entry).1 object part = quantity w object part := by
        intro object part hpart
        rw [hfirst.quantities, if_neg (by simpa using hpart), Int.add_zero]
      have hlaterEntries : ∀ later ∈ entries,
          quantity (moveEntry game w s entry).1 s.source later.partId = later.quantity := by
        intro later hmem
        rw [hkept]
        · exact hentries later (List.mem_cons_of_mem entry hmem)
        · rintro hsame
          exact hnodup.1 (hsame ▸ List.mem_map_of_mem hmem)
      have hall := ih hfirst.valid hnodup.2 hlaterEntries hrest
      rw [hlater, List.map_cons]
      refine ⟨hall.valid, ?_⟩
      · intro object part
        rw [hall.quantities]
        by_cases hpart : part = entry.partId
        · rw [hpart, if_neg hnodup.1, Int.add_zero, hfirst.quantities,
            if_pos (List.mem_singleton.mpr rfl), if_pos List.mem_cons_self]
        · rw [hkept object part hpart]
          by_cases hmem : part ∈ entries.map InventoryEntry.partId
          · rw [if_pos hmem, if_pos (List.mem_cons_of_mem _ hmem)]
            unfold flow moved
            rw [hkept s.source part hpart]
          · rw [if_neg hmem, if_neg]
            rw [List.mem_cons, not_or]
            exact ⟨hpart, hmem⟩

end Shipping

section Admission

variable (actor : ObjectId) (operation : CargoOperation)

theorem admitActor_ok {unit map : ObjectId} (h : admitActor game w actor operation = .ok (unit, map)) :
    ∃ carrier position, w.units.get? unit = some carrier ∧ carrier.position = some position ∧
      position.map = map := by
  unfold admitActor at h
  obtain ⟨player, -, h⟩ := ok_of_bind h
  obtain ⟨id, -, h⟩ := ok_of_bind h
  obtain ⟨object, -, h⟩ := ok_of_bind h
  obtain ⟨carrier, hcarrier, h⟩ := ok_of_bind h
  obtain ⟨hoists, -, h⟩ := ok_of_bind h
  obtain ⟨-, h⟩ := (unit_bind_ok_iff).mp h
  obtain ⟨-, h⟩ := (unit_bind_ok_iff).mp h
  obtain ⟨-, h⟩ := (unit_bind_ok_iff).mp h
  obtain ⟨-, h⟩ := (unit_bind_ok_iff).mp h
  obtain ⟨position, hposition, h⟩ := ok_of_bind h
  obtain ⟨place, -, h⟩ := ok_of_bind h
  obtain ⟨-, h⟩ := (unit_bind_ok_iff).mp h
  obtain ⟨-, h⟩ := (unit_bind_ok_iff).mp h
  obtain ⟨-, h⟩ := (unit_bind_ok_iff).mp h
  obtain ⟨-, h⟩ := (unit_bind_ok_iff).mp h
  obtain ⟨-, h⟩ := (unit_bind_ok_iff).mp h
  obtain ⟨-, h⟩ := (unit_bind_ok_iff).mp h
  obtain ⟨-, h⟩ := (unit_bind_ok_iff).mp h
  cases h
  exact ⟨carrier, position, ok_of_ofOption hcarrier, ok_of_ofOption hposition, rfl⟩

theorem shipment_ok {load : Bool} {pattern : List Char} {amount : Int} {s : Shipment}
    (h : shipment game w actor load pattern amount = .ok s) :
    ∃ unit map, admitActor game w actor (if load then .Load else .Unload) = .ok (unit, map) ∧
      0 < amount ∧
      s = ⟨unit, if load then map else unit, if load then unit else map, min amount 50000,
        (stored w (if load then map else unit)).filter
          (fun entry => game.selects pattern entry.partId)⟩ := by
  unfold shipment at h
  obtain ⟨-, h⟩ := (ensure_bind_ok_iff).mp h
  obtain ⟨-, h⟩ := (ensure_bind_ok_iff).mp h
  obtain ⟨hamount, h⟩ := (ensure_bind_ok_iff).mp h
  obtain ⟨⟨unit, map⟩, hadmit, h⟩ := ok_of_bind h
  obtain ⟨rows, hrows, h⟩ := ok_of_bind h
  obtain ⟨-, rfl⟩ := (inventory_ok_iff _ rows).mp hrows
  obtain ⟨-, h⟩ := (ensure_bind_ok_iff).mp h
  rw [Bool.and_eq_true, decide_eq_true_iff] at hamount
  cases h
  exact ⟨unit, map, hadmit, of_decide_eq_true hamount.2, rfl⟩

theorem validate_ok (h : validate game w = .ok ()) : Valid game w ∧
    ∀ id unit position, w.units.get? id = some unit → unit.position = some position →
      id ≠ position.map := by
  unfold validate at h
  obtain ⟨hinventories, h⟩ := (unit_bind_ok_iff).mp h
  obtain ⟨hunits, -⟩ := (unit_bind_ok_iff).mp h
  refine ⟨(validateInventories_iff game).mp hinventories, ?_⟩
  intro id unit position hunit hposition
  have hchecked := ok_of_forM hunits (id, unit) ((w.units.get?_eq_some_iff id unit).mp hunit)
  unfold validateUnit at hchecked
  rw [hposition] at hchecked
  obtain ⟨hmap, hchecked⟩ := (ensure_bind_ok_iff).mp hchecked
  obtain ⟨-, hchecked⟩ := (ensure_bind_ok_iff).mp hchecked
  rw [ensure_ok_iff] at hchecked
  rintro rfl
  rw [Option.isNone_iff_eq_none] at hchecked
  rw [hchecked] at hmap
  contradiction

theorem reconcile_ok {id : ObjectId} (h : (reconcile game w id).2 = .ok ()) :
    ∃ motion, (reconcile game w id).1 =
      { w with units := w.units.modify id (fun unit => { unit with motion }) } := by
  unfold reconcile at h ⊢
  cases hlimited : game.limited w id with
  | error e =>
      rw [hlimited] at h
      contradiction
  | ok motion => exact ⟨motion, rfl⟩

end Admission

section Transfers

variable (s : Shipment)

theorem units_editQuantity (object : ObjectId) (part amount : Int) :
    (editQuantity game w object part amount).1.units = w.units := by
  unfold editQuantity
  split <;> rfl

theorem units_moveEntry (entry : InventoryEntry) : (moveEntry game w s entry).1.units = w.units := by
  unfold moveEntry
  split
  · rfl
  · have hfirst := units_editQuantity (w := w) game s.source entry.partId
      (entry.quantity - s.count entry)
    unfold andThen
    split
    · rw [units_editQuantity, hfirst]
    · exact hfirst

theorem units_moveEntries (entries : List InventoryEntry) :
    (moveEntries game s w entries).1.units = w.units := by
  induction entries generalizing w with
  | nil => rfl
  | cons entry entries ih =>
      have hfirst := units_moveEntry (w := w) game s entry
      rw [moveEntries]
      unfold andThen
      split
      · rw [ih, hfirst]
      · exact hfirst

-- The checks after the moves and the new motion of the unit leave the rows as they are.
theorem transferCargo_ok (hvalid : Valid game w) {actor : ObjectId} {load : Bool} {pattern : List Char}
    {amount : Int} {rows : List CargoRow}
    (h : (transferCargo game w actor load pattern amount).2 = .ok rows) :
    ∃ s, shipment game w actor load pattern amount = .ok s ∧ s.source ≠ s.destination ∧
      rows = s.entries.map (s.row game) ∧
      Shipped game s (s.entries.map InventoryEntry.partId) w
        (transferCargo game w actor load pattern amount).1 := by
  unfold transferCargo at h ⊢
  cases hs : shipment game w actor load pattern amount with
  | error e =>
      rw [hs] at h
      contradiction
  | ok s =>
      rw [hs] at h
      obtain ⟨hchange, hfinal⟩ := attempt_ok _ h
      obtain ⟨⟨⟩, hmoves, hchange, hfirst⟩ := ok_of_andThen hchange
      obtain ⟨⟨⟩, -, hchange, hsecond⟩ := ok_of_andThen hchange
      obtain ⟨⟨⟩, hreconciled, hchange, hthird⟩ := ok_of_andThen hchange
      obtain ⟨⟨⟩, hvalidated, hrows, hfourth⟩ := ok_of_andThen hchange
      rw [hfinal, hfirst, hsecond, hthird, hfourth]
      cases hrows
      obtain ⟨unit, map, hadmit, -, hshipment⟩ := shipment_ok game actor hs
      obtain ⟨carrier, position, hcarrier, hposition, hmap⟩ := admitActor_ok game actor _ hadmit
      obtain ⟨motion, hmotion⟩ := reconcile_ok game hreconciled
      obtain ⟨hlater, hplaced⟩ := validate_ok game hvalidated
      rw [hmotion] at hlater hplaced ⊢
      have hunits := units_moveEntries (w := w) game s s.entries
      have hdifferent : unit ≠ map := by
        have hnow : (w.units.modify s.unit (fun carrier => { carrier with motion })).get? unit =
            some { carrier with motion } := by
          rw [OrderedMap.get?_modify, hshipment, if_pos rfl, hcarrier]
          rfl
        rw [← hmap]
        rw [hunits] at hplaced
        exact hplaced unit { carrier with motion } position hnow hposition
      have hsides : s.source ≠ s.destination := by
        rw [hshipment]
        cases load with
        | true => exact hdifferent.symm
        | false => exact hdifferent
      have hrows : s.entries.Sublist (stored w s.source) := by
        rw [hshipment]
        exact List.filter_sublist
      have hsorted := hvalid.sorted game s.source
      have hnodup : (s.entries.map InventoryEntry.partId).Nodup :=
        List.pairwise_map.mpr ((hsorted.sublist hrows).imp (fun hlt => ne_of_lt hlt))
      have hshipped := moveEntries_ok game s hvalid hsides hnodup
        (fun entry hentry => held_mem entry _ hsorted (hrows.mem hentry)) hmoves
      exact ⟨s, rfl, hsides, rfl, hlater, hshipped.quantities⟩

theorem transferCargo_error {actor : ObjectId} {load : Bool} {pattern : List Char} {amount : Int}
    {e : Error} (h : (transferCargo game w actor load pattern amount).2 = .error e) :
    (transferCargo game w actor load pattern amount).1 = w := by
  unfold transferCargo at h ⊢
  cases hs : shipment game w actor load pattern amount with
  | error e => rfl
  | ok s =>
      rw [hs] at h
      exact attempt_error w h

end Transfers

end StompyMux.Stock

-- Stock over whole runs of edits, changes and transfers.
namespace StompyMux.Stock

open Library Library.Fallible

variable {β μ ρ : Type} (game : Game β μ ρ) (w : World β μ ρ)

section Steps

variable {w} (operation : Operation)

theorem andThen_error {α γ : Type} {x : Outcome β μ ρ α} {rows : γ} {e : Error}
    (h : (andThen x fun _ w => (w, .ok rows)).2 = .error e) :
    x.2 = .error e ∧ (andThen x fun _ w => (w, .ok rows)).1 = x.1 := by
  obtain ⟨later, result⟩ := x
  cases result with
  | ok a => contradiction
  | error failure =>
      cases h
      exact ⟨rfl, rfl⟩

theorem step_error {e : Error} (h : (step game w operation).2 = .error e) :
    (step game w operation).1 = w := by
  cases operation with
  | Edit object part amount =>
      obtain ⟨hedit, hlater⟩ := andThen_error h
      exact hlater.trans (editQuantity_error game object part amount hedit)
  | Change object part change =>
      obtain ⟨hchange, hlater⟩ := andThen_error h
      exact hlater.trans (changeQuantity_error game object part change e hchange)
  | Transfer actor load pattern amount =>
      exact transferCargo_error game h

theorem step_change {object : ObjectId} {part change : Int} {rows : List CargoRow}
    (h : (step game w (.Change object part change)).2 = .ok rows) :
    (changeQuantity game w object part change).2 = .ok () ∧
      (step game w (.Change object part change)).1 = (changeQuantity game w object part change).1 := by
  obtain ⟨⟨⟩, hresult, -, hlater⟩ := ok_of_andThen h
  exact ⟨hresult, hlater⟩

theorem valid_step (hvalid : Valid game w) : Valid game (step game w operation).1 := by
  cases hresult : (step game w operation).2 with
  | error e =>
      rw [step_error game operation hresult]
      exact hvalid
  | ok rows =>
      cases operation with
      | Edit object part amount =>
          obtain ⟨⟨⟩, hedit, -, hlater⟩ := ok_of_andThen hresult
          have hedited := editQuantity_ok game object part amount hvalid hedit
          exact hlater ▸ hedited.valid
      | Change object part change =>
          obtain ⟨hchange, hlater⟩ := step_change game hresult
          obtain ⟨row, -, hedited⟩ := changeQuantity_ok game object part change hvalid hchange
          exact hlater ▸ hedited.valid
      | Transfer actor load pattern amount =>
          obtain ⟨s, -, -, -, hshipped⟩ :=
            transferCargo_ok game hvalid hresult
          exact hshipped.valid

theorem valid_run (hvalid : Valid game w) (operations : List Operation) :
    Valid game (run game w operations) := by
  induction operations generalizing w with
  | nil => exact hvalid
  | cons operation operations ih => exact ih (valid_step game operation hvalid)

end Steps

-- What a transfer takes from one holder it gives to the other.
structure Transferred (later : World β μ ρ) (source destination : ObjectId) (pattern : List Char)
    (amount : Int) (rows : List CargoRow) : Prop where
  total : ∀ part, quantity later source part + quantity later destination part =
    quantity w source part + quantity w destination part
  given : ∀ part, quantity w source part - quantity later source part =
    if game.selects pattern part then min (min amount 50000) (quantity w source part) else 0
  others : ∀ object part, object ≠ source → object ≠ destination →
    quantity later object part = quantity w object part
  reported : rows = ((stored w source).filter (fun row => game.selects pattern row.partId)).map
    (fun row => ⟨row.partId, min (min amount 50000) row.quantity, game.name row.partId⟩)

-- What is shipped is what the source has of each part, up to the amount.
theorem transferred (hvalid : Valid game w) {actor : ObjectId} {load : Bool} {pattern : List Char}
    {amount : Int} {rows : List CargoRow}
    (h : (transferCargo game w actor load pattern amount).2 = .ok rows) :
    ∃ unit map, admitActor game w actor (if load then .Load else .Unload) = .ok (unit, map) ∧ unit ≠ map ∧
      Transferred game w (transferCargo game w actor load pattern amount).1
        (if load then map else unit) (if load then unit else map) pattern amount rows := by
  obtain ⟨s, hs, hsides, hrows, hshipped⟩ :=
    transferCargo_ok game hvalid h
  obtain ⟨unit, map, hadmit, hamount, hshipment⟩ := shipment_ok game actor hs
  have hsource : s.source = if load then map else unit := congrArg Shipment.source hshipment
  have hdestination : s.destination = if load then unit else map :=
    congrArg Shipment.destination hshipment
  have hlimit : s.limit = min amount 50000 := congrArg Shipment.limit hshipment
  have hentries : s.entries = (stored w s.source).filter
      (fun entry => game.selects pattern entry.partId) := by
    rw [hsource]
    exact congrArg Shipment.entries hshipment
  have hquantities := hshipped.quantities
  generalize (transferCargo game w actor load pattern amount).1 = later at hquantities ⊢
  have hflow : ∀ part, (if part ∈ s.entries.map InventoryEntry.partId then moved s w part else 0) =
      if game.selects pattern part then min (min amount 50000) (quantity w s.source part) else 0 := by
    intro part
    unfold moved
    rw [hlimit]
    by_cases hmem : part ∈ s.entries.map InventoryEntry.partId
    · obtain ⟨entry, hentry, rfl⟩ := List.mem_map.mp hmem
      rw [hentries, List.mem_filter] at hentry
      rw [if_pos hmem, if_pos hentry.2]
    · rw [if_neg hmem]
      by_cases hselects : game.selects pattern part = true
      · have hnone : quantity w s.source part = 0 := by
          apply held_absent
          rintro row hrow rfl
          apply hmem
          rw [hentries]
          exact List.mem_map_of_mem (List.mem_filter.mpr ⟨hrow, hselects⟩)
        rw [if_pos hselects, hnone]
        omega
      · rw [if_neg hselects]
  have hgiven : ∀ part, quantity later s.source part = quantity w s.source part -
      if part ∈ s.entries.map InventoryEntry.partId then moved s w part else 0 := by
    intro part
    rw [hquantities]
    unfold flow
    rw [if_pos rfl]
    split <;> omega
  have htaken : ∀ part, quantity later s.destination part = quantity w s.destination part +
      if part ∈ s.entries.map InventoryEntry.partId then moved s w part else 0 := by
    intro part
    rw [hquantities]
    unfold flow
    rw [if_neg hsides.symm, if_pos rfl]
  refine ⟨unit, map, hadmit, ?_, ?_⟩
  · rintro rfl
    rw [hsource, hdestination, ite_self] at hsides
    contradiction
  rw [← hsource, ← hdestination]
  refine ⟨?_, ?_, ?_, ?_⟩
  · intro part
    rw [hgiven, htaken]
    omega
  · intro part
    rw [hgiven, ← hflow]
    omega
  · intro object part hgiver htaker
    rw [hquantities]
    unfold flow
    rw [if_neg hgiver, if_neg htaker, ite_self, Int.add_zero]
  · rw [hrows, hentries]
    unfold Shipment.row Shipment.count
    rw [hlimit]

-- Whatever is done to the stock of a world, it stays fit to be stored, failures change none of it and
-- transfers conserve it. A change does what it says exactly where it counts no row twice.
theorem stock_exact (hvalid : validateInventories game w = .ok ()) (operations : List Operation)
    (operation : Operation) :
    (∀ object rows, (step game (run game w operations) operation).1.inventories.get? object = some rows →
      Stocked rows) ∧
    (∀ e, (step game (run game w operations) operation).2 = .error e →
      (step game (run game w operations) operation).1.inventories =
        (run game w operations).inventories) ∧
    (∀ actor load pattern amount rows, operation = .Transfer actor load pattern amount →
      (step game (run game w operations) operation).2 = .ok rows →
      ∃ unit map, admitActor game (run game w operations) actor (if load then .Load else .Unload) =
          .ok (unit, map) ∧ unit ≠ map ∧
        Transferred game (run game w operations) (step game (run game w operations) operation).1
          (if load then map else unit) (if load then unit else map) pattern amount rows) ∧
    (∀ object part change rows, operation = .Change object part change →
      (step game (run game w operations) operation).2 = .ok rows →
      (Balanced (run game w operations) (step game (run game w operations) operation).1 object part
        change ↔ Counted (run game w operations) object part change)) := by
  have hbefore := valid_run game ((validateInventories_iff game).mp hvalid) operations
  refine ⟨?_, ?_, ?_, ?_⟩
  · intro object rows hrows
    exact (valid_step game operation hbefore object rows hrows).2.1
  · intro e he
    rw [step_error game operation he]
  · rintro actor load pattern amount rows rfl hok
    exact transferred game _ hbefore hok
  · rintro object part change rows rfl hok
    obtain ⟨hchange, hlater⟩ := step_change game hok
    rw [hlater]
    exact balanced_iff game object part change hbefore hchange

-- What a world holds of a part altogether.
def wealth (part : Int) : Int := (w.inventories.entries.map (fun entry => held entry.2 part)).sum

-- A part may be counted over any set of holders that has all of them.
theorem wealth_eq (holders : Finset ObjectId) (h : ∀ object ∈ w.inventories.keys, object ∈ holders)
    (part : Int) : wealth w part = ∑ object ∈ holders, quantity w object part := by
  have hrows : w.inventories.entries.map (fun entry => held entry.2 part) =
      w.inventories.keys.map (fun object => quantity w object part) := by
    unfold OrderedMap.keys
    rw [List.map_map]
    refine List.map_congr_left fun entry hentry => ?_
    have hget := (w.inventories.get?_eq_some_iff entry.1 entry.2).mpr hentry
    simp [quantity, stored, hget]
  unfold wealth
  rw [hrows, ← List.sum_toFinset _ w.inventories.keys_nodup]
  refine Finset.sum_subset (fun object hobject => h object (List.mem_toFinset.mp hobject)) ?_
  intro object _ habsent
  have hget := (w.inventories.get?_eq_none_iff object).mpr (mt List.mem_toFinset.mpr habsent)
  simp [quantity, stored, hget]

variable {w} in
theorem wealth_transfer (hvalid : Valid game w) (actor : ObjectId) (load : Bool) (pattern : List Char)
    (amount part : Int) :
    wealth (step game w (.Transfer actor load pattern amount)).1 part = wealth w part := by
  cases hresult : (step game w (.Transfer actor load pattern amount)).2 with
  | error e => rw [step_error game _ hresult]
  | ok rows =>
      obtain ⟨unit, map, -, hne, htransferred⟩ :=
        transferred game w hvalid hresult
      show wealth (transferCargo game w actor load pattern amount).1 part = _
      generalize (transferCargo game w actor load pattern amount).1 = later at htransferred ⊢
      have hsides : (if load then map else unit) ≠ if load then unit else map := by
        cases load
        · exact hne
        · exact hne.symm
      generalize (if load then map else unit) = source at hsides htransferred
      generalize (if load then unit else map) = destination at hsides htransferred
      let holders := {source, destination} ∪ (w.inventories.keys ++ later.inventories.keys).toFinset
      rw [wealth_eq w holders (by simp +contextual [holders]),
        wealth_eq later holders (by simp +contextual [holders]), ← sub_eq_zero,
        ← Finset.sum_sub_distrib, ← Finset.sum_subset Finset.subset_union_left,
        Finset.sum_pair hsides]
      · have htotal := htransferred.total part
        omega
      · intro object _ hother
        rw [Finset.mem_insert, Finset.mem_singleton, not_or] at hother
        rw [htransferred.others object part hother.1 hother.2, sub_self]

-- However often cargo is moved, and whether or not it can be, the world holds as much of each part.
theorem transfers_conserve (hvalid : validateInventories game w = .ok ())
    (transfers : List (ObjectId × Bool × List Char × Int)) (part : Int) :
    wealth (run game w (transfers.map fun (actor, load, pattern, amount) =>
      .Transfer actor load pattern amount)) part = wealth w part := by
  rw [validateInventories_iff] at hvalid
  induction transfers generalizing w with
  | nil => rfl
  | cons transfer transfers ih =>
      obtain ⟨actor, load, pattern, amount⟩ := transfer
      have hstep := valid_step game (.Transfer actor load pattern amount) hvalid
      exact (ih _ hstep).trans (wealth_transfer game hvalid actor load pattern amount part)

-- A game in which every part weighs something, every pattern fits and every unit carries cargo.
def depotGame : Game Unit Unit Unit where
  looseMass := fun _ => some 1
  name := fun _ => []
  selects := fun _ _ => true
  allowCargoCommands := true
  nouns := fun _ => ("Mech", "mech")
  cargoTech := fun _ => true
  destroyed := fun _ => false
  running := fun _ => true
  workingLiftHoists := fun _ => .ok 0
  liftHoistCapacity := fun _ => .ok 0
  formatTons := toString
  halted := fun _ => true
  unconscious := fun _ _ => false
  limited := fun _ _ => .ok ()
  validate := fun _ => .ok ()

-- A pilot in a unit on a map that holds seven parts of one kind and five shoulder actuators.
def depot : World Unit Unit Unit where
  objects := .ofList [(2, ⟨.Player, false, false, false, some 3⟩),
    (3, ⟨.Thing, false, false, false, some 4⟩), (4, ⟨.Room, false, false, false, none⟩)]
  units := .ofList [(3, ⟨some 2, 0, some ⟨4, 0, 0⟩, (), ()⟩)]
  maps := .ofList [(4, ⟨none⟩)]
  inventories := .ofList [(4, [⟨10, 7⟩, ⟨394, 5⟩])]
  rest := ()

-- Two parts more are credited exactly, and six of what is then there are loaded.
theorem stock_exact_loaded :
    Balanced depot (step depotGame depot (.Change 4 10 2)).1 4 10 2 ∧
    ∃ unit map, admitActor depotGame (run depotGame depot [.Change 4 10 2]) 2 .Load = .ok (unit, map) ∧ unit ≠ map ∧
      Transferred depotGame (run depotGame depot [.Change 4 10 2])
        (step depotGame (run depotGame depot [.Change 4 10 2]) (.Transfer 2 true ['*'] 6)).1 map unit ['*'] 6
        [⟨10, 6, []⟩, ⟨394, 5, []⟩] := by
  have hexact := stock_exact depotGame depot (by decide +kernel)
  constructor
  · exact ((hexact [] (.Change 4 10 2)).2.2.2 4 10 2 [] rfl (by decide +kernel)).mpr (.inr (.inl (by decide)))
  · exact (hexact [.Change 4 10 2] (.Transfer 2 true ['*'] 6)).2.2.1 2 true ['*'] 6 [⟨10, 6, []⟩, ⟨394, 5, []⟩] rfl
      (by decide +kernel)

theorem transfers_conserve_loaded :
    wealth (run depotGame depot [.Transfer 2 true ['*'] 6, .Transfer 2 false ['*'] 2]) 10 = 7 :=
  transfers_conserve depotGame depot (by decide +kernel)
    [(2, true, ['*'], 6), (2, false, ['*'], 2)] 10

theorem actuators_counted_twice : validateInventories depotGame depot = .ok () ∧
    (step depotGame depot (.Change 4 394 3)).2 = .ok [] ∧
    combined depot 4 394 = 5 ∧ combined (step depotGame depot (.Change 4 394 3)).1 4 394 = 13 ∧
    ¬ Balanced depot (step depotGame depot (.Change 4 394 3)).1 4 394 3 := by
  have hbefore : combined depot 4 394 = 5 := by decide +kernel
  have hafter : combined (step depotGame depot (.Change 4 394 3)).1 4 394 = 13 := by decide +kernel
  refine ⟨by decide +kernel, by decide +kernel, hbefore, hafter, ?_⟩
  rintro ⟨hrise, -⟩
  have hthree := hrise (by decide)
  rw [hbefore, hafter] at hthree
  contradiction

end StompyMux.Stock
