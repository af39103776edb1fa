import Mathlib.Algebra.Order.Ring.Int
import StompyMux.Library.Fallible
import StompyMux.Library.OrderedMap
import StompyMux.Library.Text

-- Stock rows of one holder, in the order of their parts.
namespace StompyMux.Stock

open Library.Fallible

structure InventoryEntry where
  partId : Int
  quantity : Int
  deriving DecidableEq

def InventoryEntry.validate (entry : InventoryEntry) : Except Error Unit := do
  ensure (0 ≤ entry.partId) "Invalid inventory part identifier"
  ensure (0 < entry.quantity) "Inventory quantity must be positive"

-- The quantity stored for a part, zero without a row.
def held (rows : List InventoryEntry) (part : Int) : Int :=
  ((rows.find? (fun row => row.partId = part)).map InventoryEntry.quantity).getD 0

-- Where a part is in ordered rows, or else where it belongs.
def binarySearchByKey (rows : List InventoryEntry) (key : Int) : Except Nat Nat :=
  let index := rows.findIdx (fun row => key ≤ row.partId)
  if (rows[index]?.map InventoryEntry.partId) = some key then .ok index else .error index

def edited (rows : List InventoryEntry) (part quantity : Int) : List InventoryEntry :=
  match binarySearchByKey rows part with
  | .ok index => if quantity = 0 then rows.eraseIdx index else rows.set index ⟨part, quantity⟩
  | .error index => if 0 < quantity then rows.insertIdx index ⟨part, quantity⟩ else rows

-- Rows as they may be stored.
structure Stocked (rows : List InventoryEntry) : Prop where
  ne_nil : rows ≠ []
  valid : ∀ row ∈ rows, 0 ≤ row.partId ∧ 0 < row.quantity
  sorted : rows.Pairwise (fun a b => a.partId < b.partId)

section Rows

variable (row : InventoryEntry) (rows : List InventoryEntry) (part other quantity : Int)

@[simp] theorem held_nil : held [] part = 0 := rfl

theorem held_cons :
    held (row :: rows) part = if row.partId = part then row.quantity else held rows part := by
  unfold held
  by_cases h : row.partId = part
  · rw [List.find?_cons_of_pos (by simpa using h), if_pos h]
    rfl
  · rw [List.find?_cons_of_neg (by simpa using h), if_neg h]

theorem held_absent (h : ∀ row ∈ rows, row.partId ≠ part) : held rows part = 0 := by
  unfold held
  rw [List.find?_eq_none.mpr (fun row hrow => by simpa using h row hrow)]
  rfl

theorem held_mem (hsorted : rows.Pairwise (fun a b => a.partId < b.partId)) (hrow : row ∈ rows) :
    held rows row.partId = row.quantity := by
  induction rows with
  | nil => contradiction
  | cons first rows ih =>
      rw [List.pairwise_cons] at hsorted
      rw [held_cons]
      rcases List.mem_cons.mp hrow with rfl | hlater
      · rw [if_pos rfl]
      · rw [if_neg (by have hlt := hsorted.1 row hlater; omega)]
        exact ih hsorted.2 hlater

theorem held_nonneg (h : ∀ row ∈ rows, 0 < row.quantity) : 0 ≤ held rows part := by
  induction rows with
  | nil => exact Int.le_refl 0
  | cons first rows ih =>
      rw [held_cons]
      split
      · exact Int.le_of_lt (h first List.mem_cons_self)
      · exact ih (fun row hrow => h row (List.mem_cons_of_mem first hrow))

theorem edited_nil : edited [] part quantity = if 0 < quantity then [⟨part, quantity⟩] else [] := rfl

-- An edit goes on to the row of its part, or else to the first row behind.
theorem edited_cons : edited (row :: rows) part quantity =
    if row.partId < part then row :: edited rows part quantity
    else if row.partId = part then
      if quantity = 0 then rows else ⟨part, quantity⟩ :: rows
    else if 0 < quantity then ⟨part, quantity⟩ :: row :: rows else row :: rows := by
  unfold edited binarySearchByKey
  dsimp only
  rw [List.findIdx_cons]
  by_cases hlt : row.partId < part
  · have hnot : (decide (part ≤ row.partId)) = false := by
      rw [decide_eq_false_iff_not]
      omega
    rw [if_pos hlt, hnot, cond_false, List.getElem?_cons_succ]
    split_ifs <;> rfl
  · have hle : (decide (part ≤ row.partId)) = true := by
      rw [decide_eq_true_iff]
      omega
    rw [if_neg hlt, hle, cond_true, List.getElem?_cons_zero, Option.map_some]
    by_cases heq : row.partId = part
    · rw [if_pos (congrArg some heq), if_pos heq]
      rfl
    · rw [if_neg (fun hsome => heq (Option.some.inj hsome)), if_neg heq]
      rfl

theorem mem_edited (hsorted : rows.Pairwise (fun a b => a.partId < b.partId))
    (h : row ∈ edited rows part quantity) :
    row = ⟨part, quantity⟩ ∧ quantity ≠ 0 ∨ row ∈ rows ∧ row.partId ≠ part := by
  induction rows with
  | nil =>
      rw [edited_nil] at h
      split at h
      · exact .inl ⟨List.mem_singleton.mp h, by omega⟩
      · contradiction
  | cons first rows ih =>
      rw [List.pairwise_cons] at hsorted
      have hlater : ∀ row ∈ rows, first.partId < row.partId := hsorted.1
      rw [edited_cons] at h
      split_ifs at h with hlt heq hzero hpos
      · rcases List.mem_cons.mp h with rfl | hrow
        · exact .inr ⟨List.mem_cons_self, by omega⟩
        · exact (ih hsorted.2 hrow).imp_right (fun hold => ⟨List.mem_cons_of_mem _ hold.1, hold.2⟩)
      · have hgt := hlater row h
        exact .inr ⟨List.mem_cons_of_mem _ h, by omega⟩
      · rcases List.mem_cons.mp h with rfl | hrow
        · exact .inl ⟨rfl, hzero⟩
        · have hgt := hlater row hrow
          exact .inr ⟨List.mem_cons_of_mem _ hrow, by omega⟩
      · rcases List.mem_cons.mp h with rfl | hrow
        · exact .inl ⟨rfl, by omega⟩
        · rcases List.mem_cons.mp hrow with rfl | hold
          · exact .inr ⟨List.mem_cons_self, heq⟩
          · have hgt := hlater row hold
            exact .inr ⟨List.mem_cons_of_mem _ hold, by omega⟩
      · rcases List.mem_cons.mp h with rfl | hold
        · exact .inr ⟨List.mem_cons_self, heq⟩
        · have hgt := hlater row hold
          exact .inr ⟨List.mem_cons_of_mem _ hold, by omega⟩

theorem sorted_edited (hsorted : rows.Pairwise (fun a b => a.partId < b.partId)) :
    (edited rows part quantity).Pairwise (fun a b => a.partId < b.partId) := by
  induction rows with
  | nil =>
      rw [edited_nil]
      split
      · exact List.pairwise_singleton _ _
      · exact List.Pairwise.nil
  | cons first rows ih =>
      have hrest := (List.pairwise_cons.mp hsorted).2
      have hlater := (List.pairwise_cons.mp hsorted).1
      rw [edited_cons]
      split_ifs with hlt heq hzero hpos
      · refine List.pairwise_cons.mpr ⟨?_, ih hrest⟩
        intro row hrow
        rcases mem_edited row rows part quantity hrest hrow with ⟨rfl, -⟩ | ⟨hold, -⟩
        · exact hlt
        · exact hlater row hold
      · exact hrest
      · exact List.pairwise_cons.mpr ⟨fun row hrow => heq ▸ hlater row hrow, hrest⟩
      · refine List.pairwise_cons.mpr ⟨?_, hsorted⟩
        intro row hrow
        have hfirst : part < first.partId := by omega
        rcases List.mem_cons.mp hrow with rfl | hold
        · exact hfirst
        · exact Int.lt_trans hfirst (hlater row hold)
      · exact hsorted

-- The induction follows the place at which the row is put, which the order of the parts decides.
theorem held_edited (hsorted : rows.Pairwise (fun a b => a.partId < b.partId)) (hnonneg : 0 ≤ quantity) :
    held (edited rows part quantity) other = if other = part then quantity else held rows other := by
  induction rows with
  | nil =>
      rw [edited_nil]
      by_cases hpos : 0 < quantity
      · rw [if_pos hpos, held_cons]
        by_cases heq : other = part
        · rw [if_pos heq, if_pos heq.symm]
        · rw [if_neg heq, if_neg (Ne.symm heq)]
      · have hzero : quantity = 0 := by omega
        rw [if_neg hpos, held_nil, hzero, ite_self]
  | cons first rows ih =>
      have hrest := (List.pairwise_cons.mp hsorted).2
      have hlater := (List.pairwise_cons.mp hsorted).1
      have habsent : first.partId = part ∨ part < first.partId → held rows part = 0 := by
        intro hle
        apply held_absent
        intro row hrow
        have hlt := hlater row hrow
        omega
      rw [edited_cons]
      by_cases heq : other = part
      · subst heq
        rw [if_pos rfl]
        split_ifs with hlt hfirst hzero hpos
        · rw [held_cons, if_neg (by omega), ih hrest, if_pos rfl]
        · rw [habsent (.inl hfirst), hzero]
        · rw [held_cons, if_pos rfl]
        · rw [held_cons, if_pos rfl]
        · rw [held_cons, if_neg hfirst, habsent (.inr (by omega))]
          omega
      · rw [if_neg heq]
        split_ifs with hlt hfirst hzero hpos
        · rw [held_cons, held_cons, ih hrest, if_neg heq]
        · rw [held_cons, if_neg (by omega)]
        · rw [held_cons, held_cons, if_neg (Ne.symm heq), if_neg (by omega)]
        · rw [held_cons, if_neg (Ne.symm heq)]
        · rfl

end Rows

end StompyMux.Stock

-- Stock of objects and its transfers between a unit and the map it stands on.
namespace StompyMux.Stock

open Library Library.Fallible Library.Text

abbrev ObjectId := Int

inductive Kind
  | Room
  | Thing
  | Exit
  | Player
  | Garbage
  deriving DecidableEq

structure Object where
  kind : Kind
  going : Bool
  inCharacter : Bool
  wizard : Bool
  location : Option ObjectId
  deriving DecidableEq

structure Position where
  map : ObjectId
  x : Int
  y : Int
  deriving DecidableEq

-- A Mech or a vehicle: what stock transfers read of it, its construction and its motion.
structure BattleUnit (β μ : Type) where
  pilot : Option ObjectId
  recovery : Nat
  position : Option Position
  body : β
  motion : μ

structure TransferPoint where
  x : Int
  y : Int
  revealHint : Bool

structure StoredMap where
  cargoTransferPoint : Option TransferPoint

structure World (β μ ρ : Type) where
  objects : OrderedMap ObjectId Object
  units : OrderedMap ObjectId (BattleUnit β μ)
  maps : OrderedMap ObjectId StoredMap
  inventories : OrderedMap ObjectId (List InventoryEntry)
  rest : ρ

inductive CargoOperation
  | Manifest
  | Stores
  | Load
  | Unload
  deriving DecidableEq

structure CargoRow where
  partId : Int
  quantity : Int
  name : List Char
  deriving DecidableEq

-- The rest of the game as stock sees it: the catalogue of parts, what a unit's construction lets it
-- do, the motion that a changed load leaves it and the other checks of a finished transaction.
structure Game (β μ ρ : Type) where
  looseMass : Int → Option Nat
  name : Int → List Char
  selects : List Char → Int → Bool
  allowCargoCommands : Bool
  nouns : β → String × String
  cargoTech : β → Bool
  destroyed : β → Bool
  running : β → Bool
  workingLiftHoists : β → Except Error Nat
  liftHoistCapacity : β → Except Error Nat
  formatTons : Nat → String
  halted : μ → Bool
  unconscious : ρ → ObjectId → Bool
  limited : World β μ ρ → ObjectId → Except Error μ
  validate : World β μ ρ → Except Error Unit

-- A call that fails keeps what it did to the world before it failed.
abbrev Outcome (β μ ρ α : Type) := World β μ ρ × Except Error α

section

variable {β μ ρ α γ : Type}

def andThen (x : Outcome β μ ρ α) (f : α → World β μ ρ → Outcome β μ ρ γ) : Outcome β μ ρ γ :=
  match x.2 with
  | .ok a => f a x.1
  | .error e => (x.1, .error e)

-- The world of before comes back when a change fails.
def attempt (w : World β μ ρ) (change : World β μ ρ → Outcome β μ ρ α) : Outcome β μ ρ α :=
  match (change w).2 with
  | .ok a => ((change w).1, .ok a)
  | .error e => (w, .error e)

def demand (condition : Bool) (check : Except Error Unit) : Except Error Unit :=
  if condition then check else .ok ()

def checkedAdd (a b : Int) : Option Int :=
  if -2 ^ 31 ≤ a + b ∧ a + b ≤ 2 ^ 31 - 1 then some (a + b) else none

def checkedMass (limit mass : Nat) : Option Nat := if mass ≤ limit then some mass else none

variable (game : Game β μ ρ) (w : World β μ ρ)

def inventory (object : ObjectId) : Except Error (List InventoryEntry) := do
  ensure ((w.objects.get? object).any (fun owner => owner.kind ≠ .Garbage))
    "Inventory requires a live object"
  .ok ((w.inventories.get? object).getD [])

def addMass (total : Nat) (entry : InventoryEntry) : Except Error Nat := do
  entry.validate
  let mass ← ofOption s!"Unknown inventory part {entry.partId}" (game.looseMass entry.partId)
  let mass ← ofOption "Inventory mass overflow"
    (checkedMass (2 ^ 64 - 1) (mass * entry.quantity.toNat))
  ofOption "Inventory mass overflow" (checkedMass (2 ^ 64 - 1) (total + mass))

def entriesMass (entries : List InventoryEntry) : Except Error Nat :=
  entries.foldlM (addMass game) 0

def massChecked (object : ObjectId) (rows : List InventoryEntry) : Except Error Unit :=
  if (w.units.get? object).isSome then do
    let _ ← entriesMass game rows
    .ok ()
  else .ok ()

def editedRows (object : ObjectId) (part quantity : Int) : Except Error (List InventoryEntry) := do
  let rows ← inventory w object
  ensure (0 ≤ quantity) "Inventory quantity cannot be negative"
  (InventoryEntry.mk part (max quantity 1)).validate
  massChecked game w object (edited rows part quantity)
  .ok (edited rows part quantity)

def store (object : ObjectId) (rows : List InventoryEntry) : World β μ ρ :=
  { w with
    inventories :=
      if rows = [] then w.inventories.remove object else w.inventories.insert object rows }

def editQuantity (object : ObjectId) (part quantity : Int) : Outcome β μ ρ Unit :=
  match editedRows game w object part quantity with
  | .ok rows => (store w object rows, .ok ())
  | .error e => (w, .error e)

def quantityOf (object : ObjectId) (part : Int) : Except Error Int :=
  (inventory w object).map (fun rows => held rows part)

-- The actuators share one row.
def isActuator (part : Int) : Bool := 394 ≤ part && part ≤ 397

def GENERIC_ACTUATOR : Int := 548

-- The row that a change is written to, and what is written.
def changedRow (object : ObjectId) (part change : Int) : Except Error (Int × Int) := do
  let old ← quantityOf w object part
  let next ← ofOption "Inventory quantity overflow" (checkedAdd old change)
  let next := max next 0
  if !isActuator part || next = 0 then .ok (part, next)
  else do
    let generic ← quantityOf w object GENERIC_ACTUATOR
    let sum ← ofOption "Inventory quantity overflow" (checkedAdd generic next)
    .ok (GENERIC_ACTUATOR, sum)

def changeQuantity (object : ObjectId) (part change : Int) : Outcome β μ ρ Unit :=
  match changedRow w object part change with
  | .ok row => editQuantity game w object row.1 row.2
  | .error e => (w, .error e)

def isWizard (actor : ObjectId) : Bool :=
  actor = 1 || (w.objects.get? actor).any Object.wizard

def checkCargoTransferPoint (map : ObjectId) (x y : Int) : Except Error Unit := do
  let map ← ofOption "Map not found" (w.maps.get? map)
  match map.cargoTransferPoint with
  | none => .ok ()
  | some point =>
      if point.x = x ∧ point.y = y then .ok ()
      else do
        ensure (!point.revealHint)
          s!"You're not where the cargo is! Try looking around {point.x},{point.y} instead."
        .error ["You're not where the cargo is!"]

def unconscious (unit : BattleUnit β μ) : Bool :=
  match unit.pilot with
  | none => 0 < unit.recovery
  | some pilot => game.unconscious w.rest pilot

-- The unit that the actor sits in and the map it stands on.
def admitActor (actor : ObjectId) (operation : CargoOperation) : Except Error (ObjectId × ObjectId) := do
  let player ← ofOption "Player is unavailable"
    ((w.objects.get? actor).filter (fun player => player.kind = .Player && !player.going))
  let id ← ofOption "Enter a unit first" player.location
  let object ← ofOption "Unit is unavailable"
    ((w.objects.get? id).filter (fun object => !object.going))
  let unit ← ofOption "Enter a constructed unit first" (w.units.get? id)
  let hoists ← game.workingLiftHoists unit.body
  let cargo := game.cargoTech unit.body
  let running := game.running unit.body
  demand (operation ≠ .Unload) (ensure (!game.destroyed unit.body) "You are destroyed!")
  demand (operation ≠ .Unload) (ensure running "Reactor is not online!")
  ensure (!unconscious game w unit || (running && unit.pilot ≠ some actor))
    "You are unconscious....zzzzzzz"
  demand (operation ≠ .Stores && object.inCharacter && !isWizard w actor)
    (ensure (unit.pilot = some actor) "Now now, only the pilot can push that button.")
  let position ← ofOption "You are on no map!" unit.position
  let map ← ofOption "You are on an invalid map!" (w.objects.get? position.map)
  ensure (object.location = some position.map) "You ain't in hangar!"
  demand (operation ≠ .Stores) (ensure (cargo || 0 < hoists) "This unit cannot haul cargo!")
  demand (operation ≠ .Stores && !cargo) (ensure running "Your lift hoists need the reactor online!")
  demand (operation ≠ .Stores && !cargo)
    (ensure (!unconscious game w unit) "You are unconscious....zzzzzzz")
  demand (operation = .Load) (ensure (game.halted unit.motion) "You're moving too fast!")
  demand (operation ≠ .Unload) (ensure (!map.inCharacter) "You aren't inside a hangar!")
  demand (operation ≠ .Unload) (checkCargoTransferPoint w position.map position.x position.y)
  .ok (id, position.map)

-- Who gives, who takes, the unit of the two and the rows to move.
structure Shipment where
  unit : ObjectId
  source : ObjectId
  destination : ObjectId
  limit : Int
  entries : List InventoryEntry

def shipment (actor : ObjectId) (load : Bool) (pattern : List Char) (quantity : Int) :
    Except Error Shipment := do
  ensure game.allowCargoCommands "Permission denied."
  ensure (utf8Len pattern ≤ 1024) "Cargo pattern is too long"
  ensure (trim pattern ≠ [] && 0 < quantity) "Invalid cargo name or amount!"
  let admitted ← admitActor game w actor (if load then .Load else .Unload)
  let source := if load then admitted.2 else admitted.1
  let destination := if load then admitted.1 else admitted.2
  let rows ← inventory w source
  let entries := rows.filter (fun entry => game.selects pattern entry.partId)
  ensure (!entries.isEmpty) "Nothing matching that criteria was found!"
  .ok ⟨admitted.1, source, destination, min quantity 50000, entries⟩

def Shipment.count (s : Shipment) (entry : InventoryEntry) : Int := min s.limit entry.quantity

def Shipment.row (s : Shipment) (entry : InventoryEntry) : CargoRow :=
  ⟨entry.partId, s.count entry, game.name entry.partId⟩

def arrived (s : Shipment) (entry : InventoryEntry) : Except Error Int := do
  let existing ← quantityOf w s.destination entry.partId
  ofOption "Destination inventory quantity overflow" (checkedAdd existing (s.count entry))

def moveEntry (s : Shipment) (entry : InventoryEntry) : Outcome β μ ρ Unit :=
  match arrived w s entry with
  | .error e => (w, .error e)
  | .ok next =>
      andThen (editQuantity game w s.source entry.partId (entry.quantity - s.count entry))
        fun _ w => editQuantity game w s.destination entry.partId next

def moveEntries (s : Shipment) : World β μ ρ → List InventoryEntry → Outcome β μ ρ Unit
  | w, [] => (w, .ok ())
  | w, entry :: entries => andThen (moveEntry game w s entry) fun _ w => moveEntries s w entries

def checkHoistedCargo (unit : ObjectId) : Except Error Unit := do
  let carrier ← ofOption "loading unit" (w.units.get? unit)
  let capacity ← game.liftHoistCapacity carrier.body
  if game.cargoTech carrier.body then .ok ()
  else do
    let rows ← inventory w unit
    let carried ← entriesMass game rows
    ensure (carried ≤ capacity)
      s!"Your lift hoists lift at most {game.formatTons (min capacity (2 ^ 32 - 1))} tons!"

-- A changed load limits the motion of its unit at once.
def reconcile (id : ObjectId) : Outcome β μ ρ Unit :=
  match game.limited w id with
  | .error e => (w, .error e)
  | .ok motion => ({ w with units := w.units.modify id (fun unit => { unit with motion }) }, .ok ())

def validateInventory (object : ObjectId) (entries : List InventoryEntry) : Except Error Unit := do
  let _ ← inventory w object
  massChecked game w object entries
  ensure (entries ≠ []) "Empty inventory must not be stored"
  entries.forM InventoryEntry.validate
  ensure (decide (entries.IsChain (fun a b => a.partId < b.partId)))
    "Inventory entries must be unique and ordered"

def validateInventories : Except Error Unit :=
  w.inventories.entries.forM (fun holder => validateInventory game w holder.1 holder.2)

-- A placed unit stands on a stored map, and no unit is a map.
def validateUnit (id : ObjectId) (unit : BattleUnit β μ) : Except Error Unit := do
  match unit.position with
  | none => ensure (w.maps.get? id).isNone s!"Conflicting {(game.nouns unit.body).2} records"
  | some position => do
      ensure (w.maps.get? position.map).isSome
        s!"{(game.nouns unit.body).1} references missing map"
      ensure ((w.objects.get? id).any (fun object => object.location = some position.map))
        s!"Placed {(game.nouns unit.body).2} location differs from battlefield; remove it from the map before moving it"
      ensure (w.maps.get? id).isNone s!"Conflicting {(game.nouns unit.body).2} records"

def validate : Except Error Unit := do
  validateInventories game w
  w.units.entries.forM (fun unit => validateUnit game w unit.1 unit.2)
  game.validate w

def transferCargo (actor : ObjectId) (load : Bool) (pattern : List Char) (quantity : Int) :
    Outcome β μ ρ (List CargoRow) :=
  match shipment game w actor load pattern quantity with
  | .error e => (w, .error e)
  | .ok s =>
      attempt w fun w =>
        andThen (moveEntries game s w s.entries) fun _ w =>
        andThen (w, demand load (checkHoistedCargo game w s.unit)) fun _ w =>
        andThen (reconcile game w s.unit) fun _ w =>
        andThen (w, validate game w) fun _ w => (w, .ok (s.entries.map (s.row game)))

inductive Operation
  | Edit (object : ObjectId) (part quantity : Int)
  | Change (object : ObjectId) (part change : Int)
  | Transfer (actor : ObjectId) (load : Bool) (pattern : List Char) (quantity : Int)

-- The rows that an operation reports; only transfers report any.
def step : Operation → Outcome β μ ρ (List CargoRow)
  | .Edit object part quantity =>
      andThen (editQuantity game w object part quantity) fun _ w => (w, .ok [])
  | .Change object part change =>
      andThen (changeQuantity game w object part change) fun _ w => (w, .ok [])
  | .Transfer actor load pattern quantity => transferCargo game w actor load pattern quantity

def run (operations : List Operation) : World β μ ρ :=
  operations.foldl (fun w operation => (step game w operation).1) w

end

end StompyMux.Stock
