import StompyMux.Stock.World

-- What edits of stock leave behind.
namespace StompyMux.Stock

open Library Library.Fallible

variable {β μ ρ α γ : Type} (game : Game β μ ρ) (w : World β μ ρ)

def live (object : ObjectId) : Prop := (w.objects.get? object).any (fun owner => owner.kind ≠ .Garbage)

def stored (object : ObjectId) : List InventoryEntry := (w.inventories.get? object).getD []

def quantity (object : ObjectId) (part : Int) : Int := held (stored w object) part

-- Every inventory has a live owner, is fit to be stored and, on a unit, has a mass.
def Valid : Prop :=
  ∀ object rows, w.inventories.get? object = some rows →
    live w object ∧ Stocked rows ∧ massChecked game w object rows = .ok ()

section Outcomes

theorem ok_of_andThen {x : Outcome β μ ρ α} {f : α → World β μ ρ → Outcome β μ ρ γ} {b : γ}
    (h : (andThen x f).2 = .ok b) :
    ∃ a, x.2 = .ok a ∧ (f a x.1).2 = .ok b ∧ (andThen x f).1 = (f a x.1).1 := by
  obtain ⟨later, result⟩ := x
  cases result with
  | ok a => exact ⟨a, rfl, h, rfl⟩
  | error e => contradiction

theorem attempt_ok {change : World β μ ρ → Outcome β μ ρ α} {a : α} (h : (attempt w change).2 = .ok a) :
    (change w).2 = .ok a ∧ (attempt w change).1 = (change w).1 := by
  unfold attempt at h ⊢
  cases hresult : (change w).2 with
  | ok b =>
      rw [hresult] at h
      exact ⟨h, rfl⟩
  | error e =>
      rw [hresult] at h
      contradiction

-- A change that fails is undone as a whole.
theorem attempt_error {change : World β μ ρ → Outcome β μ ρ α} {e : Error}
    (h : (attempt w change).2 = .error e) : (attempt w change).1 = w := by
  unfold attempt at h ⊢
  cases hresult : (change w).2 with
  | ok b =>
      rw [hresult] at h
      contradiction
  | error e => rfl

end Outcomes

section Inventories

variable {w} (object other : ObjectId) (part : Int) (rows : List InventoryEntry)

theorem inventory_ok_iff : inventory w object = .ok rows ↔ live w object ∧ rows = stored w object := by
  unfold inventory live
  rw [ensure_bind_ok_iff, Except.ok.injEq]
  exact and_congr_right (fun _ => eq_comm)

theorem stored_store :
    stored (store w object rows) other = if other = object then rows else stored w other := by
  unfold stored store
  by_cases hempty : rows = []
  · rw [if_pos hempty, OrderedMap.get?_remove]
    split
    · exact hempty.symm
    · rfl
  · rw [if_neg hempty, OrderedMap.get?_insert]
    split <;> rfl

theorem Valid.sorted (h : Valid game w) : (stored w object).Pairwise (fun a b => a.partId < b.partId) := by
  unfold stored
  cases hrows : w.inventories.get? object with
  | none => exact List.Pairwise.nil
  | some rows => exact (h object rows hrows).2.1.sorted

theorem Valid.mem_stored (h : Valid game w) {row : InventoryEntry} (hrow : row ∈ stored w object) :
    0 ≤ row.partId ∧ 0 < row.quantity := by
  unfold stored at hrow
  cases hrows : w.inventories.get? object with
  | none =>
      rw [hrows] at hrow
      contradiction
  | some rows =>
      rw [hrows] at hrow
      exact (h object rows hrows).2.1.valid row hrow

theorem Valid.quantity_nonneg (h : Valid game w) : 0 ≤ quantity w object part :=
  held_nonneg _ _ (fun _ hrow => (h.mem_stored game object hrow).2)

theorem validate_entry_iff (entry : InventoryEntry) :
    entry.validate = .ok () ↔ 0 ≤ entry.partId ∧ 0 < entry.quantity := by
  unfold InventoryEntry.validate
  rw [ensure_bind_ok_iff, ensure_ok_iff, decide_eq_true_iff, decide_eq_true_iff]

theorem isChain_iff_sorted : rows.IsChain (fun a b => a.partId < b.partId) ↔
    rows.Pairwise (fun a b => a.partId < b.partId) := by
  constructor
  · intro h
    exact List.isChain_iff_pairwise.mp h
  · intro h
    exact h.isChain

theorem validateInventory_iff : validateInventory game w object rows = .ok () ↔
    live w object ∧ Stocked rows ∧ massChecked game w object rows = .ok () := by
  unfold validateInventory
  constructor
  · intro h
    obtain ⟨before, hlive, h⟩ := ok_of_bind h
    obtain ⟨hmass, h⟩ := (unit_bind_ok_iff).mp h
    obtain ⟨hne, h⟩ := (ensure_bind_ok_iff).mp h
    obtain ⟨hvalid, h⟩ := (unit_bind_ok_iff).mp h
    rw [ensure_ok_iff, decide_eq_true_iff] at h
    have hrows := ok_of_forM hvalid
    exact ⟨((inventory_ok_iff object before).mp hlive).1, ⟨of_decide_eq_true hne,
      fun row hrow => (validate_entry_iff row).mp (hrows row hrow), (isChain_iff_sorted rows).mp h⟩, hmass⟩
  · rintro ⟨hlive, hstocked, hmass⟩
    refine bind_ok ((inventory_ok_iff object _).mpr ⟨hlive, rfl⟩) ?_
    refine (unit_bind_ok_iff).mpr ⟨hmass, (ensure_bind_ok_iff).mpr
      ⟨decide_eq_true hstocked.ne_nil, (unit_bind_ok_iff).mpr ⟨?_, ?_⟩⟩⟩
    · exact forM_ok (fun row hrow => (validate_entry_iff row).mpr (hstocked.valid row hrow))
    · exact ensure_ok (decide_eq_true ((isChain_iff_sorted rows).mpr hstocked.sorted))

-- The check of a world is the invariant itself.
theorem validateInventories_iff : validateInventories game w = .ok () ↔ Valid game w := by
  unfold validateInventories
  constructor
  · intro h object rows hrows
    have hentry := ok_of_forM h (object, rows) ((w.inventories.get?_eq_some_iff object rows).mp hrows)
    exact (validateInventory_iff game object rows).mp hentry
  · intro h
    apply forM_ok
    rintro ⟨object, rows⟩ hentry
    exact (validateInventory_iff game object rows).mpr
      (h object rows ((w.inventories.get?_eq_some_iff object rows).mpr hentry))

end Inventories

section Edits

variable {w} (object : ObjectId) (part amount : Int)

-- An edit sets one quantity of one holder and nothing else.
structure Edited (later : World β μ ρ) : Prop where
  frame : later = { w with inventories := later.inventories }
  nonneg : 0 ≤ amount
  quantities : ∀ other p, quantity later other p =
    if other = object ∧ p = part then amount else quantity w other p
  valid : Valid game later

theorem Valid.store (h : Valid game w) (rows : List InventoryEntry) (hlive : live w object)
    (hvalid : ∀ row ∈ rows, 0 ≤ row.partId ∧ 0 < row.quantity)
    (hsorted : rows.Pairwise (fun a b => a.partId < b.partId))
    (hmass : massChecked game w object rows = .ok ()) : Valid game (store w object rows) := by
  intro other found hfound
  unfold Stock.store at hfound
  by_cases hempty : rows = []
  · rw [if_pos hempty, OrderedMap.get?_remove] at hfound
    split at hfound
    · contradiction
    · exact h other found hfound
  · rw [if_neg hempty, OrderedMap.get?_insert] at hfound
    split at hfound
    next heq =>
      cases hfound
      rw [heq]
      exact ⟨hlive, ⟨hempty, hvalid, hsorted⟩, hmass⟩
    next => exact h other found hfound

theorem editedRows_ok {rows : List InventoryEntry} (h : editedRows game w object part amount = .ok rows) :
    live w object ∧ 0 ≤ amount ∧ 0 ≤ part ∧ rows = edited (stored w object) part amount ∧
      massChecked game w object rows = .ok () := by
  unfold editedRows at h
  obtain ⟨before, hbefore, h⟩ := ok_of_bind h
  obtain ⟨hlive, rfl⟩ := (inventory_ok_iff object before).mp hbefore
  obtain ⟨hamount, h⟩ := (ensure_bind_ok_iff).mp h
  obtain ⟨hentry, h⟩ := (unit_bind_ok_iff).mp h
  obtain ⟨hmass, h⟩ := (unit_bind_ok_iff).mp h
  cases h
  exact ⟨hlive, of_decide_eq_true hamount, ((validate_entry_iff _).mp hentry).1, rfl, hmass⟩

-- An edit sets one row of one object and leaves the stock valid.
theorem editQuantity_ok (hvalid : Valid game w) (h : (editQuantity game w object part amount).2 = .ok ()) :
    Edited game (w := w) object part amount (editQuantity game w object part amount).1 := by
  unfold editQuantity at h ⊢
  cases hrows : editedRows game w object part amount with
  | error e =>
      rw [hrows] at h
      contradiction
  | ok rows =>
      obtain ⟨hlive, hamount, hpart, rfl, hmass⟩ := editedRows_ok game object part amount hrows
      have hsorted := hvalid.sorted game object
      refine ⟨rfl, hamount, ?_, ?_⟩
      · intro other p
        unfold quantity
        rw [stored_store]
        by_cases hother : other = object
        · rw [if_pos hother, held_edited _ _ _ _ hsorted hamount, hother]
          simp only [true_and]
        · rw [if_neg hother, if_neg (fun hboth => hother hboth.1)]
      · apply hvalid.store game object _ hlive _ (sorted_edited _ _ _ hsorted) hmass
        intro row hrow
        rcases mem_edited row _ part amount hsorted hrow with ⟨rfl, hne⟩ | ⟨hold, -⟩
        · exact ⟨hpart, lt_of_le_of_ne hamount hne.symm⟩
        · exact hvalid.mem_stored game object hold

theorem editQuantity_error {e : Error} (h : (editQuantity game w object part amount).2 = .error e) :
    (editQuantity game w object part amount).1 = w := by
  unfold editQuantity at h ⊢
  cases hrows : editedRows game w object part amount with
  | error e => rfl
  | ok rows =>
      rw [hrows] at h
      contradiction

end Edits

end StompyMux.Stock

-- Stock is neither made nor lost, except where a change of actuators counts a row twice.
namespace StompyMux.Stock

open Library Library.Fallible Library.Text

variable {β μ ρ α γ : Type} (game : Game β μ ρ) (w : World β μ ρ)

section Changes

variable {w} (object : ObjectId) (part change : Int)

theorem quantityOf_ok_iff (amount : Int) :
    quantityOf w object part = .ok amount ↔ live w object ∧ amount = quantity w object part := by
  unfold quantityOf quantity
  constructor
  · intro h
    cases hrows : inventory w object with
    | error e =>
        rw [hrows] at h
        contradiction
    | ok rows =>
        obtain ⟨hlive, rfl⟩ := (inventory_ok_iff object rows).mp hrows
        rw [hrows] at h
        cases h
        exact ⟨hlive, rfl⟩
  · rintro ⟨hlive, rfl⟩
    rw [(inventory_ok_iff object (stored w object)).mpr ⟨hlive, rfl⟩]
    rfl

theorem checkedAdd_some {a b sum : Int} (h : checkedAdd a b = some sum) : sum = a + b := by
  unfold checkedAdd at h
  split at h
  · exact (Option.some.inj h).symm
  · contradiction

-- An actuator that is not used up is written to the generic row, with its own stock on top.
theorem changedRow_ok {row : Int × Int} (h : changedRow w object part change = .ok row) :
    row = if isActuator part = true ∧ 0 < quantity w object part + change then
        (GENERIC_ACTUATOR, quantity w object GENERIC_ACTUATOR + (quantity w object part + change))
      else (part, max (quantity w object part + change) 0) := by
  unfold changedRow at h
  obtain ⟨old, hold, h⟩ := ok_of_bind h
  obtain ⟨-, rfl⟩ := (quantityOf_ok_iff object part old).mp hold
  obtain ⟨next, hnext, h⟩ := ok_of_bind h
  have hsum := checkedAdd_some (ok_of_ofOption hnext)
  subst hsum
  dsimp only at h
  split at h
  next hspecific =>
    cases h
    rw [if_neg]
    rintro ⟨hactuator, hpos⟩
    rw [hactuator, Bool.not_true, Bool.false_or, decide_eq_true_iff] at hspecific
    omega
  next hgeneric =>
    rw [Bool.or_eq_true, Bool.not_eq_true', decide_eq_true_iff, not_or] at hgeneric
    have hactuator : isActuator part = true := by simpa using hgeneric.1
    obtain ⟨generic, hgen, h⟩ := ok_of_bind h
    obtain ⟨-, rfl⟩ := (quantityOf_ok_iff object GENERIC_ACTUATOR generic).mp hgen
    obtain ⟨sum, hsum, h⟩ := ok_of_bind h
    have htotal := checkedAdd_some (ok_of_ofOption hsum)
    cases h
    rw [if_pos ⟨hactuator, by omega⟩, htotal, Int.max_eq_left (by omega)]

theorem changeQuantity_ok (hvalid : Valid game w)
    (h : (changeQuantity game w object part change).2 = .ok ()) :
    ∃ row, changedRow w object part change = .ok row ∧
      Edited game (w := w) object row.1 row.2 (changeQuantity game w object part change).1 := by
  unfold changeQuantity at h ⊢
  cases hrow : changedRow w object part change with
  | error e =>
      rw [hrow] at h
      contradiction
  | ok row =>
      rw [hrow] at h
      exact ⟨row, rfl, editQuantity_ok game object row.1 row.2 hvalid h⟩

theorem changeQuantity_error (e : Error) (h : (changeQuantity game w object part change).2 = .error e) :
    (changeQuantity game w object part change).1 = w := by
  unfold changeQuantity at h ⊢
  cases hrow : changedRow w object part change with
  | error e => rfl
  | ok row =>
      rw [hrow] at h
      exact editQuantity_error game object row.1 row.2 h

-- The actuators count together with their generic row.
def combined (w : World β μ ρ) (object : ObjectId) (part : Int) : Int :=
  if isActuator part then quantity w object part + quantity w object GENERIC_ACTUATOR
  else quantity w object part

def Balanced (w later : World β μ ρ) (object : ObjectId) (part change : Int) : Prop :=
  (0 < change → combined later object part - combined w object part = change) ∧
  (change < 0 → change ≤ combined later object part - combined w object part ∧
    combined later object part - combined w object part ≤ 0)

-- A row of the actuator itself that is not used up counts again in the generic row.
def Counted (w : World β μ ρ) (object : ObjectId) (part change : Int) : Prop :=
  change = 0 ∨ isActuator part = false ∨ quantity w object part = 0 ∨
    quantity w object part + change ≤ 0

-- What a change does to the stock of a part and the generic row together.
theorem combined_changed (hvalid : Valid game w)
    (h : (changeQuantity game w object part change).2 = .ok ()) :
    combined (changeQuantity game w object part change).1 object part - combined w object part =
      if isActuator part = true ∧ 0 < quantity w object part + change then
        quantity w object part + change
      else max change (-quantity w object part) := by
  obtain ⟨row, hrow, hedited⟩ := changeQuantity_ok game object part change hvalid h
  have hwritten := changedRow_ok object part change hrow
  have hspecific := hedited.quantities object part
  have hgeneric := hedited.quantities object GENERIC_ACTUATOR
  have hdifferent : isActuator part = true → part ≠ GENERIC_ACTUATOR := by
    rintro hactuator rfl
    exact absurd hactuator (by decide)
  unfold combined
  by_cases hcounted : isActuator part = true ∧ 0 < quantity w object part + change
  · rw [if_pos hcounted] at hwritten
    rw [hwritten] at hspecific hgeneric
    rw [if_neg (fun hboth => hdifferent hcounted.1 hboth.2)] at hspecific
    rw [if_pos ⟨rfl, rfl⟩] at hgeneric
    rw [if_pos hcounted.1, if_pos hcounted.1, if_pos hcounted, hspecific, hgeneric]
    omega
  · rw [if_neg hcounted] at hwritten
    rw [hwritten] at hspecific hgeneric
    rw [if_pos ⟨rfl, rfl⟩] at hspecific
    rw [if_neg hcounted, hspecific]
    by_cases hactuator : isActuator part = true
    · rw [if_neg (fun hboth => hdifferent hactuator hboth.2.symm)] at hgeneric
      rw [if_pos hactuator, if_pos hactuator, hgeneric]
      omega
    · rw [if_neg hactuator, if_neg hactuator]
      omega

-- The cases follow the row that is written: the generic one takes the stored quantity a second time.
theorem balanced_iff (hvalid : Valid game w)
    (h : (changeQuantity game w object part change).2 = .ok ()) :
    Balanced w (changeQuantity game w object part change).1 object part change ↔
      Counted w object part change := by
  have hdelta := combined_changed game object part change hvalid h
  have hnonneg := hvalid.quantity_nonneg game object part
  unfold Balanced Counted
  generalize combined (changeQuantity game w object part change).1 object part -
    combined w object part = delta at hdelta ⊢
  by_cases hactuator : isActuator part = true
  · by_cases hleft : 0 < quantity w object part + change
    · rw [if_pos ⟨hactuator, hleft⟩] at hdelta
      constructor
      · rintro ⟨hup, hdown⟩
        rcases lt_trichotomy change 0 with hneg | hzero | hpos
        · have hfall := (hdown hneg).2
          omega
        · exact .inl hzero
        · have hrise := hup hpos
          exact .inr (.inr (.inl (by omega)))
      · rintro (hzero | hplain | hempty | hused)
        · exact ⟨fun hpos => by omega, fun hneg => by omega⟩
        · rw [hactuator] at hplain
          contradiction
        · exact ⟨fun hpos => by omega, fun hneg => by omega⟩
        · omega
    · rw [if_neg (fun hboth => hleft hboth.2)] at hdelta
      constructor
      · intro _
        exact .inr (.inr (.inr (by omega)))
      · intro _
        exact ⟨fun hpos => by omega, fun hneg => by omega⟩
  · rw [if_neg (fun hboth => hactuator hboth.1)] at hdelta
    constructor
    · intro _
      exact .inr (.inl (Bool.eq_false_iff.mpr hactuator))
    · intro _
      exact ⟨fun hpos => by omega, fun hneg => by omega⟩

end Changes

end StompyMux.Stock
