import Mathlib.Data.Prod.Lex
import Mathlib.Data.String.Basic
import StompyMux.Library.Grouping
import StompyMux.Library.StableSort
import StompyMux.Persistence.Batch

-- Ordered lists, one for each owner, stored by position.
namespace StompyMux.Persistence

open Library Library.Fallible

section Records

variable {O A : Type} [LinearOrder O] (spell : O → String) (fields : A → Fields)
  (lists : OrderedMap O (List A))

abbrev Records (O : Type) := List ((O × Int) × Fields)

def listAt (owner : O) : List A := (lists.get? owner).getD []

-- The rows that hold some lists, filed by the texts of their owners.
def records : Records O :=
  stableSort (fun record => toLex (spell record.1.1, record.1.2)) (lists.entries.flatMap fun owned =>
    owned.2.zipIdx.map fun item => ((owned.1, (item.2 : Int)), fields item.1))

theorem mem_records (owner : O) (position : Int) (values : Fields) :
    ((owner, position), values) ∈ records spell fields lists ↔
      ∃ (i : Nat) (a : A), (listAt lists owner)[i]? = some a ∧ position = i ∧ values = fields a := by
  unfold records
  rw [(stableSort_perm _ _).mem_iff, List.mem_flatMap]
  constructor
  · rintro ⟨⟨other, items⟩, hentry, hmem⟩
    obtain ⟨⟨a, i⟩, hitem, heq⟩ := List.mem_map.mp hmem
    injection heq with hkey hvalues
    injection hkey with howner hposition
    have howner : other = owner := howner
    subst howner
    have hget := (lists.get?_eq_some_iff other items).mpr hentry
    refine ⟨i, a, ?_, hposition.symm, hvalues.symm⟩
    unfold listAt
    rw [hget]
    exact List.mem_zipIdx_iff_getElem?.mp hitem
  · rintro ⟨i, a, hget, rfl, rfl⟩
    unfold listAt at hget
    cases hlist : lists.get? owner with
    | none =>
        rw [hlist] at hget
        contradiction
    | some items =>
        rw [hlist] at hget
        exact ⟨(owner, items), (lists.get?_eq_some_iff owner items).mp hlist,
          List.mem_map.mpr ⟨(a, i), List.mem_zipIdx_iff_getElem?.mpr hget, rfl⟩⟩

theorem records_keys : ((records spell fields lists).map Prod.fst).Nodup := by
  unfold records
  rw [((stableSort_perm _ _).map Prod.fst).nodup_iff, List.map_flatMap]
  refine List.nodup_flatMap.mpr ⟨fun owned _ => ?_, ?_⟩
  · have hmap : ((owned.2.zipIdx.map fun item => ((owned.1, (item.2 : Int)), fields item.1)).map Prod.fst) =
        (owned.2.zipIdx.map Prod.snd).map (fun (i : Nat) => (owned.1, (i : Int))) := by
      rw [List.map_map, List.map_map]
      rfl
    rw [hmap, List.zipIdx_map_snd]
    exact List.Nodup.map (fun i j h => Int.ofNat.inj (Prod.mk.inj h).2) List.nodup_range'
  · refine lists.sorted.imp fun {a b} hlt key ha hb => ?_
    obtain ⟨entry, hentry, rfl⟩ := List.mem_map.mp ha
    obtain ⟨item, -, rfl⟩ := List.mem_map.mp hentry
    obtain ⟨other, hother, heq⟩ := List.mem_map.mp hb
    obtain ⟨item', -, rfl⟩ := List.mem_map.mp hother
    exact ne_of_gt hlt (Prod.mk.inj heq).1

def affectedOwners (old new : Records O) : List O :=
  (((old ++ new).map Prod.fst).filter (fun key => old.lookup key ≠ new.lookup key)).map Prod.fst

-- An owner whose rows do not differ has lists of equal rows.
theorem list_of_unaffected {lists' : OrderedMap O (List A)} {owner : O}
    (h : owner ∉ affectedOwners (records spell fields lists) (records spell fields lists')) :
    (listAt lists owner).map fields = (listAt lists' owner).map fields := by
  have hlookup : ∀ position, (records spell fields lists).lookup (owner, position) =
      (records spell fields lists').lookup (owner, position) := by
    intro position
    by_contra hne
    refine h (List.mem_map.mpr ⟨(owner, position), List.mem_filter.mpr ⟨?_, decide_eq_true hne⟩, rfl⟩)
    rw [List.map_append, List.mem_append]
    by_contra hout
    rw [not_or] at hout
    have hnone : ∀ r : Records O, (owner, position) ∉ r.map Prod.fst → r.lookup (owner, position) = none := by
      intro r hr
      refine List.lookup_eq_none_iff.mpr fun entry hentry => bne_iff_ne.mpr fun heq => ?_
      exact hr (List.mem_map.mpr ⟨entry, hentry, heq.symm⟩)
    exact hne ((hnone _ hout.1).trans (hnone _ hout.2).symm)
  have hat : ∀ (m : OrderedMap O (List A)) (i : Nat),
      ((listAt m owner).map fields)[i]? = (records spell fields m).lookup (owner, (i : Int)) := by
    intro m i
    apply Option.ext
    intro values
    rw [lookup_eq_some_iff_mem (records_keys spell fields m), mem_records, List.getElem?_map,
      Option.map_eq_some_iff]
    constructor
    · rintro ⟨a, hget, rfl⟩
      exact ⟨i, a, hget, rfl, rfl⟩
    · rintro ⟨j, a, hget, hij, rfl⟩
      have hij : i = j := Int.ofNat.inj hij
      exact ⟨a, hij ▸ hget, rfl⟩
  apply List.ext_getElem?
  intro i
  rw [hat, hat, hlookup]

end Records

section Stored

variable {O A : Type} [LinearOrder O] (fields : A → Fields) (t : Table (O × Int) Row) (owner : O)

def inPositions : List (Int × Row) := stableSort (fun entry => entry.1) (rowsOf t owner)

def HoldsList (list : List A) : Prop :=
  List.Forall₂ (fun entry a => Holds (fields a) entry.2) (inPositions t owner) list

theorem mem_inPositions (position : Int) (row : Row) :
    (position, row) ∈ inPositions t owner ↔ t.get? (owner, position) = some row :=
  (stableSort_perm _ _).mem_iff.trans (mem_rowsOf t owner position row)

theorem HoldsList.item {fields : A → Fields} {t : Table (O × Int) Row} {owner : O} {list : List A}
    (h : HoldsList fields t owner list) (position : Int) (row : Row)
    (hrow : t.get? (owner, position) = some row) : ∃ a ∈ list, Holds (fields a) row := by
  have hmem := (mem_inPositions t owner position row).mpr hrow
  unfold HoldsList at h
  generalize inPositions t owner = rows at h hmem
  induction h with
  | nil => exact absurd hmem List.not_mem_nil
  | cons hfirst hrest ih =>
      rcases List.mem_cons.mp hmem with heq | hmem
      · subst heq
        exact ⟨_, List.mem_cons_self, hfirst⟩
      · obtain ⟨a, ha, hholds⟩ := ih hmem
        exact ⟨a, List.mem_cons_of_mem _ ha, hholds⟩

theorem holdsList_of_positions (list : List A)
    (h : ∀ (i : Nat) a, list[i]? = some a → ∃ row, t.get? (owner, (i : Int)) = some row ∧ Holds (fields a) row)
    (hnone : ∀ position row, t.get? (owner, position) = some row →
      ∃ i : Nat, i < list.length ∧ position = i) : HoldsList fields t owner list := by
  let row := fun (i : Nat) => (t.get? (owner, (i : Int))).getD (fun _ => .Null)
  have hrow : ∀ i, i < list.length → t.get? (owner, (i : Int)) = some (row i) := by
    intro i hi
    obtain ⟨r, hr, -⟩ := h i list[i] (List.getElem?_eq_getElem hi)
    show _ = some ((t.get? (owner, (i : Int))).getD _)
    rw [hr]
    rfl
  have hsorted : ((List.range list.length).map (fun (i : Nat) => ((i : Int), row i))).Pairwise
      (fun a b => a.1 < b.1) := by
    refine List.pairwise_map.mpr (List.pairwise_lt_range.imp fun {i j} hlt => ?_)
    exact Int.ofNat_lt.mpr hlt
  have hperm : (rowsOf t owner).Perm ((List.range list.length).map (fun (i : Nat) => ((i : Int), row i))) := by
    refine (List.perm_ext_iff_of_nodup (List.Nodup.of_map _ (keys_rowsOf t owner)) ?_).mpr ?_
    · exact hsorted.imp fun {a b} hlt heq => absurd (congrArg Prod.fst heq) (ne_of_lt hlt)
    · rintro ⟨position, r⟩
      rw [mem_rowsOf, List.mem_map]
      constructor
      · intro hget
        obtain ⟨i, hi, rfl⟩ := hnone position r hget
        refine ⟨i, List.mem_range.mpr hi, ?_⟩
        rw [Option.some.inj ((hrow i hi).symm.trans hget)]
      · rintro ⟨i, hi, heq⟩
        injection heq with hposition hr
        rw [← hposition, ← hr]
        exact hrow i (List.mem_range.mp hi)
  unfold HoldsList inPositions
  rw [stableSort_eq _ hperm hsorted]
  refine List.forall₂_iff_get.mpr ⟨by rw [List.length_map, List.length_range], fun i hi hi' => ?_⟩
  obtain ⟨r, hr, hholds⟩ := h i list[i] (List.getElem?_eq_getElem hi')
  have hsame := Option.some.inj ((hrow i hi').symm.trans hr)
  simp only [List.get_eq_getElem, List.getElem_map, List.getElem_range]
  rw [hsame]
  exact hholds

theorem HoldsList.congr {fields : A → Fields} {t t' : Table (O × Int) Row} {owner : O}
    {list list' : List A} (h : HoldsList fields t owner list)
    (hrows : ∀ position, t'.get? (owner, position) = t.get? (owner, position))
    (hlist : list.map fields = list'.map fields) : HoldsList fields t' owner list' := by
  have hperm : (rowsOf t' owner).Perm (rowsOf t owner) := by
    refine (List.perm_ext_iff_of_nodup (List.Nodup.of_map _ (keys_rowsOf t' owner))
      (List.Nodup.of_map _ (keys_rowsOf t owner))).mpr ?_
    rintro ⟨position, row⟩
    rw [mem_rowsOf, mem_rowsOf, hrows]
  have hsame : inPositions t' owner = inPositions t owner := by
    refine stableSort_eq _ (hperm.trans (stableSort_perm _ _).symm) ?_
    exact stableSort_pairwise _ (keys_rowsOf t owner)
  unfold HoldsList at h ⊢
  rw [hsame]
  have hmap : ∀ items : List A, List.Forall₂ (fun (entry : Int × Row) values => Holds values entry.2)
      (inPositions t owner) (items.map fields) ↔
      List.Forall₂ (fun (entry : Int × Row) a => Holds (fields a) entry.2) (inPositions t owner) items :=
    fun items => List.forall₂_map_right_iff
  rw [← hmap] at h ⊢
  rwa [← hlist]

end Stored

section Load

variable {O A S : Type} [LinearOrder O] (fields : A → Fields) (t : Table (O × Int) Row)

-- The rows of all owners, each in its place.
def rowsInOrder : List ((O × Int) × Row) := stableSort (fun entry => toLex entry.1) t.rows

def loadTable (step : S → O → Row → Except Error S) (s : S) : Except Error S :=
  (rowsInOrder t).foldlM (fun s entry => step s entry.1.1 entry.2) s

theorem rowsInOrder_pairwise : (rowsInOrder t).Pairwise (fun a b => toLex a.1 < toLex b.1) :=
  stableSort_pairwise _ t.unique

theorem mem_rowsInOrder (key : O × Int) (row : Row) : (key, row) ∈ rowsInOrder t ↔ t.get? key = some row :=
  (stableSort_perm _ _).mem_iff.trans (t.get?_eq_some_iff key row).symm

theorem inPositions_eq (owner : O) : inPositions t owner =
    ((rowsInOrder t).filter (fun entry => entry.1.1 = owner)).map (fun entry => (entry.1.2, entry.2)) := by
  have hsorted : (((rowsInOrder t).filter (fun entry => entry.1.1 = owner)).map
      (fun entry => (entry.1.2, entry.2))).Pairwise (fun a b => a.1 < b.1) := by
    refine List.pairwise_map.mpr (((rowsInOrder_pairwise t).filter _).imp_of_mem fun {a b} ha hb hlt => ?_)
    have hone : a.1.1 = owner := of_decide_eq_true (List.mem_filter.mp ha).2
    have hother : b.1.1 = owner := of_decide_eq_true (List.mem_filter.mp hb).2
    rcases Prod.Lex.toLex_lt_toLex.mp hlt with hlt | hlt
    · exact absurd hlt (by rw [hone, hother]; exact lt_irrefl owner)
    · exact hlt.2
  refine stableSort_eq _ ?_ hsorted
  refine (List.perm_ext_iff_of_nodup (List.Nodup.of_map _ (keys_rowsOf t owner)) ?_).mpr ?_
  · exact hsorted.imp fun {a b} hlt heq => absurd (congrArg Prod.fst heq) (ne_of_lt hlt)
  · rintro ⟨position, row⟩
    rw [mem_rowsOf, ← mem_rowsInOrder, List.mem_map]
    constructor
    · intro hmem
      exact ⟨_, List.mem_filter.mpr ⟨hmem, decide_eq_true rfl⟩, rfl⟩
    · rintro ⟨⟨⟨other, j⟩, row'⟩, hmem, heq⟩
      obtain ⟨hmem, howner⟩ := List.mem_filter.mp hmem
      have howner : other = owner := of_decide_eq_true howner
      injection heq with hposition hrow
      have hposition : j = position := hposition
      have hrow : row' = row := hrow
      rwa [← howner, ← hposition, ← hrow]

def Read (rows : List ((O × Int) × Row)) (items : List (O × A)) : Prop :=
  List.Forall₂ (fun entry item => entry.1.1 = item.1 ∧ Holds (fields item.2) entry.2) rows items

theorem Read.holdsList {fields : A → Fields} {t : Table (O × Int) Row} {items : List (O × A)}
    (h : Read fields (rowsInOrder t) items) (owner : O) : HoldsList fields t owner (collected items owner) := by
  unfold HoldsList collected
  rw [inPositions_eq, List.forall₂_map_left_iff, List.forall₂_map_right_iff]
  have hsame : ∀ (entry : (O × Int) × Row) (item : O × A),
      entry.1.1 = item.1 ∧ Holds (fields item.2) entry.2 →
        (decide (entry.1.1 = owner) ↔ decide (item.1 = owner)) := by
    rintro entry item ⟨hitem, -⟩
    rw [hitem]
  exact (List.rel_filter hsame h).imp fun entry item hread => hread.2

theorem exists_read (lists : O → List A)
    (hdet : ∀ row a b, Holds (fields a) row → Holds (fields b) row → a = b)
    (h : ∀ owner, HoldsList fields t owner (lists owner)) :
    ∃ items, Read fields (rowsInOrder t) items ∧ ∀ owner, collected items owner = lists owner := by
  have hexists : ∀ rows : List ((O × Int) × Row), (∀ entry ∈ rows, ∃ a, Holds (fields a) entry.2) →
      ∃ items, Read fields rows items := by
    intro rows hrows
    induction rows with
    | nil => exact ⟨[], List.Forall₂.nil⟩
    | cons entry rows ih =>
        have ⟨⟨a, ha⟩, hlater⟩ := List.forall_mem_cons.mp hrows
        obtain ⟨items, hitems⟩ := ih hlater
        exact ⟨(entry.1.1, a) :: items, List.Forall₂.cons ⟨rfl, ha⟩ hitems⟩
  obtain ⟨items, hitems⟩ := hexists (rowsInOrder t) (by
    rintro ⟨⟨owner, position⟩, row⟩ hmem
    obtain ⟨a, -, ha⟩ := (h owner).item position row ((mem_rowsInOrder t _ row).mp hmem)
    exact ⟨a, ha⟩)
  refine ⟨items, hitems, fun owner => ?_⟩
  have hread := hitems.holdsList owner
  have hstored := h owner
  unfold HoldsList at hread hstored
  generalize inPositions t owner = rows at hread hstored
  generalize collected items owner = found at hread
  generalize lists owner = list at hstored
  induction hread generalizing list with
  | nil => cases hstored with
    | nil => rfl
  | cons hfirst hrest ih => cases hstored with
    | cons hfirst' hrest' => rw [hdet _ _ _ hfirst hfirst', ih _ hrest']

-- Each item is admitted when its turn comes.
def Admitted (admits : S → O × A → Prop) (push : S → O × A → S) : S → List (O × A) → Prop
  | _, [] => True
  | s, item :: items => admits s item ∧ Admitted admits push (push s item) items

omit [LinearOrder O] in
theorem admitted_iff (admits : S → O × A → Prop) (push : S → O × A → S) (items : List (O × A)) (s : S) :
    Admitted admits push s items ↔
      ∀ before item after, items = before ++ item :: after → admits (before.foldl push s) item := by
  induction items generalizing s with
  | nil => exact ⟨fun _ before item after h => by simp at h, fun _ => trivial⟩
  | cons item items ih =>
      constructor
      · rintro ⟨hfirst, hlater⟩ before next after hitems
        cases before with
        | nil =>
            injection hitems with hitem
            rwa [← hitem]
        | cons first before =>
            injection hitems with hitem hitems
            rw [← hitem]
            exact (ih _).mp hlater before next after hitems
      · intro h
        refine ⟨h [] item items rfl, (ih _).mpr fun before next after hitems => ?_⟩
        exact h (item :: before) next after (by rw [hitems, List.cons_append])

omit [LinearOrder O] in
theorem admitted_mem {admits : S → O × A → Prop} {push : S → O × A → S} {s : S}
    {items : List (O × A)} (h : Admitted admits push s items) {item : O × A} (hitem : item ∈ items) :
    ∃ before : List (O × A), admits (before.foldl push s) item := by
  obtain ⟨before, after, hitems⟩ := List.append_of_mem hitem
  exact ⟨before, (admitted_iff admits push items s).mp h before item after hitems⟩

theorem loadTable_ok_iff (step : S → O → Row → Except Error S) (admits : S → O × A → Prop)
    (push : S → O × A → S)
    (hstep : ∀ s owner row s', step s owner row = .ok s' ↔
      ∃ a, Holds (fields a) row ∧ admits s (owner, a) ∧ s' = push s (owner, a)) (s s' : S) :
    loadTable t step s = .ok s' ↔
      ∃ items, Read fields (rowsInOrder t) items ∧ Admitted admits push s items ∧
        s' = items.foldl push s := by
  unfold loadTable Read
  generalize rowsInOrder t = rows
  induction rows generalizing s with
  | nil =>
      constructor
      · intro h
        injection h with h
        exact ⟨[], List.Forall₂.nil, trivial, h.symm⟩
      · rintro ⟨items, hread, -, rfl⟩
        cases hread
        rfl
  | cons entry rows ih =>
      rw [List.foldlM_cons]
      constructor
      · intro h
        obtain ⟨s₁, hs₁, h⟩ := ok_of_bind h
        obtain ⟨a, hholds, hadmits, rfl⟩ := (hstep _ _ _ _).mp hs₁
        obtain ⟨items, hread, hlater, rfl⟩ := (ih _).mp h
        exact ⟨(entry.1.1, a) :: items, List.Forall₂.cons ⟨rfl, hholds⟩ hread, ⟨hadmits, hlater⟩, rfl⟩
      · rintro ⟨items, hread, hadmits, rfl⟩
        cases hread with
        | @cons _ item _ items hfirst hrest =>
            obtain ⟨owner, a⟩ := item
            obtain ⟨howner, hholds⟩ := hfirst
            subst howner
            refine bind_ok ((hstep _ _ _ _).mpr ⟨a, hholds, hadmits.1, rfl⟩) ?_
            exact (ih _).mpr ⟨items, hrest, hadmits.2, rfl⟩

end Load

section Save

variable {O A : Type} [LinearOrder O] (schema : Schema (O × Int)) (spell : O → String)
  (read : Row → Except Error Fields)

def readRecord (entry : (O × Int) × Row) : Except Error ((O × Int) × Fields) := do
  let fields ← read entry.2
  .ok (entry.1, fields)

def saveRecord (stored : Records O) (w : Table (O × Int) Row × Bool) (record : (O × Int) × Fields) :
    Except Error (Table (O × Int) Row × Bool) := do
  let (t, changed) ← withContext s!"writing {schema.name} ({(spell record.1.1).quote}, {record.1.2})"
    (row schema w.1 record.1 (stored.lookup record.1) record.2)
  .ok (t, w.2 || changed)

local instance lawfulOwners {O : Type} [LinearOrder O] : LawfulBEq O := inferInstance

-- Only the rows of owners whose rows differ are read and touched.
def saveRecords (old new : Records O) (w : Table (O × Int) Row × Bool) :
    Except Error (Table (O × Int) Row × Bool) :=
  let affected := affectedOwners old new
  if affected = [] then .ok w
  else do
    let stored ← w.1.rows.mapM (readRecord read)
    let stored := stored.filter (fun record => record.1.1 ∈ affected)
    let wanted := new.filter (fun record => record.1.1 ∈ affected)
    let w ← wanted.foldlM (saveRecord schema spell stored) w
    let gone := stored.filter (fun record => (wanted.lookup record.1).isNone)
    .ok (gone.foldl (fun w record => (w.1.delete (fun key => key = record.1), true)) w)

theorem readTable_ok (t : Table (O × Int) Row)
    (h : ∀ key row, t.get? key = some row → ∃ values, read row = .ok values ∧ Holds values row) :
    ∃ stored, t.rows.mapM (readRecord read) = .ok stored ∧ (stored.map Prod.fst).Nodup ∧
      ∀ key, Stores (stored.lookup key) (t.get? key) := by
  let value := fun (row : Row) => match read row with
    | .ok values => values
    | .error _ => []
  have hvalue : ∀ key row, t.get? key = some row → read row = .ok (value row) ∧ Holds (value row) row := by
    intro key row hrow
    obtain ⟨values, hread, hholds⟩ := h key row hrow
    have hsame : value row = values := by
      show (match read row with
        | .ok values => values
        | .error _ => []) = values
      rw [hread]
    rw [hsame]
    exact ⟨hread, hholds⟩
  have hkeys : (t.rows.map (fun entry => (entry.1, value entry.2))).map Prod.fst = t.rows.map Prod.fst := by
    rw [List.map_map]
    rfl
  have hnodup : ((t.rows.map (fun entry => (entry.1, value entry.2))).map Prod.fst).Nodup :=
    hkeys ▸ t.unique
  refine ⟨t.rows.map (fun entry => (entry.1, value entry.2)), ?_, hnodup, fun key => ?_⟩
  · refine mapM_ok _ _ _ fun entry hentry => ?_
    have hrow := (t.get?_eq_some_iff entry.1 entry.2).mpr hentry
    exact bind_ok (hvalue _ _ hrow).1 rfl
  · cases hget : t.get? key with
    | none =>
        have hnone : (t.rows.map (fun entry => (entry.1, value entry.2))).lookup key = none := by
          refine List.lookup_eq_none_iff.mpr fun entry hentry => bne_iff_ne.mpr fun heq => ?_
          refine (t.get?_eq_none_iff key).mp hget ?_
          rw [Table.keys, ← hkeys]
          exact List.mem_map.mpr ⟨entry, hentry, heq.symm⟩
        rw [hnone]
        trivial
    | some row =>
        have hsome : (t.rows.map (fun entry => (entry.1, value entry.2))).lookup key = some (value row) := by
          rw [lookup_eq_some_iff_mem hnodup]
          exact List.mem_map.mpr ⟨(key, row), (t.get?_eq_some_iff key row).mp hget, rfl⟩
        rw [hsome]
        exact (hvalue key row hget).2

theorem lookup_owned {V : Type} {entries : List ((O × Int) × V)} (hnodup : (entries.map Prod.fst).Nodup)
    (owners : List O) (key : O × Int) :
    (entries.filter (fun entry => entry.1.1 ∈ owners)).lookup key =
      if key.1 ∈ owners then entries.lookup key else none := by
  have hfiltered : ((entries.filter (fun entry => entry.1.1 ∈ owners)).map Prod.fst).Nodup :=
    hnodup.sublist (List.filter_sublist.map _)
  apply Option.ext
  intro v
  rw [lookup_eq_some_iff_mem hfiltered, List.mem_filter]
  split
  · rename_i howner
    rw [lookup_eq_some_iff_mem hnodup]
    simp [howner]
  · rename_i howner
    simp [howner]

theorem get?_removed (gone : Records O) (w : Table (O × Int) Row × Bool) (key : O × Int) (row : Row) :
    (gone.foldl (fun w record => (w.1.delete (fun key => key = record.1), true)) w).1.get? key = some row ↔
      key ∉ gone.map Prod.fst ∧ w.1.get? key = some row := by
  rw [deleteKeys_fst Prod.fst, get?_deleteKeys]
  by_cases hkey : key ∈ gone.map Prod.fst
  · rw [if_pos hkey]
    exact ⟨fun h => by contradiction, fun h => absurd hkey h.1⟩
  · rw [if_neg hkey]
    exact ⟨fun h => ⟨hkey, h⟩, fun h => h.2⟩

variable (fields : A → Fields) (old new : OrderedMap O (List A)) (w : Table (O × Int) Row × Bool)
  (hread : ∀ row a, Holds (fields a) row → read row = .ok (fields a))
  (hnodup : ∀ a, ((fields a).map Prod.fst).Nodup)
  (hcheck : ∀ a base owner (i : Nat), schema.check (owner, (i : Int)) (assign (fields a) base))
  (h : ∀ owner, HoldsList fields w.1 owner (listAt old owner))

-- The records of these owners.
def ofOwners (owners : List O) (records : Records O) : Records O :=
  records.filter (fun record => record.1.1 ∈ owners)

theorem mem_ofOwners (owners : List O) (records : Records O) (record : (O × Int) × Fields) :
    record ∈ ofOwners owners records ↔ record ∈ records ∧ record.1.1 ∈ owners := by
  unfold ofOwners
  rw [List.mem_filter, decide_eq_true_eq]

theorem mem_gone (stored wanted : Records O) (key : O × Int) :
    key ∈ (stored.filter (fun record => (wanted.lookup record.1).isNone)).map Prod.fst ↔
      key ∈ stored.map Prod.fst ∧ key ∉ wanted.map Prod.fst := by
  have hnone : (wanted.lookup key).isNone = true ↔ key ∉ wanted.map Prod.fst := by
    rw [Option.isNone_iff_eq_none, List.lookup_eq_none_iff]
    simp only [List.mem_map, bne_iff_ne, not_exists, not_and]
    exact ⟨fun h record hrecord heq => h record hrecord heq.symm,
      fun h record hrecord heq => h record hrecord heq.symm⟩
  simp only [List.mem_map, List.mem_filter] at hnone ⊢
  constructor
  · rintro ⟨record, ⟨hrecord, hlookup⟩, rfl⟩
    exact ⟨⟨record, hrecord, rfl⟩, hnone.mp hlookup⟩
  · rintro ⟨⟨record, hrecord, rfl⟩, hnot⟩
    exact ⟨record, ⟨hrecord, hnone.mpr hnot⟩, rfl⟩

variable (affected : List O) (stored : Records O)

include hnodup hcheck in
-- The rows wanted are written over what was stored, and no other row is touched.
theorem saveWanted_ok
    (hstored : ∀ key, key.1 ∈ affected → Stores (stored.lookup key) (w.1.get? key)) :
    ∃ w', (ofOwners affected (records spell fields new)).foldlM (saveRecord schema spell stored) w =
        .ok w' ∧
      (∀ record ∈ ofOwners affected (records spell fields new),
        ∃ base, w'.1.get? record.1 = some (assign record.2 base)) ∧
      ∀ key, key ∉ (ofOwners affected (records spell fields new)).map Prod.fst →
        w'.1.get? key = w.1.get? key := by
  obtain ⟨w', hrun, hwritten, hother⟩ := writeRows_ok schema Prod.fst
    (fun record => stored.lookup record.1) Prod.snd w (ofOwners affected (records spell fields new))
    ((records_keys spell fields new).sublist (List.filter_sublist.map _))
    (by
      rintro ⟨⟨owner, position⟩, values⟩ hrecord
      obtain ⟨i, a, -, -, rfl⟩ := (mem_records spell fields new owner position values).mp
        ((mem_ofOwners affected _ _).mp hrecord).1
      exact hnodup a)
    (by
      rintro ⟨⟨owner, position⟩, values⟩ hrecord
      obtain ⟨i, a, -, rfl, rfl⟩ := (mem_records spell fields new owner position values).mp
        ((mem_ofOwners affected _ _).mp hrecord).1
      exact hcheck a _ owner i)
    (fun record hrecord => hstored record.1 ((mem_ofOwners affected _ _).mp hrecord).2)
  refine ⟨w', ?_, fun record hrecord => ⟨_, hwritten record hrecord⟩, hother⟩
  refine foldlM_agrees _ (fun record _ b c hc => ?_) hrun
  obtain ⟨changed, hrow, hflag⟩ := ok_of_writeRow _ _ _ _ hc
  refine bind_ok (withContext_ok hrow) ?_
  show Except.ok (c.1, b.2 || changed) = Except.ok c
  rw [← hflag]

-- An affected owner has the wanted rows alone: a row that was stored and is not wanted goes.
theorem list_of_affected (t before : Table (O × Int) Row) {owner : O} (howner : owner ∈ affected)
    (hstored : ∀ key, key.1 ∈ affected → Stores (stored.lookup key) (before.get? key))
    (hget : ∀ key row, t.get? key = some row →
      (key ∈ stored.map Prod.fst → key ∈ (ofOwners affected (records spell fields new)).map Prod.fst) ∧
        (key ∉ (ofOwners affected (records spell fields new)).map Prod.fst →
          before.get? key = some row))
    (hwritten : ∀ record ∈ ofOwners affected (records spell fields new),
      ∃ base, t.get? record.1 = some (assign record.2 base)) :
    HoldsList fields t owner (listAt new owner) := by
  refine holdsList_of_positions fields _ owner (listAt new owner) (fun i a hitem => ?_)
    fun position row hrow => ?_
  · obtain ⟨base, hrow⟩ := hwritten ((owner, (i : Int)), fields a) ((mem_ofOwners affected _ _).mpr
      ⟨(mem_records spell fields new _ _ _).mpr ⟨i, a, hitem, rfl, rfl⟩, howner⟩)
    exact ⟨_, hrow, holds_assign (fields a) base⟩
  · obtain ⟨hkept, hbefore⟩ := hget _ _ hrow
    by_cases hin : (owner, position) ∈ (ofOwners affected (records spell fields new)).map Prod.fst
    · obtain ⟨⟨key, values⟩, hrecord, heq⟩ := List.mem_map.mp hin
      have heq : key = (owner, position) := heq
      subst heq
      obtain ⟨i, a, hitem, rfl, -⟩ := (mem_records spell fields new owner position values).mp
        ((mem_ofOwners affected _ _).mp hrecord).1
      exact ⟨i, (List.getElem?_eq_some_iff.mp hitem).1, rfl⟩
    · have hstores := hstored (owner, position) howner
      rw [hbefore hin] at hstores
      cases hlookup : stored.lookup (owner, position) with
      | none =>
          rw [hlookup] at hstores
          exact hstores.elim
      | some values =>
          obtain ⟨record, hrecord, hkey⟩ := List.lookup_isSome_iff.mp (Option.isSome_of_eq_some hlookup)
          exact absurd (hkept (List.mem_map.mpr ⟨record, hrecord, (eq_of_beq hkey).symm⟩)) hin

include hread hnodup hcheck h

theorem saveRecords_ok :
    ∃ w', saveRecords schema spell read (records spell fields old) (records spell fields new) w = .ok w' ∧
      ∀ owner, HoldsList fields w'.1 owner (listAt new owner) := by
  have hkept : ∀ owner, owner ∉ affectedOwners (records spell fields old) (records spell fields new) →
      ∀ w' : Table (O × Int) Row, (∀ position, w'.get? (owner, position) = w.1.get? (owner, position)) →
        HoldsList fields w' owner (listAt new owner) :=
    fun owner howner w' hrows => (h owner).congr hrows (list_of_unaffected spell fields old howner)
  unfold saveRecords
  generalize affectedOwners (records spell fields old) (records spell fields new) = affected at hkept
  by_cases hempty : affected = []
  · rw [if_pos hempty]
    exact ⟨w, rfl, fun owner => hkept owner (by rw [hempty]; exact List.not_mem_nil) w.1 fun _ => rfl⟩
  rw [if_neg hempty]
  obtain ⟨all, hall, hallKeys, hstored⟩ := readTable_ok read w.1 (by
    rintro ⟨owner, position⟩ row hrow
    obtain ⟨a, -, hholds⟩ := (h owner).item position row hrow
    exact ⟨fields a, hread row a hholds, hholds⟩)
  have howned : ∀ key, key.1 ∈ affected →
      Stores ((ofOwners affected all).lookup key) (w.1.get? key) := by
    intro key hkey
    rw [ofOwners, lookup_owned hallKeys, if_pos hkey]
    exact hstored key
  obtain ⟨w', hfold, hwritten, hother⟩ := saveWanted_ok schema spell fields new w hnodup hcheck
    affected (ofOwners affected all) howned
  refine ⟨_, bind_ok hall (bind_ok hfold rfl), fun owner => ?_⟩
  set wanted := ofOwners affected (records spell fields new)
  have hget := get?_removed ((ofOwners affected all).filter fun record => (wanted.lookup record.1).isNone) w'
  simp only [mem_gone] at hget
  by_cases howner : owner ∈ affected
  · refine list_of_affected spell fields new affected (ofOwners affected all) _ w.1 howner howned
      (fun key row hrow => ?_) (fun record hrecord => ?_)
    · obtain ⟨hstay, hrow⟩ := (hget key row).mp hrow
      exact ⟨fun hin => of_not_not fun hnot => hstay ⟨hin, hnot⟩, fun hnot => hother key hnot ▸ hrow⟩
    · obtain ⟨base, hrow⟩ := hwritten record hrecord
      exact ⟨base, (hget _ _).mpr ⟨fun hgone => hgone.2 (List.mem_map.mpr ⟨record, hrecord, rfl⟩), hrow⟩⟩
  · refine hkept owner howner _ fun position => ?_
    have hout : ∀ entries : Records O, (owner, position) ∉ (ofOwners affected entries).map Prod.fst := by
      intro entries hin
      obtain ⟨record, hrecord, heq⟩ := List.mem_map.mp hin
      have hmem := ((mem_ofOwners affected _ _).mp hrecord).2
      rw [heq] at hmem
      exact howner hmem
    apply Option.ext
    intro row
    rw [← hother _ (hout _)]
    exact (hget _ _).trans (and_iff_right fun hgone => hout _ hgone.1)

end Save

end StompyMux.Persistence
