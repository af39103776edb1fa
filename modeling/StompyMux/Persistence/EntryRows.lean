import StompyMux.Persistence.Macros

namespace StompyMux.Persistence

open Library Library.Fallible Library.Placement
open StompyMux.Macros
open StompyMux.World (ObjectId World)

namespace Database

-- What the moves of macro rows leave alone.
def rest (db : Database) : Table ObjectId Row × (String → Row) × List Dependency :=
  (db.commacEntries, db.defaults, db.dependencies)

def group (db : Database) (index position : Int) : Option Row := db.macroEntries.get? (index, position)

end Database

-- The rows of some items when the first `j` of them have been written: each has its fields and the
-- other columns of the row that it came from.
def written {α : Type} (fields : α → Fields) (items : List α) (origins : List Int)
    (place : Int → Option Row) (defaults : Row) (j i : Nat) : Option Row :=
  if i < j then
    items[i]?.map (fun a => assign (fields a) (((origin origins i).elim none place).getD defaults))
  else (origin origins i).elim none place

theorem written_zero {α : Type} (fields : α → Fields) (items : List α) (origins : List Int)
    (place : Int → Option Row) (defaults : Row) :
    written fields items origins place defaults 0 = fun i => (origin origins i).elim none place := by
  funext i
  exact if_neg (by omega)

theorem written_succ {α : Type} (fields : α → Fields) {items : List α} (origins : List Int)
    (place : Int → Option Row) (defaults : Row) {j : Nat} {a : α} (ha : items[j]? = some a) :
    written fields items origins place defaults (j + 1) =
      Function.update (written fields items origins place defaults j) j
        (some (assign (fields a) (((origin origins j).elim none place).getD defaults))) := by
  funext i
  rw [Function.update_apply]
  unfold written
  by_cases hij : i = j
  · rw [if_pos hij, if_pos (by omega), hij, ha, Option.map_some]
  · rw [if_neg hij]
    by_cases hlt : i < j
    · rw [if_pos hlt, if_pos (by omega)]
    · rw [if_neg hlt, if_neg (by omega)]

theorem setFields_nodup (set : MacroSet) : ((setFields set).map Prod.fst).Nodup := by
  show ["description", "owner", "status"].Nodup
  decide

theorem entryFields_nodup (entry : MacroEntry) : ((entryFields entry).map Prod.fst).Nodup := by
  show ["alias", "expansion"].Nodup
  decide

theorem setsSchema_check (db : Database) (key : Int) (set : MacroSet) (row : Row) :
    db.setsSchema.check key (assign (setFields set) row) := rfl

theorem entriesSchema_check (db : Database) (key : Int × Int) (entry : MacroEntry) (row : Row) :
    db.entriesSchema.check key (assign (entryFields entry) row) := rfl

-- Only the entries of one set have been written.
structure Within (index : Int) (before after : Database) : Prop where
  sets : after.macroSets = before.macroSets
  others : ∀ k, k ≠ index → after.group k = before.group k
  rest : after.rest = before.rest

namespace Within

variable (index : Int)

theorem refl (db : Database) : Within index db db := ⟨rfl, fun _ _ => rfl, rfl⟩

theorem trans (before between after : Database) (h : Within index before between)
    (h' : Within index between after) : Within index before after :=
  ⟨h'.sets.trans h.sets, fun k hk => (h'.others k hk).trans (h.others k hk), h'.rest.trans h.rest⟩

end Within

section Entries

variable (index : Nat)

theorem moveEntry_ok (a b : Int) (db : Database) (hb : db.group index b = none) :
    ∃ after, moveEntry index a b db = .ok after ∧ Within index db after ∧
      ∀ k, after.group index k =
        if k = b then db.group index a else if k = a then none else db.group index k := by
  obtain ⟨entries, hentries, hget⟩ := db.macroEntries.rekey_row ((index : Int), a) hb
  refine ⟨_, bind_ok hentries rfl, ⟨rfl, fun k hk => ?_, rfl⟩, fun k => ?_⟩
  · funext p
    show entries.get? (k, p) = _
    have hne : ∀ c : Int, (k, p) ≠ ((index : Int), c) := fun c heq => hk (Prod.mk.inj heq).1
    rw [hget, if_neg (hne b), if_neg (hne a)]
    rfl
  · show entries.get? ((index : Int), k) = _
    rw [hget]
    simp only [Prod.mk.injEq, true_and]
    rfl

theorem deleteEntries_spec (kept : List Int) (count : Nat) (w : Writing) :
    Within index w.1 ((List.range count).foldl (deleteEntry kept index) w).1 ∧
      ((List.range count).foldl (deleteEntry kept index) w).1.group index =
        emptied none kept count (w.1.group index) := by
  induction count with
  | zero => exact ⟨Within.refl _ _, (emptied_zero ..).symm⟩
  | succ count ih =>
      rw [List.range_succ, List.foldl_append, List.foldl_cons, List.foldl_nil]
      generalize (List.range count).foldl (deleteEntry kept index) w = w' at ih ⊢
      obtain ⟨hw, hgroup⟩ := ih
      unfold deleteEntry
      by_cases hkept : (count : Int) ∈ kept
      · rw [if_pos hkept, emptied_succ_keep none kept count _ hkept]
        exact ⟨hw, hgroup⟩
      · rw [if_neg hkept]
        have hget : ∀ k p, (w'.1.macroEntries.delete (fun key => key = ((index : Int), (count : Int)))).get?
            (k, p) = if (k, p) = ((index : Int), (count : Int)) then none else w'.1.group k p := by
          intro k p
          rw [Table.get?_delete]
          simp only [decide_eq_true_eq]
          rfl
        refine ⟨hw.trans index _ _ _ ⟨rfl, fun k hk => ?_, rfl⟩, ?_⟩
        · funext p
          exact (hget k p).trans (if_neg fun heq => hk (Prod.mk.inj heq).1)
        · funext k
          rw [emptied_succ_drop none kept count _ hkept, ← hgroup]
          refine (hget index k).trans ?_
          simp only [Prod.mk.injEq, true_and]

theorem parkEntry_eq {count : Nat} (w : Writing) {entry : MacroEntry} (j : Nat)
    (h : entry.origin < (count : Int)) :
    parkEntry index count w (entry, j) =
      if entry.origin < 0 ∨ entry.origin = j then .ok w
      else moveEntry index entry.origin (-entry.origin - 1) w.1 >>= fun db => .ok (db, true) := by
  unfold parkEntry
  dsimp only
  rw [decide_eq_true h]
  rfl

-- The rows of one set's entries, item by item, during the moves.
structure EntriesAt (before : Database) (loc : Nat → Option Int) (content : Nat → Option Row)
    (w : Writing) : Prop where
  within : Within index before w.1
  placed : Placed none (w.1.group index) loc content

variable (before : Database) (entries : List MacroEntry) (set : MacroSet)
  (hnodup : (Placement.stored (entryOrigins set)).Nodup)
  (hold : ∀ o ∈ entryOrigins set, o < (entries.length : Int))

include hnodup hold

theorem parkEntries_ok {content : Nat → Option Row} {w : Writing}
    (h : EntriesAt index before (origin (entryOrigins set)) content w) :
    ∃ after, set.entries.zipIdx.foldlM (parkEntry index entries.length) w = .ok after ∧
      EntriesAt index before (parked (entryOrigins set) set.entries.length) content after := by
  apply foldlM_zipIdx_succeeds (fun j => EntriesAt index before (parked (entryOrigins set) j) content)
  · intro j entry w hentry hw
    have hget : (entryOrigins set)[j]? = some entry.origin := by
      rw [entryOrigins, List.getElem?_map, hentry, Option.map_some]
    have hlt := hold _ (List.mem_of_getElem? hget)
    rw [parkEntry_eq index w j hlt]
    by_cases hstay : entry.origin < 0 ∨ entry.origin = (j : Int)
    · refine ⟨w, if_pos hstay, ?_⟩
      rw [parked_succ_stay _ j _ hget hstay]
      exact hw
    · obtain ⟨hpos, hmove⟩ := not_or.mp hstay
      have horigin : origin (entryOrigins set) j = some entry.origin :=
        (origin_eq_some _ _ _).mpr ⟨hget, Int.not_lt.mp hpos⟩
      have hfree := parked_free _ hnodup horigin
      have hself := (parked_self (entryOrigins set) j).trans horigin
      obtain ⟨db, hdb, hwithin, hgroup⟩ :=
        moveEntry_ok index entry.origin (-entry.origin - 1) w.1 (hw.placed.elsewhere _ hfree)
      refine ⟨(db, true), ?_, hw.within.trans _ _ _ _ hwithin, ?_⟩
      · exact (if_neg hstay).trans (bind_ok hdb rfl)
      · rw [parked_succ_move _ j _ horigin hmove]
        exact hw.placed.move _ _ _ _ _ j _ _ hself hfree hgroup
  · rw [parked_zero]
    exact h

omit hnodup hold in
theorem origin_of_getElem? {j : Nat} {entry : MacroEntry} (hentry : set.entries[j]? = some entry) :
    origin (entryOrigins set) j = if 0 ≤ entry.origin then some entry.origin else none := by
  rw [origin, entryOrigins, List.getElem?_map, hentry, Option.map_some, Option.filter_some]
  simp only [decide_eq_true_eq]

omit hnodup hold in
theorem bringEntry_ok {content : Nat → Option Row} {w : Writing} {j : Nat} {entry : MacroEntry}
    (hentry : set.entries[j]? = some entry)
    (h : EntriesAt index before (placed (entryOrigins set) j) content w) :
    ∃ db, bringEntry index entry.origin j w.1 = .ok db ∧
      EntriesAt index before (arrived (entryOrigins set) j) content (db, w.2) := by
  have horigin := origin_of_getElem? set hentry
  unfold bringEntry
  by_cases hmove : 0 ≤ entry.origin ∧ entry.origin ≠ (j : Int)
  · rw [if_pos hmove.1] at horigin
    have hfree := placed_free_move _ horigin hmove.2
    have hself := placed_self_move _ j _ horigin hmove.2
    obtain ⟨db, hdb, hwithin, hgroup⟩ :=
      moveEntry_ok index (-entry.origin - 1) j w.1 (h.placed.elsewhere _ hfree)
    refine ⟨db, (if_pos hmove).trans hdb, h.within.trans _ _ _ _ hwithin, ?_⟩
    rw [arrived_move _ j _ horigin]
    exact h.placed.move _ _ _ _ _ j _ _ hself hfree hgroup
  · refine ⟨w.1, if_neg hmove, h.within, ?_⟩
    rw [arrived_stay _ j fun o ho => ?_]
    · exact h.placed
    · rw [horigin] at ho
      split at ho
      · rename_i hpos
        by_contra hne
        exact hmove ⟨hpos, Option.some.inj ho ▸ hne⟩
      · contradiction

variable (place : Int → Option Row)
  (hstores : ∀ p, Stores ((entryAt entries p).map entryFields) (place p))

include hstores

omit hnodup hold in
theorem stores_source {j : Nat} {entry : MacroEntry} (hentry : set.entries[j]? = some entry) :
    Stores ((entryAt entries entry.origin).map entryFields)
      ((origin (entryOrigins set) j).elim none place) := by
  rw [origin_of_getElem? set hentry]
  split
  · exact hstores entry.origin
  · rename_i hneg
    rw [entryAt, if_neg hneg]
    trivial

omit hnodup hold in
theorem placeEntry_ok {w : Writing} {j : Nat} {entry : MacroEntry}
    (hentry : set.entries[j]? = some entry)
    (h : EntriesAt index before (placed (entryOrigins set) j)
      (written entryFields set.entries (entryOrigins set) place before.entriesSchema.defaults j) w) :
    ∃ after, placeEntry index entries w (entry, j) = .ok after ∧
      EntriesAt index before (placed (entryOrigins set) (j + 1))
        (written entryFields set.entries (entryOrigins set) place before.entriesSchema.defaults (j + 1))
        after := by
  obtain ⟨db, hbring, hdb⟩ := bringEntry_ok index before set hentry h
  have hlen : j < (entryOrigins set).length := by
    rw [entryOrigins, List.length_map]
    exact (List.getElem?_eq_some_iff.mp hentry).1
  have hcontent : written entryFields set.entries (entryOrigins set) place
      before.entriesSchema.defaults j j = (origin (entryOrigins set) j).elim none place :=
    if_neg (Nat.lt_irrefl j)
  have hthere : db.macroEntries.get? ((index : Int), (j : Int)) =
      (origin (entryOrigins set) j).elim none place := by
    rw [← hcontent]
    refine place_of_arrived _ none _ _ hdb.placed fun hnone => ?_
    rw [hcontent, hnone]
    rfl
  have hstored := stores_source entries set place hstores hentry
  rw [← hthere] at hstored
  obtain ⟨t, changed, hrow, hget⟩ := row_ok db.entriesSchema db.macroEntries
    ((index : Int), (j : Int)) _ (entryFields entry) (entryFields_nodup entry)
    (entriesSchema_check db _ entry _) hstored
  have hdefaults : db.entriesSchema.defaults = before.entriesSchema.defaults := by
    have hrest := hdb.within.rest
    injection hrest with _ hrest
    injection hrest with hdefaults _
    exact congrFun hdefaults "macro_entries"
  rw [hdefaults] at hget
  refine ⟨({ db with macroEntries := t }, w.2 || changed), ?_, ?_, ?_⟩
  · exact bind_ok hbring (bind_ok (withContext_ok hrow) rfl)
  · refine hdb.within.trans _ _ _ _ ⟨rfl, fun k hk => ?_, rfl⟩
    funext p
    exact (hget (k, p)).trans (if_neg fun heq => hk (Prod.mk.inj heq).1)
  · rw [written_succ _ _ _ _ hentry, ← hthere]
    refine placed_written _ none _ hlen _ hdb.placed fun k => ?_
    refine (hget (index, k)).trans ?_
    simp only [Prod.mk.injEq, true_and]
    rfl

theorem saveEntries_ok (w : Writing) (hstart : before = w.1)
    (hplace : w.1.group index = place) (hlow : ∀ p, p < 0 ∨ (entries.length : Int) ≤ p → place p = none) :
    ∃ after, saveEntries index entries set w = .ok after ∧
      EntriesAt index before (placed (entryOrigins set) set.entries.length)
        (written entryFields set.entries (entryOrigins set) place before.entriesSchema.defaults
          set.entries.length) after := by
  have hdedup : (Placement.stored (entryOrigins set)).dedup = Placement.stored (entryOrigins set) :=
    hnodup.dedup
  obtain ⟨hwithin, hgroup⟩ :=
    deleteEntries_spec index (Placement.stored (entryOrigins set)) entries.length w
  have hfirst : EntriesAt index before (origin (entryOrigins set))
      (fun i => (origin (entryOrigins set) i).elim none place)
      ((List.range entries.length).foldl
        (deleteEntry (Placement.stored (entryOrigins set)) index) w) := by
    refine ⟨hstart ▸ hwithin, ?_⟩
    rw [hgroup, hplace]
    exact placed_origin _ none place entries.length hnodup hlow
  obtain ⟨w', hpark, hw'⟩ := parkEntries_ok index before entries set hnodup hold hfirst
  have hplaced : placed (entryOrigins set) 0 = parked (entryOrigins set) set.entries.length := by
    rw [placed_zero, entryOrigins, List.length_map]
  rw [← written_zero entryFields set.entries _ _ before.entriesSchema.defaults, ← hplaced] at hw'
  obtain ⟨after, hafter, hlast⟩ := foldlM_zipIdx_succeeds
    (fun j => EntriesAt index before (placed (entryOrigins set) j)
      (written entryFields set.entries (entryOrigins set) place before.entriesSchema.defaults j))
    (placeEntry index entries) set.entries
    (fun j entry w hentry hw => placeEntry_ok index before entries set place hstores
      hentry hw) w' hw'
  refine ⟨after, ?_, hlast⟩
  exact bind_ok (ensure_ok (decide_eq_true (congrArg List.length hdedup)))
    (bind_ok hpark hafter)

end Entries

end StompyMux.Persistence
