import StompyMux.Persistence.EntryRows

namespace StompyMux.Persistence

open Library Library.Fallible Library.Placement
open StompyMux.Macros
open StompyMux.World (ObjectId World)

-- A table image of a state: one row for each set, each entry and each player. Rows of other players
-- hold no slots.
structure Image (db : Database) (m : PlayerMacros) : Prop where
  sets : ∀ k, Stores ((setAt m k).map setFields) (db.macroSets.get? k)
  entries : ∀ k p, Stores (((setAt m k).bind (fun set => entryAt set.entries p)).map entryFields)
    (db.group k p)
  players : ∀ who player, m.players.get? who = some player →
    Stores (some (slotFields player)) (db.commacEntries.get? who)
  others : ∀ who row, m.players.get? who = none → db.commacEntries.get? who = some row →
    Holds (slotFields .default) row

-- The entries of the row that a set comes from.
def sourceEntries (old : PlayerMacros) (set : MacroSet) : List MacroEntry :=
  ((setAt old set.origin).map (·.entries)).getD []

-- Rows of the old state are used once, by sets and by the entries of each set.
structure Tracked (old new : PlayerMacros) : Prop where
  nodup : (Placement.stored (setOrigins new)).Nodup
  below : ∀ o ∈ setOrigins new, o < (old.sets.length : Int)
  entriesNodup : ∀ set ∈ new.sets, (Placement.stored (entryOrigins set)).Nodup
  entriesBelow : ∀ set ∈ new.sets, ∀ o ∈ entryOrigins set, o < ((sourceEntries old set).length : Int)

-- The rows of sets and groups of entries, set by set, during the moves.
structure SetsAt (before : Database) (loc : Nat → Option Int) (rows : Nat → Option Row)
    (groups : Nat → Int → Option Row) (w : Writing) : Prop where
  sets : Placed none w.1.macroSets.get? loc rows
  groups : Placed (fun _ => none) w.1.group loc groups
  rest : w.1.rest = before.rest

section Sets

variable (before : Database)

theorem moveSet_ok {loc : Nat → Option Int} {rows : Nat → Option Row} {groups : Nat → Int → Option Row}
    {w : Writing} (h : SetsAt before loc rows groups w) (i : Nat) {a : Int} (b : Int) (ha : loc i = some a)
    (hb : ∀ j, loc j ≠ some b) :
    ∃ db, moveSet a b w.1 = .ok db ∧
      ∀ changed, SetsAt before (Function.update loc i (some b)) rows groups (db, changed) := by
  obtain ⟨sets, hsets, hsetsGet⟩ := w.1.macroSets.rekey_row a (h.sets.elsewhere b hb)
  obtain ⟨entries, hentries, hentriesGet⟩ := w.1.macroEntries.rekey_group a b
    (fun p => congrFun (h.groups.elsewhere b hb) p)
  refine ⟨_, bind_ok hsets (bind_ok hentries rfl), fun changed => ⟨?_, ?_, ?_⟩⟩
  · exact h.sets.move _ _ _ _ _ i a b ha hb hsetsGet
  · refine h.groups.move _ _ _ _ _ i a b ha hb fun k => ?_
    funext p
    refine (hentriesGet k p).trans ?_
    split
    · rfl
    · split
      · rfl
      · rfl
  · exact h.rest

theorem deleteSets_spec (kept : List Int) (count : Nat) (w : Writing) :
    let after := (List.range count).foldl (deleteSet kept) w
    after.1.macroSets.get? = emptied none kept count w.1.macroSets.get? ∧
      after.1.group = emptied (fun _ => none) kept count w.1.group ∧ after.1.rest = w.1.rest := by
  induction count with
  | zero => exact ⟨(emptied_zero ..).symm, (emptied_zero ..).symm, rfl⟩
  | succ count ih =>
      rw [List.range_succ, List.foldl_append, List.foldl_cons, List.foldl_nil]
      generalize (List.range count).foldl (deleteSet kept) w = w' at ih ⊢
      obtain ⟨hsets, hgroups, hrest⟩ := ih
      unfold deleteSet
      by_cases hkept : (count : Int) ∈ kept
      · rw [if_pos hkept, emptied_succ_keep _ kept count _ hkept, emptied_succ_keep _ kept count _ hkept]
        exact ⟨hsets, hgroups, hrest⟩
      · rw [if_neg hkept]
        refine ⟨?_, ?_, hrest⟩
        · funext k
          rw [emptied_succ_drop none kept count _ hkept, ← hsets]
          refine (Table.get?_delete _ _ k).trans ?_
          simp only [decide_eq_true_eq]
        · funext k p
          rw [emptied_succ_drop _ kept count _ hkept, ← hgroups]
          refine (Table.get?_delete _ _ (k, p)).trans ?_
          simp only [decide_eq_true_eq]
          split
          · rfl
          · rfl

theorem parkSet_eq {count : Nat} (w : Writing) {set : MacroSet} (j : Nat)
    (h : set.origin < (count : Int)) :
    parkSet count w (set, j) =
      if set.origin < 0 ∨ set.origin = j then .ok w
      else moveSet set.origin (-set.origin - 1) w.1 >>= fun db => .ok (db, true) := by
  unfold parkSet
  dsimp only
  rw [decide_eq_true h]
  rfl

variable (old new : PlayerMacros) (ht : Tracked old new)

theorem origin_of_set {j : Nat} {set : MacroSet} (hset : new.sets[j]? = some set) :
    origin (setOrigins new) j = if 0 ≤ set.origin then some set.origin else none := by
  rw [origin, setOrigins, List.getElem?_map, hset, Option.map_some, Option.filter_some]
  simp only [decide_eq_true_eq]

include ht

theorem parkSets_ok {rows : Nat → Option Row} {groups : Nat → Int → Option Row} {w : Writing}
    (h : SetsAt before (origin (setOrigins new)) rows groups w) :
    ∃ after, new.sets.zipIdx.foldlM (parkSet old.sets.length) w = .ok after ∧
      SetsAt before (parked (setOrigins new) new.sets.length) rows groups after := by
  apply foldlM_zipIdx_succeeds (fun j => SetsAt before (parked (setOrigins new) j) rows groups)
  · intro j set w hset hw
    have hget : (setOrigins new)[j]? = some set.origin := by
      rw [setOrigins, List.getElem?_map, hset, Option.map_some]
    have hlt := ht.below _ (List.mem_of_getElem? hget)
    rw [parkSet_eq w j hlt]
    by_cases hstay : set.origin < 0 ∨ set.origin = (j : Int)
    · refine ⟨w, if_pos hstay, ?_⟩
      rw [parked_succ_stay _ j _ hget hstay]
      exact hw
    · obtain ⟨hpos, hmove⟩ := not_or.mp hstay
      have horigin : origin (setOrigins new) j = some set.origin :=
        (origin_eq_some _ _ _).mpr ⟨hget, Int.not_lt.mp hpos⟩
      have hfree := parked_free _ ht.nodup horigin
      have hself := (parked_self (setOrigins new) j).trans horigin
      obtain ⟨db, hdb, hw⟩ := moveSet_ok before hw j (-set.origin - 1) hself hfree
      refine ⟨(db, true), (if_neg hstay).trans (bind_ok hdb rfl), ?_⟩
      rw [parked_succ_move _ j _ horigin hmove]
      exact hw true
  · rw [parked_zero]
    exact h

omit ht in
theorem bringSet_ok {rows : Nat → Option Row} {groups : Nat → Int → Option Row} {w : Writing} {j : Nat}
    {set : MacroSet} (hset : new.sets[j]? = some set)
    (h : SetsAt before (placed (setOrigins new) j) rows groups w) :
    ∃ db, bringSet set.origin j w.1 = .ok db ∧
      SetsAt before (arrived (setOrigins new) j) rows groups (db, w.2) := by
  have horigin := origin_of_set new hset
  unfold bringSet
  by_cases hmove : 0 ≤ set.origin ∧ set.origin ≠ (j : Int)
  · rw [if_pos hmove.1] at horigin
    have hfree := placed_free_move _ horigin hmove.2
    have hself := placed_self_move _ j _ horigin hmove.2
    obtain ⟨db, hdb, hw⟩ := moveSet_ok before h j j hself hfree
    refine ⟨db, (if_pos hmove).trans hdb, ?_⟩
    rw [arrived_move _ j _ horigin]
    exact hw w.2
  · refine ⟨w.1, if_neg hmove, ?_⟩
    rw [arrived_stay _ j fun o ho => ?_]
    · exact h
    · rw [horigin] at ho
      split at ho
      · rename_i hpos
        by_contra hne
        exact hmove ⟨hpos, Option.some.inj ho ▸ hne⟩
      · contradiction

end Sets

-- The rows of a set's entries once all of them have been written.
def writtenGroup (set : MacroSet) (place : Int → Option Row) (defaults : Row) (p : Int) : Option Row :=
  if 0 ≤ p ∧ p.toNat < set.entries.length then
    written entryFields set.entries (entryOrigins set) place defaults set.entries.length p.toNat
  else none

def writtenGroups (new : PlayerMacros) (before : Database) (j i : Nat) : Int → Option Row :=
  let source := (origin (setOrigins new) i).elim (fun _ => none) before.group
  if i < j then
    new.sets[i]?.elim source (fun set => writtenGroup set source before.entriesSchema.defaults)
  else source

theorem writtenGroups_zero (new : PlayerMacros) (before : Database) :
    writtenGroups new before 0 =
      fun i => (origin (setOrigins new) i).elim (fun _ => none) before.group := by
  funext i
  unfold writtenGroups
  rw [if_neg (Nat.not_lt_zero i)]

theorem writtenGroups_succ {new : PlayerMacros} (before : Database) {j : Nat} {set : MacroSet}
    (hset : new.sets[j]? = some set) :
    writtenGroups new before (j + 1) = Function.update (writtenGroups new before j) j
      (writtenGroup set ((origin (setOrigins new) j).elim (fun _ => none) before.group)
        before.entriesSchema.defaults) := by
  funext i
  rw [Function.update_apply]
  unfold writtenGroups
  by_cases hij : i = j
  · rw [if_pos hij, if_pos (by omega), hij, hset]
    rfl
  · rw [if_neg hij]
    by_cases hlt : i < j
    · rw [if_pos hlt, if_pos (by omega)]
    · rw [if_neg hlt, if_neg (by omega)]

section Place

variable (before : Database) (old new : PlayerMacros) (ht : Tracked old new) (hi : Image before old)

include hi

-- What the database holds for the row that a set comes from.
theorem stores_set {j : Nat} {set : MacroSet} (hset : new.sets[j]? = some set) :
    Stores ((setAt old set.origin).map setFields)
      ((origin (setOrigins new) j).elim none before.macroSets.get?) := by
  rw [origin_of_set new hset]
  split
  · exact hi.sets set.origin
  · rename_i hneg
    rw [setAt, if_neg hneg]
    trivial

theorem stores_entries {j : Nat} {set : MacroSet} (hset : new.sets[j]? = some set) (p : Int) :
    Stores ((entryAt (sourceEntries old set) p).map entryFields)
      (((origin (setOrigins new) j).elim (fun _ => none) before.group) p) := by
  rw [origin_of_set new hset]
  unfold sourceEntries
  have hnothing : entryAt [] p = none := by
    unfold entryAt
    rw [List.getElem?_nil, ite_self]
  split
  · have h := hi.entries set.origin p
    cases hold : setAt old set.origin with
    | none =>
        rw [hold] at h
        rw [Option.map_none, Option.getD_none, hnothing]
        exact h
    | some previous =>
        rw [hold] at h
        exact h
  · rename_i hneg
    rw [setAt, if_neg hneg, Option.map_none, Option.getD_none, hnothing]
    trivial

omit hi in
-- Nothing stands outside the positions of the entries.
theorem none_of_stores (entries : List MacroEntry) (place : Int → Option Row)
    (hstores : ∀ p, Stores ((entryAt entries p).map entryFields) (place p)) (p : Int)
    (hp : p < 0 ∨ (entries.length : Int) ≤ p) : place p = none := by
  have hnone : entryAt entries p = none := by
    unfold entryAt
    split
    · exact List.getElem?_eq_none (by omega)
    · rfl
  have h := hstores p
  rw [hnone] at h
  cases hplace : place p with
  | none => rfl
  | some row =>
      rw [hplace] at h
      exact h.elim

include ht

theorem placeSet_ok {w : Writing} {j : Nat} {set : MacroSet} (hset : new.sets[j]? = some set)
    (h : SetsAt before (placed (setOrigins new) j)
      (written setFields new.sets (setOrigins new) before.macroSets.get? before.setsSchema.defaults j)
      (writtenGroups new before j) w) :
    ∃ after, placeSet old w (set, j) = .ok after ∧
      SetsAt before (placed (setOrigins new) (j + 1))
        (written setFields new.sets (setOrigins new) before.macroSets.get?
          before.setsSchema.defaults (j + 1))
        (writtenGroups new before (j + 1)) after := by
  obtain ⟨db, hbring, hdb⟩ := bringSet_ok before new hset h
  have hmem := List.mem_of_getElem? hset
  have hlen : j < (setOrigins new).length := by
    rw [setOrigins, List.length_map]
    exact (List.getElem?_eq_some_iff.mp hset).1
  have hdefaults : db.defaults = before.defaults := congrArg (fun rest => rest.2.1) hdb.rest
  -- The row and the group of entries that stand at the set's number now.
  have hcontent : written setFields new.sets (setOrigins new) before.macroSets.get?
      before.setsSchema.defaults j j = (origin (setOrigins new) j).elim none before.macroSets.get? :=
    if_neg (Nat.lt_irrefl j)
  have hthere : db.macroSets.get? (j : Int) =
      (origin (setOrigins new) j).elim none before.macroSets.get? := by
    rw [← hcontent]
    refine place_of_arrived _ none _ _ hdb.sets fun hnone => ?_
    rw [hcontent, hnone]
    rfl
  have hgroupContent : writtenGroups new before j j =
      (origin (setOrigins new) j).elim (fun _ => none) before.group := if_neg (Nat.lt_irrefl j)
  have hgroup : db.group j = (origin (setOrigins new) j).elim (fun _ => none) before.group := by
    rw [← hgroupContent]
    refine place_of_arrived _ (fun _ => none) _ _ hdb.groups fun hnone => ?_
    rw [hgroupContent, hnone]
    rfl
  have hstored := stores_set before old new hi hset
  rw [← hthere] at hstored
  obtain ⟨t, changed, hrow, hget⟩ := row_ok db.setsSchema db.macroSets (j : Int) _ (setFields set)
    (setFields_nodup set) (setsSchema_check db _ set _)
    hstored
  have hstores := stores_entries before old new hi hset
  rw [← hgroup] at hstores
  obtain ⟨after, hafter, hentries⟩ := saveEntries_ok j { db with macroSets := t }
    (sourceEntries old set) set (ht.entriesNodup set hmem) (ht.entriesBelow set hmem)
    (db.group j) hstores ({ db with macroSets := t }, w.2 || changed) rfl rfl
    (none_of_stores _ _ hstores)
  refine ⟨after, ?_, ?_, ?_, ?_⟩
  · exact bind_ok hbring (bind_ok (withContext_ok hrow) hafter)
  · rw [written_succ _ _ _ _ hset, ← hthere, hentries.within.sets]
    refine placed_written _ none _ hlen _ hdb.sets fun k => ?_
    refine (hget k).trans ?_
    rw [Database.setsSchema, hdefaults]
    rfl
  · rw [writtenGroups_succ before hset, ← hgroup]
    refine placed_written _ (fun _ => none) _ hlen _ hdb.groups fun k => ?_
    by_cases hk : k = (j : Int)
    · rw [if_pos hk, hk]
      funext p
      have hlength : (entryOrigins set).length = set.entries.length := by
        rw [entryOrigins, List.length_map]
      have hplaced := hentries.placed
      rw [← hlength] at hplaced
      rw [place_of_placed _ none _ _ hplaced p, writtenGroup, hlength]
      have hsame : (Database.entriesSchema { db with macroSets := t }).defaults =
          before.entriesSchema.defaults := congrFun hdefaults "macro_entries"
      rw [hsame]
    · rw [if_neg hk]
      exact hentries.within.others k hk
  · exact hentries.within.rest.trans hdb.rest

-- The moves of the sets and of their entries, from one image to the next.
theorem saveSets_ok (w : Writing) (hw : w.1 = before) :
    ∃ after, ((new.sets.zipIdx.foldlM (parkSet old.sets.length)
          ((List.range old.sets.length).foldl
            (deleteSet (Placement.stored (setOrigins new)).dedup) w)) >>=
        fun w => new.sets.zipIdx.foldlM (placeSet old) w) = .ok after ∧
      SetsAt before (placed (setOrigins new) new.sets.length)
        (written setFields new.sets (setOrigins new) before.macroSets.get?
          before.setsSchema.defaults new.sets.length)
        (writtenGroups new before new.sets.length) after := by
  have hdedup : (Placement.stored (setOrigins new)).dedup = Placement.stored (setOrigins new) :=
    ht.nodup.dedup
  have hnothing : ∀ k, k < 0 ∨ (old.sets.length : Int) ≤ k → setAt old k = none := by
    intro k hk
    unfold setAt
    split
    · exact List.getElem?_eq_none (by omega)
    · rfl
  have hsetsOut : ∀ k, k < 0 ∨ (old.sets.length : Int) ≤ k → before.macroSets.get? k = none := by
    intro k hk
    have h := hi.sets k
    rw [hnothing k hk] at h
    cases hget : before.macroSets.get? k with
    | none => rfl
    | some row =>
        rw [hget] at h
        exact h.elim
  have hgroupsOut : ∀ k, k < 0 ∨ (old.sets.length : Int) ≤ k → before.group k = fun _ => none := by
    intro k hk
    funext p
    have h := hi.entries k p
    rw [hnothing k hk] at h
    cases hget : before.group k p with
    | none => rfl
    | some row =>
        rw [hget] at h
        exact h.elim
  obtain ⟨hsets, hgroups, hrest⟩ :=
    deleteSets_spec (Placement.stored (setOrigins new)) old.sets.length w
  rw [hw] at hsets hgroups hrest
  have hfirst : SetsAt before (origin (setOrigins new))
      (fun i => (origin (setOrigins new) i).elim none before.macroSets.get?)
      (fun i => (origin (setOrigins new) i).elim (fun _ => none) before.group)
      ((List.range old.sets.length).foldl (deleteSet (Placement.stored (setOrigins new))) w) := by
    refine ⟨?_, ?_, hrest⟩
    · rw [hsets]
      exact placed_origin _ none _ _ ht.nodup hsetsOut
    · rw [hgroups]
      exact placed_origin _ (fun _ => none) _ _ ht.nodup hgroupsOut
  obtain ⟨w', hpark, hw'⟩ := parkSets_ok before old new ht hfirst
  have hplaced : placed (setOrigins new) 0 = parked (setOrigins new) new.sets.length := by
    rw [placed_zero, setOrigins, List.length_map]
  rw [← written_zero setFields new.sets _ _ before.setsSchema.defaults, ← writtenGroups_zero,
    ← hplaced] at hw'
  obtain ⟨after, hafter, hlast⟩ := foldlM_zipIdx_succeeds
    (fun j => SetsAt before (placed (setOrigins new) j)
      (written setFields new.sets (setOrigins new) before.macroSets.get? before.setsSchema.defaults j)
      (writtenGroups new before j))
    (placeSet old) new.sets
    (fun j set w hset hw => placeSet_ok before old new ht hi hset hw) w' hw'
  refine ⟨after, ?_, hlast⟩
  rw [hdedup]
  exact bind_ok hpark hafter

end Place

end StompyMux.Persistence
