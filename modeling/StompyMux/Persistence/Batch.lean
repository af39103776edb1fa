import Mathlib.Data.Int.Order.Basic
import Mathlib.Data.List.Lex
import StompyMux.Library.OrderedMap
import StompyMux.Persistence.Rows

-- Rows of one owner, and rows written one after another.
namespace StompyMux.Persistence

open Library Library.Fallible

section Owned

variable {O K : Type} [DecidableEq O] [DecidableEq K] (t : Table (O × K) Row) (id : O)

-- The rows of one owner, by the rest of their keys.
def rowsOf : List (K × Row) :=
  t.rows.filterMap (fun row => if row.1.1 = id then some (row.1.2, row.2) else none)

theorem mem_rowsOf (k : K) (row : Row) : (k, row) ∈ rowsOf t id ↔ t.get? (id, k) = some row := by
  rw [rowsOf, List.mem_filterMap, t.get?_eq_some_iff]
  constructor
  · rintro ⟨⟨⟨other, j⟩, stored⟩, hmem, hsome⟩
    split at hsome
    · rename_i hid
      injection hsome with hsome
      injection hsome with hkey hrow
      subst hid hkey hrow
      exact hmem
    · contradiction
  · exact fun hmem => ⟨((id, k), row), hmem, if_pos rfl⟩

omit [DecidableEq K] in
theorem keys_rowsOf : ((rowsOf t id).map Prod.fst).Nodup := by
  have hunique : t.rows.Pairwise (fun a b => a.1 ≠ b.1) := List.pairwise_map.mp t.unique
  refine List.pairwise_map.mpr (List.Pairwise.filterMap _ ?_ hunique)
  rintro ⟨⟨one, j⟩, row⟩ ⟨⟨other, k⟩, row'⟩ hne a ha b hb hkey
  split at ha <;> split at hb
  · rename_i hone hother
    injection ha with ha
    injection hb with hb
    subst ha hb
    refine hne ?_
    show (one, j) = (other, k)
    rw [show one = id from hone, show other = id from hother, show j = k from hkey]
  all_goals contradiction

variable {V : Type} [BEq K] [LawfulBEq K]

omit [DecidableEq O] [DecidableEq K] t id in
theorem lookup_eq_some_iff_mem {entries : List (K × V)} (hnodup : (entries.map Prod.fst).Nodup) (k : K)
    (v : V) : entries.lookup k = some v ↔ (k, v) ∈ entries := by
  constructor
  · intro h
    obtain ⟨before, after, rfl, -⟩ := List.lookup_eq_some_iff.mp h
    exact List.mem_append_right _ List.mem_cons_self
  · intro h
    cases hlookup : entries.lookup k with
    | none =>
        have habsent := List.lookup_eq_none_iff.mp hlookup _ h
        simp at habsent
    | some w =>
        obtain ⟨before, after, rfl, -⟩ := List.lookup_eq_some_iff.mp hlookup
        have hsame := List.inj_on_of_nodup_map hnodup h
          (List.mem_append_right before (List.mem_cons_self (a := (k, w)) (l := after))) rfl
        injection hsame with _ hvalue
        rw [hvalue]

theorem readRows_ok (read : K × Row → Except Error (K × V)) (value : K → Row → V)
    (h : ∀ k row, t.get? (id, k) = some row → read (k, row) = .ok (k, value k row)) :
    ∃ entries, (rowsOf t id).mapM read = .ok entries ∧ (entries.map Prod.fst).Nodup ∧
      ∀ k, entries.lookup k = (t.get? (id, k)).map (value k) := by
  have hkeys : ((rowsOf t id).map (fun entry => (entry.1, value entry.1 entry.2))).map Prod.fst =
      (rowsOf t id).map Prod.fst := by
    rw [List.map_map]
    rfl
  refine ⟨(rowsOf t id).map (fun entry => (entry.1, value entry.1 entry.2)), ?_, ?_, fun k => ?_⟩
  · refine mapM_ok _ _ _ fun entry hentry => ?_
    exact h entry.1 entry.2 ((mem_rowsOf t id entry.1 entry.2).mp hentry)
  · rw [hkeys]
    exact keys_rowsOf t id
  · apply Option.ext
    intro v
    rw [lookup_eq_some_iff_mem (hkeys ▸ keys_rowsOf t id), List.mem_map, Option.map_eq_some_iff]
    constructor
    · rintro ⟨⟨j, row⟩, hentry, heq⟩
      injection heq with hj hv
      subst hj hv
      exact ⟨row, (mem_rowsOf t id j row).mp hentry, rfl⟩
    · rintro ⟨row, hrow, rfl⟩
      exact ⟨(k, row), (mem_rowsOf t id k row).mpr hrow, rfl⟩

omit [DecidableEq K] t id [BEq K] [LawfulBEq K] [DecidableEq O] in
theorem mem_keys_concat (done : List (K × V)) (j k : K) (v : V) :
    k ∈ (done ++ [(j, v)]).map Prod.fst ↔ k ∈ done.map Prod.fst ∨ k = j := by
  rw [List.map_append, List.mem_append]
  exact or_congr_right List.mem_singleton

end Owned

section Deleted

variable {K V B : Type} [DecidableEq K] (key : B → K) (gone : List B)

theorem get?_deleteKeys (t : Table K V) (k : K) :
    (gone.foldl (fun t b => t.delete (fun j => j = key b)) t).get? k =
      if k ∈ gone.map key then none else t.get? k := by
  induction gone generalizing t with
  | nil => rfl
  | cons first gone ih =>
      rw [List.foldl_cons, ih, Table.get?_delete]
      by_cases hfirst : k = key first
      · simp [hfirst]
      · have hgone : k ∈ (first :: gone).map key ↔ k ∈ gone.map key := by
          rw [List.map_cons, List.mem_cons, or_iff_right hfirst]
        rw [if_neg (c := decide (k = key first) = true) (by simpa using hfirst)]
        simp only [hgone]

theorem deleteKeys_fst (w : Table K V × Bool) :
    (gone.foldl (fun w b => (w.1.delete (fun j => j = key b), true)) w).1 =
      gone.foldl (fun t b => t.delete (fun j => j = key b)) w.1 := by
  induction gone generalizing w with
  | nil => rfl
  | cons first gone ih => exact ih _

end Deleted

-- Rows written one after another, each at a key of its own, where each image is what was stored
-- before anything was written.
section Batch

variable {K A : Type} [DecidableEq K] (schema : Schema K) (key : A → K) (before : A → Option Fields)
  (after : A → Fields)

-- Whether anything was written is told as well.
def writeRow (w : Table K Row × Bool) (a : A) : Except Error (Table K Row × Bool) := do
  let (t, changed) ← row schema w.1 (key a) (before a) (after a)
  .ok (t, w.2 || changed)

def stored (t : Table K Row) (k : K) : Row := (t.get? k).getD schema.defaults

theorem ok_of_writeRow {w w' : Table K Row × Bool} {a : A}
    (h : writeRow schema key before after w a = .ok w') :
    ∃ changed, row schema w.1 (key a) (before a) (after a) = .ok (w'.1, changed) ∧
      w'.2 = (w.2 || changed) := by
  obtain ⟨⟨t, changed⟩, hrow, h⟩ := ok_of_bind h
  injection h with h
  subst h
  exact ⟨changed, hrow, rfl⟩

variable (w : Table K Row × Bool) (items : List A) (hkeys : (items.map key).Nodup)
  (hnodup : ∀ a ∈ items, ((after a).map Prod.fst).Nodup)
  (hcheck : ∀ a ∈ items, schema.check (key a) (assign (after a) (stored schema w.1 (key a))))
  (himage : ∀ a ∈ items, Stores (before a) (w.1.get? (key a)))

include hkeys hnodup hcheck himage

theorem writeRows_ok : ∃ w', items.foldlM (writeRow schema key before after) w = .ok w' ∧
    (∀ a ∈ items, w'.1.get? (key a) = some (assign (after a) (stored schema w.1 (key a)))) ∧
    ∀ k, k ∉ items.map key → w'.1.get? k = w.1.get? k := by
  refine foldlM_succeeds (fun done w' =>
    (∀ a ∈ done, w'.1.get? (key a) = some (assign (after a) (stored schema w.1 (key a)))) ∧
    ∀ k, k ∉ done.map key → w'.1.get? k = w.1.get? k)
    (writeRow schema key before after) items ?_ w ⟨fun a h => by contradiction, fun k _ => rfl⟩
  rintro done a rest w₁ hitems ⟨hdone, hother⟩
  have hmem : a ∈ items := by
    rw [hitems]
    exact List.mem_append_right _ List.mem_cons_self
  have hnew : key a ∉ done.map key := by
    rw [hitems, List.map_append, List.nodup_append] at hkeys
    exact fun hin => hkeys.2.2 _ hin _ List.mem_cons_self rfl
  have hkey := hother _ hnew
  obtain ⟨t, changed, hrow, hget⟩ := row_ok schema w₁.1 (key a) (before a) (after a)
    (hnodup a hmem) (by rw [hkey]; exact hcheck a hmem) (by rw [hkey]; exact himage a hmem)
  refine ⟨(t, w₁.2 || changed), bind_ok hrow rfl, fun other hmem => ?_, fun k hk => ?_⟩
  · show t.get? _ = _
    rw [hget]
    rcases List.mem_append.mp hmem with hmem | hmem
    · rw [if_neg fun heq => hnew (List.mem_map.mpr ⟨other, hmem, heq⟩)]
      exact hdone other hmem
    · rw [List.mem_singleton.mp hmem, if_pos rfl, hkey]
      rfl
  · show t.get? _ = _
    rw [List.map_append, List.mem_append, not_or] at hk
    rw [hget, if_neg fun heq => hk.2 (List.mem_singleton.mpr heq)]
    exact hother k hk.1

end Batch

end StompyMux.Persistence

-- Tables brought in line with the rows that they should hold.
namespace StompyMux.Persistence

open Library Library.Fallible

-- Rows by the columns of their key after those that the scope fixes.
abbrev Rows := OrderedMap (List Int) Fields

abbrev KeyedTable := Table (List Int) Row

section Sync

variable (schema : Schema (List Int)) (t : KeyedTable) (scope : List Int) (columns : List String)

-- The stored row is the one read before anything was written.
def syncRow (w : KeyedTable × Bool) (desired : List Int × Fields) : Except Error (KeyedTable × Bool) := do
  let key := scope ++ desired.1
  let previous := (t.get? key).map (fun stored => columns.map (fun column => (column, stored column)))
  let (after, changed) ← row schema w.1 key previous desired.2
  .ok (after, w.2 || changed)

-- Update what changed, insert what is new and delete what is not desired, within the scope.
def syncRows (desired : Rows) : Except Error (KeyedTable × Bool) := do
  let w ← desired.entries.foldlM (syncRow schema t scope columns) (t, false)
  let gone := t.keys.filter
    (fun key => scope <+: key ∧ (desired.get? (key.drop scope.length)).isNone)
  .ok (gone.foldl (fun w key => (w.1.delete (fun k => k = key), true)) w)

def synced (desired : Rows) (key : List Int) : Option Row :=
  if scope <+: key then
    (desired.get? (key.drop scope.length)).map
      (fun fields => assign fields ((t.get? key).getD schema.defaults))
  else t.get? key

omit schema t scope columns in
theorem get?_deleteAll (gone : List (List Int)) (w : KeyedTable × Bool) (key : List Int) :
    (gone.foldl (fun w key => (w.1.delete (fun k => k = key), true)) w).1.get? key =
      if key ∈ gone then none else w.1.get? key := by
  induction gone generalizing w with
  | nil => exact (if_neg (List.not_mem_nil)).symm
  | cons first gone ih =>
      rw [List.foldl_cons, ih, Table.get?_delete]
      by_cases hfirst : key = first
      · simp [hfirst]
      · simp [hfirst]

variable (desired : Rows)
  (hnodup : ∀ entry ∈ desired.entries, (entry.2.map Prod.fst).Nodup)
  (hcheck : ∀ entry ∈ desired.entries, schema.check (scope ++ entry.1)
    (assign entry.2 ((t.get? (scope ++ entry.1)).getD schema.defaults)))

include hnodup hcheck

-- By induction on the rows wanted. Their keys differ, so a later one leaves the earlier as written.
theorem syncEntries_ok :
    ∃ w, desired.entries.foldlM (syncRow schema t scope columns) (t, false) = .ok w ∧
      (∀ entry ∈ desired.entries, w.1.get? (scope ++ entry.1) =
        some (assign entry.2 ((t.get? (scope ++ entry.1)).getD schema.defaults))) ∧
      ∀ key, (∀ entry ∈ desired.entries, key ≠ scope ++ entry.1) → w.1.get? key = t.get? key := by
  refine foldlM_succeeds (fun done w =>
    (∀ entry ∈ done, w.1.get? (scope ++ entry.1) =
      some (assign entry.2 ((t.get? (scope ++ entry.1)).getD schema.defaults))) ∧
    ∀ key, (∀ entry ∈ done, key ≠ scope ++ entry.1) → w.1.get? key = t.get? key)
    (syncRow schema t scope columns) desired.entries ?_ (t, false)
    ⟨fun entry h => by contradiction, fun key _ => rfl⟩
  rintro done entry rest w hitems ⟨hdone, hother⟩
  have hmem : entry ∈ desired.entries := by
    rw [hitems]
    exact List.mem_append_right _ List.mem_cons_self
  -- No earlier row has this key.
  have hnew : ∀ other ∈ done, scope ++ entry.1 ≠ scope ++ other.1 := by
    intro other hother heq
    have hsame : entry.1 = other.1 := List.append_cancel_left heq
    have hsorted := desired.sorted
    rw [hitems, List.pairwise_append] at hsorted
    exact absurd hsame (ne_of_gt (hsorted.2.2 other hother entry List.mem_cons_self))
  have hkey := hother _ hnew
  have hstored : Stores ((t.get? (scope ++ entry.1)).map
      (fun stored => columns.map (fun column => (column, stored column))))
      (w.1.get? (scope ++ entry.1)) := by
    rw [hkey]
    cases t.get? (scope ++ entry.1) with
    | none => trivial
    | some stored =>
        refine holds_of_read _ stored fun field hfield => ?_
        obtain ⟨column, -, rfl⟩ := List.mem_map.mp hfield
        rfl
  obtain ⟨after, changed, hrow, hget⟩ := row_ok schema w.1 (scope ++ entry.1) _ entry.2
    (hnodup entry hmem) (hkey.symm ▸ hcheck entry hmem) hstored
  refine ⟨(after, w.2 || changed), bind_ok hrow rfl, fun other hmem => ?_,
    fun key hout => ?_⟩
  · show after.get? _ = _
    rw [hget]
    rcases List.mem_append.mp hmem with hmem | hmem
    · rw [if_neg (hnew other hmem).symm]
      exact hdone other hmem
    · rw [List.mem_singleton.mp hmem, if_pos rfl, hkey]
  · show after.get? _ = _
    rw [hget, if_neg (hout entry (by simp))]
    exact hother key fun other hmem => hout other (List.mem_append_left _ hmem)

-- The wanted rows are written, then those no longer wanted go.
theorem syncRows_ok :
    ∃ w, syncRows schema t scope columns desired = .ok w ∧
      ∀ key, w.1.get? key = synced schema t scope desired key := by
  obtain ⟨w, hw, hwritten, hother⟩ := syncEntries_ok schema t scope columns desired hnodup hcheck
  refine ⟨_, bind_ok hw rfl, fun key => ?_⟩
  rw [get?_deleteAll]
  unfold synced
  by_cases hscope : scope <+: key
  · rw [if_pos hscope]
    obtain ⟨rest, rfl⟩ := hscope
    rw [List.drop_left]
    cases hget : desired.get? rest with
    | some fields =>
        have hentry := (desired.get?_eq_some_iff rest fields).mp hget
        rw [if_neg (by simp [hget]), hwritten (rest, fields) hentry]
        rfl
    | none =>
        have hout : ∀ entry ∈ desired.entries, scope ++ rest ≠ scope ++ entry.1 := by
          intro entry hentry heq
          have hsame : rest = entry.1 := List.append_cancel_left heq
          exact (desired.get?_eq_none_iff rest).mp hget (List.mem_map.mpr ⟨entry, hentry, hsame.symm⟩)
        rw [hother _ hout, Option.map_none]
        by_cases hkey : scope ++ rest ∈ t.keys
        · rw [if_pos (by simp [hget, hkey])]
        · rw [(t.get?_eq_none_iff _).mpr hkey, ite_self]
  · rw [if_neg hscope, if_neg (by simp [hscope])]
    refine hother key fun entry _ heq => hscope ?_
    exact ⟨entry.1, heq.symm⟩

end Sync

end StompyMux.Persistence
