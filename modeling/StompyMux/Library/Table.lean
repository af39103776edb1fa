import Mathlib.Data.List.Nodup
import StompyMux.Library.Fallible

-- Keyed tables of a database. No statement may put two rows at one key.
namespace StompyMux.Library

open Fallible

structure Table (K V : Type) where
  rows : List (K × V)
  unique : (rows.map Prod.fst).Nodup

namespace Table

variable {K V : Type} [DecidableEq K] (t : Table K V)

def empty : Table K V := ⟨[], List.nodup_nil⟩

def keys : List K := t.rows.map Prod.fst

def get? (k : K) : Option V := (t.rows.find? (fun row => row.1 = k)).map Prod.snd

variable (k : K) (v : V)

theorem get?_eq_some_iff : t.get? k = some v ↔ (k, v) ∈ t.rows := by
  unfold get?
  refine ⟨fun h => ?_, fun h => ?_⟩
  · obtain ⟨⟨j, w⟩, hfind, rfl⟩ := Option.map_eq_some_iff.mp h
    have hkey : j = k := by simpa using List.find?_some hfind
    exact hkey ▸ List.mem_of_find?_eq_some hfind
  · cases hfind : t.rows.find? (fun row => row.1 = k) with
    | none =>
        have habsent := List.find?_eq_none.mp hfind (k, v) h
        simp at habsent
    | some row =>
        have hkey : row.1 = k := by simpa using List.find?_some hfind
        have hrow := List.inj_on_of_nodup_map t.unique (List.mem_of_find?_eq_some hfind) h hkey
        rw [Option.map_some, hrow]

theorem mem_keys_iff : k ∈ t.keys ↔ ∃ v, t.get? k = some v := by
  refine ⟨fun h => ?_, fun ⟨v, h⟩ => ?_⟩
  · obtain ⟨⟨j, v⟩, hrow, rfl⟩ := List.mem_map.mp h
    exact ⟨v, (t.get?_eq_some_iff j v).mpr hrow⟩
  · exact List.mem_map.mpr ⟨(k, v), (t.get?_eq_some_iff k v).mp h, rfl⟩

theorem get?_eq_none_iff : t.get? k = none ↔ k ∉ t.keys := by
  rw [mem_keys_iff, ← Option.isSome_iff_exists, Bool.not_eq_true, Option.isSome_eq_false_iff,
    Option.isNone_iff_eq_none]

def conflict : Error := ["UNIQUE constraint failed"]

def insert (k : K) (v : V) : Except Error (Table K V) :=
  if h : k ∈ t.keys then .error conflict else .ok ⟨(k, v) :: t.rows, List.nodup_cons.mpr ⟨h, t.unique⟩⟩

theorem insert_ok (h : t.get? k = none) :
    ∃ after, t.insert k v = .ok after ∧ ∀ j, after.get? j = if j = k then some v else t.get? j := by
  refine ⟨_, dif_neg ((t.get?_eq_none_iff k).mp h), fun j => ?_⟩
  unfold get?
  rw [List.find?_cons]
  by_cases hj : j = k
  · rw [if_pos hj, decide_eq_true hj.symm]
    rfl
  · rw [if_neg hj, decide_eq_false (Ne.symm hj)]

def delete (p : K → Bool) : Table K V where
  rows := t.rows.filter (fun row => !p row.1)
  unique := t.unique.sublist (List.filter_sublist.map _)

theorem get?_delete (p : K → Bool) (k : K) :
    (t.delete p).get? k = if p k then none else t.get? k := by
  apply Option.ext
  intro v
  have hmem : (k, v) ∈ (t.delete p).rows ↔ (k, v) ∈ t.rows ∧ (!p k) = true := List.mem_filter
  rw [get?_eq_some_iff, hmem]
  split
  · rename_i hp
    simp [hp]
  · rename_i hp
    rw [get?_eq_some_iff]
    simp [hp]

theorem perm_delete (h : t.get? k = some v) :
    t.rows.Perm ((k, v) :: (t.delete (fun j => j = k)).rows) := by
  have hrows : t.rows.Nodup := t.unique.of_map _
  have hout : (k, v) ∉ (t.delete (fun j => j = k)).rows := by
    intro hin
    have hkept := (List.mem_filter.mp hin).2
    simp at hkept
  refine (List.perm_ext_iff_of_nodup hrows (List.nodup_cons.mpr ⟨hout, hrows.filter _⟩)).mpr ?_
  rintro ⟨j, w⟩
  have hmem : (j, w) ∈ (t.delete (fun j => j = k)).rows ↔ (j, w) ∈ t.rows ∧ (!decide (j = k)) = true :=
    List.mem_filter
  rw [List.mem_cons, hmem]
  by_cases hj : j = k
  · subst hj
    rw [decide_eq_true rfl]
    constructor
    · intro hin
      have hsame := Option.some.inj (h.symm.trans ((t.get?_eq_some_iff j w).mpr hin))
      exact Or.inl (by rw [hsame])
    · rintro (heq | ⟨-, hno⟩)
      · rw [heq]
        exact (t.get?_eq_some_iff j v).mp h
      · contradiction
  · rw [decide_eq_false hj]
    constructor
    · exact fun hin => Or.inr ⟨hin, rfl⟩
    · rintro (heq | ⟨hin, -⟩)
      · exact absurd (Prod.mk.inj heq).1 hj
      · exact hin

-- Set the row at a key.
def put (k : K) (v : V) : Table K V where
  rows := (k, v) :: (t.delete (fun j => j = k)).rows
  unique := by
    refine List.nodup_cons.mpr ⟨fun hin => ?_, (t.delete (fun j => j = k)).unique⟩
    obtain ⟨row, hrow, hkey⟩ := List.mem_map.mp hin
    have hkept := (List.mem_filter.mp hrow).2
    simp [show row.1 = k from hkey] at hkept

theorem rows_put_absent (h : t.get? k = none) : (t.put k v).rows = (k, v) :: t.rows := by
  have hkept : ∀ row ∈ t.rows, (!decide (row.1 = k)) = true := by
    intro row hrow
    have hne : row.1 ≠ k := by
      intro heq
      exact (t.get?_eq_none_iff k).mp h (List.mem_map.mpr ⟨row, hrow, heq⟩)
    simpa using hne
  show (k, v) :: t.rows.filter (fun row => !decide (row.1 = k)) = _
  rw [List.filter_eq_self.mpr hkept]

-- Change the columns of a row outside its key.
def change (k : K) (f : V → V) : Table K V where
  rows := t.rows.map (fun row => if row.1 = k then (row.1, f row.2) else row)
  unique := by
    have hkeys : (t.rows.map (fun row => if row.1 = k then (row.1, f row.2) else row)).map Prod.fst =
        t.rows.map Prod.fst := by
      rw [List.map_map]
      apply List.map_congr_left
      intro row _
      show (if row.1 = k then (row.1, f row.2) else row).1 = row.1
      split <;> rfl
    rw [hkeys]
    exact t.unique

theorem get?_change (f : V → V) (j : K) :
    (t.change k f).get? j = if j = k then (t.get? j).map f else t.get? j := by
  apply Option.ext
  intro v
  have hmem : (j, v) ∈ (t.change k f).rows ↔
      ∃ row ∈ t.rows, (if row.1 = k then (row.1, f row.2) else row) = (j, v) := List.mem_map
  rw [get?_eq_some_iff, hmem]
  by_cases hj : j = k
  · rw [if_pos hj, Option.map_eq_some_iff]
    refine ⟨fun ⟨row, hrow, heq⟩ => ?_, fun ⟨w, hw, hv⟩ => ?_⟩
    · by_cases hk : row.1 = k
      · rw [if_pos hk] at heq
        injection heq with hkey hval
        exact ⟨row.2, (t.get?_eq_some_iff j row.2).mpr (hkey ▸ hrow), hval⟩
      · rw [if_neg hk] at heq
        exact absurd (by rw [heq]; exact hj) hk
    · exact ⟨(j, w), (t.get?_eq_some_iff j w).mp hw, by rw [if_pos hj, hv]⟩
  · rw [if_neg hj, get?_eq_some_iff]
    refine ⟨fun ⟨row, hrow, heq⟩ => ?_, fun hrow => ⟨(j, v), hrow, if_neg hj⟩⟩
    by_cases hk : row.1 = k
    · rw [if_pos hk] at heq
      injection heq with hkey _
      exact absurd (hkey.symm.trans hk) hj
    · rw [if_neg hk] at heq
      exact heq ▸ hrow

-- Move rows to other keys. No row may come to a key that some row had before the statement or that
-- another moved row takes.
def rekey (p : K → Bool) (f : K → K) : Except Error (Table K V) :=
  let moved := t.rows.map (fun row => if p row.1 then (f row.1, row.2) else row)
  if h : (moved.map Prod.fst).Nodup ∧ ∀ k ∈ t.keys, p k → f k ∉ t.keys then .ok ⟨moved, h.1⟩
  else .error conflict

-- The row that a key has after the move.
structure Rekeyed (p : K → Bool) (f : K → K) (t after : Table K V) : Prop where
  moved : ∀ k, p k → after.get? (f k) = t.get? k
  left : ∀ j, p j → (∀ k, p k → f k ≠ j) → after.get? j = none
  kept : ∀ j, p j = false → (∀ k, p k → f k ≠ j) → after.get? j = t.get? j

theorem rekey_ok (p : K → Bool) (f : K → K) (hinj : ∀ j k, p j → p k → f j = f k → j = k)
    (hfree : ∀ k, p k → t.get? (f k) = none) :
    ∃ after, t.rekey p f = .ok after ∧ Rekeyed p f t after := by
  have hnew : ∀ k, p k → f k ∉ t.keys := fun k hk => (t.get?_eq_none_iff _).mp (hfree k hk)
  have hkeys : (t.rows.map (fun row => if p row.1 then (f row.1, row.2) else row)).map Prod.fst =
      t.keys.map (fun k => if p k then f k else k) := by
    rw [keys, List.map_map, List.map_map]
    apply List.map_congr_left
    intro row _
    show (if p row.1 then (f row.1, row.2) else row).1 = if p row.1 then f row.1 else row.1
    split <;> rfl
  have hnodup : (t.keys.map (fun k => if p k then f k else k)).Nodup := by
    refine List.Nodup.map_on (fun j hj k hk heq => ?_) t.unique
    by_cases hpj : p j
    · by_cases hpk : p k
      · rw [if_pos hpj, if_pos hpk] at heq
        exact hinj j k hpj hpk heq
      · rw [if_pos hpj, if_neg hpk] at heq
        exact absurd (heq ▸ hk) (hnew j hpj)
    · by_cases hpk : p k
      · rw [if_neg hpj, if_pos hpk] at heq
        exact absurd (heq ▸ hj) (hnew k hpk)
      · rwa [if_neg hpj, if_neg hpk] at heq
  refine ⟨_, dif_pos ⟨hkeys ▸ hnodup, fun k _ hk => hnew k hk⟩, ?_⟩
  have hmem : ∀ j v, (j, v) ∈ t.rows.map (fun row => if p row.1 then (f row.1, row.2) else row) ↔
      (p j = false ∧ t.get? j = some v) ∨ ∃ k, p k ∧ f k = j ∧ t.get? k = some v := by
    intro j v
    rw [List.mem_map]
    refine ⟨fun ⟨row, hrow, heq⟩ => ?_, ?_⟩
    · by_cases hp : p row.1
      · rw [if_pos hp] at heq
        injection heq with hkey hval
        exact Or.inr ⟨row.1, hp, hkey, (t.get?_eq_some_iff _ _).mpr (hval ▸ hrow)⟩
      · rw [if_neg hp] at heq
        subst heq
        exact Or.inl ⟨Bool.not_eq_true _ ▸ hp, (t.get?_eq_some_iff _ _).mpr hrow⟩
    · rintro (⟨hp, hget⟩ | ⟨k, hp, rfl, hget⟩)
      · exact ⟨(j, v), (t.get?_eq_some_iff j v).mp hget, by rw [hp]; rfl⟩
      · exact ⟨(k, v), (t.get?_eq_some_iff k v).mp hget, if_pos hp⟩
  refine ⟨fun k hk => ?_, fun j hj hout => ?_, fun j hj hout => ?_⟩
  · apply Option.ext
    intro v
    rw [get?_eq_some_iff, hmem]
    refine ⟨?_, fun h => Or.inr ⟨k, hk, rfl, h⟩⟩
    rintro (⟨-, hget⟩ | ⟨j, hj, heq, hget⟩)
    · rw [hfree k hk] at hget
      contradiction
    · exact hinj j k hj hk heq ▸ hget
  · apply Option.ext
    intro v
    rw [get?_eq_some_iff, hmem]
    refine ⟨?_, fun h => by contradiction⟩
    rintro (⟨hp, -⟩ | ⟨k, hk, heq, -⟩)
    · rw [hj] at hp
      contradiction
    · exact absurd heq (hout k hk)
  · apply Option.ext
    intro v
    rw [get?_eq_some_iff, hmem]
    refine ⟨?_, fun h => Or.inl ⟨hj, h⟩⟩
    rintro (⟨-, hget⟩ | ⟨k, hk, heq, -⟩)
    · exact hget
    · exact absurd heq (hout k hk)

theorem rekey_row (a : K) {b : K} (hb : t.get? b = none) :
    ∃ after, t.rekey (fun k => k = a) (fun _ => b) = .ok after ∧
      ∀ k, after.get? k = if k = b then t.get? a else if k = a then none else t.get? k := by
  obtain ⟨after, hafter, h⟩ := t.rekey_ok (fun k => k = a) (fun _ => b)
    (fun j k hj hk _ => (of_decide_eq_true hj).trans (of_decide_eq_true hk).symm) (fun _ _ => hb)
  refine ⟨after, hafter, fun k => ?_⟩
  by_cases hkb : k = b
  · rw [if_pos hkb, hkb]
    exact h.moved a (decide_eq_true rfl)
  · have hout : ∀ j, decide (j = a) = true → b ≠ k := fun _ _ => Ne.symm hkb
    rw [if_neg hkb]
    by_cases hka : k = a
    · rw [if_pos hka]
      exact h.left k (decide_eq_true hka) hout
    · rw [if_neg hka]
      exact h.kept k (decide_eq_false hka) hout

theorem rekey_group {A B : Type} [DecidableEq A] [DecidableEq B] (t : Table (A × B) V) (a b : A)
    (hb : ∀ p, t.get? (b, p) = none) :
    ∃ after, t.rekey (fun key => key.1 = a) (fun key => (b, key.2)) = .ok after ∧
      ∀ k p, after.get? (k, p) =
        if k = b then t.get? (a, p) else if k = a then none else t.get? (k, p) := by
  obtain ⟨after, hafter, h⟩ := t.rekey_ok (fun key => key.1 = a) (fun key => (b, key.2))
    (fun j k hj hk heq => Prod.ext ((of_decide_eq_true hj).trans (of_decide_eq_true hk).symm)
      (Prod.mk.inj heq).2) (fun key _ => hb key.2)
  refine ⟨after, hafter, fun k p => ?_⟩
  by_cases hkb : k = b
  · rw [if_pos hkb, hkb]
    exact h.moved (a, p) (decide_eq_true rfl)
  · have hout : ∀ key : A × B, decide (key.1 = a) = true → (b, key.2) ≠ (k, p) :=
      fun _ _ heq => hkb (Prod.mk.inj heq).1.symm
    rw [if_neg hkb]
    by_cases hka : k = a
    · rw [if_pos hka]
      exact h.left (k, p) (decide_eq_true hka) hout
    · rw [if_neg hka]
      exact h.kept (k, p) (decide_eq_false hka) hout

end Table

end StompyMux.Library
