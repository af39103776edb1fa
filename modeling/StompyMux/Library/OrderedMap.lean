import Mathlib.Algebra.Order.Ring.Nat
import Mathlib.Data.List.Nodup
import Mathlib.Data.List.Pairwise
import Mathlib.Data.List.Perm.Basic
import Mathlib.Order.Basic

-- Maps kept in the order of their keys, each key once.
namespace StompyMux.Library

structure OrderedMap (K V : Type) [LinearOrder K] where
  entries : List (K × V)
  sorted : entries.Pairwise (fun a b => a.1 < b.1)

namespace OrderedMap

variable {K V : Type} [LinearOrder K] (m : OrderedMap K V)

instance [DecidableEq V] : DecidableEq (OrderedMap K V) := fun m n =>
  decidable_of_iff (m.entries = n.entries) ⟨fun h => by cases m; cases n; congr, fun h => by rw [h]⟩

def empty : OrderedMap K V := ⟨[], List.Pairwise.nil⟩

def get? (k : K) : Option V := (m.entries.find? (fun entry => entry.1 = k)).map Prod.snd

def values : List V := m.entries.map Prod.snd

def keys : List K := m.entries.map Prod.fst

@[ext] theorem ext (n : OrderedMap K V) (h : m.entries = n.entries) : m = n := by
  cases m
  cases n
  congr

theorem keys_nodup : m.keys.Nodup := by
  have hsorted : m.keys.Pairwise (· < ·) := List.pairwise_map.mpr m.sorted
  exact hsorted.imp (fun hlt => ne_of_lt hlt)

theorem fresh_of_entries {done : List (K × V)} {k : K} {v : V} {rest : List (K × V)}
    (h : m.entries = done ++ (k, v) :: rest) : k ∉ done.map Prod.fst := by
  have hnodup := m.keys_nodup
  unfold keys at hnodup
  rw [h, List.map_append, List.nodup_append] at hnodup
  exact fun hk => hnodup.2.2 k hk k List.mem_cons_self rfl

variable (k : K) (f : V → V) (v : V) (entries : List (K × V)) (entry : K × V)

theorem entry_unique {v w : V} (hv : (k, v) ∈ m.entries) (hw : (k, w) ∈ m.entries) :
    v = w := congrArg Prod.snd (List.inj_on_of_nodup_map m.keys_nodup hv hw rfl)

theorem get?_eq_some_iff : m.get? k = some v ↔ (k, v) ∈ m.entries := by
  unfold get?
  constructor
  · intro h
    obtain ⟨⟨j, w⟩, hfind, rfl⟩ := Option.map_eq_some_iff.mp h
    have hkey : j = k := by simpa using List.find?_some hfind
    rw [← hkey]
    exact List.mem_of_find?_eq_some hfind
  · intro h
    cases hfind : m.entries.find? (fun entry => entry.1 = k) with
    | none =>
        have habsent := List.find?_eq_none.mp hfind (k, v) h
        simp at habsent
    | some entry =>
        obtain ⟨j, w⟩ := entry
        have hkey : j = k := by simpa using List.find?_some hfind
        subst hkey
        rw [Option.map_some, m.entry_unique j (List.mem_of_find?_eq_some hfind) h]

theorem get?_eq_none_iff : m.get? k = none ↔ k ∉ m.keys := by
  unfold get? keys
  rw [Option.map_eq_none_iff, List.find?_eq_none]
  constructor
  · intro h hmem
    obtain ⟨entry, hentry, hkey⟩ := List.mem_map.mp hmem
    exact h entry hentry (by simpa using hkey)
  · intro h entry hentry hkey
    exact h (List.mem_map.mpr ⟨entry, hentry, by simpa using hkey⟩)

def retain (p : K → V → Bool) : OrderedMap K V where
  entries := m.entries.filter (fun entry => p entry.1 entry.2)
  sorted := m.sorted.filter _

def remove (k : K) : OrderedMap K V := m.retain (fun j _ => j ≠ k)

theorem mem_retain (p : K → V → Bool) (entry : K × V) :
    entry ∈ (m.retain p).entries ↔ entry ∈ m.entries ∧ p entry.1 entry.2 := List.mem_filter

theorem get?_retain (p : K → V → Bool) (k : K) : (m.retain p).get? k = (m.get? k).filter (p k) := by
  apply Option.ext
  intro v
  rw [get?_eq_some_iff, mem_retain, Option.filter_eq_some_iff, get?_eq_some_iff]

theorem mem_remove : entry ∈ (m.remove k).entries ↔ entry ∈ m.entries ∧ entry.1 ≠ k := by
  unfold remove
  rw [mem_retain, decide_eq_true_eq]

-- Change the value of one key.
def modify (k : K) (f : V → V) : OrderedMap K V where
  entries := m.entries.map (fun entry => if entry.1 = k then (entry.1, f entry.2) else entry)
  sorted := by
    rw [List.pairwise_map]
    refine m.sorted.imp (fun {a b} hlt => ?_)
    have hkey : ∀ c : K × V, (if c.1 = k then (c.1, f c.2) else c).1 = c.1 := by
      intro c
      split <;> rfl
    rwa [hkey, hkey]

theorem mem_modify (j : K) (v : V) : (j, v) ∈ (m.modify k f).entries ↔
      (j ≠ k ∧ (j, v) ∈ m.entries) ∨ (j = k ∧ ∃ w, (k, w) ∈ m.entries ∧ v = f w) := by
  unfold modify
  rw [List.mem_map]
  constructor
  · rintro ⟨⟨i, w⟩, hmem, hentry⟩
    by_cases hi : i = k
    · rw [if_pos hi] at hentry
      injection hentry with hj hv
      exact Or.inr ⟨hj ▸ hi, w, hi ▸ hmem, hv.symm⟩
    · rw [if_neg hi] at hentry
      injection hentry with hj hv
      exact Or.inl ⟨hj ▸ hi, by rwa [← hj, ← hv]⟩
  · rintro (⟨hj, hmem⟩ | ⟨rfl, w, hmem, rfl⟩)
    · exact ⟨(j, v), hmem, if_neg hj⟩
    · exact ⟨(j, w), hmem, if_pos rfl⟩

theorem get?_modify (j : K) :
    (m.modify k f).get? j = if j = k then (m.get? k).map f else m.get? j := by
  ext v
  rw [get?_eq_some_iff, mem_modify]
  by_cases hj : j = k
  · rw [if_pos hj, Option.map_eq_some_iff]
    simp only [hj, ne_eq, not_true_eq_false, false_and, true_and, false_or, get?_eq_some_iff,
      @eq_comm _ v]
  · rw [if_neg hj, get?_eq_some_iff]
    simp [hj]

def mapEntries {W : Type} (f : K → V → W) : OrderedMap K W where
  entries := m.entries.map (fun entry => (entry.1, f entry.1 entry.2))
  sorted := List.pairwise_map.mpr m.sorted

theorem mem_mapEntries {W : Type} (f : K → V → W) (j : K) (v : W) :
    (j, v) ∈ (m.mapEntries f).entries ↔ ∃ w, (j, w) ∈ m.entries ∧ v = f j w := by
  unfold mapEntries
  rw [List.mem_map]
  constructor
  · rintro ⟨⟨i, w⟩, hmem, hentry⟩
    injection hentry with hj hv
    subst hj
    exact ⟨w, hmem, hv.symm⟩
  · rintro ⟨w, hmem, rfl⟩
    exact ⟨(j, w), hmem, rfl⟩

theorem get?_mapEntries {W : Type} (f : K → V → W) (j : K) :
    (m.mapEntries f).get? j = (m.get? j).map (f j) := by
  ext v
  rw [get?_eq_some_iff, mem_mapEntries, Option.map_eq_some_iff]
  simp only [get?_eq_some_iff, @eq_comm _ v]

theorem keys_modify : (m.modify k f).keys = m.keys := by
  unfold keys modify
  rw [List.map_map]
  refine List.map_congr_left (fun entry _ => ?_)
  dsimp only [Function.comp]
  split <;> rfl

def insertAt (k : K) (v : V) : List (K × V) → List (K × V)
  | [] => [(k, v)]
  | entry :: rest =>
      if k < entry.1 then (k, v) :: entry :: rest
      else if k = entry.1 then (k, v) :: rest
      else entry :: insertAt k v rest

theorem mem_insertAt_of (h : entry ∈ insertAt k v entries) : entry = (k, v) ∨ entry ∈ entries := by
  induction entries with
  | nil => exact Or.inl (List.mem_singleton.mp h)
  | cons first rest ih =>
      unfold insertAt at h
      split at h
      · exact List.mem_cons.mp h
      · split at h
        · rcases List.mem_cons.mp h with h | h
          · exact Or.inl h
          · exact Or.inr (List.mem_cons_of_mem _ h)
        · rcases List.mem_cons.mp h with h | h
          · exact Or.inr (h ▸ List.mem_cons_self)
          · exact (ih h).imp_right (List.mem_cons_of_mem _)

theorem insertAt_sorted (h : entries.Pairwise (fun a b => a.1 < b.1)) :
    (insertAt k v entries).Pairwise (fun a b => a.1 < b.1) := by
  induction entries with
  | nil => exact List.pairwise_singleton _ _
  | cons first rest ih =>
      obtain ⟨hfirst, hrest⟩ := List.pairwise_cons.mp h
      unfold insertAt
      split
      · rename_i hlt
        refine List.pairwise_cons.mpr ⟨fun entry hentry => ?_, h⟩
        rcases List.mem_cons.mp hentry with rfl | hentry
        · exact hlt
        · exact lt_trans hlt (hfirst entry hentry)
      · rename_i hnotlt
        split
        · rename_i heq
          exact List.pairwise_cons.mpr ⟨fun entry hentry => heq ▸ hfirst entry hentry, hrest⟩
        · rename_i hne
          refine List.pairwise_cons.mpr ⟨fun entry hentry => ?_, ih hrest⟩
          rcases mem_insertAt_of k v rest entry hentry with rfl | hentry
          · exact lt_of_le_of_ne (not_lt.mp hnotlt) (Ne.symm hne)
          · exact hfirst entry hentry

def insert (k : K) (v : V) : OrderedMap K V := ⟨insertAt k v m.entries, insertAt_sorted k v _ m.sorted⟩

theorem insertAt_last (h : ∀ entry ∈ entries, entry.1 < k) :
    insertAt k v entries = entries ++ [(k, v)] := by
  induction entries with
  | nil => rfl
  | cons first rest ih =>
      have hfirst := h first List.mem_cons_self
      rw [insertAt, if_neg (lt_asymm hfirst), if_neg (ne_of_gt hfirst),
        ih (fun entry hentry => h entry (List.mem_cons_of_mem _ hentry)), List.cons_append]

theorem insert_last (h : ∀ entry ∈ m.entries, entry.1 < k) :
    (m.insert k v).entries = m.entries ++ [(k, v)] := insertAt_last k v m.entries h

theorem mem_insertAt (hs : entries.Pairwise (fun a b => a.1 < b.1)) (entry : K × V) :
    entry ∈ insertAt k v entries ↔ entry = (k, v) ∨ entry ∈ entries ∧ entry.1 ≠ k := by
  induction entries with
  | nil => simp [insertAt]
  | cons first rest ih =>
      obtain ⟨hfirst, hrest⟩ := List.pairwise_cons.mp hs
      unfold insertAt
      split
      · rename_i hlt
        have hne : ∀ entry ∈ first :: rest, entry.1 ≠ k := by
          intro entry hentry
          rcases List.mem_cons.mp hentry with rfl | hentry
          · exact ne_of_gt hlt
          · exact ne_of_gt (lt_trans hlt (hfirst entry hentry))
        rw [List.mem_cons]
        exact or_congr_right ⟨fun h => ⟨h, hne entry h⟩, And.left⟩
      · split
        · rename_i heq
          have hne : ∀ entry ∈ rest, entry.1 ≠ k :=
            fun entry hentry => ne_of_gt (heq ▸ hfirst entry hentry)
          rw [List.mem_cons, List.mem_cons]
          constructor
          · rintro (h | h)
            · exact Or.inl h
            · exact Or.inr ⟨Or.inr h, hne entry h⟩
          · rintro (h | ⟨rfl | h, hkey⟩)
            · exact Or.inl h
            · exact absurd heq.symm hkey
            · exact Or.inr h
        · rename_i hne
          rw [List.mem_cons, ih hrest, List.mem_cons]
          constructor
          · rintro (rfl | h | ⟨h, hkey⟩)
            · exact Or.inr ⟨Or.inl rfl, Ne.symm hne⟩
            · exact Or.inl h
            · exact Or.inr ⟨Or.inr h, hkey⟩
          · rintro (h | ⟨rfl | h, hkey⟩)
            · exact Or.inr (Or.inl h)
            · exact Or.inl rfl
            · exact Or.inr (Or.inr ⟨h, hkey⟩)

theorem get?_insert (k j : K) (v : V) :
    (m.insert k v).get? j = if j = k then some v else m.get? j := by
  have hmem := mem_insertAt k v m.entries m.sorted
  apply Option.ext
  intro w
  have hinsert : (j, w) ∈ (m.insert k v).entries ↔ (j, w) = (k, v) ∨ (j, w) ∈ m.entries ∧ j ≠ k :=
    hmem (j, w)
  rw [get?_eq_some_iff, hinsert]
  by_cases hj : j = k
  · rw [if_pos hj, Prod.mk.injEq, Option.some.injEq]
    constructor
    · rintro (⟨-, h⟩ | ⟨-, h⟩)
      · exact h.symm
      · exact absurd hj h
    · exact fun h => Or.inl ⟨hj, h.symm⟩
  · rw [if_neg hj, get?_eq_some_iff, Prod.mk.injEq]
    constructor
    · rintro (⟨h, -⟩ | ⟨h, -⟩)
      · exact absurd h hj
      · exact h
    · exact fun h => Or.inr ⟨h, hj⟩

theorem values_remove (h : m.get? k = some v) : m.values.Perm (v :: (m.remove k).values) := by
  have hentry := (m.get?_eq_some_iff k v).mp h
  have hnodup : m.entries.Nodup := List.Nodup.of_map Prod.fst m.keys_nodup
  have hsame : m.entries.filter (fun entry => !decide (entry.1 ≠ k)) = [(k, v)] := by
    apply List.perm_singleton.mp
    apply (List.perm_ext_iff_of_nodup (hnodup.filter _) (List.nodup_singleton _)).mpr
    rintro ⟨j, w⟩
    rw [List.mem_filter, List.mem_singleton]
    constructor
    · rintro ⟨hmem, hkey⟩
      have hj : j = k := by simpa using hkey
      subst hj
      rw [m.entry_unique j hmem hentry]
    · intro heq
      injection heq with hj hw
      subst hj hw
      exact ⟨hentry, by simp⟩
  have hsplit := List.filter_append_perm (fun entry => decide (entry.1 ≠ k)) m.entries
  rw [hsame] at hsplit
  have hmap := hsplit.map Prod.snd
  rw [List.map_append] at hmap
  exact hmap.symm.trans List.perm_append_comm

theorem remove_absent (h : m.get? k = none) : m.remove k = m := by
  apply ext
  apply List.filter_eq_self.mpr
  intro entry hentry
  have habsent := (m.get?_eq_none_iff k).mp h
  apply decide_eq_true
  intro hkey
  exact habsent (List.mem_map.mpr ⟨entry, hentry, hkey⟩)

theorem get?_remove (k j : K) : (m.remove k).get? j = if j = k then none else m.get? j := by
  apply Option.ext
  intro v
  rw [get?_eq_some_iff, mem_remove]
  by_cases h : j = k
  · rw [if_pos h]
    simp [h]
  · rw [if_neg h, get?_eq_some_iff]
    simp [h]

theorem eq_of_get? (n : OrderedMap K V) (h : ∀ k, m.get? k = n.get? k) : m = n := by
  apply ext
  have hsame : ∀ entry, entry ∈ m.entries ↔ entry ∈ n.entries := by
    rintro ⟨j, w⟩
    rw [← get?_eq_some_iff, ← get?_eq_some_iff, h]
  have hleft : m.entries.Nodup := List.Nodup.of_map Prod.fst m.keys_nodup
  have hright : n.entries.Nodup := List.Nodup.of_map Prod.fst n.keys_nodup
  have hperm := (List.perm_ext_iff_of_nodup hleft hright).mpr hsame
  exact hperm.eq_of_pairwise (fun a b _ _ hab hba => absurd hab (lt_asymm hba)) m.sorted n.sorted

theorem remove_insert : (m.insert k v).remove k = m.remove k := by
  refine eq_of_get? _ _ fun j => ?_
  rw [get?_remove, get?_remove, get?_insert]
  by_cases h : j = k
  · rw [if_pos h, if_pos h]
  · rw [if_neg h, if_neg h, if_neg h]

theorem mem_keys_iff : k ∈ m.keys ↔ (m.get? k).isSome := by
  rw [Option.isSome_iff_ne_none, Ne, get?_eq_none_iff, not_not]

theorem mem_keys_insert (k j : K) (v : V) : j ∈ (m.insert k v).keys ↔ j = k ∨ j ∈ m.keys := by
  rw [mem_keys_iff, mem_keys_iff, get?_insert]
  split
  · rename_i h
    simp [h]
  · rename_i h
    simp [h]

-- A map from entries; the last one of a key stays.
def ofList (items : List (K × V)) : OrderedMap K V :=
  items.foldl (fun m entry => m.insert entry.1 entry.2) empty

theorem get?_insertAll {items : List (K × V)} (hnodup : (items.map Prod.fst).Nodup) (k : K) (v : V) :
    (items.foldl (fun m entry => m.insert entry.1 entry.2) m).get? k = some v ↔
      (k, v) ∈ items ∨ k ∉ items.map Prod.fst ∧ m.get? k = some v := by
  induction items generalizing m with
  | nil => simp
  | cons entry items ih =>
      obtain ⟨j, w⟩ := entry
      rw [List.map_cons, List.nodup_cons] at hnodup
      rw [List.foldl_cons, ih _ hnodup.2, get?_insert]
      by_cases hk : k = j
      · subst hk
        have hnone : (k, v) ∉ items := fun hmem => hnodup.1 (List.mem_map.mpr ⟨_, hmem, rfl⟩)
        simp [hnodup.1, hnone, eq_comm]
      · simp [hk]

theorem get?_ofList {items : List (K × V)} (hnodup : (items.map Prod.fst).Nodup) (k : K) (v : V) :
    (ofList items).get? k = some v ↔ (k, v) ∈ items := by
  have hempty : (empty : OrderedMap K V).get? k = none := rfl
  rw [ofList, get?_insertAll empty hnodup, hempty]
  simp

end OrderedMap

end StompyMux.Library

-- Copy-on-write maps: a snapshot and a later version share the entries that were not touched.
namespace StompyMux.Library

-- A shared entry is one allocation, so it is the same in both. Two maps can also be one allocation.
structure Sharing {K V : Type} [LinearOrder K] (before after : OrderedMap K V) where
  whole : Bool
  shares : K → Bool
  same : ∀ k, shares k → before.get? k = after.get? k
  one : whole → before = after

namespace Sharing

variable {K V : Type} [LinearOrder K]

-- Two versions that share nothing.
def none (before after : OrderedMap K V) : Sharing before after where
  whole := false
  shares := fun _ => false
  same := fun _ h => by contradiction
  one := fun h => by contradiction

end Sharing

end StompyMux.Library
