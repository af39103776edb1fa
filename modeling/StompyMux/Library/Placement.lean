import Mathlib.Data.List.Dedup
import Mathlib.Data.List.Nodup
import Mathlib.Logic.Function.Basic

-- Numbered items that move between numbered places, one item at a place. Items that change places
-- among themselves are first parked at negative numbers.
namespace StompyMux.Library.Placement

variable {X : Type}

-- Where the items are: every item at its place, nothing anywhere else.
structure Placed (empty : X) (place : Int → X) (loc : Nat → Option Int) (content : Nat → X) : Prop where
  apart : ∀ i j k, loc i = some k → loc j = some k → i = j
  there : ∀ i k, loc i = some k → place k = content i
  elsewhere : ∀ k, (∀ i, loc i ≠ some k) → place k = empty

namespace Placed

variable (empty : X) (place after : Int → X) (loc : Nat → Option Int) (content : Nat → X)
  (h : Placed empty place loc content)

include h

theorem move (i : Nat) (a b : Int) (ha : loc i = some a) (hb : ∀ j, loc j ≠ some b)
    (hafter : ∀ k, after k = if k = b then place a else if k = a then empty else place k) :
    Placed empty after (Function.update loc i (some b)) content := by
  refine ⟨fun j l k hj hl => ?_, fun j k hj => ?_, fun k hk => ?_⟩
  · rw [Function.update_apply] at hj hl
    by_cases hji : j = i
    · rw [if_pos hji] at hj
      by_cases hli : l = i
      · rw [hji, hli]
      · rw [if_neg hli, ← hj] at hl
        exact absurd hl (hb l)
    · rw [if_neg hji] at hj
      by_cases hli : l = i
      · rw [if_pos hli] at hl
        rw [← hl] at hj
        exact absurd hj (hb j)
      · rw [if_neg hli] at hl
        exact h.apart j l k hj hl
  · rw [Function.update_apply] at hj
    rw [hafter]
    by_cases hji : j = i
    · rw [if_pos hji, Option.some_inj] at hj
      rw [if_pos hj.symm, hji]
      exact h.there i a ha
    · rw [if_neg hji] at hj
      have hkb : k ≠ b := fun heq => hb j (heq ▸ hj)
      have hka : k ≠ a := fun heq => hji (h.apart j i k hj (heq ▸ ha))
      rw [if_neg hkb, if_neg hka]
      exact h.there j k hj
  · have hkb : k ≠ b := fun heq => hk i (by rw [Function.update_self, heq])
    rw [hafter, if_neg hkb]
    split
    · rfl
    · rename_i hka
      refine h.elsewhere k fun j hj => hk j ?_
      have hji : j ≠ i := by
        rintro rfl
        exact hka (Option.some.inj (hj.symm.trans ha))
      rw [Function.update_of_ne hji, hj]

theorem put (i : Nat) (b : Int) (x : X) (hb : ∀ j, j ≠ i → loc j ≠ some b)
    (hi : loc i = none ∨ loc i = some b) (hafter : ∀ k, after k = if k = b then x else place k) :
    Placed empty after (Function.update loc i (some b)) (Function.update content i x) := by
  refine ⟨fun j l k hj hl => ?_, fun j k hj => ?_, fun k hk => ?_⟩
  · rw [Function.update_apply] at hj hl
    by_cases hji : j = i
    · rw [if_pos hji] at hj
      by_cases hli : l = i
      · rw [hji, hli]
      · rw [if_neg hli, ← hj] at hl
        exact absurd hl (hb l hli)
    · rw [if_neg hji] at hj
      by_cases hli : l = i
      · rw [if_pos hli] at hl
        rw [← hl] at hj
        exact absurd hj (hb j hji)
      · rw [if_neg hli] at hl
        exact h.apart j l k hj hl
  · rw [Function.update_apply] at hj
    rw [hafter, Function.update_apply]
    by_cases hji : j = i
    · rw [if_pos hji, Option.some_inj] at hj
      rw [if_pos hj.symm, if_pos hji]
    · rw [if_neg hji] at hj
      have hkb : k ≠ b := fun heq => hb j hji (heq ▸ hj)
      rw [if_neg hkb, if_neg hji]
      exact h.there j k hj
  · have hkb : k ≠ b := fun heq => hk i (by rw [Function.update_self, heq])
    rw [hafter, if_neg hkb]
    refine h.elsewhere k fun j hj => ?_
    by_cases hji : j = i
    · subst hji
      rcases hi with hnone | hsome
      · rw [hnone] at hj
        contradiction
      · exact hkb (Option.some.inj (hj.symm.trans hsome))
    · exact hk j (by rw [Function.update_of_ne hji, hj])

end Placed

-- The place that an item was taken from, if it has one: new items have a negative number.
def origin (origins : List Int) (i : Nat) : Option Int := origins[i]?.filter (0 ≤ ·)

def stored (origins : List Int) : List Int := origins.filter (0 ≤ ·)

def parked (origins : List Int) (j i : Nat) : Option Int :=
  (origin origins i).map (fun (o : Int) => if i < j ∧ o ≠ i then -o - 1 else o)

-- All items parked, then the first `j` put where they belong.
def placed (origins : List Int) (j i : Nat) : Option Int :=
  if i < j ∧ i < origins.length then some i else parked origins origins.length i

variable (origins : List Int)

variable (empty : X) (place : Int → X) (content : Nat → X) (j : Nat) (o : Int) (i : Nat)

theorem origin_eq_some (o : Int) : origin origins i = some o ↔ origins[i]? = some o ∧ 0 ≤ o := by
  unfold origin
  rw [Option.filter_eq_some_iff, decide_eq_true_eq]

theorem mem_stored_iff : o ∈ stored origins ↔ ∃ i, origin origins i = some o := by
  unfold stored
  rw [List.mem_filter, List.mem_iff_getElem?, decide_eq_true_eq]
  simp only [origin_eq_some, exists_and_right]

theorem parked_zero : parked origins 0 = origin origins := by
  funext i
  unfold parked
  cases origin origins i <;> simp

theorem placed_zero : placed origins 0 = parked origins origins.length := by
  funext i
  exact if_neg (by omega)

theorem placed_length :
    placed origins origins.length i = if i < origins.length then some (i : Int) else none := by
  unfold placed
  by_cases h : i < origins.length
  · rw [if_pos ⟨h, h⟩, if_pos h]
  · rw [if_neg (by omega), if_neg h, parked, origin, List.getElem?_eq_none (by omega)]
    rfl

theorem parked_eq_some (j i : Nat) (k : Int) :
    parked origins j i = some k ↔
      ∃ o, origin origins i = some o ∧ k = if i < j ∧ o ≠ i then -o - 1 else o := by
  unfold parked
  rw [Option.map_eq_some_iff]
  simp only [@eq_comm _ k]

-- An item whose turn it is stands where it came from.
theorem parked_self : parked origins j j = origin origins j := by
  unfold parked
  cases origin origins j <;> simp

theorem parked_succ_stay (ho : origins[j]? = some o) (hstay : o < 0 ∨ o = j) :
    parked origins (j + 1) = parked origins j := by
  funext i
  unfold parked
  by_cases hij : i = j
  · subst hij
    cases horigin : origin origins i with
    | none => rfl
    | some p =>
        obtain ⟨hp, hpos⟩ := (origin_eq_some _ _ _).mp horigin
        have hsame : o = p := Option.some.inj (ho.symm.trans hp)
        rw [Option.map_some, Option.map_some, if_neg (by omega), if_neg (by omega)]
  · congr 1
    funext p
    by_cases hlt : i < j ∧ p ≠ i
    · rw [if_pos hlt, if_pos (by omega)]
    · rw [if_neg hlt, if_neg (by omega)]

theorem parked_succ_move (ho : origin origins j = some o) (hmove : o ≠ j) :
    parked origins (j + 1) = Function.update (parked origins j) j (some (-o - 1)) := by
  funext i
  rw [Function.update_apply]
  by_cases hij : i = j
  · rw [if_pos hij, hij, parked, ho, Option.map_some, if_pos (by omega)]
  · rw [if_neg hij]
    unfold parked
    congr 1
    funext p
    by_cases hlt : i < j ∧ p ≠ i
    · rw [if_pos hlt, if_pos (by omega)]
    · rw [if_neg hlt, if_neg (by omega)]

theorem placed_succ (hj : j < origins.length) :
    placed origins (j + 1) = Function.update (placed origins j) j (some (j : Int)) := by
  funext i
  rw [Function.update_apply]
  unfold placed
  by_cases hij : i = j
  · rw [if_pos hij, if_pos (by omega), hij]
  · rw [if_neg hij]
    by_cases hlt : i < j ∧ i < origins.length
    · rw [if_pos hlt, if_pos (by omega)]
    · rw [if_neg hlt, if_neg (by omega)]

section Distinct

variable (hnodup : (stored origins).Nodup)

include hnodup

theorem origin_inj (i j : Nat) (o : Int) (hi : origin origins i = some o)
    (hj : origin origins j = some o) : i = j := by
  induction origins generalizing i j with
  | nil =>
      rw [origin, List.getElem?_nil] at hi
      contradiction
  | cons p origins ih =>
      have hrest : (stored origins).Nodup := hnodup.sublist ((List.sublist_cons_self ..).filter _)
      have hfirst : ∀ n, origin (p :: origins) 0 = some o → origin origins n = some o → False := by
        intro n h0 hn
        obtain ⟨h0, hpos⟩ := (origin_eq_some _ _ _).mp h0
        have hp : p = o := Option.some.inj h0
        have hmem := (mem_stored_iff _ _).mpr ⟨n, hn⟩
        unfold stored at hnodup hmem
        rw [hp, List.filter_cons, if_pos (decide_eq_true hpos), List.nodup_cons] at hnodup
        exact hnodup.1 hmem
      cases i with
      | zero =>
          cases j with
          | zero => rfl
          | succ j => exact (hfirst j hi hj).elim
      | succ i =>
          cases j with
          | zero => exact (hfirst i hj hi).elim
          | succ j => exact congrArg (· + 1) (ih hrest i j hi hj)

-- Nothing is parked yet where an item is about to be parked.
theorem parked_free {j : Nat} {o : Int} (ho : origin origins j = some o) (i : Nat) :
    parked origins j i ≠ some (-o - 1) := by
  intro h
  obtain ⟨p, hp, hk⟩ := (parked_eq_some _ _ _ _).mp h
  have hpos := ((origin_eq_some _ _ _).mp hp).2
  have hopos := ((origin_eq_some _ _ _).mp ho).2
  split at hk
  · rename_i hlt
    have hsame : p = o := by omega
    have := origin_inj origins hnodup i j o (hsame ▸ hp) ho
    omega
  · omega

omit hnodup in
-- The place of an item is free when its turn comes, or the item stands there.
theorem placed_free {j : Nat} {i : Nat} (hij : i ≠ j) : placed origins j i ≠ some (j : Int) := by
  unfold placed
  split
  · rename_i hlt
    intro h
    have := Option.some.inj h
    omega
  · rename_i hlt
    intro h
    obtain ⟨p, hp, hk⟩ := (parked_eq_some _ _ _ _).mp h
    obtain ⟨hget, hpos⟩ := (origin_eq_some _ _ _).mp hp
    obtain ⟨hlen, -⟩ := List.getElem?_eq_some_iff.mp hget
    split at hk
    · omega
    · rename_i hstay
      omega

end Distinct

-- Where an item stands when its turn to be placed comes.
theorem placed_self :
    placed origins j j = (origin origins j).map (fun (o : Int) => if o = j then o else -o - 1) := by
  unfold placed
  rw [if_neg (by omega), parked]
  cases horigin : origin origins j with
  | none => rfl
  | some o =>
      obtain ⟨hget, -⟩ := (origin_eq_some _ _ _).mp horigin
      obtain ⟨hlen, -⟩ := List.getElem?_eq_some_iff.mp hget
      rw [Option.map_some, Option.map_some]
      by_cases h : o = j
      · rw [if_pos h, if_neg (by omega)]
      · rw [if_neg h, if_pos ⟨hlen, h⟩]

-- Where an item stands once it has been brought to its place; new items come later.
def arrived (j : Nat) : Nat → Option Int :=
  Function.update (placed origins j) j ((origin origins j).map (fun _ => (j : Int)))

theorem arrived_stay (hstay : ∀ o, origin origins j = some o → o = j) :
    arrived origins j = placed origins j := by
  have hsame : (origin origins j).map (fun _ => (j : Int)) = placed origins j j := by
    rw [placed_self]
    cases h : origin origins j with
    | none => rfl
    | some o => rw [Option.map_some, Option.map_some, if_pos (hstay o h), hstay o h]
  rw [arrived, hsame, Function.update_eq_self]

theorem placed_self_move (ho : origin origins j = some o) (hmove : o ≠ j) :
    placed origins j j = some (-o - 1) := by
  rw [placed_self, ho, Option.map_some, if_neg hmove]

theorem placed_free_move {j : Nat} {o : Int}
    (ho : origin origins j = some o) (hmove : o ≠ j) (i : Nat) : placed origins j i ≠ some (j : Int) := by
  by_cases hij : i = j
  · have hpos := ((origin_eq_some _ _ _).mp ho).2
    rw [hij, placed_self_move origins j o ho hmove]
    intro h
    have := Option.some.inj h
    omega
  · exact placed_free origins hij

theorem arrived_move (ho : origin origins j = some o) :
    arrived origins j = Function.update (placed origins j) j (some (j : Int)) := by
  rw [arrived, ho, Option.map_some]

-- What stands at its place when its turn comes: the item itself, or nothing if it is new.
theorem place_of_arrived
    {j : Nat} (h : Placed empty place (arrived origins j) content)
    (hnew : origin origins j = none → content j = empty) : place j = content j := by
  cases ho : origin origins j with
  | none =>
      rw [hnew ho]
      refine h.elsewhere j fun i => ?_
      by_cases hij : i = j
      · rw [hij, arrived, Function.update_self, ho, Option.map_none]
        exact fun h => by contradiction
      · rw [arrived, Function.update_of_ne hij]
        exact placed_free origins hij
  | some o =>
      apply h.there j j
      rw [arrived_move origins j o ho, Function.update_self]

theorem placed_written {place : Int → X} (after : Int → X) {content : Nat → X}
    {j : Nat} (hj : j < origins.length) (x : X)
    (h : Placed empty place (arrived origins j) content)
    (hafter : ∀ k, after k = if k = (j : Int) then x else place k) :
    Placed empty after (placed origins (j + 1)) (Function.update content j x) := by
  have hput := h.put empty place after (arrived origins j) content j j x
    (fun i hij => by
      rw [arrived, Function.update_of_ne hij]
      exact placed_free origins hij)
    (by
      rw [arrived, Function.update_self]
      cases origin origins j with
      | none => exact Or.inl rfl
      | some o => exact Or.inr rfl)
    hafter
  rw [arrived, Function.update_idem, ← placed_succ origins j hj] at hput
  exact hput

-- The first `count` places emptied, except for those that are kept.
def emptied (empty : X) (kept : List Int) (count : Nat) (place : Int → X) (k : Int) : X :=
  if 0 ≤ k ∧ k < count ∧ k ∉ kept then empty else place k

section Emptied

variable (empty : X) (kept : List Int) (count : Nat) (place : Int → X)

theorem emptied_zero : emptied empty kept 0 place = place := by
  funext k
  exact if_neg (by omega)

theorem emptied_succ_keep (h : (count : Int) ∈ kept) :
    emptied empty kept (count + 1) place = emptied empty kept count place := by
  funext k
  unfold emptied
  by_cases hk : k = count
  · rw [hk, if_neg (fun hc => hc.2.2 h), if_neg (fun hc => hc.2.2 h)]
  · exact if_congr (and_congr_right fun _ => and_congr_left fun _ => by omega) rfl rfl

theorem emptied_succ_drop (h : (count : Int) ∉ kept) (k : Int) :
    emptied empty kept (count + 1) place k =
      if k = count then empty else emptied empty kept count place k := by
  unfold emptied
  by_cases hk : k = count
  · rw [if_pos hk, hk, if_pos ⟨by omega, by omega, h⟩]
  · rw [if_neg hk]
    exact if_congr (and_congr_right fun _ => and_congr_left fun _ => by omega) rfl rfl

end Emptied

-- The items stand where they came from once the places that nobody keeps are emptied.
theorem placed_origin (count : Nat) (hnodup : (stored origins).Nodup)
    (hout : ∀ k, k < 0 ∨ (count : Int) ≤ k → place k = empty) :
    Placed empty (emptied empty (stored origins) count place) (origin origins) (fun i => (origin origins i).elim empty place) := by
  refine ⟨fun i j k hi hj => origin_inj origins hnodup i j k hi hj, fun i k hi => ?_, fun k hk => ?_⟩
  · have hmem := (mem_stored_iff origins k).mpr ⟨i, hi⟩
    rw [emptied, if_neg (fun h => h.2.2 hmem), hi]
    rfl
  · have hmem : k ∉ stored origins := fun hmem =>
      have ⟨i, hi⟩ := (mem_stored_iff origins k).mp hmem
      hk i hi
    unfold emptied
    split
    · rfl
    · rename_i hkept
      refine hout k ?_
      by_contra hin
      exact hkept ⟨by omega, by omega, hmem⟩

theorem place_of_placed (h : Placed empty place (placed origins origins.length) content) (k : Int) :
    place k = if 0 ≤ k ∧ k.toNat < origins.length then content k.toNat else empty := by
  split
  · rename_i hk
    refine h.there k.toNat k ?_
    rw [placed_length, if_pos hk.2, Option.some_inj]
    omega
  · rename_i hk
    refine h.elsewhere k fun i hi => ?_
    rw [placed_length] at hi
    split at hi
    · have := Option.some.inj hi
      omega
    · contradiction

end StompyMux.Library.Placement
