import StompyMux.Library.OrderedMap

-- Values read for several keys, and collected for each of them in the order of reading.
namespace StompyMux.Library

section Grouping

variable {K A B : Type} [DecidableEq K]

def collected (items : List (K × A)) (key : K) : List A :=
  (items.filter (fun item => item.1 = key)).map Prod.snd

-- One group after the other.
def grouped (groups : List (K × List A)) : List (K × A) :=
  groups.flatMap (fun group => group.2.map (fun a => (group.1, a)))

variable (groups : List (K × List A))

omit [DecidableEq K] in
theorem mem_grouped (key : K) (a : A) :
    (key, a) ∈ grouped groups ↔ ∃ items, (key, items) ∈ groups ∧ a ∈ items := by
  unfold grouped
  rw [List.mem_flatMap]
  refine ⟨fun ⟨group, hgroup, hmem⟩ => ?_, fun ⟨items, hgroup, ha⟩ => ?_⟩
  · obtain ⟨b, hb, heq⟩ := List.mem_map.mp hmem
    injection heq with hkey hitem
    subst hkey hitem
    exact ⟨group.2, hgroup, hb⟩
  · exact ⟨(key, items), hgroup, List.mem_map.mpr ⟨a, ha, rfl⟩⟩

theorem mem_collected (items : List (K × A)) (key : K) (a : A) :
    a ∈ collected items key ↔ (key, a) ∈ items := by
  unfold collected
  rw [List.mem_map]
  constructor
  · rintro ⟨⟨other, b⟩, hmem, rfl⟩
    obtain ⟨hmem, hkey⟩ := List.mem_filter.mp hmem
    have hkey : other = key := of_decide_eq_true hkey
    rwa [← hkey]
  · intro hmem
    exact ⟨(key, a), List.mem_filter.mpr ⟨hmem, decide_eq_true rfl⟩, rfl⟩

theorem collected_append (items others : List (K × A)) (key : K) :
    collected (items ++ others) key = collected items key ++ collected others key := by
  unfold collected
  rw [List.filter_append, List.map_append]

theorem collected_cons (other key : K) (a : A) (items : List (K × A)) :
    collected ((other, a) :: items) key = if other = key then a :: collected items key else collected items key := by
  unfold collected
  rw [List.filter_cons]
  by_cases hkey : other = key
  · simp [hkey]
  · simp [hkey]

theorem collected_group (other key : K) (items : List A) :
    collected (items.map (fun a => (other, a))) key = if other = key then items else [] := by
  unfold collected
  by_cases hkey : other = key
  · have hall : ∀ item ∈ items.map (fun a => (other, a)), decide (item.1 = key) := by
      intro item hmem
      obtain ⟨a, -, rfl⟩ := List.mem_map.mp hmem
      exact decide_eq_true hkey
    rw [if_pos hkey, List.filter_eq_self.mpr hall, List.map_map]
    exact List.map_id _
  · have hnone : ∀ item ∈ items.map (fun a => (other, a)), ¬ decide (item.1 = key) := by
      intro item hmem h
      obtain ⟨a, -, rfl⟩ := List.mem_map.mp hmem
      exact hkey (of_decide_eq_true h)
    rw [if_neg hkey, List.filter_eq_nil_iff.mpr hnone]
    rfl

theorem collected_absent (key : K) (h : key ∉ groups.map Prod.fst) :
    collected (grouped groups) key = [] := by
  unfold collected
  rw [List.filter_eq_nil_iff.mpr, List.map_nil]
  rintro ⟨other, a⟩ hmem hkey
  obtain ⟨items, hgroup, -⟩ := (mem_grouped groups other a).mp hmem
  exact h (List.mem_map.mpr ⟨(other, items), hgroup, of_decide_eq_true hkey⟩)

theorem collected_grouped (hnodup : (groups.map Prod.fst).Nodup) {key : K} {items : List A}
    (h : (key, items) ∈ groups) : collected (grouped groups) key = items := by
  induction groups with
  | nil => contradiction
  | cons group groups ih =>
      have hcons := List.nodup_cons.mp hnodup
      have hsplit : grouped (group :: groups) =
          group.2.map (fun a => (group.1, a)) ++ grouped groups := rfl
      rw [hsplit, collected_append, collected_group]
      rcases List.mem_cons.mp h with h | h
      · subst h
        rw [if_pos rfl, collected_absent groups _ hcons.1, List.append_nil]
      · have hkey : group.1 ≠ key := fun heq =>
          hcons.1 (heq ▸ List.mem_map.mpr ⟨(key, items), h, rfl⟩)
        rw [if_neg hkey, List.nil_append]
        exact ih hcons.2 h

omit [DecidableEq K] in
theorem filterMap_grouped (f : A → Option B) :
    (grouped groups).filterMap (fun item => (f item.2).map (fun b => (item.1, b))) =
      grouped (groups.map (fun group => (group.1, group.2.filterMap f))) := by
  unfold grouped
  rw [List.filterMap_flatMap, List.flatMap_map]
  congr 1
  funext group
  rw [List.filterMap_map, List.map_filterMap]
  rfl

omit [DecidableEq K] in
theorem map_grouped (f : A → B) :
    (grouped groups).map (fun item => (item.1, f item.2)) =
      grouped (groups.map (fun group => (group.1, group.2.map f))) := by
  unfold grouped
  rw [List.map_flatMap, List.flatMap_map]
  congr 1
  funext group
  rw [List.map_map, List.map_map]
  rfl

omit [DecidableEq K] in
-- Groups in order whose members are in order are in order altogether.
theorem pairwise_grouped (R : K × A → K × A → Prop)
    (hwithin : ∀ group ∈ groups, group.2.Pairwise (fun a b => R (group.1, a) (group.1, b)))
    (hacross : groups.Pairwise (fun g h => ∀ a b, R (g.1, a) (h.1, b))) :
    (grouped groups).Pairwise R := by
  unfold grouped
  refine List.pairwise_flatMap.mpr ⟨fun group hgroup => ?_, hacross.imp fun {g h} hgh => ?_⟩
  · exact List.pairwise_map.mpr (hwithin group hgroup)
  · intro x hx y hy
    obtain ⟨a, -, rfl⟩ := List.mem_map.mp hx
    obtain ⟨b, -, rfl⟩ := List.mem_map.mp hy
    exact hgh a b

end Grouping

-- Items that change what a map holds at their keys, one after another.
section Maps

variable {K A V : Type} [LinearOrder K] (m : OrderedMap K V) (items : List (K × A)) (k : K)

theorem get?_modifyAll (f : V → A → V) :
    (items.foldl (fun m item => m.modify item.1 (fun v => f v item.2)) m).get? k =
      (m.get? k).map (fun v => (collected items k).foldl f v) := by
  induction items generalizing m with
  | nil =>
      show m.get? k = (m.get? k).map id
      rw [Option.map_id]
      rfl
  | cons item items ih =>
      rw [List.foldl_cons, ih, OrderedMap.get?_modify, collected_cons]
      by_cases hkey : item.1 = k
      · rw [if_pos hkey.symm, if_pos hkey, hkey, Option.map_map]
        rfl
      · rw [if_neg (Ne.symm hkey), if_neg hkey]

def appendAll (m : OrderedMap K (List A)) (items : List (K × A)) : OrderedMap K (List A) :=
  items.foldl (fun m item => m.insert item.1 ((m.get? item.1).getD [] ++ [item.2])) m

theorem get?_appendAll (m : OrderedMap K (List A)) :
    (appendAll m items).get? k = if collected items k = [] then m.get? k
      else some ((m.get? k).getD [] ++ collected items k) := by
  induction items generalizing m with
  | nil => rfl
  | cons item items ih =>
      show (appendAll _ items).get? k = _
      rw [ih, OrderedMap.get?_insert, collected_cons]
      by_cases hkey : item.1 = k
      · rw [if_pos hkey.symm, if_pos hkey, hkey, if_neg (List.cons_ne_nil _ _)]
        by_cases hnone : collected items k = []
        · rw [if_pos hnone, hnone]
        · rw [if_neg hnone, Option.getD_some, List.append_assoc]
          rfl
      · rw [if_neg (Ne.symm hkey), if_neg hkey]

end Maps

end StompyMux.Library
