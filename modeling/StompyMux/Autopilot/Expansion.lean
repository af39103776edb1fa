import StompyMux.Autopilot.Search

namespace StompyMux.Autopilot.AStarSearch

open Library

-- A search goes on: the map and the goal stay, costs only fall, every record is old or
-- waits in the queue, and no work is added.
structure Progress (traversal : Traversal) (search after : AStarSearch) : Prop where
  width : after.width = search.width
  height : after.height = search.height
  start : after.start = search.start
  goal : after.goal = search.goal
  maxRecords : after.maxRecords = search.maxRecords
  labelled : after.Labelled traversal
  terminal : after.terminal = none
  lower : ∀ u c, search.label u = some c → ∃ c', after.label u = some c' ∧ c' ≤ c
  fresh : ∀ u c, after.label u = some c →
    search.label u = some c ∨ ∃ e ∈ after.openSet, e.position = u ∧ e.cost = c
  kept : ∀ e ∈ search.openSet, e ∈ after.openSet
  weight_le : after.weight ≤ search.weight

variable (traversal : Traversal)

theorem Progress.refl (search : AStarSearch) (hl : search.Labelled traversal)
    (ht : search.terminal = none) : Progress traversal search search :=
  ⟨rfl, rfl, rfl, rfl, rfl, hl, ht, fun _ c h => ⟨c, h, Nat.le_refl _⟩, fun _ _ h => .inl h,
    fun _ h => h, Nat.le_refl _⟩

theorem Progress.trans (search middle after : AStarSearch)
    (hm : Progress traversal search middle) (ha : Progress traversal middle after) :
    Progress traversal search after where
  width := ha.width.trans hm.width
  height := ha.height.trans hm.height
  start := ha.start.trans hm.start
  goal := ha.goal.trans hm.goal
  maxRecords := ha.maxRecords.trans hm.maxRecords
  labelled := ha.labelled
  terminal := ha.terminal
  lower := by
    intro u c hc
    obtain ⟨c', hc', hle⟩ := hm.lower u c hc
    obtain ⟨c'', hc'', hle'⟩ := ha.lower u c' hc'
    exact ⟨c'', hc'', hle'.trans hle⟩
  fresh := by
    intro u c hc
    rcases ha.fresh u c hc with hc' | hqueued
    · rcases hm.fresh u c hc' with hc'' | ⟨e, he, hu⟩
      · exact .inl hc''
      · exact .inr ⟨e, ha.kept e he, hu⟩
    · exact .inr hqueued
  kept := fun e he => ha.kept e (hm.kept e he)
  weight_le := ha.weight_le.trans hm.weight_le

-- The limit is hit exactly when the records have filled it.
def Exhausted (search after : AStarSearch) : Prop :=
  after.terminal = some (.ResourceLimit search.maxRecords search.maxRecords)

theorem improve_progress {search : AStarSearch} {v w : GridHex} {k : Nat}
    (hl : search.Labelled traversal) (ht : search.terminal = none) {r : Record}
    (hv : search.records[v]? = some r) (he : Edge search.width search.height traversal v w k)
    (hbetter : ∀ c', search.label w = some c' → r.cost + k < c')
    (hroom : search.label w = none → search.records.size < search.maxRecords) :
    Progress traversal search (search.improve v w (r.cost + k)) where
  width := rfl
  height := rfl
  start := rfl
  goal := rfl
  maxRecords := rfl
  labelled := improve_labelled traversal search v w k hl r hv he hbetter hroom
  terminal := ht
  lower := by
    intro u c hc
    by_cases huw : u = w
    · subst huw
      exact ⟨r.cost + k, by simp [label, improve_getElem_self], (hbetter c hc).le⟩
    · refine ⟨c, ?_, Nat.le_refl _⟩
      simp only [label, improve_getElem_of_ne search v w _ u huw]
      exact hc
  fresh := by
    intro u c hc
    by_cases huw : u = w
    · subst huw
      simp only [label, improve_getElem_self, Option.map_some, Option.some.injEq] at hc
      exact .inr ⟨_, (OpenEntry.mem_push _ _ _).mpr (.inl rfl), rfl, hc⟩
    · simp only [label, improve_getElem_of_ne search v w _ u huw] at hc
      exact .inl hc
  kept := fun e he => (OpenEntry.mem_push _ _ _).mpr (.inr he)
  weight_le := (improve_weight traversal search v w k hl r hv he hbetter).le

-- The cell that is being expanded, at its recorded cost.
structure Expanding (search : AStarSearch) (v : GridHex) (r : Record) : Prop where
  labelled : search.Labelled traversal
  terminal : search.terminal = none
  record : search.records[v]? = some r

theorem relax_progress {search : AStarSearch} {v w : GridHex} {r : Record}
    (hx : Expanding traversal search v r)
    (hw : w ∈ v.neighborsWithin search.width search.height) :
    Exhausted search (search.relax traversal v r.cost w) ∨
      (Progress traversal search (search.relax traversal v r.cost w) ∧
        Expanding traversal (search.relax traversal v r.cost w) v r ∧
        ∀ k, Edge search.width search.height traversal v w k →
          ∃ c, (search.relax traversal v r.cost w).label w = some c ∧ c ≤ r.cost + k) := by
  obtain ⟨hl, ht, hv⟩ := hx
  obtain ⟨hd, hmap⟩ := (GridHex.mem_neighborsWithin_iff v w _ _).mp hw
  have hrefl := Progress.refl traversal search hl ht
  have hx : Expanding traversal search v r := ⟨hl, ht, hv⟩
  unfold relax
  cases hcost : traversal v w with
  | none =>
      refine .inr ⟨hrefl, hx, ?_⟩
      rintro k ⟨_, _, _, _, cost, hsome, _⟩
      rw [hcost] at hsome
      cases hsome
  | some edgeCost =>
      dsimp only
      by_cases hzero : edgeCost = 0
      · rw [if_pos hzero]
        refine .inr ⟨hrefl, hx, ?_⟩
        rintro k ⟨_, _, _, hpos, cost, hsome, rfl⟩
        rw [hcost] at hsome
        cases hsome
        simp [hzero] at hpos
      rw [if_neg hzero]
      have hpos : 0 < edgeCost.toNat := by
        rw [Nat.pos_iff_ne_zero]
        exact fun h => hzero (UInt32.toNat_inj.mp h)
      have hedge : Edge search.width search.height traversal v w edgeCost.toNat :=
        ⟨hl.onMap v r hv, hmap, hd, hpos, edgeCost, hcost, rfl⟩
      have hunique : ∀ k, Edge search.width search.height traversal v w k →
          k = edgeCost.toNat := by
        rintro k ⟨_, _, _, _, cost, hsome, rfl⟩
        rw [hcost] at hsome
        cases hsome
        rfl
      obtain ⟨_, hlt⟩ := candidate_lt traversal search v w edgeCost.toNat hl r hv hedge
      have hadd : checkedAdd r.cost edgeCost.toNat = some (r.cost + edgeCost.toNat) :=
        if_pos (by omega)
      have hadd' : checkedAdd (r.cost + edgeCost.toNat) (search.goal.heuristic w) =
          some (r.cost + edgeCost.toNat + search.goal.heuristic w) := if_pos hlt
      simp only [hadd]
      by_cases hbetter : (search.records[w]?.all
          (fun record => decide (r.cost + edgeCost.toNat < record.cost))) = true
      · rw [if_pos hbetter]
        by_cases hfull : search.records[w]?.isNone = true ∧ search.recordCount ≥ search.maxRecords
        · rw [if_pos hfull]
          left
          have hsize : search.recordCount = search.maxRecords :=
            Nat.le_antisymm hl.size_le hfull.2
          simp only [Exhausted, resourceLimit, hsize]
        rw [if_neg hfull]
        simp only [hadd']
        have hlower : ∀ c', search.label w = some c' → r.cost + edgeCost.toNat < c' := by
          intro c' hc'
          obtain ⟨r₀, hr₀, rfl⟩ := (label_eq_some_iff _ _ _).mp hc'
          simpa [hr₀] using hbetter
        have hroom : search.label w = none → search.records.size < search.maxRecords := by
          intro hnone
          by_contra hge
          exact hfull ⟨by simpa [label] using hnone, Nat.not_lt.mp hge⟩
        have hprogress := improve_progress traversal hl ht hv hedge
          hlower hroom
        have hvw : v ≠ w := by
          rintro rfl
          have hself := hlower r.cost ((label_eq_some_iff _ _ _).mpr ⟨r, hv, rfl⟩)
          omega
        refine .inr ⟨hprogress, ⟨hprogress.labelled, ht, ?_⟩, ?_⟩
        · exact (improve_getElem_of_ne search v w _ v hvw).trans hv
        · intro k hk
          refine ⟨r.cost + edgeCost.toNat, ?_, by rw [hunique k hk]⟩
          exact (label_eq_some_iff _ _ _).mpr ⟨_, improve_getElem_self search v w _, rfl⟩
      · rw [if_neg hbetter]
        refine .inr ⟨hrefl, hx, ?_⟩
        intro k hk
        cases hr₀ : search.records[w]? with
        | none => simp [hr₀] at hbetter
        | some r₀ =>
            refine ⟨r₀.cost, (label_eq_some_iff _ _ _).mpr ⟨r₀, hr₀, rfl⟩, ?_⟩
            simp only [hr₀, Option.all_some, decide_eq_true_eq, Nat.not_lt] at hbetter
            rw [hunique k hk]
            exact hbetter

theorem relaxAll_progress (search : AStarSearch) (v : GridHex) (r : Record)
    (neighbors : List GridHex) (hx : Expanding traversal search v r)
    (hn : ∀ w ∈ neighbors, w ∈ v.neighborsWithin search.width search.height) :
    Exhausted search (search.relaxAll traversal v r.cost neighbors) ∨
      (Progress traversal search (search.relaxAll traversal v r.cost neighbors) ∧
        ∀ w ∈ neighbors, ∀ k, Edge search.width search.height traversal v w k →
          ∃ c, (search.relaxAll traversal v r.cost neighbors).label w = some c ∧
            c ≤ r.cost + k) := by
  induction neighbors generalizing search with
  | nil => exact .inr ⟨Progress.refl traversal search hx.labelled hx.terminal, by simp⟩
  | cons w neighbors ih =>
      simp only [relaxAll]
      rcases relax_progress traversal hx (hn w List.mem_cons_self) with
        hstop | ⟨hstep, hx', hw⟩
      · rw [if_pos (by rw [hstop]; rfl)]
        exact .inl hstop
      · rw [if_neg (by rw [hstep.terminal]; exact Bool.false_ne_true)]
        have hn' : ∀ u ∈ neighbors, u ∈ v.neighborsWithin
            (search.relax traversal v r.cost w).width
            (search.relax traversal v r.cost w).height := by
          intro u hu
          rw [hstep.width, hstep.height]
          exact hn u (List.mem_cons_of_mem _ hu)
        rcases ih _ hx' hn' with hstop | ⟨hrest, hall⟩
        · rw [Exhausted, hstep.maxRecords] at hstop
          exact .inl hstop
        refine .inr ⟨hstep.trans traversal _ _ _ hrest, ?_⟩
        rw [hstep.width, hstep.height] at hall
        intro u hu k hk
        rcases List.mem_cons.mp hu with rfl | hu
        · obtain ⟨c, hc, hle⟩ := hw k hk
          obtain ⟨c', hc', hle'⟩ := hrest.lower u c hc
          exact ⟨c', hc', hle'.trans hle⟩
        · exact hall u hu k hk

-- The cell waits in the queue with its current cost.
def Waiting (search : AStarSearch) (u : GridHex) : Prop :=
  ∃ e ∈ search.openSet, e.position = u ∧ search.label u = some e.cost

-- The cell has been dealt with: it is no accepted goal, and its cost has been carried to
-- all its neighbors.
def Carried (accepted : GridHex → Bool) (search : AStarSearch) (u : GridHex) (c : Nat) : Prop :=
  (search.goal.contains u = true → accepted u = false) ∧
    ∀ w k, Edge search.width search.height traversal u w k →
      ∃ c', search.label w = some c' ∧ c' ≤ c + k

-- Between two expansions.
structure Ready (accepted : GridHex → Bool) (search : AStarSearch) : Prop where
  labelled : search.Labelled traversal
  terminal : search.terminal = none
  settled : ∀ u c, search.label u = some c →
    Waiting search u ∨ Carried traversal accepted search u c

theorem stale_eq_false_iff (search : AStarSearch) (e : OpenEntry) :
    search.stale e = false ↔ search.label e.position = some e.cost := by
  simp only [stale, label]
  cases search.records[e.position]? <;> simp

theorem mem_dropWhile (p : OpenEntry → Bool) {entries : List OpenEntry} {e : OpenEntry}
    (he : e ∈ entries) (hp : p e = false) : e ∈ entries.dropWhile p := by
  induction entries with
  | nil => cases he
  | cons head entries ih =>
      rw [List.dropWhile_cons]
      split
      · rename_i hhead
        rcases List.mem_cons.mp he with rfl | he
        · rw [hp] at hhead
          cases hhead
        · exact ih he
      · exact he

-- Dropping stale entries, and the popped one, keeps the records and never adds work.
theorem Labelled.requeue {search : AStarSearch} {entries : List OpenEntry}
    (hl : search.Labelled traversal) (hs : entries.Sublist search.openSet) :
    Labelled traversal { search with openSet := entries } :=
  ⟨hl.center, hl.size_le, hl.start, hl.onMap, hl.root, hl.link, hl.cost_le,
    fun e he => hl.entry e (hs.subset he), hl.sorted.sublist hs⟩

variable (accepted : GridHex → Bool)

theorem Ready.trim {search : AStarSearch} (hr : Ready traversal accepted search) :
    Ready traversal accepted
      { search with openSet := search.openSet.dropWhile search.stale } where
  labelled := hr.labelled.requeue traversal (List.dropWhile_sublist _)
  terminal := hr.terminal
  settled := by
    intro u c hc
    rcases hr.settled u c hc with ⟨e, he, rfl, hlabel⟩ | hcarried
    · refine .inl ⟨e, mem_dropWhile _ he ?_, rfl, hlabel⟩
      exact (stale_eq_false_iff search e).mpr hlabel
    · exact .inr hcarried

-- The fields that a search never changes.
def SameProblem (search after : AStarSearch) : Prop :=
  after.width = search.width ∧ after.height = search.height ∧ after.start = search.start ∧
    after.goal = search.goal ∧ after.maxRecords = search.maxRecords

-- Expanding the first live entry, unless the records run out, leaves the search ready
-- again with less work to do.
theorem expand_ready (search : AStarSearch) (entry : OpenEntry) (rest : List OpenEntry)
    (hr : Ready traversal accepted search)
    (hq : search.openSet.dropWhile search.stale = entry :: rest)
    (hreject : search.goal.contains entry.position = true → accepted entry.position = false) :
    let after := { search with openSet := rest }.expand traversal entry
    Exhausted search after ∨
      (Ready traversal accepted after ∧ SameProblem search after ∧
        after.weight < search.weight) := by
  intro after
  have hlive : search.label entry.position = some entry.cost := by
    have hhead := List.head?_dropWhile_not search.stale search.openSet
    rw [hq] at hhead
    exact (stale_eq_false_iff search entry).mp (by simpa using hhead)
  obtain ⟨r, hrecord, hcost⟩ := (label_eq_some_iff _ _ _).mp hlive
  have hsub : (entry :: rest).Sublist search.openSet := hq ▸ List.dropWhile_sublist _
  let popped : AStarSearch :=
    { search with openSet := rest, totalExpanded := search.totalExpanded + 1 }
  have hpopped : popped.Labelled traversal :=
    { hr.labelled.requeue traversal ((List.sublist_cons_self _ _).trans hsub) with }
  have hx : Expanding traversal popped entry.position r := ⟨hpopped, hr.terminal, hrecord⟩
  have hafter : after = popped.relaxAll traversal entry.position r.cost
      (entry.position.neighborsWithin search.width search.height) := by rw [hcost]; rfl
  have hweight : popped.weight < search.weight := by
    have hlength := hsub.length_le
    simp only [List.length_cons] at hlength
    have hlabel : popped.label = search.label := rfl
    simp only [weight, hlabel, popped]
    omega
  rcases relaxAll_progress traversal popped entry.position r _ hx (fun w hw => hw) with
    hstop | ⟨hp, hall⟩
  · exact .inl (hafter ▸ hstop)
  rw [← hafter] at hp hall
  refine .inr ⟨⟨hp.labelled, hp.terminal, ?_⟩, ⟨hp.width, hp.height, hp.start, hp.goal,
    hp.maxRecords⟩, hp.weight_le.trans_lt hweight⟩
  have hcarry : ∀ u c, Carried traversal accepted search u c →
      Carried traversal accepted after u c := by
    rintro u c ⟨hgoal, hedges⟩
    refine ⟨by rw [hp.goal]; exact hgoal, ?_⟩
    rw [hp.width, hp.height]
    intro w k hk
    obtain ⟨c', hc', hle⟩ := hedges w k hk
    obtain ⟨c'', hc'', hle'⟩ := hp.lower w c' hc'
    exact ⟨c'', hc'', hle'.trans hle⟩
  intro u c hc
  rcases hp.fresh u c hc with hold | ⟨e, he, hu, hec⟩
  · rcases hr.settled u c hold with ⟨e, he, hu, hlabel⟩ | hcarried
    · have hlive' : search.stale e = false := (stale_eq_false_iff search e).mpr (hu ▸ hlabel)
      have hkept := mem_dropWhile search.stale he hlive'
      rw [hq] at hkept
      rcases List.mem_cons.mp hkept with rfl | hkept
      -- the expanded cell itself
      · right
        subst hu
        refine ⟨by rw [hp.goal]; exact hreject, ?_⟩
        rw [hp.width, hp.height]
        intro w k hk
        have hmem : w ∈ e.position.neighborsWithin search.width search.height :=
          (GridHex.mem_neighborsWithin_iff _ _ _ _).mpr ⟨hk.2.2.1, hk.2.1⟩
        obtain ⟨c', hc', hle⟩ := hall w hmem k hk
        obtain rfl : c = r.cost := by
          rw [hcost]
          exact Option.some.inj (hold.symm.trans hlive)
        exact ⟨c', hc', hle⟩
      · refine .inl ⟨e, hp.kept e hkept, hu, ?_⟩
        exact hc.trans (hold.symm.trans hlabel)
    · exact .inr (hcarry u c hcarried)
  · exact .inl ⟨e, he, hu, by rw [hc, hec]⟩

end StompyMux.Autopilot.AStarSearch
