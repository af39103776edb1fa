import Mathlib.Data.List.DropRight
import StompyMux.Autopilot.Expansion

namespace StompyMux.Autopilot.AStarSearch

open Library

variable (traversal : Traversal) (accepted : GridHex → Bool)

-- A route of adjacent map cells from the start to an accepted cell of the goal, and its
-- cost.
def Solution (search : AStarSearch) (cells : List GridHex) (cost : Nat) : Prop :=
  ∃ target, Route (Edge search.width search.height traversal) search.start cells target cost ∧
    search.goal.contains target = true ∧ accepted target = true

-- What a terminal status promises.
def Correct (search : AStarSearch) : SearchStatus → Prop
  | .Found path =>
      Solution traversal accepted search path.cells path.cost ∧
        (∀ cell ∈ path.cells, onMap search.width search.height cell = true) ∧
        ∀ cells cost, Solution traversal accepted search cells cost → path.cost ≤ cost
  | .Unreachable => ∀ cells cost, ¬ Solution traversal accepted search cells cost
  | .ResourceLimit records limit =>
      records = search.maxRecords ∧ limit = search.maxRecords
  | _ => False

theorem Correct.of_same (search after : AStarSearch) (status : SearchStatus)
    (hs : SameProblem search after) (hc : Correct traversal accepted after status) :
    Correct traversal accepted search status := by
  obtain ⟨hw, hh, hstart, hgoal, hmax⟩ := hs
  cases status <;> simp only [Correct, Solution, hw, hh, hstart, hgoal, hmax] at hc ⊢ <;> exact hc

variable (defers : Nat → Bool) (search : AStarSearch)

theorem Correct.terminal (status : SearchStatus)
    (hc : Correct traversal accepted search status) : status.isTerminal = true := by
  cases status with
  | Pending => exact False.elim hc
  | _ => rfl

theorem route_onMap (width height : UInt16) (source target : GridHex) (cells : List GridHex)
    (cost : Nat) (hr : Route (Edge width height traversal) source cells target cost)
    (hs : onMap width height source = true) :
    ∀ cell ∈ cells, onMap width height cell = true := by
  induction hr with
  | single v => simpa using hs
  | cons u v t cells k cost he _ ih =>
      intro cell hcell
      rcases List.mem_cons.mp hcell with rfl | hcell
      · exact hs
      · exact ih he.2.1 cell hcell

-- Each solution still has to pass the queue, and at an entry that promises no more than
-- what the solution costs.
theorem Ready.solution_waiting (hr : Ready traversal accepted search)
    {cells : List GridHex} {cost : Nat} (hs : Solution traversal accepted search cells cost) :
    ∃ e ∈ search.openSet, search.label e.position = some e.cost ∧ e.estimatedTotal ≤ cost := by
  obtain ⟨target, hroute, hgoal, haccept⟩ := hs
  have hstart : search.label search.start = some 0 :=
    (label_eq_some_iff _ _ _).mpr ⟨_, hr.labelled.start, rfl⟩
  have hclosed : ∀ u c, search.label u = some c → ¬ Waiting search u → ∀ v k,
      Edge search.width search.height traversal u v k →
      ∃ c', search.label v = some c' ∧ c' ≤ c + k :=
    fun u c hc hw => ((hr.settled u c hc).resolve_left hw).2
  rcases Route.frontier _ search.label (Waiting search) hclosed search.start target cells cost 0
    hroute hstart with ⟨c, hc, _, hw⟩ | ⟨v, c, rest, cost', hc, ⟨e, he, rfl, hlabel⟩, hrest, hle⟩
  · have hreject := ((hr.settled target c hc).resolve_left hw).1 hgoal
    rw [haccept] at hreject
    cases hreject
  · refine ⟨e, he, hlabel, ?_⟩
    have hheuristic := Route.potential_le _ search.goal.heuristic
      (fun u v k => search.goal.heuristic_le) hrest
    rw [search.goal.heuristic_eq_zero target hgoal] at hheuristic
    obtain rfl : c = e.cost := Option.some.inj (hc.symm.trans hlabel)
    rw [hr.labelled.entry e he]
    omega

theorem Ready.unreachable (hr : Ready traversal accepted search)
    (hq : search.openSet.dropWhile search.stale = []) :
    Correct traversal accepted search .Unreachable := by
  intro cells cost hs
  obtain ⟨e, he, hlabel, _⟩ := hr.solution_waiting traversal accepted search hs
  have hkept := mem_dropWhile search.stale he
    ((stale_eq_false_iff search e).mpr hlabel)
  rw [hq] at hkept
  cases hkept

-- The parent links lead from a recorded cell to the start and cost no more than its record.
theorem pathTo_route {cell : GridHex} {c : Nat}
    (hl : search.Labelled traversal) (hc : search.label cell = some c) :
    (search.pathTo cell).cost = c ∧
      ∃ cost, Route (Edge search.width search.height traversal) search.start
        (search.pathTo cell).cells cell cost ∧ cost ≤ c := by
  have hcost : (search.records[cell]?.map Record.cost).getD 0 = c := by
    have hlabel : search.records[cell]?.map Record.cost = some c := hc
    rw [hlabel]
    rfl
  have hroot : ∀ v c, search.label v = some c →
      search.records[v]?.bind Record.parent = none → v = search.start := by
    intro v c hv hp
    obtain ⟨r, hr, -⟩ := (label_eq_some_iff _ _ _).mp hv
    exact hl.root v r hr (by simpa [hr] using hp)
  have hlink : ∀ v c u, search.label v = some c →
      search.records[v]?.bind Record.parent = some u → ∃ c' k, search.label u = some c' ∧
        Edge search.width search.height traversal u v k ∧ 0 < k ∧ c' + k ≤ c := by
    intro v c u hv hp
    obtain ⟨r, hr, rfl⟩ := (label_eq_some_iff _ _ _).mp hv
    obtain ⟨r', k, hr', he, hle⟩ := hl.link v r u hr (by simpa [hr] using hp)
    exact ⟨r'.cost, k, (label_eq_some_iff _ _ _).mpr ⟨r', hr', rfl⟩, he, he.2.2.2.1, hle⟩
  obtain ⟨cost, hroute, hle⟩ := Route.chain_route _ _ search.label search.start hroot hlink c cell c
    hc (Nat.le_refl _)
  refine ⟨hcost, cost, ?_, hle⟩
  simp only [pathTo, hcost]
  exact hroute

-- The first live entry of the queue, when it is an accepted goal cell, ends a cheapest
-- route.
theorem Ready.found (hr : Ready traversal accepted search)
    (entry : OpenEntry) (rest : List OpenEntry)
    (hq : search.openSet.dropWhile search.stale = entry :: rest)
    (hgoal : search.goal.contains entry.position = true)
    (haccept : accepted entry.position = true) :
    Correct traversal accepted search (.Found (search.pathTo entry.position)) := by
  have hlive : search.label entry.position = some entry.cost := by
    have hhead := List.head?_dropWhile_not search.stale search.openSet
    rw [hq] at hhead
    exact (stale_eq_false_iff search entry).mp (by simpa using hhead)
  have hsub : (entry :: rest).Sublist search.openSet := hq ▸ List.dropWhile_sublist _
  have hsorted := hr.labelled.sorted.sublist hsub
  have hentry := hr.labelled.entry entry (hsub.subset List.mem_cons_self)
  have hminimal : ∀ cells cost, Solution traversal accepted search cells cost →
      entry.cost ≤ cost := by
    intro cells cost hs
    obtain ⟨e, he, hlabel, hle⟩ := hr.solution_waiting traversal accepted search hs
    have hkept := mem_dropWhile search.stale he
      ((stale_eq_false_iff search e).mpr hlabel)
    rw [hq] at hkept
    rcases List.mem_cons.mp hkept with rfl | hkept
    · omega
    · have hfirst := OpenEntry.estimatedTotal_le ((List.pairwise_cons.mp hsorted).1 e hkept)
      omega
  obtain ⟨hcost, cost, hroute, hle⟩ :=
    pathTo_route traversal search hr.labelled hlive
  have hsolution : Solution traversal accepted search (search.pathTo entry.position).cells cost :=
    ⟨entry.position, hroute, hgoal, haccept⟩
  -- the links cannot be cheaper than the record, which is minimal
  obtain rfl : cost = entry.cost := Nat.le_antisymm hle (hminimal _ _ hsolution)
  refine ⟨by rw [hcost]; exact hsolution, ?_, by rw [hcost]; exact hminimal⟩
  exact route_onMap traversal _ _ _ _ _ _ hroute (hr.labelled.onMap _ _ hr.labelled.start)

-- The status in which the search ends when nothing interrupts it, if at most `fuel`
-- entries are expanded before.
def verdict : Nat → AStarSearch → Option SearchStatus
  | 0, _ => none
  | fuel + 1, search =>
      match search.openSet.dropWhile search.stale with
      | [] => some .Unreachable
      | entry :: rest =>
          if search.goal.contains entry.position && accepted entry.position then
            some (.Found (search.pathTo entry.position))
          else
            let after := { search with openSet := rest }.expand traversal entry
            match after.terminal with
            | some status => some status
            | none => verdict fuel after

theorem verdict_trim (fuel : Nat) (search : AStarSearch) :
    verdict traversal accepted fuel
        { search with openSet := search.openSet.dropWhile search.stale } =
      verdict traversal accepted fuel search := by
  have hstale : stale { search with openSet := search.openSet.dropWhile search.stale } =
      search.stale := rfl
  cases fuel with
  | zero => rfl
  | succ fuel =>
      simp only [verdict, hstale, List.dropWhile_idempotent search.stale search.openSet]
      rfl

theorem Ready.verdict (search : AStarSearch) (hr : Ready traversal accepted search) :
    ∃ fuel status, verdict traversal accepted fuel search = some status ∧
      Correct traversal accepted search status := by
  induction hw : search.weight using Nat.strongRecOn generalizing search with
  | ind bound ih =>
      subst hw
      cases hq : search.openSet.dropWhile search.stale with
      | nil =>
          exact ⟨1, .Unreachable, by simp [AStarSearch.verdict, hq],
            hr.unreachable traversal accepted search hq⟩
      | cons entry rest =>
          by_cases hgoal : (search.goal.contains entry.position && accepted entry.position) = true
          · refine ⟨1, .Found (search.pathTo entry.position),
              by simp only [AStarSearch.verdict, hq, if_pos hgoal], ?_⟩
            rw [Bool.and_eq_true] at hgoal
            exact hr.found traversal accepted search entry rest hq hgoal.1 hgoal.2
          have hreject : search.goal.contains entry.position = true →
              accepted entry.position = false := by
            intro hc
            simpa [hc] using hgoal
          rcases expand_ready traversal accepted search entry rest hr hq hreject with
            hstop | ⟨hready, hsame, hlt⟩
          · rw [Exhausted] at hstop
            exact ⟨1, .ResourceLimit search.maxRecords search.maxRecords,
              by simp only [AStarSearch.verdict, hq, if_neg hgoal, hstop], rfl, rfl⟩
          · obtain ⟨fuel, status, hv, hcorrect⟩ := ih _ hlt _ hready rfl
            refine ⟨fuel + 1, status, ?_, hcorrect.of_same traversal accepted _ _ _ hsame⟩
            simp only [AStarSearch.verdict, hq, if_neg hgoal, hready.terminal]
            exact hv

-- The goal predicate as the caller runs it: its answers are fixed, but some of its queries,
-- which it numbers, it leaves unanswered.
def answer (defers : Nat → Bool) (query : Nat) (position : GridHex) : Option Bool × Nat :=
  (if defers query then none else some (accepted position), query + 1)

theorem judge_answer (defers : Nat → Bool) (query : Nat) (position : GridHex) :
    (search.judge (answer accepted defers) query position =
        (some (search.goal.contains position && accepted position),
          if search.goal.contains position then query + 1 else query)) ∨
      (search.judge (answer accepted defers) query position = (none, query + 1) ∧
        defers query = true) := by
  by_cases hc : search.goal.contains position = true
  · by_cases hd : defers query = true
    · exact .inr ⟨by simp [judge, hc, answer, hd], hd⟩
    · exact .inl (by simp [judge, hc, answer, hd])
  · exact .inl (by simp [judge, hc])

-- One call either ends with the verdict, or it leaves a search with the same verdict closer
-- to it: by the expansions of its whole budget, or by a query that was put off.
theorem stepLoop_verdict (defers : Nat → Bool) (budget expanded query fuel : Nat)
    (search : AStarSearch) (status : SearchStatus) (hr : Ready traversal accepted search)
    (hv : verdict traversal accepted fuel search = some status) :
    let result := stepLoop traversal (answer accepted defers) budget expanded search query
    (result.2.1 = status ∧ result.1.terminal = some status) ∨
      (result.2.1.isTerminal = false ∧ Ready traversal accepted result.1 ∧
        ∃ fuel', verdict traversal accepted fuel' result.1 = some status ∧
          ((fuel' + budget ≤ fuel ∧ query ≤ result.2.2) ∨
            (fuel' ≤ fuel ∧ query < result.2.2 ∧ defers (result.2.2 - 1) = true))) := by
  induction budget generalizing expanded query fuel search with
  | zero =>
      simp only [stepLoop]
      by_cases hempty : search.openSet = []
      · rw [if_pos hempty]
        cases fuel with
        | zero => cases hv
        | succ fuel =>
            simp only [verdict, hempty, List.dropWhile_nil, Option.some.injEq] at hv
            exact .inl ⟨hv, by rw [← hv]; rfl⟩
      · rw [if_neg hempty]
        exact .inr ⟨rfl, hr, fuel, hv, .inl ⟨Nat.le_refl _, Nat.le_refl _⟩⟩
  | succ budget ih =>
      cases fuel with
      | zero => cases hv
      | succ fuel =>
          simp only [stepLoop]
          cases hq : search.openSet.dropWhile search.stale with
          | nil =>
              simp only [verdict, hq, Option.some.injEq] at hv
              exact .inl ⟨hv, by rw [← hv]; rfl⟩
          | cons entry rest =>
              dsimp only
              rcases judge_answer accepted { search with openSet := rest } defers query
                entry.position with hjudge | ⟨hjudge, hdefer⟩
              · rw [hjudge]
                cases hgoal : search.goal.contains entry.position && accepted entry.position with
                | true =>
                    simp only [verdict, hq, hgoal, if_true, Option.some.injEq] at hv
                    exact .inl ⟨hv, by rw [← hv]; rfl⟩
                | false =>
                    have hreject : search.goal.contains entry.position = true →
                        accepted entry.position = false := by
                      intro hc
                      simpa [hc] using hgoal
                    simp only [verdict, hq, hgoal, Bool.false_eq_true, if_false] at hv
                    rcases expand_ready traversal accepted search entry rest hr hq hreject with
                      hstop | ⟨hready, _, _⟩
                    · rw [Exhausted] at hstop
                      simp only [hstop, Option.some.injEq] at hv ⊢
                      exact .inl ⟨hv, by rw [hv]⟩
                    · simp only [hready.terminal] at hv ⊢
                      rcases ih (expanded + 1) _ fuel _ hready hv with hdone | ⟨hp, hr', fuel', hv', hle⟩
                      · exact .inl hdone
                      · refine .inr ⟨hp, hr', fuel', hv', ?_⟩
                        have hquery : query ≤ if search.goal.contains entry.position = true
                            then query + 1 else query := by split <;> omega
                        rcases hle with ⟨hfuel, hle⟩ | ⟨hfuel, hlt, hdefer⟩
                        · exact .inl ⟨by omega, hquery.trans hle⟩
                        · exact .inr ⟨by omega, hquery.trans_lt hlt, hdefer⟩
              · rw [hjudge]
                have hsorted := hr.labelled.sorted.sublist
                  (hq ▸ List.dropWhile_sublist search.stale : (entry :: rest).Sublist _)
                have htrim : entry.push rest = search.openSet.dropWhile search.stale := by
                  rw [OpenEntry.push_first entry rest hsorted, hq]
                rw [htrim]
                refine .inr ⟨rfl, hr.trim traversal accepted, fuel + 1, ?_, .inr ⟨?_, ?_, ?_⟩⟩
                · rw [verdict_trim]
                  exact hv
                · exact Nat.le_refl _
                · exact Nat.lt_succ_self _
                · exact hdefer

def statuses (defers : Nat → Bool) : AStarSearch → Nat → (Nat → Nat) → Nat → SearchStatus
  | search, query, budgets, 0 =>
      (stepFiltered traversal (answer accepted defers) search (budgets 0) query).2.1
  | search, query, budgets, call + 1 =>
      let result := stepFiltered traversal (answer accepted defers) search (budgets 0) query
      statuses defers result.1 result.2.2 (fun i => budgets (i + 1)) call

theorem statuses_of_terminal (query : Nat)
    (budgets : Nat → Nat) (call : Nat) {status : SearchStatus}
    (ht : search.terminal = some status) :
    statuses traversal accepted defers search query budgets call = status := by
  induction call generalizing budgets query with
  | zero => simp [statuses, stepFiltered, ht]
  | succ call ih =>
      simp only [statuses, stepFiltered, ht]
      exact ih query _

theorem statuses_verdict (lastDeferral : Nat)
    (hd : ∀ query, lastDeferral ≤ query → defers query = false)
    (search : AStarSearch) (query fuel : Nat) (budgets : Nat → Nat) (status : SearchStatus)
    (hb : ∀ call, 0 < budgets call) (hr : Ready traversal accepted search)
    (hv : verdict traversal accepted fuel search = some status) : ∃ calls, (∀ call < calls,
        (statuses traversal accepted defers search query budgets call).isTerminal = false) ∧
      ∀ call, calls ≤ call →
        statuses traversal accepted defers search query budgets call = status := by
  induction hm : fuel + (lastDeferral - query) using Nat.strongRecOn
    generalizing search query fuel budgets with
  | ind bound ih =>
      subst hm
      have hstep : stepFiltered traversal (answer accepted defers) search (budgets 0) query =
          stepLoop traversal (answer accepted defers) (budgets 0) 0 search query := by
        simp only [stepFiltered, hr.terminal, if_neg (hb 0).ne']
      have hloop := stepLoop_verdict traversal accepted defers (budgets 0) 0 query fuel search status
        hr hv
      rw [← hstep] at hloop
      rcases hloop with ⟨hstatus, hterminal⟩ | ⟨hp, hr', fuel', hv', hle⟩
      · refine ⟨0, by simp, fun call _ => ?_⟩
        cases call with
        | zero => exact hstatus
        | succ call => exact statuses_of_terminal traversal accepted defers _ _ _ call hterminal
      · have hpos := hb 0
        have hfewer : fuel' + (lastDeferral -
            (stepFiltered traversal (answer accepted defers) search (budgets 0) query).2.2) <
              fuel + (lastDeferral - query) := by
          rcases hle with ⟨hfuel, hquery⟩ | ⟨hfuel, hquery, hdefer⟩
          · omega
          · have hlast : (stepFiltered traversal (answer accepted defers) search (budgets 0)
                query).2.2 - 1 < lastDeferral := by
              by_contra hge
              rw [hd _ (Nat.not_lt.mp hge)] at hdefer
              cases hdefer
            omega
        obtain ⟨calls, hbefore, hafter⟩ := ih _ hfewer _ _ fuel' (fun i => budgets (i + 1))
          (fun call => hb (call + 1)) hr' hv' rfl
        refine ⟨calls + 1, fun call hcall => ?_, fun call hcall => ?_⟩
        · cases call with
          | zero => exact hp
          | succ call => exact hbefore call (by omega)
        · cases call with
          | zero => omega
          | succ call => exact hafter call (by omega)

theorem withRecordLimit_ready (width height : UInt16) (start : GridHex) (goal : Goal)
    (maxRecords : Nat) (search : AStarSearch)
    (hn : withRecordLimit width height start goal maxRecords = .ok search) :
    Ready traversal accepted search := by
  unfold withRecordLimit at hn
  split_ifs at hn with _ _ hlimit hstart hcenter
  obtain rfl := Except.ok.inj hn
  have hrecord : ∀ (v : GridHex) (r : Record),
      ((∅ : Std.TreeMap GridHex Record GridHex.order).insert start ⟨0, none⟩)[v]? = some r →
      v = start ∧ r = ⟨0, none⟩ := by
    intro v r h
    rw [Std.TreeMap.getElem?_insert] at h
    split at h
    · rename_i hcmp
      exact ⟨(Std.LawfulEqCmp.eq_of_compare hcmp).symm, (Option.some.inj h).symm⟩
    · simp at h
  have hself : ((∅ : Std.TreeMap GridHex Record GridHex.order).insert start ⟨0, none⟩)[start]? =
      some ⟨0, none⟩ := Std.TreeMap.getElem?_insert_self
  refine ⟨?_, rfl, ?_⟩
  · constructor
    · simpa using hcenter
    · exact Std.TreeMap.size_insert_le.trans (Nat.one_le_iff_ne_zero.mpr hlimit)
    · exact hself
    · intro v r h
      rw [(hrecord v r h).1]
      simpa using hstart
    · exact fun v r h _ => (hrecord v r h).1
    · intro v r u h hp
      rw [(hrecord v r h).2] at hp
      cases hp
    · intro v r h
      rw [(hrecord v r h).2]
      exact Nat.zero_le _
    · intro e he
      obtain rfl := List.mem_singleton.mp he
      simp
    · exact List.pairwise_singleton _ _
  · intro u c hc
    obtain ⟨r, hr, rfl⟩ := (label_eq_some_iff _ _ _).mp hc
    obtain ⟨rfl, rfl⟩ := hrecord u r hr
    exact .inl ⟨_, List.mem_singleton.mpr rfl, rfl, hc⟩

-- Every search ends in one status that depends neither on how its work is split into calls
-- nor on which goal queries are put off for a while. A route that is found is a cheapest
-- one, and there is no route when none is found.
theorem search_correct (width height : UInt16) (start : GridHex) (goal : Goal)
    (maxRecords : Nat) (search : AStarSearch)
    (hn : withRecordLimit width height start goal maxRecords = .ok search) :
    ∃ status, status.isTerminal = true ∧ Correct traversal accepted search status ∧
      ∀ (budgets : Nat → Nat) (defers : Nat → Bool), (∀ call, 0 < budgets call) →
        (∃ lastDeferral, ∀ query, lastDeferral ≤ query → defers query = false) →
        ∃ calls, (∀ call < calls,
            (statuses traversal accepted defers search 0 budgets call).isTerminal = false) ∧
          ∀ call, calls ≤ call →
            statuses traversal accepted defers search 0 budgets call = status := by
  have hr := withRecordLimit_ready traversal accepted width height start goal maxRecords search hn
  obtain ⟨fuel, status, hv, hc⟩ := hr.verdict traversal accepted search
  refine ⟨status, hc.terminal, hc, fun budgets defers hb ⟨lastDeferral, hd⟩ => ?_⟩
  exact statuses_verdict traversal accepted defers lastDeferral hd search 0 fuel budgets status hb
    hr hv

-- A walk along the northern edge of a small map; the first goal query is put off.
theorem search_correct_edge :
    ∃ search status, withRecordLimit 3 2 ⟨0, 0⟩ ⟨⟨2, 0⟩, 0, 0⟩ 6 = .ok search ∧
      Correct (fun _ _ => some 1) (fun _ => true) search status ∧
      statuses (fun _ _ => some 1) (fun _ => true) (· == 0) search 0 (fun _ => 2) 3 =
        .Found ⟨[⟨0, 0⟩, ⟨1, 0⟩, ⟨2, 0⟩], 2⟩ ∧
      ∃ calls, ∀ call, calls ≤ call →
        statuses (fun _ _ => some 1) (fun _ => true) (· == 0) search 0 (fun _ => 2) call =
          status := by
  obtain ⟨search, hn⟩ : ∃ search, withRecordLimit 3 2 ⟨0, 0⟩ ⟨⟨2, 0⟩, 0, 0⟩ 6 = .ok search :=
    ⟨_, rfl⟩
  obtain ⟨status, _, hc, hruns⟩ := search_correct (fun _ _ => some 1) (fun _ => true) 3 2 ⟨0, 0⟩
    ⟨⟨2, 0⟩, 0, 0⟩ 6 search hn
  obtain ⟨calls, _, hafter⟩ := hruns (fun _ => 2) (· == 0) (fun _ => Nat.two_pos)
    ⟨1, fun query hq => by simpa using Nat.one_le_iff_ne_zero.mp hq⟩
  refine ⟨search, status, hn, hc, ?_, calls, hafter⟩
  obtain rfl := Except.ok.inj hn
  decide

end StompyMux.Autopilot.AStarSearch
