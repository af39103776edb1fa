import StompyMux.Autopilot.Optimality
import StompyMux.Autopilot.Traversal

-- Searches of a controller over the snapshot of the units around it.
namespace StompyMux.Autopilot.Ground

open AStarSearch Library

-- A unit that is looking for a way, with the leash of its engagement and the cells it may end on.
structure Errand where
  world : World
  contacts : Contacts
  moving : ObjectId
  map : ObjectId
  permits : GridHex → Bool
  accepted : GridHex → Bool
  valid : world.Valid
  placed : (world.unitPosition moving).isSome

namespace Errand

variable (errand : Errand) (width height : UInt16) (search : AStarSearch)
  (congested : GridHex → GridHex → Cells)

-- The snapshot has noted crowded cells before each query.
def traversalWithLeash : Traversal := fun source target =>
  if errand.permits target then
    (({ GroundTraversal.new errand.world errand.contacts errand.moving errand.map with
      congested := congested source target } : GroundTraversal).traversalCost errand.world
      errand.contacts source target).1
  else none

def live (source target : GridHex) : TraversalAssessment :=
  assess errand.world errand.contacts errand.moving ⟨errand.map, source.x, source.y⟩
    ⟨errand.map, target.x, target.y⟩

-- A way on the leash that the live rule lets the unit go.
def Way (source target : GridHex) (cost : Nat) : Prop :=
  onMap width height source ∧ onMap width height target ∧ errand.permits target ∧
    (errand.live source target).eligible ∧ (errand.live source target).cost.toNat = cost

def Plan (cells : List GridHex) (cost : Nat) : Prop :=
  ∃ target, Route (errand.Way search.width search.height) search.start cells target cost ∧
    search.goal.contains target ∧ errand.accepted target

theorem edge_eq : Edge width height (errand.traversalWithLeash congested) = errand.Way width height := by
  funext source target cost
  have hedge := GroundTraversal.edge_iff errand.world errand.contacts errand.valid errand.moving
    errand.map errand.placed (congested source target) width height source target cost
  unfold Edge at hedge ⊢
  unfold Way traversalWithLeash live
  by_cases hpermits : errand.permits target = true
  · simp [hpermits, hedge]
  · simp [hpermits]

theorem traversalWithLeash_congr (other : GridHex → GridHex → Cells) :
    errand.traversalWithLeash congested = errand.traversalWithLeash other := by
  funext source target
  unfold traversalWithLeash
  split
  · ext cost
    rw [GroundTraversal.traversalCost_iff errand.world errand.contacts errand.valid
        errand.map errand.placed (congested source target) source target cost,
      GroundTraversal.traversalCost_iff errand.world errand.contacts errand.valid
        errand.map errand.placed (other source target) source target cost]
  · rfl

-- A search over the snapshot ends as the live rule asks, however its work is split into calls and
-- whatever crowded cells the snapshot notes: with a cheapest plan for the unit, with none where there is
-- none, or at its limit.
theorem search_live (start : GridHex) (goal : Goal) (maxRecords : Nat)
    (hn : withRecordLimit width height start goal maxRecords = .ok search) :
    ∃ status, status.isTerminal ∧
      (∀ path, status = .Found path → errand.Plan search path.cells path.cost ∧
        ∀ cells cost, errand.Plan search cells cost → path.cost ≤ cost) ∧
      (status = .Unreachable → ∀ cells cost, ¬ errand.Plan search cells cost) ∧
      ∀ (congested : GridHex → GridHex → Cells) (budgets : Nat → Nat) (defers : Nat → Bool),
        (∀ call, 0 < budgets call) →
        (∃ lastDeferral, ∀ query, lastDeferral ≤ query → defers query = false) →
        ∃ calls, ∀ call, calls ≤ call → statuses (errand.traversalWithLeash congested) errand.accepted
          defers search 0 budgets call = status := by
  have hsnapshot : ∀ congested, errand.traversalWithLeash congested =
      errand.traversalWithLeash fun _ _ => [] := fun congested => errand.traversalWithLeash_congr _ _
  have hr := withRecordLimit_ready (errand.traversalWithLeash fun _ _ => []) errand.accepted width height
    start goal maxRecords search hn
  obtain ⟨fuel, status, hverdict, hcorrect⟩ := hr.verdict _ _ search
  have hplan : ∀ cells cost, Solution (errand.traversalWithLeash fun _ _ => []) errand.accepted search
      cells cost ↔ errand.Plan search cells cost := by
    intro cells cost
    unfold Solution Plan
    rw [errand.edge_eq]
  refine ⟨status, hcorrect.terminal, ?_, ?_, ?_⟩
  · rintro path rfl
    obtain ⟨hfound, -, hleast⟩ := hcorrect
    exact ⟨(hplan _ _).mp hfound, fun cells cost h => hleast cells cost ((hplan cells cost).mpr h)⟩
  · rintro rfl cells cost h
    exact hcorrect cells cost ((hplan cells cost).mpr h)
  · rintro congested budgets defers hb ⟨lastDeferral, hd⟩
    rw [hsnapshot congested]
    obtain ⟨calls, -, hcalls⟩ := statuses_verdict _ _ defers lastDeferral hd search 0 fuel budgets status hb
      hr hverdict
    exact ⟨calls, hcalls⟩

def outpost : Errand :=
  ⟨Ground.outpost, unseen, 1, 7, fun _ => true, fun _ => true, outpost_valid, by decide⟩

theorem search_live_outpost : ∃ (search : AStarSearch) (status : SearchStatus),
    withRecordLimit 1 3 ⟨0, 0⟩ ⟨⟨0, 1⟩, 0, 0⟩ 6 = .ok search ∧ status.isTerminal ∧
    (status = .Unreachable → ∀ cells cost, ¬ outpost.Plan search cells cost) ∧
    ∀ congested, ∃ calls, ∀ call, calls ≤ call →
      statuses (outpost.traversalWithLeash congested) outpost.accepted (fun query => query < 2) search 0
        (fun _ => 1) call = status := by
  obtain ⟨search, hn⟩ : ∃ search, withRecordLimit 1 3 ⟨0, 0⟩ ⟨⟨0, 1⟩, 0, 0⟩ 6 = .ok search := ⟨_, rfl⟩
  obtain ⟨status, hterminal, -, hnone, hcalls⟩ :=
    outpost.search_live 1 3 search ⟨0, 0⟩ ⟨⟨0, 1⟩, 0, 0⟩ 6 hn
  exact ⟨search, status, hn, hterminal, hnone, fun congested =>
    hcalls congested (fun _ => 1) (fun query => query < 2) (fun _ => one_pos)
      ⟨2, fun query h => decide_eq_false (Nat.not_lt.mpr h)⟩⟩

end Errand

end StompyMux.Autopilot.Ground
