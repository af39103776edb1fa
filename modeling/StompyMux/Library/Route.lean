import Mathlib.Combinatorics.SimpleGraph.Metric
import Mathlib.Data.List.Basic

-- Routes through a graph with positive edge costs, labels that bound them, and the
-- predecessor links from which a search rebuilds them.
namespace StompyMux.Library

variable {V : Type*}

-- `Route edge source cells target cost`: the cells from source to target and the sum of
-- their edge costs.
inductive Route (edge : V → V → Nat → Prop) : V → List V → V → Nat → Prop
  | single (v : V) : Route edge v [v] v 0
  | cons (u v t : V) (cells : List V) (k cost : Nat) (he : edge u v k)
      (hr : Route edge v cells t cost) : Route edge u (u :: cells) t (k + cost)

variable (edge : V → V → Nat → Prop)

theorem Route.snoc {source u : V} (v : V) {cells : List V} (k : Nat) {cost : Nat}
    (hr : Route edge source cells u cost) (he : edge u v k) :
    Route edge source (cells ++ [v]) v (cost + k) := by
  induction hr with
  | single u =>
      have h := Route.cons u v v [v] k 0 he (.single v)
      simpa using h
  | cons w x u cells step cost hstep _ ih =>
      have h := Route.cons w x v (cells ++ [v]) step (cost + k) hstep (ih he)
      simpa [Nat.add_assoc] using h

-- A potential that no edge lowers by more than its cost is lowered by no route by more
-- than the cost of the route.
theorem Route.potential_le (potential : V → Nat)
    (hp : ∀ u v k, edge u v k → potential u ≤ potential v + k)
    {source target : V} {cells : List V} {cost : Nat} (hr : Route edge source cells target cost) :
    potential source ≤ potential target + cost := by
  induction hr with
  | single v => exact Nat.le_refl _
  | cons u v t cells k cost he _ ih =>
      have hedge := hp u v k he
      omega

-- Where every label outside the frontier has been carried over all its edges, a route from
-- a labelled vertex either is labelled to its end or passes the frontier, and the label
-- there leaves no more than the rest of the route to pay.
theorem Route.frontier (label : V → Option Nat) (Frontier : V → Prop)
    (hclosed : ∀ u c, label u = some c → ¬ Frontier u → ∀ v k, edge u v k →
      ∃ c', label v = some c' ∧ c' ≤ c + k)
    (source target : V) (cells : List V) (cost c : Nat)
    (hr : Route edge source cells target cost) (hc : label source = some c) :
    (∃ c', label target = some c' ∧ c' ≤ c + cost ∧ ¬ Frontier target) ∨
      ∃ v c' rest cost', label v = some c' ∧ Frontier v ∧ Route edge v rest target cost' ∧
        c' + cost' ≤ c + cost := by
  induction hr generalizing c with
  | single v =>
      by_cases hf : Frontier v
      · exact .inr ⟨v, c, [v], 0, hc, hf, .single v, Nat.le_refl _⟩
      · exact .inl ⟨c, hc, Nat.le_refl _, hf⟩
  | cons u v t cells k cost he hr ih =>
      by_cases hf : Frontier u
      · exact .inr ⟨u, c, u :: cells, k + cost, hc, hf, .cons u v t cells k cost he hr,
          Nat.le_refl _⟩
      · obtain ⟨c', hc', hle⟩ := hclosed u c hc hf v k he
        rcases ih c' hc' with ⟨c'', ht, hle', hft⟩ | ⟨w, c'', rest, cost', hw, hfw, hrest, hle'⟩
        · exact .inl ⟨c'', ht, by omega, hft⟩
        · exact .inr ⟨w, c'', rest, cost', hw, hfw, hrest, by omega⟩

-- A route pays for the edge by which it enters each vertex past its source.
theorem Route.le_of_mem {source dear target : V} {cells : List V} {cost least : Nat}
    (hr : Route edge source cells target cost) (hmem : dear ∈ cells) (hne : dear ≠ source)
    (hdear : ∀ u k, edge u dear k → least ≤ k) : least ≤ cost := by
  induction hr with
  | single v => exact absurd (List.mem_singleton.mp hmem) hne
  | cons u v t cells k cost he _ ih =>
      by_cases hv : dear = v
      · subst hv
        exact le_trans (hdear u k he) (Nat.le_add_right k cost)
      · have hrest := ih ((List.mem_cons.mp hmem).resolve_left hne) hv
        exact le_trans hrest (Nat.le_add_left cost k)

-- Follow the predecessor links back, at most `fuel` of them. The vertices come out from
-- the source on.
def Route.chain (parent : V → Option V) : Nat → V → List V
  | 0, v => [v]
  | fuel + 1, v =>
      match parent v with
      | none => [v]
      | some u => Route.chain parent fuel u ++ [v]

-- Labels that grow by at least the edge cost along each link make the chain a route from
-- the root, no more expensive than the label.
theorem Route.chain_route (parent : V → Option V) (label : V → Option Nat) (root : V)
    (hroot : ∀ v c, label v = some c → parent v = none → v = root)
    (hlink : ∀ v c u, label v = some c → parent v = some u →
      ∃ c' k, label u = some c' ∧ edge u v k ∧ 0 < k ∧ c' + k ≤ c)
    (fuel : Nat) (v : V) (c : Nat) (hc : label v = some c) (hf : c ≤ fuel) :
    ∃ cost, Route edge root (Route.chain parent fuel v) v cost ∧ cost ≤ c := by
  induction fuel generalizing v c with
  | zero =>
      cases hp : parent v with
      | none =>
          obtain rfl := hroot v c hc hp
          exact ⟨0, .single v, Nat.zero_le _⟩
      | some u =>
          obtain ⟨c', k, _, _, hpos, hle⟩ := hlink v c u hc hp
          omega
  | succ fuel ih =>
      simp only [Route.chain]
      cases hp : parent v with
      | none =>
          obtain rfl := hroot v c hc hp
          exact ⟨0, .single v, Nat.zero_le _⟩
      | some u =>
          obtain ⟨c', k, hu, he, hpos, hle⟩ := hlink v c u hc hp
          obtain ⟨cost, hr, hcost⟩ := ih u c' hu (by omega)
          exact ⟨cost + k, Route.snoc edge v k hr he, by omega⟩

end StompyMux.Library

-- A function that changes by at most one along an edge, and that some edge always lowers, is the
-- distance of the graph.
namespace StompyMux.Library.Descent

variable {V : Type*} {G : SimpleGraph V} (d : V → V → ℕ)

theorem le_length (hself : ∀ a, d a a = 0) (hadj : ∀ a b c, G.Adj a b → d a c ≤ d b c + 1)
    {a b : V} (walk : G.Walk a b) : d a b ≤ walk.length := by
  induction walk with
  | nil => exact Nat.le_of_eq (hself _)
  | @cons first second last hstep walk ih =>
      have hone := hadj first second last hstep
      rw [SimpleGraph.Walk.length_cons]
      omega

theorem exists_walk (hzero : ∀ a b, d a b = 0 → a = b)
    (hlower : ∀ a b, d a b ≠ 0 → ∃ c, G.Adj a c ∧ d c b + 1 = d a b) (a b : V) :
    ∃ walk : G.Walk a b, walk.length = d a b := by
  induction hd : d a b generalizing a with
  | zero =>
      cases hzero a b hd
      exact ⟨.nil, rfl⟩
  | succ n ih =>
      obtain ⟨c, hstep, hless⟩ := hlower a b (by omega)
      obtain ⟨walk, hwalk⟩ := ih c (by omega)
      exact ⟨.cons hstep walk, by rw [SimpleGraph.Walk.length_cons, hwalk]⟩

theorem dist_eq (hself : ∀ a, d a a = 0) (hzero : ∀ a b, d a b = 0 → a = b)
    (hadj : ∀ a b c, G.Adj a b → d a c ≤ d b c + 1)
    (hlower : ∀ a b, d a b ≠ 0 → ∃ c, G.Adj a c ∧ d c b + 1 = d a b) (a b : V) :
    G.dist a b = d a b := by
  obtain ⟨walk, hwalk⟩ := exists_walk d hzero hlower a b
  obtain ⟨shortest, hshortest⟩ := walk.reachable.exists_walk_length_eq_dist
  have hle := G.dist_le walk
  have hge := le_length d hself hadj shortest
  omega

end StompyMux.Library.Descent
