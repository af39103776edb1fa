import Mathlib.Data.List.Basic
import Mathlib.Order.Basic

namespace StompyMux.Library.Transition

variable {State Action : Type*}

-- Perform the actions in order. The run fails at the first action that is not enabled.
def run (step : State → Action → Option State) : State → List Action → Option State
  | state, [] => some state
  | state, action :: actions =>
      (step state action).bind (fun next => run step next actions)

theorem run_cons_eq_some (step : State → Action → Option State) (state : State)
    (action : Action) (actions : List Action) (final : State) :
    run step state (action :: actions) = some final ↔
      ∃ next, step state action = some next ∧ run step next actions = some final := by
  simp [run, Option.bind_eq_some_iff]

theorem run_append (step : State → Action → Option State) (state : State)
    (actions rest : List Action) :
    run step state (actions ++ rest) =
      (run step state actions).bind (fun next => run step next rest) := by
  induction actions generalizing state with
  | nil => rfl
  | cons action actions ih =>
      simp only [List.cons_append, run, Option.bind_assoc]
      congr 1
      funext next
      exact ih next

section Invariant

variable (step : State → Action → Option State) (Inv : State → Prop)
  (hstep : ∀ state action next, Inv state → step state action = some next → Inv next)

include hstep

-- What every step preserves, every run preserves.
theorem run_invariant (actions : List Action) (state final : State) (hi : Inv state)
    (hr : run step state actions = some final) : Inv final := by
  induction actions generalizing state with
  | nil =>
      cases hr
      exact hi
  | cons action actions ih =>
      obtain ⟨next, hn, hf⟩ := (run_cons_eq_some step state action actions final).mp hr
      exact ih next (hstep state action next hi hn) hf

variable (measure : State → Nat)
  (hlt : ∀ state action next, Inv state → step state action = some next →
    measure next < measure state)

include hlt

-- A measure that every step decreases bounds the length of every run.
theorem run_length_le (actions : List Action) (state final : State) (hi : Inv state)
    (hr : run step state actions = some final) :
    actions.length + measure final ≤ measure state := by
  induction actions generalizing state with
  | nil =>
      cases hr
      simp
  | cons action actions ih =>
      obtain ⟨next, hn, hf⟩ := (run_cons_eq_some step state action actions final).mp hr
      have hrest := ih next (hstep state action next hi hn) hf
      have hdecr := hlt state action next hi hn
      simp only [List.length_cons]
      omega

-- When some action is enabled outside the final states, every run can be completed.
theorem run_completes (Final : State → Prop)
    (hmove : ∀ state, Inv state → ¬ Final state → ∃ action next, step state action = some next)
    (state : State) (hi : Inv state) :
    ∃ actions final, run step state actions = some final ∧ Final final := by
  induction hm : measure state using Nat.strongRecOn generalizing state with
  | ind bound ih =>
      subst hm
      by_cases hf : Final state
      · exact ⟨[], state, rfl, hf⟩
      · obtain ⟨action, next, hn⟩ := hmove state hi hf
        obtain ⟨actions, final, hr, hfinal⟩ :=
          ih (measure next) (hlt state action next hi hn) next (hstep _ _ _ hi hn) rfl
        exact ⟨action :: actions, final,
          (run_cons_eq_some step state action actions final).mpr ⟨next, hn, hr⟩, hfinal⟩

end Invariant

end StompyMux.Library.Transition
