import Mathlib.Order.Basic

/-!
Contract: systems given by a partial step function.

Does not own: any particular system. An event that is not possible in a state
has the result `none`.
-/

namespace Greengage.Foundations

open Option

universe u v

variable {σ : Type u} {ε : Type v} {step : σ → ε → Option σ} {init : σ}

/-- The states that a system gets into. -/
inductive Reachable (step : σ → ε → Option σ) (initial : σ) : σ → Prop
  | start : Reachable step initial initial
  | next {state after : σ} (event : ε) (reached : Reachable step initial state)
      (taken : step state event = some after) : Reachable step initial after

theorem guard_eq_some {possible : Prop} [Decidable possible] {state after : σ}
    (taken : (if possible then some state else none) = some after) : possible ∧ state = after := by
  simpa using taken

theorem Reachable.invariant {Inv : σ → Prop} (start : Inv init)
    (kept : ∀ state event after, Inv state → step state event = some after → Inv after) {state : σ}
    (reach : Reachable step init state) : Inv state := by
  induction reach with
  | start => exact start
  | next event _ taken ih => exact kept _ event _ ih taken

theorem Reachable.events {events : List ε} {state after} (reach : Reachable step init state)
    (taken : events.foldlM step state = some after) : Reachable step init after := by
  induction events generalizing state with
  | nil => exact some.inj taken ▸ reach
  | cons event rest ih =>
    obtain ⟨_, first, others⟩ := bind_eq_some_iff.mp taken
    exact ih (.next event reach first) others

theorem Reachable.exists_of_run (events : List ε) {β : Type*} {view} {value : β}
    (run : (events.foldlM step init).map view = some value) :
    ∃ state, Reachable step init state ∧ view state = value := by
  obtain ⟨state, taken, viewed⟩ := map_eq_some_iff.mp run
  exact ⟨state, .events .start taken, viewed⟩

end Greengage.Foundations
