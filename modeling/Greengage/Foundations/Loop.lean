import Mathlib.Order.Basic

/-!
Contract: fuelled execution of `while` loops.

Owns: the interpreter `whileFuel`, the independence of its result from the
amount of fuel, the invariant rule for a loop that has returned, and the
variant rule that makes a loop return. A body may fail, so a loop whose body
contains another fuelled loop is covered.

Does not own: any particular loop. A loop that runs forever has the result
`none` at every amount of fuel.
-/

namespace Greengage.Foundations

open Option

universe u

variable {σ : Type u} {cond : σ → Bool} {body : σ → Option σ}

/-- Run `while (cond) body` for at most `fuel` evaluations of the condition. -/
def whileFuel (cond : σ → Bool) (body : σ → Option σ) : Nat → σ → Option σ
  | 0, _ => none
  | fuel + 1, state =>
    if cond state then (body state).bind (whileFuel cond body fuel) else some state

theorem whileFuel_stop {state} (stops : cond state = false) (fuel) :
    whileFuel cond body (fuel + 1) state = some state := by
  simp [whileFuel, stops]

theorem whileFuel_step {state next} (cont : cond state) (runs : body state = some next)
    (fuel) : whileFuel cond body (fuel + 1) state = whileFuel cond body fuel next := by
  simp [whileFuel, cont, runs]

theorem whileFuel_mono {larger}
    (extends_ : ∀ state next, body state = some next → larger state = some next)
    {fuel more} (le : fuel ≤ more) {state res}
    (ret : whileFuel cond body fuel state = some res) :
    whileFuel cond larger more state = some res := by
  induction fuel generalizing more state with
  | zero => simp [whileFuel] at ret
  | succ fuel ih =>
    obtain ⟨more, rfl⟩ : ∃ rest, more = rest + 1 := ⟨more - 1, by omega⟩
    by_cases cont : cond state = true
    · simp only [whileFuel, cont, if_true, bind_eq_some_iff] at ret ⊢
      obtain ⟨next, runs, rest⟩ := ret
      exact ⟨next, extends_ state next runs, ih (by omega) rest⟩
    · simp only [whileFuel, cont] at ret ⊢
      exact ret

theorem whileFuel_unique {fuel fuel' state left right}
    (leftReturned : whileFuel cond body fuel state = some left)
    (rightReturned : whileFuel cond body fuel' state = some right) : left = right := by
  have leftMax := whileFuel_mono (fun _ _ => id) (Nat.le_max_left fuel fuel') leftReturned
  have rightMax :=
    whileFuel_mono (fun _ _ => id) (Nat.le_max_right fuel fuel') rightReturned
  rw [leftMax] at rightMax
  exact some.inj rightMax

theorem whileFuel_invariant {Inv : σ → Prop}
    (preserved : ∀ state next, Inv state → cond state = true → body state = some next → Inv next)
    {fuel : Nat} {state res : σ} (init : Inv state)
    (ret : whileFuel cond body fuel state = some res) :
    Inv res ∧ cond res = false := by
  induction fuel generalizing state with
  | zero => simp [whileFuel] at ret
  | succ fuel ih =>
    by_cases cont : cond state = true
    · simp only [whileFuel, cont, if_true, bind_eq_some_iff] at ret
      obtain ⟨next, runs, rest⟩ := ret
      exact ih (preserved state next init cont runs) rest
    · have stops : cond state = false := by simpa using cont
      rw [whileFuel_stop stops, some.injEq] at ret
      subst ret
      exact ⟨init, stops⟩

/-- Variant rule: a body that keeps an invariant and decreases a measure makes
the loop return. -/
theorem whileFuel_terminates {Inv : σ → Prop} (measure : σ → Nat)
    (progress : ∀ state, Inv state → cond state = true →
      ∃ next, body state = some next ∧ Inv next ∧ measure next < measure state) {state : σ}
    (init : Inv state) :
    ∃ res, whileFuel cond body (measure state + 1) state = some res ∧
      Inv res ∧ cond res = false := by
  induction size : measure state using Nat.strongRecOn generalizing state with
  | ind bound ih =>
    by_cases cont : cond state = true
    · obtain ⟨next, runs, kept, _⟩ := progress state init cont
      obtain ⟨res, ret, resultInv, resultStops⟩ :=
        ih (measure next) (by omega) kept rfl
      refine ⟨res, ?_, resultInv, resultStops⟩
      rw [whileFuel_step cont runs]
      exact whileFuel_mono (fun _ _ => id) (by omega) ret
    · have stops : cond state = false := by simpa using cont
      exact ⟨state, whileFuel_stop stops _, init, stops⟩

end Greengage.Foundations
