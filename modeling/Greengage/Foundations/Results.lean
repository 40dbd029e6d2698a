import Mathlib.Data.List.Forall2

/-!
Contract: computations that end with a result or an error.

Does not own: what the errors are.
-/

namespace Greengage.Foundations

open List

variable {ε α β : Type} {first : Except ε α}

theorem bind_eq_ok {rest : α → Except ε β} {res : β} (run : (first >>= rest) = .ok res) :
    ∃ mid, first = .ok mid ∧ rest mid = .ok res := by
  cases first with
  | error error => simp [bind, Except.bind] at run
  | ok mid => exact ⟨mid, rfl, run⟩

theorem map_eq_ok {f : α → β} {res : β} (run : first.map f = .ok res) :
    ∃ mid, first = .ok mid ∧ f mid = res := by
  cases first with
  | error error => simp [Except.map] at run
  | ok mid => exact ⟨mid, rfl, Except.ok.inj run⟩

variable {items : List α}

/-- What holds of the items so far and the state, and is kept by the body, holds when the loop
has succeeded. -/
theorem foldlM_invariant {σ : Type} {body : σ → α → Except ε σ} (Inv : List α → σ → Prop)
    {state res : σ} (step : ∀ item ∈ items, ∀ done pre after, Inv done pre →
      body pre item = .ok after → Inv (done ++ [item]) after) (start : Inv [] state)
    (run : items.foldlM body state = .ok res) : Inv items res := by
  suffices general : ∀ done, Inv done state → Inv (done ++ items) res from general [] start
  clear start
  induction items generalizing state with
  | nil =>
    cases run
    intro done start
    rwa [append_nil]
  | cons item rest ih =>
    intro done start
    obtain ⟨mid, first, others⟩ := bind_eq_ok run
    have kept := step item mem_cons_self done state mid start first
    have later := ih (fun other mem => step other (mem_cons_of_mem item mem)) others _ kept
    rwa [append_assoc] at later

theorem exists_of_forall₂ {R : α → β → Prop} {results : List β}
    (related : Forall₂ R items results) {item : α} (member : item ∈ items) :
    ∃ result ∈ results, R item result := by
  induction related with
  | nil => cases member
  | cons holds _ ih =>
    rcases mem_cons.mp member with rfl | member
    · exact ⟨_, mem_cons_self, holds⟩
    · obtain ⟨result, isResult, holds⟩ := ih member
      exact ⟨result, mem_cons_of_mem _ isResult, holds⟩

theorem map_eq_of_forall₂ {γ : Type} {R : α → β → Prop} {results : List β} {f : α → γ}
    {g : β → γ} (related : Forall₂ R items results) (same : ∀ item result, R item result →
      f item = g result) : items.map f = results.map g := by
  rw [← forall₂_eq_eq_eq, forall₂_map_left_iff, forall₂_map_right_iff]
  exact related.imp same

end Greengage.Foundations
