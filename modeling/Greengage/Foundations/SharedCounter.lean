import Mathlib.Algebra.Order.BigOperators.Group.Finset
import Mathlib.Tactic.Linarith

/-!
Contract: a counter that is the sum of what several parties have added to it.

Does not own: what the parties are. The share of a party is a function of its state.
-/

namespace Greengage.Foundations

open Function Finset

variable {ι σ : Type*} [DecidableEq ι] {parties : Finset ι} {locals : ι → σ} {party : ι}
  {share : σ → Int}

theorem sum_update_add (mem : party ∈ parties) (after) :
    ∑ other ∈ parties, share (update locals party after other) + share (locals party) =
      ∑ other ∈ parties, share (locals other) + share after := by
  have := add_sum_erase parties (fun other => share (locals other)) mem
  have behind := add_sum_erase parties (fun other => share (update locals party after other)) mem
  have rest : ∑ other ∈ parties.erase party, share (update locals party after other) =
      ∑ other ∈ parties.erase party, share (locals other) := by
    refine sum_congr rfl fun other otherMem => ?_
    rw [update_of_ne (ne_of_mem_erase otherMem)]
  simp only [update_self] at behind
  linarith

theorem sum_update_of_notMem (absent : party ∉ parties) (after) :
    ∑ other ∈ parties, share (update locals party after other) =
      ∑ other ∈ parties, share (locals other) := by
  refine sum_congr rfl fun other otherMem => ?_
  have ne : other ≠ party := by
    rintro rfl
    exact absent otherMem
  rw [update_of_ne ne]

omit [DecidableEq ι] in
theorem share_le_sum (nonneg : ∀ other, 0 ≤ share (locals other)) (mem : party ∈ parties) :
    share (locals party) ≤ ∑ other ∈ parties, share (locals other) :=
  single_le_sum (fun other _ => nonneg other) mem

/-- A limit on what is granted is kept by a party that is granted nothing more, and by one
that sees the counter within the limit after its own addition, if what all have been
granted is in the counter. -/
theorem sum_grant_le {grant : σ → Int} {limit : Int} {after : σ} (mem : party ∈ parties)
    (pre : ∑ other ∈ parties, grant (locals other) ≤ limit)
    (checked : grant after ≤ grant (locals party) ∨
      (∀ other ∈ parties, grant (update locals party after other) ≤
        share (update locals party after other)) ∧
      ∑ other ∈ parties, share (update locals party after other) ≤ limit) :
    ∑ other ∈ parties, grant (update locals party after other) ≤ limit := by
  rcases checked with _ | ⟨covered, within⟩
  · have moved := @sum_update_add _ _ _ _ locals _ grant mem after
    linarith
  · calc
      _ ≤ ∑ other ∈ parties, share (update locals party after other) :=
        sum_le_sum covered
      _ ≤ limit := within

end Greengage.Foundations
