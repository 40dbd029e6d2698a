import Mathlib.Data.Fintype.Pigeonhole
import Mathlib.Dynamics.PeriodicPts.Lemmas

/-!
Contract: closed walks in finite directed graphs.
-/

namespace Greengage.Foundations

open List Function

universe u

variable {α : Type u}

section

variable {r : α → α → Prop} {walk : List α} {a : α} (chain : Cycle.Chain r (walk : Cycle α))
  (mem : a ∈ walk)
include chain mem

theorem cycleChain_successor : ∃ b ∈ walk, r a b := by
  obtain ⟨first, tail, rfl⟩ := exists_cons_of_ne_nil (ne_nil_of_mem mem)
  rw [Cycle.chain_coe_cons] at chain
  obtain ⟨pre, after, split⟩ := append_of_mem mem
  have shape : first :: (tail ++ [first]) = pre ++ a :: (after ++ [first]) := by
    rw [← cons_append, split, append_assoc, cons_append]
  rw [shape] at chain
  have related := (isChain_append.mp chain).2.1
  cases after with
  | nil => exact ⟨first, by simp, by simpa using related⟩
  | cons next rest =>
    refine ⟨next, ?_, (isChain_cons_cons.mp related).1⟩
    rw [split]
    simp

theorem cycleChain_predecessor : ∃ b ∈ walk, r b a := by
  obtain ⟨first, tail, rfl⟩ := exists_cons_of_ne_nil (ne_nil_of_mem mem)
  rw [Cycle.chain_coe_cons] at chain
  have rotated : a ∈ tail ++ [first] := by simpa [or_comm] using mem
  obtain ⟨pre, _, split⟩ := append_of_mem rotated
  rw [split, ← cons_append] at chain
  have lt (b) (inPrefix : b ∈ first :: pre) : b ∈ first :: tail := by
    have inRotated : b = first ∨ b ∈ tail ++ [first] := by
      rw [split]
      rcases mem_cons.mp inPrefix with same | inBefore
      · exact Or.inl same
      · exact Or.inr (mem_append_left _ inBefore)
    simpa [or_comm] using inRotated
  have ne : first :: pre ≠ [] := cons_ne_nil _ _
  have related := (isChain_append.mp chain).2.2 ((first :: pre).getLast ne)
    (getLast?_eq_getLast_of_ne_nil ne) a rfl
  exact ⟨_, lt _ (getLast_mem ne), related⟩

end

theorem exists_periodic {vertices : Finset α} {step : α → α} {start : α} (mem : start ∈ vertices)
    (closed : ∀ v ∈ vertices, step v ∈ vertices) :
    ∃ v ∈ vertices, 0 < minimalPeriod step v := by
  have orbit (n) : step^[n] start ∈ vertices := by
    induction n with
    | zero => exact mem
    | succ n ih =>
      rw [iterate_succ_apply']
      exact closed _ ih
  obtain ⟨m, n, ne, sameInside⟩ :=
    Finite.exists_ne_map_eq_of_infinite fun n : ℕ => (⟨step^[n] start, orbit n⟩ : vertices)
  have same : step^[m] start = step^[n] start := congrArg Subtype.val sameInside
  clear sameInside
  wlog below : m < n generalizing m n
  · exact this n m ne.symm same.symm (by omega)
  refine ⟨step^[m] start, orbit m, minimalPeriod_pos_iff_mem_periodicPts.mpr ?_⟩
  refine ⟨n - m, by omega, ?_⟩
  rw [IsPeriodicPt, IsFixedPt, ← iterate_add_apply,
    Nat.sub_add_cancel (le_of_lt below), same]

/-- The orbit of a periodic point is a cyclic chain of the step relation
without repeated vertices. -/
theorem orbit_isCycle {step v} (periodic : 0 < minimalPeriod step v) :
    let orbit := (range (minimalPeriod step v)).map fun n => step^[n] v
    orbit ≠ [] ∧ orbit.Nodup ∧ Cycle.Chain (fun a b => step a = b) (orbit : Cycle α) := by
  obtain ⟨last, period⟩ : ∃ last, minimalPeriod step v = last + 1 :=
    ⟨_, (Nat.succ_pred_eq_of_pos periodic).symm⟩
  refine ⟨by simp [period], ?_, ?_⟩
  · refine Nodup.map_on ?_ nodup_range
    intro m lt n lt' same
    exact iterate_injOn_Iio_minimalPeriod (mem_range.mp lt) (mem_range.mp lt') same
  · rw [period, ← Cycle.map_coe, Cycle.chain_map, Cycle.chain_range_succ]
    refine ⟨?_, fun m _ => (iterate_succ_apply' step m v).symm⟩
    rw [← iterate_succ_apply' step last v, Nat.succ_eq_add_one, ← period]
    exact iterate_minimalPeriod

end Greengage.Foundations
