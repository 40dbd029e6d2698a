import Greengage.Foundations.Loop
import Mathlib.Algebra.Order.Ring.Int

/-!
Contract: `jump_consistent_hash` of `src/backend/cdb/cdbhash.c`, with which
`cdbhashreduce` reduces the 32-bit hash of a row to a segment.

Does not own: the floating point arithmetic, which is any `Jump`.
-/

namespace Greengage.Dispatch.JumpHash

open Greengage.Foundations

/-- The product of `b + 1` and a quotient that is at least one, as an `int64`. -/
structure Jump where
  next (key : BitVec 64) (b : Int) : Int
  beyond (key : BitVec 64) (b : Int) (nonneg : 0 ≤ b) : b + 1 ≤ next key b

structure Locals where
  key : BitVec 64
  b : Int
  j : Int

variable (jump : Jump)

/-- The body of the loop. The multiplication wraps. -/
def jumpStep (locals : Locals) : Locals :=
  let b := locals.j
  let key := locals.key * 2862933555777941757 + 1
  ⟨key, b, jump.next key b⟩

def jumpLoop (numSegments : Int) (fuel : Nat) (locals : Locals) : Option Locals :=
  whileFuel (·.j < numSegments) (fun locals => some (jumpStep jump locals)) fuel locals

/-- The result is below `numSegments`, so that its conversion to `int32` keeps it. -/
def jumpConsistentHash (fuel : Nat) (key : BitVec 64) (numSegments : Int) : Option Int :=
  (jumpLoop jump numSegments fuel ⟨key, -1, 0⟩).map Locals.b

/-- The run for one more segment goes a round further only when `j` is on the
new segment. The induction is on the distance of `j` from `numSegments`. -/
theorem jumpLoop_consistent {numSegments : Int} (locals : Locals) (rounds : Nat)
    (near : numSegments ≤ locals.j + rounds) (nonneg : 0 ≤ locals.j)
    (started : locals.j < numSegments ∨ 0 ≤ locals.b ∧ locals.b < numSegments) :
    ∃ last grown, (∀ fuel, jumpLoop jump numSegments (fuel + rounds + 2) locals = some last ∧
        jumpLoop jump (numSegments + 1) (fuel + rounds + 2) locals = some grown) ∧
      (0 ≤ last.b ∧ last.b < numSegments) ∧ (grown.b = last.b ∨ grown.b = numSegments) := by
  have beyond : locals.j + 1 ≤ (jumpStep jump locals).j := jump.beyond _ _ nonneg
  have step {bound} (pre : locals.j < bound) (fuel) : jumpLoop jump bound (fuel + 1) locals =
      jumpLoop jump bound fuel (jumpStep jump locals) := by simp [jumpLoop, whileFuel, pre]
  have stop {locals : Locals} {bound} (reached : bound ≤ locals.j) (fuel) :
      jumpLoop jump bound (fuel + 1) locals = some locals := by simp [jumpLoop, whileFuel, reached]
  by_cases pre : locals.j < numSegments
  · cases rounds with
    | zero => omega
    | succ rounds =>
      obtain ⟨last, grown, runs, bounds⟩ := jumpLoop_consistent (jumpStep jump locals) rounds
        (by omega) (by omega) (.inr ⟨nonneg, pre⟩)
      exact ⟨last, grown, fun fuel => ⟨(step pre _).trans (runs fuel).1,
        (step (by omega) _).trans (runs fuel).2⟩, bounds⟩
  · have inside := started.resolve_left pre
    by_cases onNew : locals.j = numSegments
    · exact ⟨locals, jumpStep jump locals, fun fuel => ⟨stop (by omega) _,
        (step (by omega) _).trans (stop (by omega) _)⟩, inside, .inr onNew⟩
    · exact ⟨locals, locals, fun fuel => ⟨stop (by omega) _, stop (by omega) _⟩, inside, .inl rfl⟩

/-- A row of any hash value has a segment, and a cluster with one more segment
keeps the row there or moves it to the new one. -/
theorem jumpConsistentHash_consistent (jump : Jump) (key : BitVec 64) (numSegments : Int)
    (positive : 1 ≤ numSegments) : ∃ fuel segment grown,
    (∀ more, jumpConsistentHash jump (more + fuel) key numSegments = some segment ∧
      jumpConsistentHash jump (more + fuel) key (numSegments + 1) = some grown) ∧
      (0 ≤ segment ∧ segment < numSegments) ∧ (grown = segment ∨ grown = numSegments) := by
  obtain ⟨last, grown, runs, bounds⟩ := jumpLoop_consistent jump ⟨key, -1, 0⟩
    numSegments.toNat (by simp) le_rfl (.inl positive)
  exact ⟨numSegments.toNat + 2, last.b, grown.b, fun more =>
    (runs more).imp (congrArg (Option.map _)) (congrArg (Option.map _)), bounds⟩

/-- The product without rounding errors. -/
def exactJump : Jump where
  next key b := (b + 1) * 2 ^ 31 / ((key >>> 33).toNat + 1)
  beyond key b nonneg := by
    have small : (key >>> 33).toNat < 2 ^ 31 := by
      have := key.isLt
      rw [BitVec.toNat_ushiftRight, Nat.shiftRight_eq_div_pow]
      omega
    apply Int.le_ediv_of_mul_le (by omega)
    exact Int.mul_le_mul_of_nonneg_left (by omega) (by omega)

theorem jumpConsistentHash_grows_to_four : ∃ fuel segment grown,
    (∀ more, jumpConsistentHash exactJump (more + fuel) 7 3 = some segment ∧
      jumpConsistentHash exactJump (more + fuel) 7 4 = some grown) ∧
      (0 ≤ segment ∧ segment < 3) ∧ (grown = segment ∨ grown = 3) :=
  jumpConsistentHash_consistent exactJump 7 3 (by decide)

end Greengage.Dispatch.JumpHash
