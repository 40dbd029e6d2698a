import Mathlib.Data.Nat.Basic
import Mathlib.Logic.Function.Basic

/-!
Contract: an array of machine words read as one string of bits, most
significant bit first.
-/

namespace Greengage.Foundations

open Function Nat BitVec

variable {w : Nat}

/-- The bit at position `i` of the array. -/
def msbBit (words : Nat → BitVec w) (i : Nat) : Bool := (words (i / w)).getMsbD (i % w)

theorem msbBit_congr {words other : Nat → BitVec w} {i : Nat}
    (same : words (i / w) = other (i / w)) : msbBit words i = msbBit other i := by
  rw [msbBit, msbBit, same]

theorem divMod_eq {n quotient remainder} (split : n = w * quotient + remainder)
    (below : remainder < w) : n / w = quotient ∧ n % w = remainder := by
  subst split
  rw [mul_add_div (by omega), div_eq_of_lt below, mul_add_mod, mod_eq_of_lt below]
  exact ⟨rfl, rfl⟩

theorem eq_iff_divMod (i n) : i = n ↔ i / w = n / w ∧ i % w = n % w := by
  constructor
  · rintro rfl
    exact ⟨rfl, rfl⟩
  · rintro ⟨sameWord, sameBit⟩
    rw [← div_add_mod i w, ← div_add_mod n w, sameWord, sameBit]

/-- The word with only the bit of position `n` set. -/
def msbMask (w n : Nat) : BitVec w := 1#w <<< (w - 1 - n % w)

theorem getMsbD_msbMask {n i} (below : i < w) : (msbMask w n).getMsbD i = decide (i = n % w) := by
  have lt : n % w < w := mod_lt n (by omega)
  rw [msbMask, getMsbD_shiftLeft, getMsbD_one, ← Bool.decide_and, decide_eq_decide]
  omega

theorem and_msbMask_ne_zero (pos : 0 < w) (words : Nat → BitVec w) (n) :
    (words (n / w) &&& msbMask w n != 0) = msbBit words n := by
  have lt : n % w < w := mod_lt n pos
  cases isSet : msbBit words n with
  | true =>
    rw [bne_iff_ne]
    intro zero
    have bit := congrArg (fun word => word.getMsbD (n % w)) zero
    simp only [getMsbD_and, getMsbD_msbMask lt, decide_true, Bool.and_true] at bit
    rw [msbBit, bit] at isSet
    simp at isSet
  | false =>
    rw [bne_eq_false_iff_eq]
    apply eq_of_getMsbD_eq
    intro i below
    rw [getMsbD_and, getMsbD_msbMask below]
    by_cases isBit : i = n % w
    · rw [isBit, show (words (n / w)).getMsbD (n % w) = false from isSet]
      simp
    · simp [isBit]

theorem msbBit_update (words : Nat → BitVec w) (k word i) :
    msbBit (update words k word) i = if i / w = k then word.getMsbD (i % w) else msbBit words i := by
  rw [msbBit, update_apply]
  split <;> rfl

theorem msbBit_set (pos : 0 < w) (words : Nat → BitVec w) (n i) :
    msbBit (update words (n / w) (words (n / w) ||| msbMask w n)) i =
      (msbBit words i || decide (i = n)) := by
  rw [msbBit_update, getMsbD_or, getMsbD_msbMask (mod_lt i pos)]
  split <;> simp_all [msbBit, @eq_iff_divMod w i n]

theorem msbBit_clear (pos : 0 < w) (words : Nat → BitVec w) (n i) :
    msbBit (update words (n / w) (words (n / w) &&& ~~~msbMask w n)) i =
      (msbBit words i && !decide (i = n)) := by
  have lt : i % w < w := mod_lt i pos
  rw [msbBit_update, getMsbD_and, getMsbD_not, getMsbD_msbMask lt]
  split <;> simp_all [msbBit, @eq_iff_divMod w i n]

theorem getMsbD_dropLeft (word : BitVec w) (start i : Nat) :
    ((word <<< start) >>> start).getMsbD i = (decide (start ≤ i) && word.getMsbD i) := by
  by_cases below : start ≤ i
  · by_cases lt : i < w
    · simp [below, lt]
    · simp [lt, getMsbD_of_ge word i (by omega)]
  · simp [below]

theorem getMsbD_takeLeft (word : BitVec w) {count} (small : count ≤ w) (i : Nat) :
    ((word >>> (w - count)) <<< (w - count)).getMsbD i = (decide (i < count) && word.getMsbD i) :=
      by
  by_cases below : i < count
  · have lt : i + (w - count) < w := by omega
    simp [below, lt]
  · have out : ¬ i + (w - count) < w := by omega
    simp [below, out]

def shiftRightWords (words : Nat → BitVec w) (bits : Nat) : Nat → BitVec w := fun k =>
  (words k >>> bits) ||| if k = 0 then 0 else words (k - 1) <<< (w - bits)

theorem msbBit_shiftRightWords (words : Nat → BitVec w) {bits} (small : bits < w) (i) :
    msbBit (shiftRightWords words bits) i = (decide (bits ≤ i) && msbBit words (i - bits)) := by
  have lt : i % w < w := mod_lt i (by omega)
  have split := div_add_mod i w
  rw [msbBit, shiftRightWords, getMsbD_or, getMsbD_ushiftRight]
  rcases lt_or_ge (i % w) bits with carried | own
  · rcases Nat.eq_zero_or_pos (i / w) with first | later
    · have early : i < bits := by
        rw [first] at split
        omega
      simp [first, carried, not_le.mpr early]
    · obtain ⟨prev, isPrevious⟩ : ∃ prev, i / w = prev + 1 := ⟨i / w - 1, by omega⟩
      rw [isPrevious, Nat.mul_add, Nat.mul_one] at split
      obtain ⟨word, bit⟩ := @divMod_eq w (i - bits) prev (i % w + (w - bits)) (by omega) (by omega)
      have late : bits ≤ i := by omega
      simp [isPrevious, carried, late, msbBit, word, bit]
  · obtain ⟨word, bit⟩ := @divMod_eq w (i - bits) (i / w) (i % w - bits) (by omega) (by omega)
    have late : bits ≤ i := le_trans own (mod_le i w)
    have overflow : (if i / w = 0 then (0 : BitVec w) else words (i / w - 1) <<< (w - bits)).getMsbD
        (i % w) = false := by
      split
      · simp
      · rw [getMsbD_shiftLeft, getMsbD_of_ge _ _ (by omega)]
    rw [overflow]
    simp [late, lt, msbBit, word, bit, not_lt.mpr own]

def shiftLeftWords (words : Nat → BitVec w) (bits : Nat) : Nat → BitVec w := fun k =>
  (words k <<< bits) ||| (words (k + 1) >>> (w - bits))

theorem msbBit_shiftLeftWords (words : Nat → BitVec w) {bits} (pos : 0 < bits)
    (small : bits < w) (i) : msbBit (shiftLeftWords words bits) i = msbBit words (i + bits) := by
  have lt : i % w < w := mod_lt i (by omega)
  have := div_add_mod i w
  rw [msbBit, shiftLeftWords, getMsbD_or, getMsbD_shiftLeft, getMsbD_ushiftRight]
  rcases lt_or_ge (i % w + bits) w with own | carried
  · obtain ⟨word, bit⟩ := @divMod_eq w (i + bits) (i / w) (i % w + bits) (by omega) own
    have early : i % w < w - bits := by omega
    simp [early, msbBit, word, bit]
  · obtain ⟨word, bit⟩ := @divMod_eq w (i + bits) (i / w + 1) (i % w + bits - w)
      (by rw [Nat.mul_add]; omega) (by omega)
    have late : ¬ i % w < w - bits := by omega
    have position : i % w - (w - bits) = i % w + bits - w := by omega
    rw [getMsbD_of_ge _ _ carried]
    simp [late, lt, msbBit, word, bit, position]

end Greengage.Foundations
