import Mathlib.Data.Nat.Bitwise

/-!
Contract: fields packed into 32-bit words by masks and shifts.
-/

namespace Greengage.Foundations

open BitVec

def getField (word mask : BitVec 32) (shift : Nat) : BitVec 32 := (word &&& mask) >>> shift

def initField (word mask value : BitVec 32) (shift : Nat) : BitVec 32 :=
  word ||| (mask &&& (value <<< shift))

/-- The mask of the field of `width` bits from bit `low` on. -/
def fieldMask (low width : Nat) : BitVec 32 := BitVec.ofNat 32 ((2 ^ width - 1) <<< low)

theorem getLsbD_fieldMask {low width} (fits : low + width ≤ 32) (i) :
    (fieldMask low width).getLsbD i = decide (low ≤ i ∧ i < low + width) := by
  rw [fieldMask, getLsbD_ofNat, Nat.testBit_shiftLeft, Nat.testBit_two_pow_sub_one]
  grind

theorem getLsbD_eq_false_of_lt {value : BitVec 32} {width i : Nat} (small : value.toNat < 2 ^ width)
    (above : width ≤ i) : value.getLsbD i = false :=
  Nat.testBit_lt_two_pow (lt_of_lt_of_le small (Nat.pow_le_pow_right (by decide) above))

@[simp] theorem getField_zero (mask shift) : getField 0#32 mask shift = 0#32 := by
  simp [getField]

@[simp] theorem getField_initField_other {word mask mask' value shift shift'}
    (disj : mask' &&& mask = 0#32) :
    getField (initField word mask' value shift') mask shift = getField word mask shift := by
  apply eq_of_getLsbD_eq
  intro i _
  have apart := congrArg (getLsbD · (shift + i)) disj
  simp only [getLsbD_and] at apart
  simp only [getField, initField, getLsbD_ushiftRight, getLsbD_and, getLsbD_or]
  cases onMask : mask.getLsbD (shift + i) with
  | false => simp
  | true =>
    rw [onMask, Bool.and_true] at apart
    simp [apart]

def fieldValue (mask value : BitVec 32) (shift : Nat) : BitVec 32 :=
  (mask &&& (value <<< shift)) >>> shift

@[simp] theorem getField_initField_same (word mask value shift) :
    getField (initField word mask value shift) mask shift =
      getField word mask shift ||| fieldValue mask value shift := by
  apply eq_of_getLsbD_eq
  intro i _
  simp only [getField, initField, fieldValue, getLsbD_ushiftRight, getLsbD_and, getLsbD_or]
  cases mask.getLsbD (shift + i) <;> simp

theorem fieldValue_eq {mask value : BitVec 32} {shift width : Nat} (fits : shift + width ≤ 32)
    (isMask : mask = fieldMask shift width) (small : value.toNat < 2 ^ width) :
    fieldValue mask value shift = value := by
  apply eq_of_getLsbD_eq
  intro i _
  simp only [fieldValue, isMask, getLsbD_ushiftRight, getLsbD_and, getLsbD_fieldMask fits]
  by_cases inField : i < width
  · grind
  · have clear := getLsbD_eq_false_of_lt small (Nat.le_of_not_lt inField)
    simp [clear]

@[simp] theorem initField_zero (word mask shift) : initField word mask 0#32 shift = word := by
  simp [initField]

theorem split_value {value : BitVec 32} {low high : Nat} (fits : low + high ≤ 32)
    (small : value.toNat < 2 ^ (low + high)) :
    (fieldValue (fieldMask 0 high) (value >>> low) 0 <<< low) |||
      fieldValue (fieldMask (32 - low) low) value (32 - low) = value := by
  apply eq_of_getLsbD_eq
  intro _ _
  have clear : ∀ j, low + high ≤ j → value.getLsbD j = false :=
    fun j above => getLsbD_eq_false_of_lt small above
  simp only [fieldValue, getLsbD_ushiftRight, getLsbD_and, getLsbD_or,
    getLsbD_shiftLeft, getLsbD_fieldMask (show 0 + high ≤ 32 by omega),
    getLsbD_fieldMask (show 32 - low + low ≤ 32 by omega)]
  grind

end Greengage.Foundations
