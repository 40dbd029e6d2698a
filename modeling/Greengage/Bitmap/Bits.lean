import Greengage.Bitmap.Headers
import Mathlib.Data.List.TakeDrop
import Mathlib.Tactic.NormNum

/-!
Contract: the bits that compressed words stand for.
-/

namespace Greengage.Bitmap

open List BitVec

structure HrlWord where
  fill : Bool
  word : Word
deriving DecidableEq

def literalBits (word : Word) : List Bool := (List.range wordSize).map word.getLsbD

def HrlWord.bits (word : HrlWord) : List Bool :=
  if word.fill then
    List.replicate (fillLength word.word * wordSize) (getFillBit word.word == 1)
  else literalBits word.word

def expand (words : List HrlWord) : List Bool := words.flatMap HrlWord.bits

/-- The first `count` words of an array with their flags. -/
def wordsOf (hwords cwords : WordArray) (count : Nat) : List HrlWord :=
  (List.range count).map fun i => ⟨isFillWord hwords i, cwords i⟩

@[simp] theorem expand_nil : expand [] = [] := rfl

@[simp] theorem expand_append (left right) : expand (left ++ right) = expand left ++ expand right :=
  flatMap_append

@[simp] theorem expand_cons (word words) : expand (word :: words) = word.bits ++ expand words :=
  flatMap_cons

theorem expand_singleton (word) : expand [word] = word.bits :=
  append_nil _

@[simp] theorem length_literalBits (word) : (literalBits word).length = wordSize := by
  simp [literalBits]

theorem HrlWord.length_bits (word : HrlWord) :
    word.bits.length = if word.fill then fillLength word.word * wordSize else wordSize := by
  unfold bits
  split <;> simp

theorem HrlWord.length_bits_mod (word : HrlWord) : word.bits.length % wordSize = 0 := by
  rw [length_bits]
  split
  · exact Nat.mul_mod_left _ _
  · exact Nat.mod_self _

theorem length_expand_mod (words : List HrlWord) : (expand words).length % wordSize = 0 := by
  induction words with
  | nil => rfl
  | cons word words ih =>
    rw [expand_cons, length_append, Nat.add_mod, word.length_bits_mod, ih]
    rfl

theorem fillLength_eq (word) : fillLength word = word.toNat % 2 ^ 63 := by
  have mask : fillMask = BitVec.ofNat 64 (2 ^ 63 - 1) := by decide
  rw [fillLength, toNat_and, mask, toNat_ofNat, Nat.mod_eq_of_lt (by norm_num),
    Nat.and_two_pow_sub_one_eq_mod]

theorem getFillBit_toNat (word) : (getFillBit word).toNat = word.toNat / 2 ^ 63 := by
  rw [getFillBit, toNat_ushiftRight, Nat.shiftRight_eq_div_pow]
  rfl

section

variable {bit len : Word} (isBit : bit.toNat < 2) (small : len.toNat < 2 ^ 63)
include isBit small

theorem makeFillWord_toNat :
    (makeFillWord bit len).toNat = bit.toNat * 2 ^ 63 + len.toNat := by
  rw [makeFillWord, toNat_or, toNat_shiftLeft, wordSize,
    Nat.mod_eq_of_lt (by rw [Nat.shiftLeft_eq]; omega),
    ← Nat.shiftLeft_add_eq_or_of_lt small, Nat.shiftLeft_eq]

theorem fillLength_makeFillWord : fillLength (makeFillWord bit len) = len.toNat := by
  rw [fillLength_eq, makeFillWord_toNat isBit small]
  omega

theorem getFillBit_makeFillWord : getFillBit (makeFillWord bit len) = bit := by
  apply eq_of_toNat_eq
  rw [getFillBit_toNat, makeFillWord_toNat isBit small]
  omega

end

def zeroFill (length : Nat) : HrlWord := ⟨true, makeFillWord 0 (BitVec.ofNat 64 length)⟩

theorem fillLength_zeroFill {len} (small : len < 2 ^ 63) :
    fillLength (zeroFill len).word = len := by
  rw [zeroFill, fillLength_makeFillWord (by decide) (by rw [toNat_ofNat]; omega), toNat_ofNat]
  omega

theorem bits_zeroFill {len} (small : len < 2 ^ 63) :
    (zeroFill len).bits = replicate (len * wordSize) false := by
  have isZero : (getFillBit (zeroFill len).word == 1) = false := by
    rw [zeroFill, getFillBit_makeFillWord (by decide) (by rw [toNat_ofNat]; omega)]
    decide
  simp only [HrlWord.bits, fillLength_zeroFill small, isZero]
  rfl

theorem add_fill {left right} (sameBit : getFillBit left = getFillBit right)
    (fits : fillLength left + fillLength right ≤ maxFillLength) :
    fillLength (left + BitVec.ofNat 64 (fillLength right)) = fillLength left + fillLength right ∧
      getFillBit (left + BitVec.ofNat 64 (fillLength right)) = getFillBit right := by
  have := congrArg BitVec.toNat sameBit
  simp only [getFillBit_toNat, fillLength_eq, maxFillLength, wordSize] at *
  have sum : (left + BitVec.ofNat 64 (right.toNat % 2 ^ 63)).toNat =
      left.toNat + right.toNat % 2 ^ 63 := by
    rw [toNat_add, toNat_ofNat]
    omega
  refine ⟨by omega, eq_of_toNat_eq ?_⟩
  rw [getFillBit_toNat, getFillBit_toNat, sum]
  omega

theorem literalBits_zero : literalBits 0 = replicate wordSize false := by decide

theorem literalBits_allOne : literalBits literalAllOne = replicate wordSize true := by decide

theorem literalBits_setBit (word pos) :
    literalBits (word ||| bitWord pos) = (literalBits word).set pos true := by
  apply ext_getElem
  · simp
  · intro i inLeft _
    have inWord : i < 64 := by simpa [wordSize] using inLeft
    simp only [literalBits, getElem_map, getElem_range, getLsbD_or]
    rw [bitWord, getLsbD_shiftLeft, getLsbD_one]
    by_cases same : pos = i
    · subst same
      simp [inWord]
    · rcases lt_or_gt_of_ne same with _ | behind
      · have apart : ¬ i - pos = 0 := by omega
        simp [same, apart]
      · simp [same, behind]

section

variable (hwords cwords : WordArray)

@[simp] theorem length_wordsOf (count) : (wordsOf hwords cwords count).length = count := by
  simp [wordsOf]

theorem getElem?_wordsOf (count i) : (wordsOf hwords cwords count)[i]? =
      if i < count then some ⟨isFillWord hwords i, cwords i⟩ else none := by
  split
  case isTrue below => simp [wordsOf, below]
  case isFalse above => simpa using above

theorem wordsOf_succ (count) : wordsOf hwords cwords (count + 1) =
      wordsOf hwords cwords count ++ [⟨isFillWord hwords count, cwords count⟩] := by
  simp [wordsOf, range_succ]

theorem wordsOf_add (count more) :
    wordsOf hwords cwords (count + more) = wordsOf hwords cwords count ++
      (range more).map fun i => ⟨isFillWord hwords (count + i), cwords (count + i)⟩ := by
  simp [wordsOf, range_add]

theorem take_wordsOf {count total} (fits : count ≤ total) :
    (wordsOf hwords cwords total).take count = wordsOf hwords cwords count := by
  obtain ⟨_, rfl⟩ := Nat.exists_eq_add_of_le fits
  rw [wordsOf_add, take_append_of_le_length (by simp), take_of_length_le (by simp)]

theorem take_drop_wordsOf {start count total} (fits : start + count ≤ total) :
    ((wordsOf hwords cwords total).drop start).take count =
      (range count).map fun i => ⟨isFillWord hwords (start + i), cwords (start + i)⟩ := by
  obtain ⟨_, rfl⟩ := Nat.exists_eq_add_of_le fits
  rw [wordsOf_add, wordsOf_add, List.append_assoc, drop_append_of_le_length (by simp),
    drop_of_length_le (by simp), nil_append, take_append_of_le_length (by simp),
    take_of_length_le (by simp)]

theorem wordsOf_congr {hwords hwords' cwords cwords' count}
    (flags : ∀ i < count, isFillWord hwords i = isFillWord hwords' i)
    (contents : ∀ i < count, cwords i = cwords' i) :
    wordsOf hwords cwords count = wordsOf hwords' cwords' count := by
  apply map_congr_left
  intro i mem
  rw [flags i (mem_range.mp mem), contents i (mem_range.mp mem)]

theorem getNumBits_eq (count : Nat) :
    getNumBits cwords hwords count = (expand (wordsOf hwords cwords count)).length := by
  unfold getNumBits
  induction count with
  | zero => rfl
  | succ count ih =>
    rw [range_succ, foldl_append, ih, wordsOf_succ, expand_append,
      length_append, foldl_cons, foldl_nil, expand_singleton, HrlWord.length_bits]
    split <;> rfl

end

end Greengage.Bitmap
