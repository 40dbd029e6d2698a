import Greengage.Bitmap.Insert
import Greengage.Foundations.WordBits

/-!
Contract: what the header routines do to the fill flags of the words.

Later modules read header words through `isFillWord` only.
-/

namespace Greengage.Bitmap

open Function List Greengage.Foundations BitVec

theorem isFillWord_eq (hwords no) : isFillWord hwords no = msbBit hwords no :=
  and_msbMask_ne_zero (by decide) hwords no

theorem isFillWord_zero (no) : isFillWord (fun _ => 0) no = false := by
  simp [isFillWord]

theorem isFillWord_set (hwords n no) : isFillWord (update hwords (n / wordSize)
      (hwords (n / wordSize) ||| wordnoGetHeaderBit n)) no =
        (isFillWord hwords no || decide (no = n)) := by
  rw [isFillWord_eq, isFillWord_eq]
  exact msbBit_set (by decide) hwords n no

theorem isFillWord_clearHeaderBit (hwords n no) : isFillWord (clearHeaderBit hwords n) no =
      (isFillWord hwords no && !decide (no = n)) := by
  rw [isFillWord_eq, isFillWord_eq]
  exact msbBit_clear (by decide) hwords n no

theorem isFillWord_copyWords (target src count no) :
    isFillWord (copyWords target 0 src count) no =
      if no / wordSize < count then isFillWord src no else isFillWord target no := by
  simp only [isFillWord, copyWords, Nat.zero_le, true_and, zero_add]
  split <;> rfl

section

variable (words : WordArray) (bits : Nat)

theorem rshift_fold (nwords) : (range nwords).foldl (rshiftStep bits) (words, 0) =
      (fun k => if k < nwords then shiftRightWords words bits k else words k,
        if nwords = 0 then 0 else words (nwords - 1) <<< (wordSize - bits)) := by
  induction nwords with
  | zero => simp
  | succ nwords ih =>
    rw [range_succ, foldl_append, ih, foldl_cons, foldl_nil, rshiftStep]
    refine Prod.ext (funext fun k => ?_) ?_
    · rcases Nat.lt_trichotomy k nwords with pre | same | behind
      · simp [update_of_ne (ne_of_lt pre), pre, Nat.lt_succ_of_lt pre]
      · subst same
        simp [shiftRightWords, wordSize]
      · have notYet : ¬ k < nwords + 1 := by omega
        simp [update_of_ne (ne_of_gt behind), notYet, not_lt.mpr (le_of_lt behind)]
    · simp

theorem lshift_fold (nwords k) : (range nwords).foldl (lshiftStep bits) words k =
      if k + 1 < nwords then shiftLeftWords words bits k
      else if k + 1 = nwords then words k <<< bits else words k := by
  induction nwords generalizing k with
  | zero => simp
  | succ nwords ih =>
    rw [range_succ, foldl_append, foldl_cons, foldl_nil]
    generalize (range nwords).foldl (lshiftStep bits) words = state at ih
    have cur : state nwords = words nwords := by
      rw [ih, if_neg (by omega), if_neg (by omega)]
    simp only [lshiftStep, cur]
    rcases Nat.eq_zero_or_pos nwords with first | later
    · subst first
      by_cases isFirst : k = 0
      · simp [isFirst]
      · simp [isFirst, ih]
    · have prev : state (nwords - 1) = words (nwords - 1) <<< bits := by
        rw [ih, if_neg (by omega), if_pos (by omega)]
      have ne : nwords - 1 ≠ nwords := by omega
      rw [if_pos (by omega), update_of_ne ne, prev]
      rcases Nat.lt_trichotomy k nwords with _ | same | _
      · by_cases isPrevious : k = nwords - 1
        · subst isPrevious
          rw [update_self, if_pos (by omega), shiftLeftWords, Nat.sub_add_cancel later]
          rfl
        · rw [update_of_ne isPrevious, update_of_ne (by omega),
            ih, if_pos (by omega), if_pos (by omega)]
      · subst same
        rw [update_of_ne (by omega), update_self, if_neg (by omega), if_pos rfl]
      · rw [update_of_ne (by omega), update_of_ne (by omega),
          ih, if_neg (by omega), if_neg (by omega), if_neg (by omega),
          if_neg (by omega)]

end

/-! ### Shifting from a position on -/

section

variable {words : WordArray} {size last shift : Nat}

/-- The loop of `shift_header_bits` after `done` iterations: the words from
`lastWord - done + 2` on have all their bits, the word before them still lacks
the bits of its left neighbour. -/
private theorem shift_fold (zeros : ∀ k, last < k → words k = 0) {done}
    (le : done ≤ last) {k} (lt : k < size) :
    (range done).foldl (fun words i => shiftStep size shift words (last - i)) words k =
      if k ≤ last - done then words k
      else if k = last - done + 1 then words k >>> shift
      else shiftRightWords words shift k := by
  induction done generalizing k with
  | zero =>
    rw [range_zero, foldl_nil, Nat.sub_zero]
    split
    · rfl
    · have isZero := zeros k (by omega)
      split
      · rw [isZero]
        simp
      · rw [shiftRightWords, isZero, zeros (k - 1) (by omega)]
        simp
  | succ done ih =>
    rw [range_succ, foldl_append, foldl_cons, foldl_nil]
    have old := fun k => @ih (by omega) k
    generalize (range done).foldl
      (fun words i => shiftStep size shift words (last - i)) words = state
      at old
    simp only [shiftStep]
    by_cases isCurrent : k = last - done
    · subst isCurrent
      have same := old (last - done) lt
      rw [if_pos le_rfl] at same
      rw [if_neg (show ¬ last - done ≤ last - (done + 1) by omega),
        if_pos (show last - done = last - (done + 1) + 1 by omega)]
      split
      · rw [update_of_ne (by omega), update_self, same]
      · rw [update_self, same]
    · by_cases isNext : k = last - done + 1
      · subst isNext
        have half := old (last - done + 1) lt
        have same := old (last - done) (by omega)
        rw [if_neg (by omega), if_pos rfl] at half
        rw [if_pos le_rfl] at same
        rw [if_pos (show last - done < size - 1 by omega), update_self,
          update_of_ne (by omega), half, same, if_neg (by omega),
          if_neg (by omega), shiftRightWords, if_neg (by omega)]
        rfl
      · have other := old k lt
        rw [apply_ite (fun words : WordArray => words k), update_of_ne isNext,
          update_of_ne isCurrent, ite_self, other]
        by_cases pre : k ≤ last - (done + 1)
        · rw [if_pos pre, if_pos (by omega)]
        · rw [if_neg pre, if_neg (by omega), if_neg isNext, if_neg (by omega)]

/-- The bits of the word that holds `startLoc`, after the shift. -/
private theorem getMsbD_startWord (word : Word) {off shift} (inWord : off < 64)
    (small : shift < 64) (i : Nat) :
    ((if off > 0 then (word >>> (64 - off)) <<< (64 - off) else 0) |||
      ((word <<< off) >>> off) >>>
        (if 64 - off < shift then 64 - off else shift)).getMsbD i =
      ((decide (i < off) && word.getMsbD i) ||
        (decide (i < 64 ∧ off + shift ≤ i) && word.getMsbD (i - shift))) := by
  rw [getMsbD_or, getMsbD_ushiftRight, getMsbD_dropLeft]
  congr 1
  · split
    case isTrue pos => exact getMsbD_takeLeft word (le_of_lt inWord) i
    case isFalse zero =>
      have isZero : off = 0 := by omega
      simp [isZero]
  · split
    case isTrue long =>
      -- no bit of the shifted part stays in the word
      have out : ¬ (i < 64 ∧ off + shift ≤ i) := by omega
      rw [decide_eq_false out, Bool.false_and]
      by_cases first : i < 64
      · by_cases snd : i < 64 - off
        · simp [snd]
        · have third : ¬ off ≤ i - (64 - off) := by omega
          simp [third]
      · simp [first]
    case isFalse short =>
      by_cases kept : i < 64 ∧ off + shift ≤ i
      · have notBelow : ¬ i < shift := by omega
        have above : off ≤ i - shift := by omega
        simp [kept, notBelow, above]
      · rw [decide_eq_false kept, Bool.false_and]
        by_cases first : i < 64
        · by_cases snd : i < shift
          · simp [snd]
          · have third : ¬ off ≤ i - shift := by omega
            simp [third]
        · simp [first]

/-- The bits the next word takes over from the word that holds `startLoc`. -/
private theorem getMsbD_carry (word : Word) {off shift} (inWord : off < 64)
    (pos : 0 < shift) (small : shift < 64) {i} (below : i < 64) :
    ((((word <<< off) >>> off) <<<
        (64 - if 64 - off < shift then 64 - off else shift)) >>>
          (shift - if 64 - off < shift then 64 - off else shift)).getMsbD i =
      (decide (off + shift ≤ i + 64) && word.getMsbD (i + 64 - shift)) := by
  rw [getMsbD_ushiftRight, getMsbD_shiftLeft, getMsbD_dropLeft]
  split
  case isTrue long =>
    by_cases taken : off + shift ≤ i + 64
    · have notBelow : ¬ i < shift - (64 - off) := by omega
      have position : i - (shift - (64 - off)) + (64 - (64 - off)) = i + 64 - shift := by
        omega
      have above : off ≤ i + 64 - shift := by omega
      simp [below, taken, notBelow, position, above]
    · have isBelow : i < shift - (64 - off) := by omega
      simp [isBelow, taken]
  case isFalse short =>
    have position : i + (64 - shift) = i + 64 - shift := by omega
    have same : off ≤ i + 64 - shift ↔ off + shift ≤ i + 64 := by omega
    simp [below, position, same]

section

variable (state : WordArray) (loc : Nat)

private theorem shiftStartWord_other {k} (notStart : k ≠ loc / 64)
    (notNext : k ≠ loc / 64 + 1) :
    shiftStartWord size loc shift state k = state k := by
  by_cases room : loc / 64 < size - 1
  · simp only [shiftStartWord, wordSize, room, if_true]
    rw [update_of_ne notNext, update_of_ne notStart]
  · simp only [shiftStartWord, wordSize, room, if_false]
    rw [update_of_ne notStart]

private theorem shiftStartWord_start :
    shiftStartWord size loc shift state (loc / 64) = (if loc % 64 > 0 then
        (state (loc / 64) >>> (64 - loc % 64)) <<< (64 - loc % 64) else 0) |||
      ((state (loc / 64) <<< (loc % 64)) >>> (loc % 64)) >>>
        (if 64 - loc % 64 < shift then 64 - loc % 64 else shift) := by
  by_cases room : loc / 64 < size - 1
  · simp only [shiftStartWord, wordSize, room, if_true]
    rw [update_of_ne (by omega), update_self]
    rfl
  · simp only [shiftStartWord, wordSize, room, if_false]
    rw [update_self]
    rfl

private theorem shiftStartWord_next (lt : loc / 64 + 1 < size) :
    shiftStartWord size loc shift state (loc / 64 + 1) = state (loc / 64 + 1) |||
      ((((state (loc / 64) <<< (loc % 64)) >>> (loc % 64)) <<<
        (64 - if 64 - loc % 64 < shift then 64 - loc % 64 else shift)) >>>
          (shift - if 64 - loc % 64 < shift then 64 - loc % 64 else shift)) := by
  have room : loc / 64 < size - 1 := by omega
  simp only [shiftStartWord, wordSize, room, if_true]
  rw [update_self, update_of_ne (by omega)]
  rfl

end

/-- The flags from `startLoc` on move to the right; the gap is clear. -/
theorem isFillWord_shiftHeaderBits {numOfBits loc} (pos : 0 < shift)
    (small : shift < wordSize) (start : loc ≤ numOfBits) (ne : 0 < numOfBits)
    (zeros : ∀ k, (numOfBits - 1) / wordSize < k → words k = 0) {no}
    (lt : no < size * wordSize) :
    isFillWord (shiftHeaderBits words numOfBits size loc shift) no =
      if no < loc then isFillWord words no
      else (decide (loc + shift ≤ no) && isFillWord words (no - shift)) := by
  simp only [isFillWord_eq, shiftHeaderBits]
  generalize isLast : (numOfBits - 1) / wordSize = last at *
  simp only [wordSize] at *
  have loop := fun k => @shift_fold words size last shift zeros (last - loc / 64) (by omega) k
  generalize (range (last - loc / 64)).foldl
    (fun words i => shiftStep size shift words (last - i)) words = state at loop
  have low : ∀ k, k < size → k ≤ loc / 64 → state k = words k := by
    intro k below _
    rw [loop k below]
    split
    · rfl
    · have isZero := zeros k (by omega)
      have atEnd : k = last - (last - loc / 64) + 1 := by omega
      rw [if_pos atEnd, isZero]
      simp
  have next : loc / 64 + 1 < size →
      state (loc / 64 + 1) = words (loc / 64 + 1) >>> shift := by
    intro below
    rw [loop _ below, if_neg (by omega)]
    split
    · rfl
    · rw [shiftRightWords, Nat.add_sub_cancel, zeros (loc / 64) (by omega)]
      simp
  have high : ∀ k, k < size → loc / 64 + 1 < k → state k = shiftRightWords words shift k := by
    intro k below _
    rw [loop k below, if_neg (by omega), if_neg (by omega)]
  have inArray : no / 64 < size := by omega
  have inBits : no % 64 < 64 := Nat.mod_lt _ (by decide)
  rcases Nat.lt_trichotomy (no / 64) (loc / 64) with pre | same | _
  · rw [if_pos (show no < loc by omega)]
    apply msbBit_congr
    rw [shiftStartWord_other _ _ (by omega) (by omega)]
    exact low _ inArray (le_of_lt pre)
  · rw [msbBit, same, shiftStartWord_start, low _ (same ▸ inArray) le_rfl,
      getMsbD_startWord _ (by omega) small]
    by_cases isBefore : no < loc
    · have first : no % 64 < loc % 64 := by omega
      have snd : ¬ (no % 64 < 64 ∧ loc % 64 + shift ≤ no % 64) := by omega
      rw [if_pos isBefore, decide_eq_true first, decide_eq_false snd, msbBit, same]
      simp
    · have first : ¬ no % 64 < loc % 64 := by omega
      rw [if_neg isBefore, decide_eq_false first, Bool.false_and, Bool.false_or]
      by_cases shifted : loc + shift ≤ no
      · have snd : no % 64 < 64 ∧ loc % 64 + shift ≤ no % 64 := by omega
        have word : (no - shift) / 64 = loc / 64 := by omega
        have bit : (no - shift) % 64 = no % 64 - shift := by omega
        rw [decide_eq_true snd, decide_eq_true shifted, msbBit, word, bit]
      · have snd : ¬ (no % 64 < 64 ∧ loc % 64 + shift ≤ no % 64) := by omega
        rw [decide_eq_false snd, decide_eq_false shifted]
        simp
  · have isAfter : ¬ no < loc := by omega
    rw [if_neg isAfter]
    by_cases isNext : no / 64 = loc / 64 + 1
    · rw [msbBit, isNext, shiftStartWord_next _ _ (by omega), next (by omega),
        low _ (by omega) le_rfl, getMsbD_or, getMsbD_ushiftRight,
        getMsbD_carry _ (by omega) pos small inBits]
      rcases lt_or_ge (no % 64) shift with carried | own
      · have word : (no - shift) / 64 = loc / 64 := by omega
        have bit : (no - shift) % 64 = no % 64 + 64 - shift := by omega
        have same : loc % 64 + shift ≤ no % 64 + 64 ↔ loc + shift ≤ no := by
          omega
        simp [carried, msbBit, word, bit, same]
      · have word : (no - shift) / 64 = loc / 64 + 1 := by omega
        have bit : (no - shift) % 64 = no % 64 - shift := by omega
        have shifted : loc + shift ≤ no := by omega
        rw [getMsbD_of_ge _ (no % 64 + 64 - shift) (by omega)]
        simp [inBits, msbBit, word, bit, shifted, not_lt.mpr own]
    · have shifted : loc + shift ≤ no := by omega
      have congruent : msbBit (shiftStartWord size loc shift state) no =
          msbBit (shiftRightWords words shift) no := by
        apply msbBit_congr
        rw [shiftStartWord_other _ _ (by omega) isNext]
        exact high _ inArray (by omega)
      have late : shift ≤ no := by omega
      rw [congruent, msbBit_shiftRightWords words small, decide_eq_true late,
        decide_eq_true shifted]

end

end Greengage.Bitmap
