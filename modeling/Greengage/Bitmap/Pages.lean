import Greengage.Bitmap.Bits

/-!
Contract: what the page routines of `bitmapinsert.c` do to the words of a page.

The header bits behind the used words of a page are clear; both routines rely on it and
keep it.
-/

namespace Greengage.Bitmap

open Function Greengage.Foundations

def pageWords (page : BMBitmapPage) : List HrlWord :=
  wordsOf page.hwords page.cwords page.hrlWordsUsed

def bufWords (buf : BMTIDBuffer) : List HrlWord := wordsOf buf.hwords buf.cwords buf.curword

def HeaderClean (hwords : WordArray) (used : Nat) : Prop :=
  ∀ i, used ≤ i → isFillWord hwords i = false

/-! ### Appending words -/

section

variable (buf : BMTIDBuffer) (startWordNo count : Nat)

private def rawHwords : WordArray := fun i =>
  if i < (startWordNo + count - 1) / wordSize - startWordNo / wordSize + 1
  then buf.hwords (startWordNo / wordSize + i) else 0

private def cutFirst : WordArray :=
  update (rawHwords buf startWordNo count) 0
    ((rawHwords buf startWordNo count 0 <<< (startWordNo % wordSize)) >>> (startWordNo % wordSize))

private def cutHwords : WordArray :=
  let numHwords := (startWordNo + count - 1) / wordSize - startWordNo / wordSize + 1
  let endHwordBit := (startWordNo + count - 1) % wordSize
  update (cutFirst buf startWordNo count) (numHwords - 1)
    ((cutFirst buf startWordNo count (numHwords - 1) >>> (wordSize - endHwordBit - 1)) <<<
      (wordSize - endHwordBit - 1))

private theorem cutHwords_beyond {k}
    (ge : (startWordNo + count - 1) / wordSize - startWordNo / wordSize < k) :
    cutHwords buf startWordNo count k = 0 := by
  rw [cutHwords, update_of_ne (by omega), cutFirst, update_of_ne (by omega),
    rawHwords, if_neg (by omega)]

private theorem isFillWord_cutHwords (pos : 0 < count) (i) :
    isFillWord (cutHwords buf startWordNo count) i =
      (decide (startWordNo % wordSize ≤ i ∧ i < startWordNo % wordSize + count) &&
        isFillWord buf.hwords (startWordNo / wordSize * wordSize + i)) := by
  simp only [isFillWord_eq, msbBit]
  have word : (startWordNo / wordSize * wordSize + i) / 64 = startWordNo / wordSize + i / 64 := by
    simp only [wordSize]
    omega
  have bit : (startWordNo / wordSize * wordSize + i) % 64 = i % 64 := by
    simp only [wordSize]
    omega
  rw [word, bit]
  rcases lt_or_ge ((startWordNo + count - 1) / wordSize - startWordNo / wordSize) (i / 64)
    with ge | _
  · rw [cutHwords_beyond buf startWordNo count ge]
    have out : ¬ (startWordNo % wordSize ≤ i ∧ i < startWordNo % wordSize + count) := by
      simp only [wordSize] at *
      omega
    simp [out]
  · have value : rawHwords buf startWordNo count (i / 64) =
        buf.hwords (startWordNo / wordSize + i / 64) := if_pos (by omega)
    have first : (cutFirst buf startWordNo count (i / 64)).getMsbD (i % 64) =
        (decide (i / 64 = 0 → startWordNo % wordSize ≤ i % 64) &&
          (rawHwords buf startWordNo count (i / 64)).getMsbD (i % 64)) := by
      by_cases isFirst : i / 64 = 0
      · rw [cutFirst, isFirst, update_self, getMsbD_dropLeft]
        simp
      · rw [cutFirst, update_of_ne isFirst]
        simp [isFirst]
    have shape : wordSize - (startWordNo + count - 1) % wordSize - 1 =
        64 - ((startWordNo + count - 1) % wordSize + 1) := rfl
    by_cases isLast : i / 64 = (startWordNo + count - 1) / wordSize - startWordNo / wordSize + 1 - 1
    · rw [cutHwords, isLast, update_self, shape,
        getMsbD_takeLeft _ (by simp only [wordSize]; omega), ← isLast, first, value,
        ← Bool.and_assoc, ← Bool.decide_and]
      congr 1
      rw [decide_eq_decide]
      simp only [wordSize] at *
      omega
    · rw [cutHwords, update_of_ne isLast, first, value]
      congr 1
      rw [decide_eq_decide]
      simp only [wordSize] at *
      omega

/-- The header words after they were moved to the position of the page. -/
private def movedHwords (used : Nat) : WordArray :=
  let numHwords := (startWordNo + count - 1) / wordSize - startWordNo / wordSize + 1
  if used % wordSize > startWordNo % wordSize then
    rshiftHeaderBits (cutHwords buf startWordNo count) (numHwords + 1)
      (used % wordSize - startWordNo % wordSize)
  else if used % wordSize < startWordNo % wordSize then
    lshiftHeaderBits (cutHwords buf startWordNo count) numHwords
      (startWordNo % wordSize - used % wordSize)
  else cutHwords buf startWordNo count

private theorem isFillWord_movedHwords (pos : 0 < count) (used i) :
    isFillWord (movedHwords buf startWordNo count used) i =
      (decide (used % wordSize ≤ i ∧ i < used % wordSize + count) &&
        isFillWord buf.hwords (startWordNo + (i - used % wordSize))) := by
  have cut := isFillWord_cutHwords buf startWordNo count pos
  have zero := fun k => @cutHwords_beyond buf startWordNo count k
  have := Nat.div_add_mod' startWordNo wordSize
  -- a bit of the result is one of the cut words, at its new position
  have same {lt} [Decidable lt] {position : Nat}
      (isInside : lt ↔ used % wordSize ≤ i ∧ i < used % wordSize + count)
      (isPosition : lt → position = startWordNo + (i - used % wordSize)) :
      (decide lt && isFillWord buf.hwords position) =
        (decide (used % wordSize ≤ i ∧ i < used % wordSize + count) &&
          isFillWord buf.hwords (startWordNo + (i - used % wordSize))) := by
    rw [← decide_eq_decide.mpr isInside]
    by_cases holds : lt
    · rw [isPosition holds]
    · rw [decide_eq_false holds, Bool.false_and, Bool.false_and]
  unfold movedHwords
  generalize cutHwords buf startWordNo count = hwords at cut zero
  generalize (startWordNo + count - 1) / wordSize - startWordNo / wordSize = last at zero
  split
  case isTrue right =>
    have small : used % wordSize - startWordNo % wordSize < 64 := by
      simp only [wordSize]
      omega
    have whole : rshiftHeaderBits hwords (last + 1 + 1) (used % wordSize - startWordNo % wordSize) =
          shiftRightWords hwords (used % wordSize - startWordNo % wordSize) := by
      funext k
      simp only [rshiftHeaderBits, rshift_fold]
      split
      · rfl
      · rw [shiftRightWords, zero k (by omega), zero (k - 1) (by omega)]
        simp
    rw [whole, isFillWord_eq, msbBit_shiftRightWords _ small, ← isFillWord_eq, cut,
      ← Bool.and_assoc, ← Bool.decide_and]
    exact same (by omega) (by omega)
  case isFalse notRight =>
    split
    case isTrue left =>
      have small : startWordNo % wordSize - used % wordSize < 64 := by
        simp only [wordSize]
        omega
      have whole : lshiftHeaderBits hwords (last + 1) (startWordNo % wordSize - used % wordSize) =
          shiftLeftWords hwords (startWordNo % wordSize - used % wordSize) := by
        funext k
        simp only [lshiftHeaderBits, lshift_fold]
        split
        · rfl
        · split
          · rw [shiftLeftWords, zero (k + 1) (by omega)]
            simp
          · rw [shiftLeftWords, zero k (by omega), zero (k + 1) (by omega)]
            simp
      rw [whole, isFillWord_eq, msbBit_shiftLeftWords _ (by omega) small, ← isFillWord_eq, cut]
      exact same (by omega) (by omega)
    case isFalse notLeft =>
      rw [cut]
      exact same (by omega) (by omega)

/-- The header words of a page that got `count` words of the buffer. -/
private def appendedHwords (page : BMBitmapPage) : WordArray :=
  let moved := movedHwords buf startWordNo count page.hrlWordsUsed
  let first := page.hrlWordsUsed / wordSize
  copyWords (update page.hwords first (page.hwords first ||| moved 0)) (first + 1)
    (fun i => moved (i + 1)) ((page.hrlWordsUsed + count - 1) / wordSize - first)

variable {buf startWordNo count}

private theorem isFillWord_appendedHwords {page} (pos : 0 < count)
    (clean : HeaderClean page.hwords page.hrlWordsUsed) (i) :
    isFillWord (appendedHwords buf startWordNo count page) i =
      if i < page.hrlWordsUsed then isFillWord page.hwords i
      else (decide (i < page.hrlWordsUsed + count) &&
        isFillWord buf.hwords (startWordNo + (i - page.hrlWordsUsed))) := by
  have moved := isFillWord_movedHwords buf startWordNo count pos page.hrlWordsUsed
  have parts := Nat.div_add_mod' page.hrlWordsUsed wordSize
  have combined : isFillWord (appendedHwords buf startWordNo count page) i =
      (isFillWord page.hwords i || (decide (page.hrlWordsUsed / wordSize * wordSize ≤ i) &&
        isFillWord (movedHwords buf startWordNo count page.hrlWordsUsed)
          (i - page.hrlWordsUsed / wordSize * wordSize))) := by
    have nothing : ∀ k, page.hrlWordsUsed % wordSize + count ≤ k →
        isFillWord (movedHwords buf startWordNo count page.hrlWordsUsed) k = false := by
      intro k _
      rw [moved, decide_eq_false (by omega), Bool.false_and]
    obtain ⟨first, firstDef⟩ : ∃ first, page.hrlWordsUsed / 64 = first := ⟨_, rfl⟩
    simp only [isFillWord_eq, HeaderClean, wordSize, firstDef] at nothing clean parts ⊢
    rcases lt_trichotomy (i / 64) first with _ | same | _
    · rw [decide_eq_false (by omega), Bool.false_and, Bool.or_false]
      apply msbBit_congr
      simp only [appendedHwords, copyWords, wordSize]
      rw [if_neg (by omega), update_of_ne (by omega)]
    · have zero : (i - first * 64) / 64 = 0 := by omega
      have bit : (i - first * 64) % 64 = i % 64 := by omega
      rw [decide_eq_true (by omega), Bool.true_and, msbBit, msbBit, msbBit, zero, bit, same,
        ← BitVec.getMsbD_or]
      congr 1
      simp only [appendedHwords, copyWords, wordSize, firstDef]
      rw [if_neg (by omega), update_self]
    · rw [clean i (by omega), Bool.false_or, decide_eq_true (by omega), Bool.true_and]
      rcases lt_or_ge ((page.hrlWordsUsed + count - 1) / 64) (i / 64) with _ | _
      · rw [nothing _ (by omega), ← clean i (by omega)]
        apply msbBit_congr
        simp only [appendedHwords, copyWords, wordSize]
        rw [if_neg (by omega), update_of_ne (by omega)]
      · rw [msbBit, msbBit]
        have word : (i - first * 64) / 64 = i / 64 - (first + 1) + 1 := by omega
        have bit : (i - first * 64) % 64 = i % 64 := by omega
        rw [word, bit]
        congr 1
        simp only [appendedHwords, copyWords, wordSize, firstDef]
        rw [if_pos (by omega)]
  rw [combined, moved]
  split
  case isTrue old =>
    rw [← Bool.and_assoc, ← Bool.decide_and, decide_eq_false (by omega), Bool.false_and,
      Bool.or_false]
  case isFalse new =>
    have position : i - page.hrlWordsUsed / wordSize * wordSize - page.hrlWordsUsed % wordSize =
        i - page.hrlWordsUsed := by omega
    rw [clean i (by omega), position, decide_eq_true (by omega), Bool.false_or, Bool.true_and]
    congr 1
    rw [decide_eq_decide]
    omega

/-- What appending `count` words of a buffer from `start` on does to a page. -/
structure Appended (page page' : BMBitmapPage) (buf : BMTIDBuffer) (start count : Nat) : Prop where
  words : pageWords page' = pageWords page ++ ((bufWords buf).drop start).take count
  used : page'.hrlWordsUsed = page.hrlWordsUsed + count
  clean : HeaderClean page'.hwords page'.hrlWordsUsed
  next : page'.bitmapNext = page.bitmapNext
  lastTid : page'.lastTidLocation =
    if count = 0 then page.lastTidLocation else buf.lastTids (start + count - 1)

/-- `_bitmap_write_bitmapwords_on_page` appends as many words as fit. -/
theorem bitmapWriteBitmapwordsOnPage_spec {page start}
    (clean : HeaderClean page.hwords page.hrlWordsUsed) (blkno) :
    let res := bitmapWriteBitmapwordsOnPage page buf start blkno
    res.2.1 = min (buf.curword - start) (numOfHrlWordsPerPage - page.hrlWordsUsed) ∧
      Appended page res.1 buf start res.2.1 := by
  intro res
  obtain ⟨written, writtenDef⟩ := @exists_eq _
    (if buf.curword - start > numOfHrlWordsPerPage - page.hrlWordsUsed
    then numOfHrlWordsPerPage - page.hrlWordsUsed else buf.curword - start)
  have minimum : written =
      min (buf.curword - start) (numOfHrlWordsPerPage - page.hrlWordsUsed) := by
    rw [writtenDef]
    split <;> omega
  by_cases none : written = 0
  · have value : res = (page, 0, ⟨blkno, page.lastTidLocation, 0, 0, page.hrlWordsUsed, 0,
        page.bitmapNext⟩) := by
      simp only [res, bitmapWriteBitmapwordsOnPage, ← writtenDef, none, if_true]
    rw [value]
    exact ⟨none.symm.trans minimum, by simp, rfl, clean, rfl, rfl⟩
  · have pos : 0 < written := pos_of_ne_zero none
    have page' : res.1 = { page with
        cwords := copyWords page.cwords page.hrlWordsUsed (fun i => buf.cwords (start + i)) written
        hwords := appendedHwords buf start written page
        hrlWordsUsed := page.hrlWordsUsed + written
        lastTidLocation := buf.lastTids (start + written - 1) } := by
      simp only [res, bitmapWriteBitmapwordsOnPage, ← writtenDef, none]
      rfl
    have count : res.2.1 = written := by
      simp only [res, bitmapWriteBitmapwordsOnPage, ← writtenDef, none, if_false]
    have flags := @isFillWord_appendedHwords buf start written page pos clean
    rw [count, page']
    refine ⟨minimum, ?_, rfl, ?_, rfl, (if_neg none).symm⟩
    · rw [pageWords, pageWords, bufWords, take_drop_wordsOf _ _ (by omega), wordsOf_add]
      congr 1
      · apply wordsOf_congr
        · intro i below
          rw [flags, if_pos below]
        · intro i below
          exact if_neg (by omega)
      · apply List.map_congr_left
        intro i mem
        have below := List.mem_range.mp mem
        simp only [copyWords]
        rw [flags, if_neg (by omega), decide_eq_true (by omega), Bool.true_and,
          Nat.add_sub_cancel_left, if_pos (by omega)]
    · intro i ge
      have ge : page.hrlWordsUsed + written ≤ i := ge
      rw [flags, if_neg (by omega), decide_eq_false (by omega), Bool.false_and]

end

end Greengage.Bitmap
