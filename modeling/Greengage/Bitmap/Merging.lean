import Greengage.Bitmap.Vector

/-!
Contract: `mergewords` appends the last word of a buffer to its complete words.

The bound on the number of bits keeps fill lengths away from `MAX_FILL_LENGTH`.
-/

namespace Greengage.Bitmap

open List Greengage.Foundations HrlWord

variable {buf : BMTIDBuffer}

@[simp] theorem bufExtend_curword : (bufExtend buf).curword = buf.curword := by
  unfold bufExtend
  split
  · rfl
  · split <;> rfl

@[simp] theorem bufExtend_hwords : (bufExtend buf).hwords = buf.hwords := by
  unfold bufExtend
  split
  · rfl
  · split <;> rfl

theorem bufExtend_last : (bufExtend buf).lastCompword = buf.lastCompword ∧
    (bufExtend buf).isLastCompwordFill = buf.isLastCompwordFill ∧
      (bufExtend buf).lastWord = buf.lastWord ∧ (bufExtend buf).lastTid = buf.lastTid := by
  unfold bufExtend
  split
  · exact ⟨rfl, rfl, rfl, rfl⟩
  · split <;> exact ⟨rfl, rfl, rfl, rfl⟩

theorem bufExtend_room (cap : buf.curword ≤ buf.numCwords) :
    buf.curword < (bufExtend buf).numCwords := by
  unfold bufExtend
  split
  case isTrue le => omega
  case isFalse few =>
    split
    · simp only [bufInitWords]
      omega
    · simp only
      omega

theorem bufExtend_array (cap : buf.curword ≤ buf.numCwords) {i} (used : i < buf.curword) :
    (bufExtend buf).cwords i = buf.cwords i ∧ (bufExtend buf).lastTids i = buf.lastTids i := by
  have inArray : i < buf.numCwords := by omega
  unfold bufExtend
  split
  · exact ⟨rfl, rfl⟩
  · rw [if_neg (by omega)]
    exact ⟨if_pos inArray, if_pos inArray⟩

variable {fill : Bool}

section

variable {lastTid : Nat}

theorem isFillWord_mergewordsAppend (i) :
    isFillWord (mergewordsAppend buf fill lastTid).hwords i =
      (isFillWord buf.hwords i || (buf.isLastCompwordFill && decide (i = buf.curword))) := by
  simp only [mergewordsAppend, bufExtend_curword, bufExtend_hwords, bufExtend_last.2.1]
  cases buf.isLastCompwordFill with
  | true =>
    rw [if_pos rfl, isFillWord_set]
    rfl
  | false => simp

theorem mergewordsAppend_words (cap : buf.curword ≤ buf.numCwords)
    (clean : HeaderClean buf.hwords buf.curword) :
    bufWords (mergewordsAppend buf fill lastTid) =
      bufWords buf ++ [⟨buf.isLastCompwordFill, buf.lastCompword⟩] := by
  have count : (mergewordsAppend buf fill lastTid).curword = buf.curword + 1 := by
    simp [mergewordsAppend]
  have last : (mergewordsAppend buf fill lastTid).cwords buf.curword = buf.lastCompword := by
    simp [mergewordsAppend, bufExtend_last]
  rw [bufWords, count, wordsOf_succ, last, isFillWord_mergewordsAppend, clean _ le_rfl]
  congr 1
  · apply wordsOf_congr
    · intro i below
      rw [isFillWord_mergewordsAppend, decide_eq_false (by omega), Bool.and_false, Bool.or_false]
    · intro i below
      have other : i ≠ buf.curword := by omega
      simp only [mergewordsAppend, bufExtend_curword, Function.update_of_ne other,
        (bufExtend_array cap below).1]
  · simp

theorem mergewordsAppend_clean (clean : HeaderClean buf.hwords buf.curword) :
    HeaderClean (mergewordsAppend buf fill lastTid).hwords (buf.curword + 1) := by
  intro i _
  rw [isFillWord_mergewordsAppend, clean i (by omega), decide_eq_false (by omega)]
  simp

theorem mergewordsAppend_lastTids (cap : buf.curword ≤ buf.numCwords) {i}
    (used : i < buf.curword + 1) :
    (mergewordsAppend buf fill lastTid).lastTids i =
      if i = buf.curword then lastTid else buf.lastTids i := by
  simp only [mergewordsAppend, bufExtend_curword, Function.update_apply]
  split
  · rfl
  · exact (bufExtend_array cap (by omega)).2

end

/-! ### The merge -/

/-- The last word of `buf` became a complete word of `buf'`. -/
structure Merged (base : Nat) (buf buf' : BMTIDBuffer) (isFill : Bool) : Prop where
  ok : BufOk base buf'
  complete : expand (bufComplete buf') =
    expand (bufComplete buf) ++ HrlWord.bits ⟨isFill, buf.lastWord⟩
  lastWord : buf'.lastWord = 0
  lastTid : buf'.lastTid = base + (expand (bufComplete buf')).length
  curword : buf'.curword ≤ buf.curword + 1

theorem compWords_of_ne {word} (set : word ≠ literalAllOne) (fill) :
    compWords word fill = [⟨fill, word⟩] := if_neg set

theorem ne_allOne_of_fill {word} (bound : fillLength word < maxFillLength) :
    word ≠ literalAllOne := by
  rintro rfl
  have full : fillLength literalAllOne = maxFillLength := by decide
  omega

theorem HrlWord.ne_allOne {word : HrlWord} (bound : word.bits.length < 2 ^ 63)
    (notOnes : word.fill = false → word.word ≠ literalAllOne) : word.word ≠ literalAllOne := by
  cases fill : word.fill with
  | false => exact notOnes fill
  | true =>
    apply ne_allOne_of_fill
    rw [length_bits, fill, if_pos rfl] at bound
    simp only [maxFillLength, wordSize] at *
    omega

section

variable {base : Nat} (ok : BufOk base buf) (pos : HrlWord.Positive ⟨fill, buf.lastWord⟩)
  (notOnes : fill = false → buf.lastWord ≠ literalAllOne)
  (bound : base + (expand (bufComplete buf)).length +
    (bits ⟨fill, buf.lastWord⟩).length < 2 ^ 63)
include ok

include bound

private theorem Merged.of {buf'} (compl : expand (bufComplete buf') =
      expand (bufComplete buf) ++ bits ⟨fill, buf.lastWord⟩)
    (lastTid : buf'.lastTid = base + (expand (bufComplete buf')).length)
    (last : buf'.lastWord = 0) (set : buf'.lastCompword ≠ literalAllOne)
    (allPositive : ∀ word ∈ bufComplete buf', word.Positive)
    (clean : HeaderClean buf'.hwords buf'.curword) (lastTids : ∀ i < buf'.curword,
      buf'.lastTids i = base + (expand ((bufWords buf').take (i + 1))).length)
    (cap : buf'.curword ≤ buf'.numCwords) (curword : buf'.curword ≤ buf.curword + 1) :
    Merged base buf buf' fill := by
  have aligned : buf'.lastTid % wordSize = 0 := by
    rw [lastTid, Nat.add_mod, ok.aligned, length_expand_mod]
    rfl
  refine ⟨⟨ok.aligned, ?_, fun ones => absurd ones set, allPositive, clean, lastTids, cap, ?_⟩,
    compl, last, lastTid, curword⟩
  · rw [aligned, Nat.sub_zero, lastTid]
  · rw [lastTid, compl, length_append]
    omega

include notOnes

omit ok in
private theorem lastWord_set : buf.lastWord ≠ literalAllOne :=
  @ne_allOne ⟨fill, buf.lastWord⟩ (by omega) notOnes

include pos

private theorem merge_unset (unset : buf.lastCompword = literalAllOne) :
    Merged base buf (mergewords buf fill) fill := by
  obtain ⟨noBase, noWords, _⟩ := ok.unset unset
  have none : bufComplete buf = [] := by
    rw [bufComplete, bufWords, noWords, compWords, if_pos unset]
    rfl
  have set := lastWord_set notOnes bound
  rw [mergewords, if_pos unset]
  have words : bufComplete { buf with
      lastCompword := buf.lastWord
      isLastCompwordFill := fill
      lastWord := 0
      lastTid := if fill then fillLength buf.lastWord * wordSize else wordSize } =
        [⟨fill, buf.lastWord⟩] := by
    rw [bufComplete, bufWords, noWords, compWords_of_ne set]
    rfl
  refine Merged.of ok bound ?_ ?_ rfl set ?_ ok.clean ok.lastTids ok.capacity (Nat.le_succ _)
  · rw [words, none, expand_singleton, expand_nil, nil_append]
  · rw [words, noBase, expand_singleton, length_bits, zero_add]
  · rw [words]
    simpa using pos

private theorem merge_fill (set : buf.lastCompword ≠ literalAllOne)
    (fills : buf.isLastCompwordFill = true ∧ fill = true ∧
      getFillBit buf.lastCompword = getFillBit buf.lastWord) :
    Merged base buf (mergewords buf fill) fill := by
  obtain ⟨compFill, rfl, sameBit⟩ := fills
  have compl : bufComplete buf = bufWords buf ++ [⟨true, buf.lastCompword⟩] := by
    rw [bufComplete, compWords_of_ne set, compFill]
  have lengths : fillLength buf.lastCompword * wordSize + fillLength buf.lastWord * wordSize <
      2 ^ 63 := by
    rw [compl, expand_append, expand_cons, length_append, length_append,
      length_bits, length_bits, if_pos rfl, if_pos rfl] at bound
    simp only at bound
    omega
  have small : fillLength buf.lastCompword + fillLength buf.lastWord < maxFillLength := by
    simp only [maxFillLength, wordSize] at *
    omega
  obtain ⟨len, bit⟩ := add_fill sameBit (le_of_lt small)
  have value : mergewords buf true = { buf with
      lastCompword := buf.lastCompword + BitVec.ofNat 64 (fillLength buf.lastWord)
      lastWord := literalAllZero
      lastTid := buf.lastTid - buf.lastTid % wordSize + fillLength buf.lastWord * wordSize } := by
    rw [mergewords, if_neg set, if_pos ⟨compFill, rfl, sameBit⟩, if_pos (le_of_lt small)]
  have set' : buf.lastCompword + BitVec.ofNat 64 (fillLength buf.lastWord) ≠ literalAllOne :=
    ne_allOne_of_fill (by omega)
  rw [value]
  have words : bufComplete { buf with
      lastCompword := buf.lastCompword + BitVec.ofNat 64 (fillLength buf.lastWord)
      lastWord := literalAllZero
      lastTid := buf.lastTid - buf.lastTid % wordSize + fillLength buf.lastWord * wordSize } =
        bufWords buf ++ [⟨true, buf.lastCompword + BitVec.ofNat 64 (fillLength buf.lastWord)⟩] := by
    rw [bufComplete, compWords_of_ne set', compFill]
    rfl
  have bits : HrlWord.bits ⟨true, buf.lastCompword + BitVec.ofNat 64 (fillLength buf.lastWord)⟩ =
      HrlWord.bits ⟨true, buf.lastCompword⟩ ++ HrlWord.bits ⟨true, buf.lastWord⟩ := by
    simp only [HrlWord.bits, if_true, len, bit, sameBit, add_mul, replicate_append_replicate]
  have expanded : expand (bufWords buf ++
      [⟨true, buf.lastCompword + BitVec.ofNat 64 (fillLength buf.lastWord)⟩]) =
        expand (bufComplete buf) ++ HrlWord.bits ⟨true, buf.lastWord⟩ := by
    rw [compl, expand_append, expand_append, expand_cons, expand_cons, bits, expand_nil,
      append_nil, append_nil, append_assoc]
  refine Merged.of ok bound ?_ ?_ rfl set' ?_ ok.clean ok.lastTids ok.capacity (Nat.le_succ _)
  · rw [words, expanded]
  · rw [words, expanded, length_append, length_bits, if_pos rfl, ← add_assoc,
      ← ok.position]
  · rw [words]
    intro word mem
    rcases mem_append.mp mem with old | new
    · exact ok.positive word (by rw [compl]; exact mem_append_left _ old)
    · rw [mem_singleton.mp new]
      intro _
      have lastPositive : 0 < fillLength buf.lastWord := pos rfl
      simp only
      omega

private theorem merge_append (set : buf.lastCompword ≠ literalAllOne)
    (notFills : ¬ (buf.isLastCompwordFill = true ∧ fill = true ∧
      getFillBit buf.lastCompword = getFillBit buf.lastWord)) :
    Merged base buf (mergewords buf fill) fill := by
  have lastSet := lastWord_set notOnes bound
  have compl : bufComplete buf = bufWords buf ++ [⟨buf.isLastCompwordFill, buf.lastCompword⟩] := by
    rw [bufComplete, compWords_of_ne set]
  have value : mergewords buf fill =
      mergewordsAppend buf fill (buf.lastTid - buf.lastTid % wordSize) := by
    rw [mergewords, if_neg set, if_neg notFills]
  rw [value]
  obtain ⟨lastTid, lastTidDef⟩ := @exists_eq _ (buf.lastTid - buf.lastTid % wordSize)
  have appended := @mergewordsAppend_words buf fill lastTid ok.capacity ok.clean
  have last : (mergewordsAppend buf fill lastTid).lastCompword = buf.lastWord :=
    bufExtend_last.2.2.1
  have count : (mergewordsAppend buf fill lastTid).curword = buf.curword + 1 := by
    simp [mergewordsAppend]
  have words : bufComplete (mergewordsAppend buf fill lastTid) =
      bufComplete buf ++ [⟨fill, buf.lastWord⟩] := by
    rw [bufComplete, appended, last, compWords_of_ne lastSet, compl]
    rfl
  have expanded : expand (bufComplete (mergewordsAppend buf fill lastTid)) =
      expand (bufComplete buf) ++ bits ⟨fill, buf.lastWord⟩ := by
    rw [words, expand_append, expand_singleton]
  rw [← lastTidDef]
  refine Merged.of ok bound expanded ?_ rfl (by rw [last]; exact lastSet) ?_ ?_ ?_ ?_ (by omega)
  · rw [expanded, length_append, length_bits, ← add_assoc, ← ok.position, ← lastTidDef]
    simp only [mergewordsAppend, bufExtend_last.2.2.1]
  · rw [words]
    exact forall_mem_append.mpr ⟨ok.positive, forall_mem_singleton.mpr pos⟩
  · rw [count]
    exact mergewordsAppend_clean ok.clean
  · intro i used
    rw [count] at used
    have len : (bufWords buf).length = buf.curword := length_wordsOf _ _ _
    rw [mergewordsAppend_lastTids ok.capacity used, appended]
    split
    case isTrue new =>
      rw [take_of_length_le (by simp [len, new]), ← compl, lastTidDef, ok.position]
    case isFalse old =>
      rw [take_append_of_le_length (by omega), ok.lastTids i (by omega)]
  · rw [count]
    exact bufExtend_room ok.capacity

theorem mergewords_spec : Merged base buf (mergewords buf fill) fill := by
  by_cases unset : buf.lastCompword = literalAllOne
  · exact merge_unset ok pos notOnes bound unset
  · by_cases fills : buf.isLastCompwordFill = true ∧ fill = true ∧
      getFillBit buf.lastCompword = getFillBit buf.lastWord
    · exact merge_fill ok pos notOnes bound unset fills
    · exact merge_append ok pos notOnes bound unset fills

end

end Greengage.Bitmap
