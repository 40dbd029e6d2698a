import Greengage.Bitmap.Updating

/-!
Contract: a bitmap vector at rest, and `updatesetbit` on its last two words.

A set bit of a fill word of ones is kept everywhere but in `bm_last_compword`, which is
split as if it held zeros.
-/

namespace Greengage.Bitmap

open List Greengage.Foundations HrlWord

/-! ### The invariant -/

/-- The invariant of a vector; `blocks` are the pages of its chain. -/
structure VectorOk (vector : BMVector) (blocks : List BlockNumber) : Prop where
  chain : ChainOk vector.pages vector.lovItem.lovHead vector.lovItem.lovTail blocks
  location : vector.lovItem.lastTidLocation = (expand (chainWords vector.pages blocks)).length +
      (expand (lovCompWords vector.lovItem)).length
  setbit : vector.lovItem.lastTidLocation =
    vector.lovItem.lastSetbit - vector.lovItem.lastSetbit % wordSize
  unset : vector.lovItem.lastCompword = literalAllOne →
    (expand (chainWords vector.pages blocks)).length = 0 ∧ vector.lovItem.lovWordsHeader = 0
  positive : ∀ word ∈ lovCompWords vector.lovItem, word.Positive
  header : vector.lovItem.lovWordsHeader = 0 ∨ vector.lovItem.lovWordsHeader = 2
  high : HighClear vector.lovItem.lastWord vector.lovItem.lastSetbit
  bounded : vector.lovItem.lastSetbit < 2 ^ 63

variable {vec : BMVector} {blocks : List BlockNumber}

namespace VectorOk

variable (ok : VectorOk vec blocks)
include ok

theorem bits_eq : vectorBits vec = expand (chainWords vec.pages blocks) ++
    expand (lovCompWords vec.lovItem) ++ literalBits vec.lovItem.lastWord := by
  have same : chainBlocks vec = blocks := ok.chain.blocks_eq
  rw [vectorBits, same, expand_append]

theorem isFill_eq : lastCompwordIsFill vec.lovItem = decide (vec.lovItem.lovWordsHeader ≥ 2) := by
  rw [lastCompwordIsFill]
  rcases ok.header with header | header <;> rw [header] <;> decide

theorem buffered (fill) (same : fill = lastCompwordIsFill vec.lovItem) :
    Buffered vec blocks (loadBuffer vec.lovItem fill) ∧
      bufferedBits vec blocks (loadBuffer vec.lovItem fill) = vectorBits vec := by
  have compl : bufComplete (loadBuffer vec.lovItem fill) = lovCompWords vec.lovItem := by
    rw [same]
    rfl
  refine ⟨⟨ok.chain, ⟨length_expand_mod _, ?_, ?_, ?_, fun i _ => isFillWord_zero i,
    fun i below => absurd below (Nat.not_lt_zero i), le_refl _, ok.bounded⟩, Nat.zero_le _⟩, ?_⟩
  · rw [compl, ← ok.location]
    exact ok.setbit.symm
  · intro ones
    obtain ⟨noChain, hdr⟩ := ok.unset ones
    refine ⟨noChain, rfl, ?_⟩
    show fill = false
    rw [same, lastCompwordIsFill, hdr]
    decide
  · rw [compl]
    exact ok.positive
  · rw [bufferedBits, completeBits, compl, ok.bits_eq]
    rfl

end VectorOk

theorem lastCompwordIsFill_setLastWords (lov buf) :
    lastCompwordIsFill (setLastWords lov buf) = buf.isLastCompwordFill := by
  cases fill : buf.isLastCompwordFill <;> simp [lastCompwordIsFill, setLastWords, fill]

theorem vectorOk_of_buffered {vec blocks buf} (state : Buffered vec blocks buf)
    (noWords : buf.curword = 0) (high : HighClear buf.lastWord buf.lastTid)
    (synced : vec.lovItem = setLastWords vec.lovItem buf) :
    VectorOk vec blocks ∧ vectorBits vec = bufferedBits vec blocks buf := by
  have ok := state.bufOk
  have compl : lovCompWords vec.lovItem = bufComplete buf := by
    have noBufWords : bufWords buf = [] := by
      rw [bufWords, noWords]
      rfl
    rw [lovCompWords, synced, lastCompwordIsFill_setLastWords, bufComplete, noBufWords]
    rfl
  have setbit : vec.lovItem.lastSetbit = buf.lastTid := by rw [synced]; rfl
  have loc : vec.lovItem.lastTidLocation = buf.lastTid - buf.lastTid % wordSize := by
    rw [synced]
    rfl
  have last : vec.lovItem.lastWord = buf.lastWord := by rw [synced]; rfl
  have vectorOk : VectorOk vec blocks := by
    refine ⟨state.chain, ?_, ?_, ?_, ?_, ?_, ?_, ?_⟩
    · rw [compl, loc, ok.position]
    · rw [loc, setbit]
    · intro ones
      have ones' : buf.lastCompword = literalAllOne := by
        rw [synced] at ones
        exact ones
      obtain ⟨noChain, -, notFill⟩ := ok.unset ones'
      refine ⟨noChain, ?_⟩
      rw [synced]
      simp [setLastWords, notFill]
    · rw [compl]
      exact ok.positive
    · rw [synced]
      cases fill : buf.isLastCompwordFill <;> simp [setLastWords]
    · rw [last, setbit]
      exact high
    · rw [setbit]
      exact ok.bounded
  refine ⟨vectorOk, ?_⟩
  rw [vectorOk.bits_eq, bufferedBits, completeBits, compl, last]

/-! ### The branches of `updatesetbit` -/

/-- `tidnum` lies in `bm_last_compword`, and this is a fill word of ones that
stands for more than one word. -/
def InsideOneFill (lovItem : BMLOVItem) (tidnum : Nat) : Prop :=
  lastCompwordIsFill lovItem = true ∧ getFillBit lovItem.lastCompword = 1 ∧
    2 ≤ fillLength lovItem.lastCompword ∧ tidnum ≤ lovItem.lastTidLocation ∧
    lovItem.lastTidLocation < tidnum + fillLength lovItem.lastCompword * wordSize

instance (lovItem : BMLOVItem) (tidnum : Nat) : Decidable (InsideOneFill lovItem tidnum) := by
  unfold InsideOneFill
  infer_instance

/-- `result` is a vector with the bits `bits` and the same last set bit. -/
def UpdatedTo (vector : BMVector) (bits : List Bool) (result : Except BitmapError BMVector) :
    Prop :=
  ∃ vector' blocks', result = .ok vector' ∧ VectorOk vector' blocks' ∧
    vector'.lovItem.lastSetbit = vector.lovItem.lastSetbit ∧ vectorBits vector' = bits

theorem literalBits_lastCompword {lovItem}
    (single : lovItem.lovWordsHeader = 0 ∨ fillLength lovItem.lastCompword = 1) :
    literalBits (if lastCompwordIsFill lovItem then
        if getFillBit lovItem.lastCompword = 1 then literalAllOne else 0
      else lovItem.lastCompword) =
      bits ⟨lastCompwordIsFill lovItem, lovItem.lastCompword⟩ := by
  cases isFill : lastCompwordIsFill lovItem with
  | false => rfl
  | true =>
    have length : fillLength lovItem.lastCompword = 1 := by
      rcases single with hdr | length
      · rw [lastCompwordIsFill, hdr] at isFill
        simp at isFill
      · exact length
    simp only [bits, if_true, length, one_mul]
    split
    case isTrue ones => rw [ones, literalBits_allOne]; rfl
    case isFalse zeros => rw [literalBits_zero, beq_eq_false_iff_ne.mpr zeros]

section

variable {tid : Nat} (ok : VectorOk vec blocks) (positive : 1 ≤ tid)
  (old : tid ≤ vec.lovItem.lastSetbit)
include ok

theorem VectorOk.length_complete :
    (expand (chainWords vec.pages blocks) ++ expand (lovCompWords vec.lovItem)).length =
      vec.lovItem.lastTidLocation := by
  rw [length_append, ok.location]

theorem VectorOk.comp_set (positive : 1 ≤ tid) (compl : tid ≤ vec.lovItem.lastTidLocation) :
    lovCompWords vec.lovItem = [⟨lastCompwordIsFill vec.lovItem, vec.lovItem.lastCompword⟩] ∧
    vec.lovItem.lastCompword ≠ literalAllOne := by
  have set : vec.lovItem.lastCompword ≠ literalAllOne := by
    intro ones
    have none : lovCompWords vec.lovItem = [] := if_pos ones
    have loc := ok.location
    rw [(ok.unset ones).1, none] at loc
    simp at loc
    omega
  exact ⟨compWords_of_ne set _, set⟩

theorem VectorOk.setComp {hdr comp} (isHeader : hdr = 0 ∨ hdr = 2)
    (set : comp ≠ literalAllOne) (positive : Positive ⟨hdr &&& 2 != 0, comp⟩)
    (len : (bits ⟨hdr &&& 2 != 0, comp⟩).length = (expand (lovCompWords vec.lovItem)).length) :
    VectorOk { vec with lovItem :=
        { vec.lovItem with lovWordsHeader := hdr, lastCompword := comp } } blocks ∧
      vectorBits { vec with lovItem :=
        { vec.lovItem with lovWordsHeader := hdr, lastCompword := comp } } =
          expand (chainWords vec.pages blocks) ++ bits ⟨hdr &&& 2 != 0, comp⟩ ++
            literalBits vec.lovItem.lastWord := by
  have words : lovCompWords { vec.lovItem with lovWordsHeader := hdr, lastCompword := comp } =
      [⟨hdr &&& 2 != 0, comp⟩] := compWords_of_ne set _
  have ok' : VectorOk { vec with lovItem :=
      { vec.lovItem with lovWordsHeader := hdr, lastCompword := comp } } blocks := by
    refine ⟨ok.chain, ?_, ok.setbit, fun ones => absurd ones set, ?_, isHeader, ok.high, ok.bounded⟩
    · rw [words, expand_singleton, len]
      exact ok.location
    · rw [words]
      simpa using positive
  refine ⟨ok', ?_⟩
  rw [ok'.bits_eq, words, expand_singleton]

include positive old

/-- The bit is in `bm_last_word`. -/
theorem update_lastWord (behind : tid > vec.lovItem.lastTidLocation) :
    UpdatedTo vec ((vectorBits vec).set (tid - 1) true) (updatesetbit vec tid) := by
  have setbit := ok.setbit
  have := ok.bounded
  have pos : subU64 tid 1 % wordSize = tid - 1 - vec.lovItem.lastTidLocation := by
    rw [subU64_mod _ (by omega)]
    simp only [wordSize] at *
    omega
  have res : updatesetbit vec tid = .ok { vec with lovItem := { vec.lovItem with
      lastWord := vec.lovItem.lastWord ||| bitWord (tid - 1 - vec.lovItem.lastTidLocation) } } := by
    simp [updatesetbit, behind, pos]
  have ok' : VectorOk { vec with lovItem := { vec.lovItem with
      lastWord := vec.lovItem.lastWord |||
        bitWord (tid - 1 - vec.lovItem.lastTidLocation) } } blocks := by
    refine ⟨ok.chain, ok.location, ok.setbit, ok.unset, ok.positive, ok.header, ?_, ok.bounded⟩
    intro i above
    have other : i - (tid - 1 - vec.lovItem.lastTidLocation) ≠ 0 := by
      simp only [wordSize] at *
      omega
    rw [BitVec.getLsbD_or, ok.high i above, bitWord, BitVec.getLsbD_shiftLeft, BitVec.getLsbD_one]
    simp [other]
  refine ⟨_, blocks, res, ok', rfl, ?_⟩
  rw [ok'.bits_eq, ok.bits_eq, set_append_right _ _ (by rw [ok.length_complete]; omega),
    ok.length_complete, literalBits_setBit]
  rfl

omit old in
theorem tidLocation_eq (compl : tid ≤ vec.lovItem.lastTidLocation) :
    subU64 vec.lovItem.lastTidLocation (if lastCompwordIsFill vec.lovItem then
      fillLength vec.lovItem.lastCompword * wordSize else wordSize) =
        (expand (chainWords vec.pages blocks)).length := by
  have loc := ok.location
  have setbit := ok.setbit
  have := ok.bounded
  rw [(ok.comp_set positive compl).1, expand_singleton, length_bits] at loc
  simp only at loc
  simp only [subU64]
  omega

theorem update_singleWord (compl : tid ≤ vec.lovItem.lastTidLocation)
    (behind : tid > (expand (chainWords vec.pages blocks)).length)
    (single : vec.lovItem.lovWordsHeader = 0 ∨ fillLength vec.lovItem.lastCompword = 1) :
    UpdatedTo vec ((vectorBits vec).set (tid - 1) true) (updatesetbit vec tid) := by
  have start := tidLocation_eq ok positive compl
  obtain ⟨compWords, set⟩ := ok.comp_set positive compl
  have loc := ok.location
  have setbit := ok.setbit
  have := ok.bounded
  have wordBits := literalBits_lastCompword single
  rw [compWords, expand_singleton, ← wordBits, length_literalBits] at loc
  obtain ⟨pos, _⟩ := @exists_eq _ (tid - 1 - (expand (chainWords vec.pages blocks)).length)
  have position : subU64 tid 1 % wordSize = pos := by
    rw [subU64_mod _ (by omega)]
    simp only [wordSize] at *
    omega
  obtain ⟨word, wordDef⟩ := @exists_eq _ (if lastCompwordIsFill vec.lovItem then
      if getFillBit vec.lovItem.lastCompword = 1 then literalAllOne else 0
    else vec.lovItem.lastCompword)
  rw [← wordDef] at wordBits
  have res : updatesetbit vec tid =
      .ok { vec with lovItem := updateLastCompword vec.lovItem tid } := by
    have notBehind : ¬ tid > vec.lovItem.lastTidLocation := by omega
    simp only [updatesetbit, start, notBehind, behind, single, true_and, false_or, if_true,
      if_false]
  have updated : updateLastCompword vec.lovItem tid = if word ||| bitWord pos = literalAllOne then
        { vec.lovItem with lovWordsHeader := 2, lastCompword := makeFillWord 1 1 }
      else { vec.lovItem with lovWordsHeader := 0, lastCompword := word ||| bitWord pos } := by
    simp only [updateLastCompword, ← wordDef, position]
  have newBits : literalBits (word ||| bitWord pos) =
      (expand (lovCompWords vec.lovItem)).set pos true := by
    rw [literalBits_setBit, wordBits, compWords, expand_singleton]
  have inWord : (expand (chainWords vec.pages blocks)).length + pos = tid - 1 := by omega
  have bits : expand (chainWords vec.pages blocks) ++ literalBits (word ||| bitWord pos) ++
      literalBits vec.lovItem.lastWord = (vectorBits vec).set (tid - 1) true := by
    rw [newBits, ok.bits_eq, set_append_left, ← inWord, set_append_right, Nat.add_sub_cancel_left]
    · omega
    · rw [ok.length_complete]
      omega
  have len : (literalBits (word ||| bitWord pos)).length =
      (expand (lovCompWords vec.lovItem)).length := by
    rw [newBits, length_set]
  rw [res, updated]
  by_cases ones : word ||| bitWord pos = literalAllOne
  · rw [if_pos ones]
    have fillBits : HrlWord.bits ⟨(2 : BitVec 8) &&& 2 != 0, makeFillWord 1 1⟩ =
        literalBits (word ||| bitWord pos) := by
      rw [ones]
      exact bits_oneFill
    obtain ⟨ok', bits'⟩ := @VectorOk.setComp vec blocks ok 2 (makeFillWord 1 1) (.inr rfl)
      (by decide) (fun _ => by decide) (by rw [fillBits, len])
    exact ⟨_, blocks, rfl, ok', rfl, by rw [bits', fillBits, bits]⟩
  · rw [if_neg ones]
    obtain ⟨ok', bits'⟩ := @VectorOk.setComp vec blocks ok 0 (word ||| bitWord pos) (.inl rfl)
      ones (by simp [Positive]) len
    exact ⟨_, blocks, rfl, ok', rfl, by rw [bits']; exact bits⟩

omit old in
theorem update_chain (inChain : tid ≤ (expand (chainWords vec.pages blocks)).length) :
    UpdatedTo vec ((vectorBits vec).set (tid - 1) true) (updatesetbit vec tid) := by
  have := ok.location
  have setbit := ok.setbit
  have := ok.bounded
  have compl : tid ≤ vec.lovItem.lastTidLocation := by omega
  have start := tidLocation_eq ok positive compl
  obtain ⟨pre, block, after, split, found, lower, upper⟩ := @findbitmappage_spec tid vec.pages
    vec.lovItem.lovHead blocks 0 (vec.pages.next + 1) ok.chain.linked ok.chain.located
    (Nat.lt_succ_of_le (length_le_of_nodup ok.chain.nodup ok.chain.allocated)) (by omega)
    (by omega)
  rw [zero_add] at found lower upper
  have chain := ok.chain
  rw [split] at chain
  have located := chain.located_block
  have total : (expand (chainWords vec.pages blocks)).length =
      (expand (chainWords vec.pages pre)).length +
        ((expand (pageWords (vec.pages.cell block))).length +
          (expand (chainWords vec.pages after)).length) := by
    rw [split, chainWords_append, expand_append, length_append, chainWords_cons,
      expand_append, length_append]
  obtain ⟨pages', tail', blocks', run, chain', bits⟩ := updatesetbitInpage_spec chain (by omega)
    lower upper
  rw [← split] at bits
  have res : updatesetbit vec tid = .ok ⟨{ vec.lovItem with lovTail := tail' }, pages'⟩ := by
    have notWord : ¬ tid > vec.lovItem.lastTidLocation := by omega
    have notComp : ¬ tid > (expand (chainWords vec.pages blocks)).length := by omega
    simp only [updatesetbit, start, notWord, notComp]
    rw [zero_add] at found
    simp only [found]
    exact run
  have lengths := congrArg length bits
  rw [length_set] at lengths
  have ok' : VectorOk ⟨{ vec.lovItem with lovTail := tail' }, pages'⟩ blocks' := by
    refine ⟨chain', ?_, ok.setbit, ?_, ok.positive, ok.header, ok.high, ok.bounded⟩
    · rw [lengths]
      exact ok.location
    · intro ones
      rw [lengths]
      exact ok.unset ones
  refine ⟨_, blocks', res, ok', rfl, ?_⟩
  rw [ok'.bits_eq, ok.bits_eq, append_assoc, append_assoc, set_append_left _ _ (by omega), bits]
  rfl

omit old in
/-- The bit is in a last complete word that stands for several words: the word
is split as if it were a fill word of zeros. -/
theorem update_fillWord (compl : tid ≤ vec.lovItem.lastTidLocation)
    (behind : tid > (expand (chainWords vec.pages blocks)).length)
    (isFill : vec.lovItem.lovWordsHeader = 2)
    (several : 2 ≤ fillLength vec.lovItem.lastCompword) :
    UpdatedTo vec (expand (chainWords vec.pages blocks) ++
      (replicate (fillLength vec.lovItem.lastCompword * wordSize) false).set
        (tid - (expand (chainWords vec.pages blocks)).length - 1) true ++
      literalBits vec.lovItem.lastWord) (updatesetbit vec tid) := by
  have start := tidLocation_eq ok positive compl
  obtain ⟨compSet, -⟩ := ok.comp_set positive compl
  have location := ok.location
  have setbit := ok.setbit
  have bound := ok.bounded
  have fill : lastCompwordIsFill vec.lovItem := by
    rw [lastCompwordIsFill, isFill]
    decide
  rw [compSet, expand_singleton, length_bits, fill, if_pos rfl]
    at location
  simp only at location
  obtain ⟨loc, locDef⟩ := @exists_eq _ (tid - (expand (chainWords vec.pages blocks)).length - 1)
  have inFill : loc < fillLength vec.lovItem.lastCompword * wordSize := by omega
  have small := fillLength_lt vec.lovItem.lastCompword
  have new := @updatesetbitInword_spec vec.lovItem.lastCompword loc
    ((expand (chainWords vec.pages blocks)).length + 1) (by omega) inFill
  obtain ⟨newWords, newDef⟩ := @exists_eq _ (updatesetbitInword vec.lovItem.lastCompword
    loc ((expand (chainWords vec.pages blocks)).length + 1) (bufExtend .zero))
  rw [← newDef] at new
  have newLength := new.length
  obtain ⟨few, single⟩ := splitFill_length inFill
  have positiveWords := splitFill_positive small inFill
  have expanded := expand_splitFill small inFill
  obtain ⟨count, countDef⟩ : ∃ count, newWords.curword = count + 1 :=
    Nat.exists_eq_succ_of_ne_zero (by
      rw [← newLength]
      simp [splitFill])
  -- the last new word becomes the last complete word
  obtain ⟨buf, bufDef⟩ := @exists_eq BMTIDBuffer { newWords with
    lastCompword := newWords.cwords count
    isLastCompwordFill := isFillWord newWords.hwords count
    curword := count
    lastWord := vec.lovItem.lastWord
    lastTid := vec.lovItem.lastSetbit }
  have words : splitFill (fillLength vec.lovItem.lastCompword) loc =
      bufWords buf ++ [⟨isFillWord newWords.hwords count, newWords.cwords count⟩] := by
    rw [← new.content, bufWords, countDef, wordsOf_succ, bufDef]
    rfl
  obtain ⟨last, lastDef⟩ := @exists_eq HrlWord
    (⟨isFillWord newWords.hwords count, newWords.cwords count⟩)
  rw [← lastDef] at words
  have lastMember : last ∈ splitFill (fillLength vec.lovItem.lastCompword) loc := by
    rw [words]
    simp
  have lengths : (expand (bufWords buf)).length + last.bits.length =
      fillLength vec.lovItem.lastCompword * wordSize := by
    have total := congrArg length expanded
    rw [words, expand_append, length_append, expand_singleton,
      length_set, length_replicate] at total
    exact total
  have lastSet : last.word ≠ literalAllOne :=
    ne_allOne (by omega) (splitFill_literal last lastMember)
  have wordsOk : BufWordsOk (expand (chainWords vec.pages blocks)).length buf := by
    refine ⟨fun word mem => positiveWords word ?_, fun i below => ?_⟩
    · rw [words]
      exact mem_append_left _ mem
    · have below : i < count := by
        rw [bufDef] at below
        exact below
      have lastTid := new.lastTids i (by omega)
      have bufLength : (bufWords buf).length = count := by
        rw [bufWords, length_wordsOf, bufDef]
      rw [words, take_append_of_le_length (by omega)] at lastTid
      have same : buf.lastTids i = newWords.lastTids i := by rw [bufDef]
      omega
  obtain ⟨res, blocks', head, tail, run, lov, chain', chainWords'⟩ :=
    bitmapWriteNewBitmapwords_spec ok.chain wordsOk (by
      rw [numOfHrlWordsPerPage_eq, bufDef]
      show count ≤ 8 * 3968
      omega)
  have freed : bufComplete (freedTidbuf buf) = [last] := by
    have comp : buf.lastCompword = last.word := by rw [bufDef, lastDef]
    have flag : buf.isLastCompwordFill = last.fill := by rw [bufDef, lastDef]
    have noWords : bufWords (freedTidbuf buf) = [] := rfl
    have sameComp : bufComplete (freedTidbuf buf) = bufWords (freedTidbuf buf) ++
        compWords buf.lastCompword buf.isLastCompwordFill := rfl
    rw [sameComp, noWords, comp, flag, compWords_of_ne lastSet, nil_append]
  have lastTid : (freedTidbuf buf).lastTid = vec.lovItem.lastSetbit := by
    rw [bufDef]
    rfl
  have state : Buffered res.vector blocks' (freedTidbuf buf) := by
    refine ⟨by rw [lov]; exact chain', ⟨length_expand_mod _, ?_, ?_, ?_,
      fun i _ => isFillWord_zero i, fun i below => absurd below (Nat.not_lt_zero i),
      le_refl _, by rw [lastTid]; exact bound⟩, Nat.zero_le _⟩
    · rw [lastTid, freed, chainWords', expand_append, length_append, expand_singleton]
      omega
    · intro ones
      rw [bufDef] at ones
      rw [lastDef] at lastSet
      exact absurd ones lastSet
    · rw [freed]
      simpa using positiveWords last lastMember
  obtain ⟨ok', bits⟩ := vectorOk_of_buffered state rfl (by
      rw [lastTid, bufDef]
      exact ok.high)
    (by rw [lov]; rfl)
  refine ⟨res.vector, blocks', ?_, ok', ?_, ?_⟩
  · have notWord : ¬ tid > vec.lovItem.lastTidLocation := by omega
    have notSingle : ¬ (vec.lovItem.lovWordsHeader = 0 ∨
        fillLength vec.lovItem.lastCompword = 1) := by
      rw [isFill]
      simp only [show ¬ (2 : BitVec 8) = 0 by decide, false_or]
      omega
    have hdr : vec.lovItem.lovWordsHeader ≥ 2 := by
      rw [isFill]
      decide
    simp only [updatesetbit, start, notWord, behind, notSingle, hdr, ← locDef, ← newDef, countDef, Nat.add_sub_cancel, ← bufDef, run]
    rfl
  · rw [lov]
    exact lastTid
  · have lastWord : (freedTidbuf buf).lastWord = vec.lovItem.lastWord := by
      rw [bufDef]
      rfl
    rw [bits, bufferedBits, completeBits, freed, lastWord, chainWords', expand_append,
      append_assoc (expand (chainWords vec.pages blocks)), ← expand_append, ← words,
      expanded, ← locDef]

/-- `updatesetbit` sets the bit of the tid and keeps the others, unless the tid
lies in a last complete word of ones. -/
theorem updatesetbit_sets (out : ¬ InsideOneFill vec.lovItem tid) :
    UpdatedTo vec ((vectorBits vec).set (tid - 1) true) (updatesetbit vec tid) := by
  rcases lt_or_ge vec.lovItem.lastTidLocation tid with inWord | complete
  · exact update_lastWord ok positive old inWord
  · rcases lt_or_ge (expand (chainWords vec.pages blocks)).length tid with behind | inChain
    · by_cases single : vec.lovItem.lovWordsHeader = 0 ∨ fillLength vec.lovItem.lastCompword = 1
      · exact update_singleWord ok positive old complete behind single
      · rw [not_or] at single
        have hdr := ok.header.resolve_left single.1
        have fill : lastCompwordIsFill vec.lovItem := by
          rw [lastCompwordIsFill, hdr]
          decide
        have compWord := (ok.comp_set positive complete).1
        rw [fill] at compWord
        have loc := ok.location
        have ne : 0 < fillLength vec.lovItem.lastCompword :=
          ok.positive _ (by rw [compWord]; exact mem_singleton_self _) rfl
        have several : 2 ≤ fillLength vec.lovItem.lastCompword := by omega
        rw [compWord, expand_singleton, length_bits, if_pos rfl]
          at loc
        simp only at loc
        have zeros : getFillBit vec.lovItem.lastCompword = 0 := by
          refine (getFillBit_cases _).resolve_right fun ones => out ?_
          exact ⟨fill, ones, several, complete, by omega⟩
        have bits : (bits ⟨true, vec.lovItem.lastCompword⟩) =
            replicate (fillLength vec.lovItem.lastCompword * wordSize) false := by
          simp [bits, zeros]
        have updated := update_fillWord ok positive complete behind hdr several
        rw [show tid - (expand (chainWords vec.pages blocks)).length - 1 =
          tid - 1 - (expand (chainWords vec.pages blocks)).length by omega] at updated
        rw [ok.bits_eq, compWord, expand_singleton, bits,
          set_append_left _ _ (by rw [length_append, length_replicate]; omega),
          set_append_right _ _ (by omega)]
        exact updated
    · exact update_chain ok positive inChain

omit old in
theorem updatesetbit_clears (lt : InsideOneFill vec.lovItem tid) :
    UpdatedTo vec (expand (chainWords vec.pages blocks) ++
      (replicate (fillLength vec.lovItem.lastCompword * wordSize) false).set
        (tid - (expand (chainWords vec.pages blocks)).length - 1) true ++
      literalBits vec.lovItem.lastWord) (updatesetbit vec tid) := by
  obtain ⟨fill, -, several, compl, _⟩ := lt
  have hdr : vec.lovItem.lovWordsHeader = 2 := by
    refine ok.header.resolve_left fun zero => ?_
    rw [lastCompwordIsFill, zero] at fill
    simp at fill
  have loc := ok.location
  rw [(ok.comp_set positive compl).1, expand_singleton, length_bits, fill, if_pos rfl] at loc
  simp only at loc
  exact update_fillWord ok positive compl (by omega) hdr several

end

end Greengage.Bitmap
