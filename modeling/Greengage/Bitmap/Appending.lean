import Greengage.Bitmap.Writing

/-!
Contract: `buf_add_tid_with_fill` sets one bit behind the last one.
-/

namespace Greengage.Bitmap

open List Greengage.Foundations HrlWord

/-- The words of `buf` follow the chain of `vector`. -/
structure Buffered (vector : BMVector) (blocks : List BlockNumber) (buf : BMTIDBuffer) :
    Prop where
  chain : ChainOk vector.pages vector.lovItem.lovHead vector.lovItem.lovTail blocks
  bufOk : BufOk (expand (chainWords vector.pages blocks)).length buf
  few : buf.curword ≤ numOfHrlWordsPerPage

def completeBits (vector : BMVector) (blocks : List BlockNumber) (buf : BMTIDBuffer) : List Bool :=
  expand (chainWords vector.pages blocks) ++ expand (bufComplete buf)

def bufferedBits (vector : BMVector) (blocks : List BlockNumber) (buf : BMTIDBuffer) : List Bool :=
  completeBits vector blocks buf ++ literalBits buf.lastWord

variable {vec : BMVector} {blocks : List BlockNumber} {buf : BMTIDBuffer}

section

variable (state : Buffered vec blocks buf)
include state

theorem Buffered.length_complete :
    (completeBits vec blocks buf).length = buf.lastTid - buf.lastTid % wordSize := by
  rw [completeBits, length_append, state.bufOk.position]

theorem Buffered.withLastWord (word) : Buffered vec blocks { buf with lastWord := word } := by
  have ok := state.bufOk
  exact ⟨state.chain, ⟨ok.aligned, ok.position, ok.unset, ok.positive, ok.clean, ok.lastTids,
    ok.capacity, ok.bounded⟩, state.few⟩

end

/-! ### Merging with a write before -/

/-- The complete words have grown by `bits`, and the last word is empty. -/
structure Grown (vector : BMVector) (blocks : List BlockNumber) (buf : BMTIDBuffer)
    (bits : List Bool) (vector' : BMVector) (blocks' : List BlockNumber) (buf' : BMTIDBuffer) :
    Prop where
  state : Buffered vector' blocks' buf'
  complete : completeBits vector' blocks' buf' = completeBits vector blocks buf ++ bits
  lastWord : buf'.lastWord = 0
  lastTid : buf'.lastTid = (completeBits vector' blocks' buf').length
  setbit : vector'.lovItem.lastSetbit ≤ max vector.lovItem.lastSetbit buf.lastTid

section

variable {isFill : Bool} (state : Buffered vec blocks buf)
include state

theorem Buffered.write : ∃ res blocks', bitmapWriteNewBitmapwords vec buf = .ok res ∧
    Buffered res.vector blocks' (freedTidbuf buf) ∧
    completeBits res.vector blocks' (freedTidbuf buf) = completeBits vec blocks buf ∧
    (∃ head tail, res.vector.lovItem =
      setLastWords { vec.lovItem with lovHead := head, lovTail := tail } buf) := by
  obtain ⟨res, blocks', head, tail, run, lov, chain, words⟩ :=
    bitmapWriteNewBitmapwords_spec state.chain state.bufOk.wordsOk (by have few := state.few; omega)
  have ok := state.bufOk
  have compl : completeBits res.vector blocks' (freedTidbuf buf) =
      completeBits vec blocks buf := by
    have freed : bufComplete (freedTidbuf buf) =
        compWords buf.lastCompword buf.isLastCompwordFill := rfl
    rw [completeBits, completeBits, words, freed, bufComplete, expand_append, expand_append,
      append_assoc]
  refine ⟨res, blocks', run, ⟨?_, ⟨length_expand_mod _, ?_, ?_, ?_, ?_, ?_, le_rfl,
    ok.bounded⟩, Nat.zero_le _⟩, compl, head, tail, lov⟩
  · rw [lov]
    exact chain
  · have len := congrArg length compl
    rw [completeBits, length_append] at len
    rw [len, state.length_complete]
    rfl
  · intro unset
    obtain ⟨noBase, noWords, notFill⟩ := ok.unset unset
    refine ⟨?_, rfl, notFill⟩
    rw [words, expand_append, length_append, noBase, bufWords, noWords]
    rfl
  · intro word mem
    exact ok.positive word (mem_append_right _ mem)
  · intro i _
    exact isFillWord_zero i
  · intro i below
    exact absurd below (Nat.not_lt_zero i)

theorem bufEnsureHeadSpace_spec : ∃ vec' blocks' buf',
    bufEnsureHeadSpace vec buf = .ok (vec', buf') ∧ Buffered vec' blocks' buf' ∧
    buf'.curword < numOfHrlWordsPerPage ∧
    completeBits vec' blocks' buf' = completeBits vec blocks buf ∧
    buf'.lastWord = buf.lastWord ∧
    vec'.lovItem.lastSetbit ≤ max vec.lovItem.lastSetbit buf.lastTid := by
  have cap : numOfHeaderWords * wordSize = numOfHrlWordsPerPage := by
    rfl
  by_cases full : buf.curword ≥ numOfHeaderWords * wordSize
  · have used : buf.numCwords ≠ 0 := by
      have := state.bufOk.capacity
      have := numOfHrlWordsPerPage_eq
      omega
    obtain ⟨res, blocks', run, state', compl, _, _, lov⟩ := state.write
    refine ⟨res.vector, blocks', bufExtend (freedTidbuf buf), ?_, ?_, ?_, ?_, ?_, ?_⟩
    · simp only [bufEnsureHeadSpace, if_pos full, bufFreeMemBlock, if_neg used, run,
        bitmapFreeTidbuf_of_used used]
      rfl
    · have ok := state'.bufOk
      exact ⟨state'.chain, ⟨ok.aligned, ok.position, ok.unset, ok.positive, ok.clean,
        fun i below => absurd below (Nat.not_lt_zero i), Nat.zero_le _, ok.bounded⟩,
        Nat.zero_le _⟩
    · exact Nat.zero_lt_succ _
    · exact compl
    · rfl
    · rw [lov]
      exact le_max_right _ _
  · refine ⟨vec, blocks, buf, ?_, state, by omega, rfl, rfl, le_max_left _ _⟩
    rw [bufEnsureHeadSpace, if_neg full]

theorem ensureAndMerge_spec (pos : Positive ⟨isFill, buf.lastWord⟩)
    (notOnes : isFill = false → buf.lastWord ≠ literalAllOne)
    (bound : (completeBits vec blocks buf).length + (bits ⟨isFill, buf.lastWord⟩).length < 2 ^ 63) :
    ∃ vec' blocks' buf', ensureAndMerge vec buf isFill = .ok (vec', buf') ∧
      Grown vec blocks buf (bits ⟨isFill, buf.lastWord⟩) vec' blocks' buf' := by
  obtain ⟨vec', blocks', buf', run, state', _, compl, last, setbit⟩ :=
    bufEnsureHeadSpace_spec state
  rw [← compl, ← last, completeBits, length_append] at bound
  rw [← last] at pos notOnes
  have merged := mergewords_spec state'.bufOk pos notOnes bound
  refine ⟨vec', blocks', mergewords buf' isFill, ?_, ⟨state'.chain, merged.ok, ?_⟩, ?_,
    merged.lastWord, ?_, setbit⟩
  · rw [ensureAndMerge, run]
    rfl
  · have := merged.curword
    omega
  · rw [completeBits, merged.complete, ← compl, completeBits, append_assoc, last]
  · rw [merged.lastTid, completeBits, length_append]

end

/-! ### Zeros before the new bit -/

theorem Grown.bits {vec vec' blocks blocks' buf buf' bits}
    (grown : Grown vec blocks buf bits vec' blocks' buf') :
    bitsAt (bufferedBits vec' blocks' buf') = bitsAt (completeBits vec blocks buf ++ bits) := by
  rw [bufferedBits, grown.complete, grown.lastWord, literalBits_zero, bitsAt_append_zeros]

theorem HighClear.eq_zero {word last} (high : HighClear word last)
    (aligned : last % wordSize = 0) : word = 0 := by
  apply BitVec.eq_of_getLsbD_eq
  intro i _
  rw [high i (by omega)]
  simp

theorem HighClear.ne_allOne {word last} (high : HighClear word last) : word ≠ literalAllOne := by
  rintro rfl
  have clear := high 63 (by simp only [wordSize]; omega)
  revert clear
  decide

theorem subU64_mod (n) (bound : n < 2 ^ 63) : subU64 n 1 % wordSize = (n + 63) % wordSize := by
  simp only [subU64, wordSize]
  omega

theorem toInt_zeros {tid last : Nat} (bound : tid < 2 ^ 63) (later : last < tid) :
    (BitVec.ofInt 64 ((tid : Int) - last - 1)).toInt = ((tid - last - 1 : Nat) : Int) := by
  rw [BitVec.toInt_ofInt, Int.bmod_def]
  omega

section

variable (state : Buffered vec blocks buf)
include state

theorem appendFillWords_spec (noWord : buf.lastWord = 0)
    (last : buf.lastTid = (completeBits vec blocks buf).length) {count}
    (bound : (completeBits vec blocks buf).length + count * wordSize < 2 ^ 63) :
    ∃ vec' blocks' buf', appendFillWords count vec buf count = .ok (vec', buf') ∧
      Grown vec blocks buf (replicate (count * wordSize) false) vec' blocks' buf' := by
  cases count with
  | zero =>
    exact ⟨vec, blocks, buf, rfl, state, by simp, noWord, last, le_max_left _ _⟩
  | succ count =>
    have small : count + 1 < 2 ^ 63 := by
      simp only [wordSize] at bound
      omega
    have few : ¬ count + 1 ≥ maxFillLength := by
      simp only [maxFillLength, wordSize] at *
      omega
    have len : fillLength (makeFillWord 0 (BitVec.ofNat 64 (count + 1))) = count + 1 :=
      fillLength_zeroFill small
    have bits : bits ⟨true, makeFillWord 0 (BitVec.ofNat 64 (count + 1))⟩ =
        replicate ((count + 1) * wordSize) false := bits_zeroFill small
    obtain ⟨vec', blocks', buf', run, grown⟩ := @ensureAndMerge_spec vec blocks _ true
      (state.withLastWord (makeFillWord 0 (BitVec.ofNat 64 (count + 1))))
      (fun _ => by rw [len]; exact Nat.succ_pos count) (by simp)
      (by rw [bits, length_replicate]; exact bound)
    rw [bits] at grown
    refine ⟨vec', blocks', buf', ?_, grown.state, grown.complete, grown.lastWord,
      grown.lastTid, grown.setbit⟩
    simp only [appendFillWords, Nat.succ_pos, if_true, if_neg few, run]
    cases count with
    | zero => rfl
    | succ count =>
      simp only [bind, Except.bind, Nat.sub_self, appendFillWords, lt_irrefl,
        if_false]

/-- The complete words reach up to the word of `tid`, and no bit has changed. -/
structure Padded (bits : List Bool) (tid : Nat) (vector : BMVector) (blocks : List BlockNumber)
    (buf : BMTIDBuffer) : Prop where
  state : Buffered vector blocks buf
  bits : bitsAt (bufferedBits vector blocks buf) = bitsAt bits
  length : (completeBits vector blocks buf).length = tid - 1 - (tid - 1) % wordSize
  high : HighClear buf.lastWord (tid - 1)
  setbit : vector.lovItem.lastSetbit < tid

section

variable {tid : Nat} (bound : tid < 2 ^ 63) (later : buf.lastTid < tid)
  (older : vec.lovItem.lastSetbit ≤ buf.lastTid)
include bound later older

private theorem padded_of_fill (noWord : buf.lastWord = 0)
    (last : buf.lastTid = (completeBits vec blocks buf).length) :
    ∃ vec' blocks' buf', appendFillWords ((tid - 1 - buf.lastTid) / wordSize) vec buf
        ((tid - 1 - buf.lastTid) / wordSize) = .ok (vec', buf') ∧
      Padded (bufferedBits vec blocks buf) tid vec' blocks' buf' := by
  have aligned : buf.lastTid % wordSize = 0 := by
    have len := state.length_complete
    simp only [wordSize] at *
    omega
  obtain ⟨vec', blocks', buf', run, grown⟩ := @appendFillWords_spec vec blocks buf state
    noWord last ((tid - 1 - buf.lastTid) / wordSize) (by simp only [wordSize] at *; omega)
  refine ⟨vec', blocks', buf', run, grown.state, ?_, ?_, ?_, ?_⟩
  · rw [grown.bits, bitsAt_append_zeros, bufferedBits, noWord, literalBits_zero,
      bitsAt_append_zeros]
  · rw [grown.complete, length_append, length_replicate, ← last]
    simp only [wordSize] at *
    omega
  · rw [grown.lastWord]
    intro _ _
    simp
  · have setbit := grown.setbit
    omega

theorem appendZeros_spec (high : HighClear buf.lastWord buf.lastTid) :
    ∃ vec' blocks' buf', appendZeros vec buf tid = .ok (vec', buf') ∧
      Padded (bufferedBits vec blocks buf) tid vec' blocks' buf' := by
  have zeros := toInt_zeros bound later
  have len := state.length_complete
  have needed : wordSize - subU64 buf.lastTid 1 % wordSize - 1 =
      (wordSize - buf.lastTid % wordSize) % wordSize := by
    rw [subU64_mod _ (by omega)]
    simp only [wordSize]
    omega
  have rest : tid - buf.lastTid - 1 = tid - 1 - buf.lastTid := by omega
  have fillCount : ∀ n : Nat, ((n : Int) / (wordSize : Int)).toNat = n / wordSize := fun n => rfl
  rw [rest] at zeros
  simp only [appendZeros, zeros, needed]
  by_cases adjacent : tid - 1 - buf.lastTid = 0
  · -- the new bit follows the last one
    refine ⟨vec, blocks, buf, by rw [if_neg (by omega)], state, rfl, ?_, ?_, by omega⟩
    · rw [len, show tid - 1 = buf.lastTid by omega]
    · rwa [show tid - 1 = buf.lastTid by omega]
  · rw [if_pos (by omega)]
    by_cases aligned : buf.lastTid % wordSize = 0
    · have none : (wordSize - buf.lastTid % wordSize) % wordSize = 0 := by
        rw [aligned]
        rfl
      obtain ⟨vec', blocks', buf', run, padded⟩ := padded_of_fill state bound later older
        (high.eq_zero aligned) (by omega)
      refine ⟨vec', blocks', buf', ?_, padded⟩
      rw [none, if_neg (by omega)]
      exact run
    · have below : buf.lastTid % wordSize < wordSize := Nat.mod_lt _ (by decide)
      have within : buf.lastTid % wordSize ≤ buf.lastTid := Nat.mod_le _ _
      have missing : (wordSize - buf.lastTid % wordSize) % wordSize =
          wordSize - buf.lastTid % wordSize := Nat.mod_eq_of_lt (by omega)
      rw [missing]
      by_cases completes : wordSize - buf.lastTid % wordSize ≤ tid - 1 - buf.lastTid
      · -- zeros complete the last word
        rw [if_pos (by omega)]
        have bits : bits ⟨false, buf.lastWord⟩ = literalBits buf.lastWord := rfl
        obtain ⟨vec', blocks', buf', run, grown⟩ := @ensureAndMerge_spec vec blocks buf false
          state (by simp [Positive]) (fun _ => high.ne_allOne)
          (by rw [bits, length_literalBits, len]; omega)
        rw [bits] at grown
        have newLength : buf'.lastTid = buf.lastTid - buf.lastTid % wordSize + wordSize := by
          rw [grown.lastTid, grown.complete, length_append, length_literalBits, len]
        obtain ⟨vector'', blocks'', buf'', run', padded⟩ := padded_of_fill grown.state bound
          (by omega) (by have setbit := grown.setbit; omega) grown.lastWord grown.lastTid
        refine ⟨vector'', blocks'', buf'', ?_, ⟨padded.state, ?_, padded.length, padded.high,
          padded.setbit⟩⟩
        · rw [run]
          have left : ((tid - 1 - buf.lastTid : Nat) : Int) -
              (wordSize - buf.lastTid % wordSize : Nat) = (tid - 1 - buf'.lastTid : Nat) := by
            omega
          simp only [left]
          exact run'
        · rw [padded.bits, grown.bits]
          rfl
      · -- the new bit is in the last word
        rw [if_neg (by omega)]
        have few : (tid - 1 - buf.lastTid) / wordSize = 0 := Nat.div_eq_of_lt (by omega)
        refine ⟨vec, blocks, buf, ?_, state, rfl, ?_, ?_, by omega⟩
        · simp only [bind, Except.bind, fillCount, few]
          rfl
        · simp only [wordSize] at *
          omega
        · intro _ _
          apply high
          simp only [wordSize] at *
          omega

end

end

/-! ### The new bit -/

/-- The bit of `tid` was set and is the last one. -/
structure TidAdded (bits : List Bool) (tid : Nat) (vector : BMVector) (blocks : List BlockNumber)
    (buf : BMTIDBuffer) : Prop where
  state : Buffered vector blocks buf
  bits : bitsAt (bufferedBits vector blocks buf) = Function.update (bitsAt bits) (tid - 1) true
  high : HighClear buf.lastWord buf.lastTid
  lastTid : buf.lastTid = tid
  setbit : vector.lovItem.lastSetbit < tid

theorem bits_oneFill : bits ⟨true, makeFillWord 1 1⟩ = literalBits literalAllOne := by
  decide

theorem setBit_ne_zero (word) {pos} (lt : pos < wordSize) : word ||| bitWord pos ≠ 0 := by
  intro zero
  have bits := literalBits_setBit word pos
  rw [zero, literalBits_zero] at bits
  have bit := congrArg (fun bits => bits[pos]?) bits
  simp [lt] at bit

section

variable (state : Buffered vec blocks buf)
include state

private theorem merge_full (notZero : buf.lastWord ≠ literalAllZero)
    (bound : (completeBits vec blocks buf).length + wordSize < 2 ^ 63) {tid}
    (full : tid % wordSize = 0) :
    ∃ vec' blocks' buf', completeLastWord vec buf tid = .ok (vec', buf') ∧
      Grown vec blocks buf (literalBits buf.lastWord) vec' blocks' buf' := by
  by_cases ones : buf.lastWord = literalAllOne
  · obtain ⟨vec', blocks', buf', run, grown⟩ := @ensureAndMerge_spec vec blocks _ true
      (state.withLastWord (makeFillWord 1 1))
      (fun _ => show 0 < fillLength (makeFillWord 1 1) by decide) (by simp)
      (by rw [bits_oneFill, length_literalBits]; exact bound)
    rw [bits_oneFill] at grown
    refine ⟨vec', blocks', buf', ?_, ?_⟩
    · rw [completeLastWord, if_pos full, if_neg notZero, if_pos ones, run]
    · rw [ones]
      exact ⟨grown.state, grown.complete, grown.lastWord, grown.lastTid, grown.setbit⟩
  · obtain ⟨vec', blocks', buf', run, grown⟩ := @ensureAndMerge_spec vec blocks buf false
      state (by simp [Positive]) (fun _ => ones)
      (by rw [length_bits, if_neg (by simp)]; exact bound)
    refine ⟨vec', blocks', buf', ?_, grown⟩
    rw [completeLastWord, if_pos full, if_neg notZero, if_neg ones, run]

theorem bufAddTidWithFill_spec (high : HighClear buf.lastWord buf.lastTid) {tid}
    (bound : tid < 2 ^ 63) (later : buf.lastTid < tid)
    (older : vec.lovItem.lastSetbit ≤ buf.lastTid) :
    ∃ vec' blocks' buf', bufAddTidWithFill vec buf tid = .ok (vec', buf') ∧
      TidAdded (bufferedBits vec blocks buf) tid vec' blocks' buf' := by
  obtain ⟨padVector, padBlocks, padBuf, run, padded⟩ :=
    appendZeros_spec state bound later older high
  have pos : subU64 tid 1 % wordSize = (tid - 1) % wordSize := by
    rw [subU64_mod _ bound]
    simp only [wordSize]
    omega
  have lt : (tid - 1) % wordSize < wordSize := Nat.mod_lt _ (by decide)
  have within : (tid - 1) % wordSize ≤ tid - 1 := Nat.mod_le _ _
  obtain ⟨word, wordDef⟩ := @exists_eq _ (padBuf.lastWord ||| bitWord ((tid - 1) % wordSize))
  have setState := padded.state.withLastWord word
  have setBits : bitsAt (completeBits padVector padBlocks padBuf ++ literalBits word) =
      Function.update (bitsAt (bufferedBits vec blocks buf)) (tid - 1) true := by
    have place : tid - 1 - (completeBits padVector padBlocks padBuf).length =
        (tid - 1) % wordSize := by
      rw [padded.length]
      omega
    have old : tid - 1 < (bufferedBits padVector padBlocks padBuf).length := by
      rw [bufferedBits, length_append, length_literalBits]
      omega
    rw [← padded.bits, ← bitsAt_set old, bufferedBits, wordDef, literalBits_setBit,
      set_append_right _ _ (by rw [padded.length]; omega), place]
  have unfolded : bufAddTidWithFill vec buf tid =
      (completeLastWord padVector { padBuf with lastWord := word } tid).bind fun res =>
        .ok (res.1, { res.2 with lastTid := tid }) := by
    rw [bufAddTidWithFill, run, wordDef, ← pos]
    rfl
  rw [unfolded]
  by_cases full : tid % wordSize = 0
  · obtain ⟨vec', blocks', buf', run', grown⟩ := @merge_full padVector padBlocks
      { padBuf with lastWord := word } setState
      (by rw [wordDef]; exact setBit_ne_zero _ lt)
      (show (completeBits padVector padBlocks padBuf).length + wordSize < 2 ^ 63 by
        rw [padded.length]
        simp only [wordSize] at *
        omega) tid full
    have len : buf'.lastTid = tid := by
      have compl : completeBits padVector padBlocks { padBuf with lastWord := word } =
          completeBits padVector padBlocks padBuf := rfl
      rw [grown.lastTid, grown.complete, length_append, length_literalBits, compl, padded.length]
      simp only [wordSize] at *
      omega
    refine ⟨vec', blocks', buf', ?_, grown.state, ?_, ?_, len, ?_⟩
    · rw [run', ← len]
      rfl
    · rw [grown.bits]
      exact setBits
    · rw [grown.lastWord]
      intro i _
      simp
    · have setbit : vec'.lovItem.lastSetbit ≤ max padVector.lovItem.lastSetbit padBuf.lastTid :=
        grown.setbit
      have := padded.setbit
      have position := padded.state.length_complete
      rw [padded.length] at position
      simp only [wordSize] at *
      omega
  · have same : tid - tid % wordSize = tid - 1 - (tid - 1) % wordSize := by
      simp only [wordSize] at *
      omega
    refine ⟨padVector, padBlocks, { padBuf with lastWord := word, lastTid := tid }, ?_,
      ⟨padded.state.chain, ?_, padded.state.few⟩, setBits, ?_, rfl, padded.setbit⟩
    · rw [completeLastWord, if_neg full]
      rfl
    · have ok := padded.state.bufOk
      refine ⟨ok.aligned, ?_, ok.unset, ok.positive, ok.clean, ok.lastTids, ok.capacity, bound⟩
      have len := padded.length
      rw [completeBits, length_append] at len
      rw [same, ← len]
      rfl
    · intro i _
      have behind : (tid - 1) % wordSize < i := by
        simp only [wordSize] at *
        omega
      have other : i - (tid - 1) % wordSize ≠ 0 := by omega
      rw [wordDef, BitVec.getLsbD_or, padded.high i (by omega), bitWord, BitVec.getLsbD_shiftLeft,
        BitVec.getLsbD_one]
      simp [other]

end

end Greengage.Bitmap
