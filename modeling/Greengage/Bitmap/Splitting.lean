import Greengage.Bitmap.Splice
import Greengage.Bitmap.Writing

/-!
Contract: setting a bit of a fill word of zeros splits the word.
-/

namespace Greengage.Bitmap

open Function List Greengage.Foundations Heap

/-! ### The words of a split fill word -/

/-- A fill word of `length` words of zeros with the bit at `loc` set. -/
def splitFill (length loc : Nat) : List HrlWord :=
  (if wordSize ≤ loc then [zeroFill (loc / wordSize)] else []) ++
    [⟨false, bitWord (loc % wordSize)⟩] ++
    (if loc / wordSize + 1 < length then [zeroFill (length - loc / wordSize - 1)] else [])

section

variable {length loc : Nat} (small : length < 2 ^ 63) (lt : loc < length * wordSize)
include small in
private theorem rest_small : length - loc / wordSize - 1 < 2 ^ 63 :=
  lt_of_le_of_lt (le_trans (Nat.sub_le _ _) (Nat.sub_le _ _)) small

theorem mem_splitFill {word} : word ∈ splitFill length loc ↔
    wordSize ≤ loc ∧ word = zeroFill (loc / wordSize) ∨ word = ⟨false, bitWord (loc % wordSize)⟩ ∨
      loc / wordSize + 1 < length ∧ word = zeroFill (length - loc / wordSize - 1) := by
  rw [splitFill, mem_append, mem_append, mem_singleton, or_assoc, mem_ite_nil_right,
    mem_ite_nil_right, mem_singleton, mem_singleton]

include small lt

theorem expand_splitFill :
    expand (splitFill length loc) = (replicate (length * wordSize) false).set loc true := by
  have quotient : loc / wordSize < length := Nat.div_lt_of_lt_mul (by rwa [mul_comm])
  have := Nat.div_add_mod' loc wordSize
  have pre : expand (if wordSize ≤ loc then [zeroFill (loc / wordSize)] else []) =
      replicate (loc / wordSize * wordSize) false := by
    split
    · rw [expand_cons, bits_zeroFill (by omega), expand_nil, append_nil]
    case isFalse first =>
      rw [Nat.div_eq_of_lt (by omega), zero_mul]
      rfl
  have after : expand (if loc / wordSize + 1 < length then
      [zeroFill (length - loc / wordSize - 1)] else []) =
        replicate ((length - loc / wordSize - 1) * wordSize) false := by
    split
    · rw [expand_cons, bits_zeroFill (rest_small small), expand_nil, append_nil]
    case isFalse last =>
      rw [show length - loc / wordSize - 1 = 0 by omega, zero_mul]
      rfl
  have whole : length * wordSize = loc / wordSize * wordSize + wordSize +
      (length - loc / wordSize - 1) * wordSize := by
    rw [← Nat.succ_mul, ← add_mul]
    congr 1
    omega
  have bits : HrlWord.bits ⟨false, bitWord (loc % wordSize)⟩ =
      (replicate wordSize false).set (loc % wordSize) true := by
    rw [← literalBits_zero, ← literalBits_setBit]
    simp [HrlWord.bits]
  have inWord : loc % wordSize < wordSize := Nat.mod_lt _ (by decide)
  rw [splitFill, expand_append, expand_append, pre, after, expand_singleton, bits, whole,
    ← replicate_append_replicate, ← replicate_append_replicate, set_append_left, set_append_right,
    length_replicate]
  · congr 3
    omega
  · rw [length_replicate]
    omega
  · rw [length_append, length_replicate, length_replicate]
    omega

theorem splitFill_positive : ∀ word ∈ splitFill length loc, word.Positive := by
  have quotient : loc / wordSize < length := Nat.div_lt_of_lt_mul (by rwa [mul_comm])
  intro word mem fill
  rcases mem_splitFill.mp mem with ⟨skipped, rfl⟩ | rfl | ⟨_, rfl⟩
  · rw [fillLength_zeroFill (by omega)]
    exact Nat.div_pos skipped (by decide)
  · cases fill
  · rw [fillLength_zeroFill (rest_small small)]
    omega

omit small lt in
theorem splitFill_literal : ∀ word ∈ splitFill length loc, word.fill = false →
    word.word ≠ literalAllOne := by
  intro word mem literal
  have single : ∀ pos : Fin 64, bitWord pos ≠ literalAllOne := by decide
  rcases mem_splitFill.mp mem with ⟨-, rfl⟩ | rfl | ⟨-, rfl⟩
  · cases literal
  · exact single ⟨loc % wordSize, Nat.mod_lt _ (by decide)⟩
  · cases literal

omit small lt in
theorem splitFill_head :
    (splitFill length loc).head?.map HrlWord.fill = some (decide (wordSize ≤ loc)) := by
  by_cases skipped : wordSize ≤ loc
  · simp [splitFill, skipped, zeroFill]
  · simp [splitFill, skipped]

end

/-! ### Filling a buffer with the new words -/

/-- A buffer that `updatesetbit_inword` fills: `first` is the tid location of
the first bit of its words. -/
structure NewWords (buf : BMTIDBuffer) (first : Nat) (words : List HrlWord) : Prop where
  content : bufWords buf = words
  clean : HeaderClean buf.hwords buf.curword
  room : buf.curword < buf.numCwords
  lastTids : ∀ i < buf.curword, buf.lastTids i + 1 = first + (expand (words.take (i + 1))).length

theorem newWords_nil (first) : NewWords (bufExtend .zero) first [] :=
  ⟨rfl, fun i _ => isFillWord_zero i, by decide, fun i below => absurd below (Nat.not_lt_zero i)⟩

variable {first : Nat} {words : List HrlWord}

section

variable {buf : BMTIDBuffer} (new : NewWords buf first words)
include new

theorem NewWords.length : words.length = buf.curword := by
  rw [← new.content, bufWords, length_wordsOf]

/-- `putWord` appends a word. -/
theorem NewWords.put (few : buf.curword < wordSize) {word lastTid isFill}
    (pos : lastTid + 1 = first + (expand (words ++ [⟨isFill, word⟩])).length) :
    NewWords (putWord buf word lastTid isFill) first (words ++ [⟨isFill, word⟩]) ∧
      (putWord buf word lastTid isFill).curword = buf.curword + 1 := by
  obtain ⟨stored, storedDef⟩ := @exists_eq BMTIDBuffer { buf with
    cwords := update buf.cwords buf.curword word
    lastTids := update buf.lastTids buf.curword lastTid
    curword := buf.curword + 1 }
  have cap : stored.curword ≤ stored.numCwords := by
    rw [storedDef]
    exact new.room
  have count : stored.curword = buf.curword + 1 := by rw [storedDef]
  have hwords : stored.hwords = buf.hwords := by rw [storedDef]
  have res : putWord buf word lastTid isFill = if isFill then
      { bufExtend stored with
        hwords := update buf.hwords (buf.curword / wordSize)
          (buf.hwords (buf.curword / wordSize) ||| wordnoGetHeaderBit buf.curword) }
      else bufExtend stored := by
    have bit : wordSize - (buf.curword + 1) = wordSize - 1 - buf.curword % wordSize := by
      rw [Nat.mod_eq_of_lt few]
      omega
    simp only [putWord, ← storedDef, bufExtend_curword, bufExtend_hwords, count, hwords,
      Nat.add_sub_cancel, bit, wordnoGetHeaderBit]
  have flags (i) : isFillWord (putWord buf word lastTid isFill).hwords i =
      (isFillWord buf.hwords i || (isFill && decide (i = buf.curword))) := by
    rw [res]
    cases isFill with
    | true =>
      rw [if_pos rfl, isFillWord_set]
      rfl
    | false => simp [hwords]
  have curword : (putWord buf word lastTid isFill).curword = buf.curword + 1 := by
    rw [res]
    cases isFill <;> simp [count]
  have arrays : ∀ i < buf.curword + 1,
      (putWord buf word lastTid isFill).cwords i = stored.cwords i ∧
        (putWord buf word lastTid isFill).lastTids i = stored.lastTids i := by
    intro i below
    rw [res]
    cases isFill <;> exact bufExtend_array cap (by omega)
  refine ⟨⟨?_, ?_, ?_, ?_⟩, curword⟩
  · rw [bufWords, curword, wordsOf_succ, flags, new.clean _ le_rfl,
      (arrays _ (Nat.lt_succ_self _)).1, storedDef, ← new.content]
    congr 1
    · apply wordsOf_congr
      · intro i below
        rw [flags, decide_eq_false (by omega), Bool.and_false, Bool.or_false]
      · intro i below
        rw [(arrays i (by omega)).1, storedDef]
        exact update_of_ne (by omega) _ _
    · simp
  · intro i _
    rw [flags, new.clean i (by omega), decide_eq_false (by omega), Bool.and_false, Bool.or_false]
  · rw [curword, ← count, res]
    cases isFill <;> exact bufExtend_room cap
  · intro i below
    rw [curword] at below
    have length := new.length
    rw [(arrays i below).2, storedDef]
    by_cases last : i = buf.curword
    · subst last
      rw [take_of_length_le (by simp [length])]
      simpa using pos
    · rw [take_append_of_le_length (by omega), ← new.lastTids i (by omega)]
      exact congrArg (· + 1) (update_of_ne last _ _)

end

theorem fillLength_lt (word) : fillLength word < 2 ^ 63 := by
  rw [fillLength_eq]
  exact Nat.mod_lt _ (by decide)

theorem length_bits_zeroFill {length} (small : length < 2 ^ 63) :
    (zeroFill length).bits.length = length * wordSize := by
  rw [bits_zeroFill small, length_replicate]

private theorem putLiteralAndRest_spec {buf first length loc words} (new : NewWords buf first words)
    (few : buf.curword ≤ 1) (gtZero : 1 ≤ first) (small : length < 2 ^ 63)
    (skipped : (expand words).length = loc / wordSize * wordSize) :
    NewWords (putLiteralAndRest (length * wordSize) loc (loc / wordSize * wordSize)
        (first + loc / wordSize * wordSize) buf) first
      (words ++ [⟨false, bitWord (loc % wordSize)⟩] ++
        (if loc / wordSize + 1 < length then [zeroFill (length - loc / wordSize - 1)] else [])) := by
  have := Nat.div_add_mod' loc wordSize
  have word : wordSize = 64 := rfl
  have pos : loc - loc / wordSize * wordSize = loc % wordSize := by omega
  have literalLength : (expand [⟨false, bitWord (loc % wordSize)⟩]).length = wordSize := by
    simp [HrlWord.length_bits]
  obtain ⟨withLiteral, _⟩ := @NewWords.put first words buf new (by omega)
    (bitWord (loc % wordSize)) (first + loc / wordSize * wordSize + wordSize - 1) false
    (by rw [expand_append, length_append, skipped, literalLength]; omega)
  have used : loc / wordSize * wordSize + wordSize = (loc / wordSize + 1) * wordSize := by
    rw [Nat.succ_mul]
  have literal : (0 : Word) ||| bitWord (loc % wordSize) = bitWord (loc % wordSize) :=
    BitVec.zero_or
  simp only [putLiteralAndRest, pos, literal]
  by_cases more : loc / wordSize + 1 < length
  · have behind : length * wordSize > loc / wordSize * wordSize + wordSize := by
      rw [used]
      exact mul_lt_mul_of_pos_right more (by decide)
    have fill : (length * wordSize - (loc / wordSize * wordSize + wordSize)) / wordSize =
        length - loc / wordSize - 1 := by
      rw [used, ← Nat.sub_mul, Nat.mul_div_cancel _ (by decide)]
      omega
    have fillBits := length_bits_zeroFill (@rest_small length loc small)
    rw [if_pos behind, if_pos more, fill]
    refine (withLiteral.put (by omega) ?_).1
    rw [expand_append, length_append, expand_append, length_append, skipped,
      literalLength, expand_singleton]
    rw [zeroFill] at fillBits
    omega
  · rw [if_neg more, if_neg, append_nil]
    · exact withLiteral
    · rw [used]
      exact not_lt.mpr (Nat.mul_le_mul_right _ (by omega))

/-- `updatesetbit_inword` splits a fill word of zeros. -/
theorem updatesetbitInword_spec {word loc first} (gtZero : 1 ≤ first)
    (lt : loc < fillLength word * wordSize) :
    NewWords (updatesetbitInword word loc first (bufExtend .zero)) first
      (splitFill (fillLength word) loc) := by
  have small := fillLength_lt word
  have quotient : loc / wordSize < fillLength word :=
    Nat.div_lt_of_lt_mul (by rwa [mul_comm])
  rw [splitFill]
  by_cases skips : wordSize ≤ loc
  · have fillBits := length_bits_zeroFill (lt_trans quotient small)
    have expanded : (expand [zeroFill (loc / wordSize)]).length = loc / wordSize * wordSize := by
      rw [expand_singleton, fillBits]
    obtain ⟨withZeros, count⟩ := @NewWords.put first [] _ (newWords_nil first) (by decide)
      (makeFillWord 0 (BitVec.ofNat 64 (loc / wordSize)))
      (first + loc / wordSize * wordSize - 1) true
      (by rw [zeroFill] at expanded; rw [nil_append, expanded]; omega)
    simp only [updatesetbitInword, if_pos skips]
    exact putLiteralAndRest_spec withZeros (by rw [count]; decide) gtZero small expanded
  · have none : loc / wordSize = 0 := Nat.div_eq_of_lt (by omega)
    have rest := putLiteralAndRest_spec (newWords_nil first) (by decide) gtZero small
      (by rw [none, zero_mul]; rfl)
    rw [none, zero_mul, add_zero] at rest
    simp only [updatesetbitInword, if_neg skips]
    rw [none]
    exact rest

/-! ### Replacing a word of a page -/

/-- The words of a page with `words` in the place of the word `wordNo`. -/
def replacedWords (page : BMBitmapPage) (wordNo : Nat) (words : List HrlWord) : List HrlWord :=
  (pageWords page).take wordNo ++ words ++ (pageWords page).drop (wordNo + 1)

variable {page : BMBitmapPage} {wordNo : Nat} {newWords : BMTIDBuffer}

private theorem newWords_split (new : NewWords newWords first words) (several : 2 ≤ words.length)
    (few : words.length ≤ 3) :
    words = ⟨isFillWord newWords.hwords 0, newWords.cwords 0⟩ ::
      bufWords (ignoreFirstWord newWords) := by
  have length := new.length
  apply ext_getElem?
  intro i
  rw [← new.content, bufWords, getElem?_wordsOf]
  cases i with
  | zero => rw [if_pos (by omega), getElem?_cons_zero]
  | succ i =>
    have count : (ignoreFirstWord newWords).curword = newWords.curword - 1 := rfl
    have flag : isFillWord (ignoreFirstWord newWords).hwords i =
        isFillWord newWords.hwords (i + 1) :=
      isFillWord_dropFirst new.clean (by simp only [wordSize]; omega) i
    rw [getElem?_cons_succ, bufWords, getElem?_wordsOf, flag]
    by_cases lt : i + 1 < newWords.curword
    · rw [if_pos lt, if_pos (by omega)]
      simp only [ignoreFirstWord, if_pos (show i < newWords.curword - 1 by omega)]
    · rw [if_neg lt, if_neg (by omega)]

private theorem ignoreFirstWord_clean (new : NewWords newWords first words)
    (few : words.length ≤ 3) :
    HeaderClean (ignoreFirstWord newWords).hwords (ignoreFirstWord newWords).curword := by
  have length := new.length
  intro i ge
  have ge : newWords.curword - 1 ≤ i := ge
  simp only [ignoreFirstWord]
  rw [isFillWord_dropFirst new.clean (by simp only [wordSize]; omega), new.clean _ (by omega)]

variable (page wordNo newWords) in
abbrev placedFirst : BMBitmapPage :=
  placeFirstWord page wordNo (!isFillWord newWords.hwords 0) newWords

variable (page wordNo newWords) in
private abbrev splitBuffers : BMTIDBuffer × BMTIDBuffer :=
  insertNewwords (pageBuffer (placedFirst page wordNo newWords)) (wordNo + 1)
    (ignoreFirstWord newWords) (bufExtend .zero)

theorem placeFirstWord_flags (isFill : isFillWord page.hwords wordNo) (i) :
    isFillWord (placedFirst page wordNo newWords).hwords i =
      if i = wordNo then isFillWord newWords.hwords 0 else isFillWord page.hwords i := by
  simp only [placeFirstWord]
  cases firstFill : isFillWord newWords.hwords 0 with
  | true =>
    rw [if_neg (by simp)]
    split
    case isTrue same => rw [same, isFill]
    case isFalse => rfl
  | false =>
    rw [if_pos (by simp), isFillWord_clearHeaderBit]
    split
    case isTrue same => simp [same]
    case isFalse other => simp [other]

theorem placeFirstWord_words (isFill : isFillWord page.hwords wordNo)
    (lt : wordNo < page.hrlWordsUsed) :
    pageWords (placedFirst page wordNo newWords) =
      (pageWords page).set wordNo ⟨isFillWord newWords.hwords 0, newWords.cwords 0⟩ := by
  apply ext_getElem?
  intro i
  rw [pageWords, getElem?_wordsOf, placeFirstWord_flags isFill, getElem?_set, pageWords,
    getElem?_wordsOf, length_wordsOf]
  simp only [placeFirstWord, update_apply]
  by_cases same : i = wordNo
  · subst same
    simp
  · rw [if_neg (Ne.symm same), if_neg same, if_neg same]

section

variable (pageOk : PageOk page) (isFill : isFillWord page.hwords wordNo)
  (lt : wordNo < page.hrlWordsUsed)
include pageOk isFill lt

theorem placeFirstWord_clean : HeaderClean (placedFirst page wordNo newWords).hwords
      page.hrlWordsUsed := by
  intro i ge
  rw [placeFirstWord_flags isFill, if_neg (by omega), pageOk.clean i ge]

private theorem replaced_spliced (new : NewWords newWords first words) (several : 2 ≤ words.length)
    (few : words.length ≤ 3) :
    Spliced (splitBuffers page wordNo newWords).1 (splitBuffers page wordNo newWords).2
      (replacedWords page wordNo words) := by
  have length := new.length
  have count : (ignoreFirstWord newWords).curword = newWords.curword - 1 := rfl
  have res := @insertNewwords_spec (pageBuffer (placedFirst page wordNo newWords))
    (bufExtend .zero) (ignoreFirstWord newWords) (wordNo + 1) rfl pageOk.fits
    (Nat.succ_le_of_lt lt) (pageBuffer_clean (placeFirstWord_clean pageOk isFill lt))
    (by omega) (by rw [count]; simp only [wordSize]; omega) (ignoreFirstWord_clean new few)
    (fun i _ => isFillWord_zero i)
  have onPage : wordNo < (pageWords page).length := by
    rw [pageWords, length_wordsOf]
    exact lt
  have same : replacedWords page wordNo words =
      (bufWords (pageBuffer (placedFirst page wordNo newWords))).take (wordNo + 1) ++
      bufWords (ignoreFirstWord newWords) ++
      (bufWords (pageBuffer (placedFirst page wordNo newWords))).drop (wordNo + 1) := by
    rw [pageBuffer_words, placeFirstWord_words isFill lt,
      drop_set_of_lt (Nat.lt_succ_self _), take_succ_eq_append_getElem, getElem_set_self,
      take_set_of_le le_rfl, replacedWords, newWords_split new several few]
    · simp
    · simpa using onPage
  rw [same]
  exact res

end

variable (page wordNo newWords) in
private def splitPage : BMBitmapPage :=
  storeBuffer (placedFirst page wordNo newWords) (splitBuffers page wordNo newWords).1

variable (page wordNo newWords) in
private def splitLeft : BMTIDBuffer :=
  (splitBuffers page wordNo newWords).2

section

variable (pageOk : PageOk page) (isFill : isFillWord page.hwords wordNo = true)
  (lt : wordNo < page.hrlWordsUsed) (new : NewWords newWords first words)
  (several : 2 ≤ words.length) (few : words.length ≤ 3)
include lt in
private theorem length_replacedWords :
    (replacedWords page wordNo words).length + 1 = page.hrlWordsUsed + words.length := by
  simp only [replacedWords, length_append, length_take, length_drop, pageWords, length_wordsOf]
  omega

omit lt in
include pageOk in
private theorem replacedWords_positive (gtZero : ∀ word ∈ words, word.Positive) :
    ∀ word ∈ replacedWords page wordNo words, word.Positive := by
  intro word mem
  rw [replacedWords, mem_append, mem_append] at mem
  rcases mem with (pre | inNew) | after
  · exact pageOk.positive word (mem_of_mem_take pre)
  · exact gtZero word inNew
  · exact pageOk.positive word (mem_of_mem_drop after)

include pageOk isFill lt new several few

private theorem splitLeft_spec : bufWords (splitLeft page wordNo newWords) =
        (replacedWords page wordNo words).drop numOfHrlWordsPerPage ∧
      HeaderClean (splitLeft page wordNo newWords).hwords (splitLeft page wordNo newWords).curword ∧
      (splitLeft page wordNo newWords).curword + numOfHrlWordsPerPage =
        max (page.hrlWordsUsed + words.length - 1) numOfHrlWordsPerPage := by
  have spliced := replaced_spliced pageOk isFill lt new several few
  have length := @length_replacedWords words page wordNo lt
  have count := congrArg List.length spliced.rest
  rw [bufWords, length_wordsOf, length_drop] at count
  refine ⟨spliced.rest, spliced.restClean, ?_⟩
  rw [splitLeft, count]
  omega

private theorem splitPage_spec (gtZero : ∀ word ∈ words, word.Positive) :
    pageWords (splitPage page wordNo newWords) =
        (replacedWords page wordNo words).take numOfHrlWordsPerPage ∧
      PageOk (splitPage page wordNo newWords) := by
  have spliced := replaced_spliced pageOk isFill lt new several few
  have length := @length_replacedWords words page wordNo lt
  have fits := pageOk.fits
  have count := congrArg List.length spliced.kept
  rw [bufWords, length_wordsOf, length_take] at count
  have cid : pageWords (splitPage page wordNo newWords) =
      (replacedWords page wordNo words).take numOfHrlWordsPerPage := by
    rw [splitPage, storeBuffer_words, spliced.kept]
  refine ⟨cid, ?_, storeBuffer_clean (placeFirstWord_clean pageOk isFill lt) ?_ ?_
    spliced.clear, ?_⟩
  · show BMTIDBuffer.curword _ ≤ _
    omega
  · show page.hrlWordsUsed ≤ _
    omega
  · omega
  · intro word mem
    rw [cid] at mem
    exact replacedWords_positive pageOk gtZero word (mem_of_mem_take mem)

end

private def prepended (page : BMBitmapPage) (left : BMTIDBuffer) : BMBitmapPage :=
  storeBuffer page (insertNewwords (pageBuffer page) 0 left .zero).1

private theorem prependPage {left} (pageOk : PageOk page)
    (clean : HeaderClean left.hwords left.curword) (ne : 0 < left.curword)
    (few : left.curword < wordSize) (fits : page.hrlWordsUsed + left.curword ≤ numOfHrlWordsPerPage)
    (gtZero : ∀ word ∈ bufWords left, word.Positive) :
    pageWords (prepended page left) = bufWords left ++ pageWords page ∧
      PageOk (prepended page left) := by
  have spliced := @insertNewwords_spec (pageBuffer page) .zero left 0 rfl pageOk.fits
    (Nat.zero_le _) (pageBuffer_clean pageOk.clean) ne few clean
    (fun i _ => isFillWord_zero i)
  rw [pageBuffer_words, take_zero, nil_append, drop_zero] at spliced
  have length : (bufWords left ++ pageWords page).length = left.curword + page.hrlWordsUsed := by
    simp [bufWords, pageWords]
  have kept := spliced.kept
  rw [take_of_length_le (by omega)] at kept
  have count := congrArg List.length kept
  rw [length, bufWords, length_wordsOf] at count
  have cid : pageWords (prepended page left) = bufWords left ++ pageWords page := by
    rw [prepended, storeBuffer_words, kept]
  refine ⟨cid, ?_, storeBuffer_clean pageOk.clean (by omega) (by omega) spliced.clear, ?_⟩
  · show BMTIDBuffer.curword _ ≤ _
    omega
  · intro word mem
    rw [cid, mem_append] at mem
    rcases mem with new | old
    · exact gtZero word new
    · exact pageOk.positive word old

/-! ### The split on the chain -/

section

variable {vec : BMVector} {block : BlockNumber}

private def splitLocation (page : BMBitmapPage) (wordNo : Nat) (newWords : BMTIDBuffer) : Nat :=
  subU64 page.lastTidLocation (getNumBits (splitLeft page wordNo newWords).cwords
    (splitLeft page wordNo newWords).hwords (splitLeft page wordNo newWords).curword)

private def firstPage (page : BMBitmapPage) (wordNo : Nat) (newWords : BMTIDBuffer)
    (next : Option BlockNumber) : BMBitmapPage :=
  { splitPage page wordNo newWords with
    bitmapNext := next
    lastTidLocation := splitLocation page wordNo newWords }

private theorem split_fits
    (space : newWords.curword - 1 ≤ numOfHrlWordsPerPage - (vec.pages.cell block).hrlWordsUsed) :
    updatesetbitSplit vec block wordNo (!isFillWord newWords.hwords 0) newWords =
      .ok ⟨vec.lovItem, vec.pages.modify block fun _ =>
        firstPage (vec.pages.cell block) wordNo newWords (vec.pages.cell block).bitmapNext⟩ := by
  have le : ¬ numOfHrlWordsPerPage - (vec.pages.cell block).hrlWordsUsed <
      newWords.curword - 1 := by omega
  simp [updatesetbitSplit, le]
  rfl

section

variable
  (full : numOfHrlWordsPerPage - (vec.pages.cell block).hrlWordsUsed < newWords.curword - 1)
  (left : 0 < (splitLeft (vec.pages.cell block) wordNo newWords).curword)
include full left

private theorem split_next {next} (hasNext : (vec.pages.cell block).bitmapNext = some next)
    (space : newWords.curword - 1 ≤ numOfHrlWordsPerPage - (vec.pages.cell next).hrlWordsUsed) :
    updatesetbitSplit vec block wordNo (!isFillWord newWords.hwords 0) newWords =
      .ok ⟨vec.lovItem, (vec.pages.modify block fun _ =>
        firstPage (vec.pages.cell block) wordNo newWords
          (vec.pages.cell block).bitmapNext).modify next fun _ => prepended
          (vec.pages.cell next) (splitLeft (vec.pages.cell block) wordNo newWords)⟩ := by
  have le : ¬ numOfHrlWordsPerPage - (vec.pages.cell next).hrlWordsUsed <
      newWords.curword - 1 := by omega
  rw [splitLeft] at left
  simp [updatesetbitSplit, full, hasNext, le, left]
  rw [← hasNext]
  rfl

private theorem split_new (noSpace : ∀ next, (vec.pages.cell block).bitmapNext = some next →
      numOfHrlWordsPerPage - (vec.pages.cell next).hrlWordsUsed < newWords.curword - 1) :
    updatesetbitSplit vec block wordNo (!isFillWord newWords.hwords 0) newWords =
      .ok ⟨{ vec.lovItem with
          lovTail := if (vec.pages.cell block).bitmapNext = none then some vec.pages.next
            else vec.lovItem.lovTail },
        ((vec.pages.alloc bitmapInitBitmappage).modify block fun _ =>
          firstPage (vec.pages.cell block) wordNo newWords (some vec.pages.next)).modify
          vec.pages.next fun _ => prepended { bitmapInitBitmappage with
              lastTidLocation := (vec.pages.cell block).lastTidLocation
              bitmapNext := (vec.pages.cell block).bitmapNext }
        (splitLeft (vec.pages.cell block) wordNo newWords)⟩ := by
  rw [splitLeft] at left
  cases hasNext : (vec.pages.cell block).bitmapNext with
  | none =>
    simp [updatesetbitSplit, full, hasNext, left]
    rw [← hasNext]
    rfl
  | some next =>
    simp [updatesetbitSplit, full, hasNext, noSpace next hasNext, left]
    rw [← hasNext]
    rfl

end

/-- `updatesetbit_inpage` replaces a word on a chain by the words it was split into. -/
def SplitsInto (vector : BMVector) (block : BlockNumber) (wordNo : Nat) (newWords : BMTIDBuffer)
    (before after : List BlockNumber) (words : List HrlWord) : Prop :=
  ∃ pages' tail' blocks',
    updatesetbitSplit vector block wordNo (!isFillWord newWords.hwords 0) newWords =
      .ok ⟨{ vector.lovItem with lovTail := tail' }, pages'⟩ ∧
    ChainOk pages' vector.lovItem.lovHead tail' blocks' ∧
    chainWords pages' blocks' = chainWords vector.pages before ++
      (replacedWords (vector.pages.cell block) wordNo words ++ chainWords vector.pages after)

private theorem length_take_add_drop (words count) :
    (expand (words.take count)).length + (expand (words.drop count)).length =
      (expand words).length := by
  rw [← length_append, ← expand_append, take_append_drop]

variable {pre after : List BlockNumber}
  (chain : ChainOk vec.pages vec.lovItem.lovHead vec.lovItem.lovTail
    (pre ++ (block :: after)))
  (bounded : (vec.pages.cell block).lastTidLocation < 2 ^ 63)
  (isFill : isFillWord (vec.pages.cell block).hwords wordNo = true)
  (lt : wordNo < (vec.pages.cell block).hrlWordsUsed) (new : NewWords newWords first words)
  (several : 2 ≤ words.length) (few : words.length ≤ 3) (gtZero : ∀ word ∈ words, word.Positive)
  (len : (expand (replacedWords (vec.pages.cell block) wordNo words)).length =
    (expand (pageWords (vec.pages.cell block))).length)
include chain

private theorem block_ok : PageOk (vec.pages.cell block) := chain.pageOk block (by simp)

include bounded isFill lt new several few len

private theorem splitLocation_eq : splitLocation (vec.pages.cell block) wordNo newWords =
      (expand (chainWords vec.pages pre)).length +
        (expand ((replacedWords (vec.pages.cell block) wordNo words).take
          numOfHrlWordsPerPage)).length := by
  obtain ⟨cid, -, -⟩ := splitLeft_spec (block_ok chain) isFill lt new several few
  have := chain.located_block
  have := length_take_add_drop (replacedWords (vec.pages.cell block) wordNo words)
    numOfHrlWordsPerPage
  rw [splitLocation, getNumBits_eq, ← bufWords, cid, subU64]
  omega

include gtZero

private theorem split_fits_spec
    (space : newWords.curword - 1 ≤ numOfHrlWordsPerPage - (vec.pages.cell block).hrlWordsUsed) :
    SplitsInto vec block wordNo newWords pre after words := by
  have pageOk := block_ok chain
  have length := @length_replacedWords words _ wordNo lt
  have := new.length
  obtain ⟨cid, splitOk⟩ := splitPage_spec pageOk isFill lt new several few gtZero
  have location := splitLocation_eq chain bounded isFill lt new several few len
  rw [take_of_length_le (by omega)] at cid location
  have cid' : pageWords (firstPage (vec.pages.cell block) wordNo newWords
      (vec.pages.cell block).bitmapNext) = replacedWords (vec.pages.cell block) wordNo words := by
    rw [firstPage, pageWords_relink, cid]
  obtain ⟨chain', chainWords'⟩ := @ChainOk.modify _ _ _ _ _ _ chain
    (firstPage (vec.pages.cell block) wordNo newWords (vec.pages.cell block).bitmapNext)
    (splitOk.relink _ _) rfl (by rw [chain.located_block, ← len]; exact location)
    (by rw [cid', len])
  refine ⟨_, vec.lovItem.lovTail, _, split_fits space, chain', ?_⟩
  rw [chainWords', cid']

variable (full : numOfHrlWordsPerPage - (vec.pages.cell block).hrlWordsUsed <
  newWords.curword - 1)
include full

/-- The first words stay on the page and the others go to the start of the page
`second`, which is the next page or a new one. -/
private theorem overflow_chain {pages' snd target mid rest} (split : after = mid ++ rest)
    (out : ∀ other ∈ pre ++ rest, pages'.cell other = vec.pages.cell other)
    (cell : pages'.cell block = firstPage (vec.pages.cell block) wordNo newWords (some snd))
    (secondCell : pages'.cell snd = prepended target
      (splitLeft (vec.pages.cell block) wordNo newWords)) (targetOk : PageOk target)
    (targetFits : target.hrlWordsUsed + (newWords.curword - 1) ≤ numOfHrlWordsPerPage)
    (targetWords : pageWords target = chainWords vec.pages mid)
    (targetLocated : target.lastTidLocation = (vec.pages.cell block).lastTidLocation +
      (expand (chainWords vec.pages mid)).length)
    (ends : ∀ stop, Segment (nextBlock vec.pages) (some block) (block :: mid) stop →
      target.bitmapNext = stop) (fresh : snd ∉ pre ++ (block :: rest))
    (alloc : pages'.next > snd) (grown : vec.pages.next ≤ pages'.next) :
    ChainOk pages' vec.lovItem.lovHead (pre ++ [block, snd] ++ rest).getLast?
        (pre ++ [block, snd] ++ rest) ∧
      chainWords pages' (pre ++ [block, snd] ++ rest) = chainWords vec.pages pre ++
        (replacedWords (vec.pages.cell block) wordNo words ++
          chainWords vec.pages after) := by
  have pageOk := block_ok chain
  have cap := pageOk.fits
  have newLength := new.length
  have word : wordSize = 64 := rfl
  obtain ⟨cid, splitOk⟩ := splitPage_spec pageOk isFill lt new several few gtZero
  obtain ⟨leftContent, leftClean, leftCount⟩ :=
    splitLeft_spec pageOk isFill lt new several few
  have location := splitLocation_eq chain bounded isFill lt new several few len
  have located := chain.located_block
  have leftPositive : ∀ word ∈ bufWords (splitLeft (vec.pages.cell block) wordNo newWords),
      word.Positive := by
    rw [leftContent]
    intro word mem
    exact replacedWords_positive pageOk gtZero word (mem_of_mem_drop mem)
  obtain ⟨targetContent, targetOk'⟩ := prependPage targetOk leftClean (by omega) (by omega)
    (by omega) leftPositive
  have firstWords : pageWords (pages'.cell block) =
      (replacedWords (vec.pages.cell block) wordNo words).take numOfHrlWordsPerPage := by
    rw [cell, firstPage, pageWords_relink, cid]
  have secondWords : pageWords (pages'.cell snd) =
      (replacedWords (vec.pages.cell block) wordNo words).drop numOfHrlWordsPerPage ++
        chainWords vec.pages mid := by
    rw [secondCell, targetContent, leftContent, targetWords]
  have parts := length_take_add_drop (replacedWords (vec.pages.cell block) wordNo words)
    numOfHrlWordsPerPage
  subst split
  rw [← cons_append, ← append_assoc] at chain
  obtain ⟨chain', chainWords'⟩ := chain.replacePair out (by rw [cell]; rfl)
    (fun stop seg => by rw [secondCell]; exact ends stop seg) fresh alloc grown
    (by rw [cell]; exact splitOk.relink _ _) (by rw [secondCell]; exact targetOk')
    (by rw [firstWords, cell]; exact location)
    (by
      have kept : (pages'.cell snd).lastTidLocation = target.lastTidLocation := by
        rw [secondCell]
        rfl
      rw [kept, targetLocated, firstWords, secondWords, expand_append, length_append]
      omega)
    (by
      rw [firstWords, secondWords, chainWords_cons, expand_append, expand_append,
        length_append, length_append]
      omega)
  refine ⟨chain', ?_⟩
  rw [chainWords', firstWords, secondWords, chainWords_append]
  simp only [append_assoc]
  rw [← append_assoc (take _ _), take_append_drop]

private theorem split_next_spec {next rest} (split : after = next :: rest)
    (space : newWords.curword - 1 ≤ numOfHrlWordsPerPage - (vec.pages.cell next).hrlWordsUsed) :
    SplitsInto vec block wordNo newWords pre after words := by
  have link : (vec.pages.cell block).bitmapNext = some next := by
    obtain ⟨_, -, behind⟩ := segment_append.mp chain.linked
    rw [split] at behind
    exact behind.2.1
  have nextOk : PageOk (vec.pages.cell next) := chain.pageOk next (by simp [split])
  have := new.length
  obtain ⟨-, -, _⟩ := splitLeft_spec (block_ok chain) isFill lt new several few
  have res := @split_next wordNo newWords vec block full (by omega) next link space
  have nodup := chain.nodup
  rw [split, append_cons, nodup_middle, nodup_cons] at nodup
  have fresh : next ∉ pre ++ (block :: rest) := by
    rw [append_cons]
    exact nodup.1
  have ne : next ≠ block := fun same => fresh (by simp [same])
  have notMem := chain.block_notMem
  obtain ⟨pages', pagesDef⟩ : ∃ pages', pages' = (vec.pages.modify block fun _ =>
    firstPage (vec.pages.cell block) wordNo newWords (vec.pages.cell block).bitmapNext).modify
    next fun _ => prepended (vec.pages.cell next)
      (splitLeft (vec.pages.cell block) wordNo newWords) := ⟨_, rfl⟩
  rw [← pagesDef] at res
  have out (other) (mem : other ∈ pre ++ rest) : pages'.cell other = vec.pages.cell other := by
    rw [mem_append] at mem
    have notNext : other ≠ next := fun same => fresh (by subst same; simp; tauto)
    have notBlock : other ≠ block := fun same => notMem (by subst same; simp [split]; tauto)
    rw [pagesDef, modify_cell_other _ _ notNext, modify_cell_other _ _ notBlock]
  have cell : pages'.cell block = firstPage (vec.pages.cell block) wordNo newWords (some next) := by
    rw [pagesDef, modify_cell_other _ _ ne.symm, modify_cell_same, link]
  have nextCell : pages'.cell next = prepended (vec.pages.cell next)
        (splitLeft (vec.pages.cell block) wordNo newWords) := by
    rw [pagesDef, modify_cell_same]
  have nextWords : pageWords (vec.pages.cell next) = chainWords vec.pages [next] := by simp
  have nextLocated : (vec.pages.cell next).lastTidLocation =
      (vec.pages.cell block).lastTidLocation + (expand (chainWords vec.pages [next])).length := by
    have located := (located_append.mp chain.located).2.2
    rw [split] at located
    rw [located.1, chain.located_block]
    simp
  obtain ⟨chain', chainWords'⟩ := overflow_chain chain bounded isFill lt new several few
    gtZero len full split out cell nextCell nextOk (by omega) nextWords nextLocated
    (fun stop seg => seg.2.2) fresh
    (by rw [pagesDef]; exact chain.allocated next (by simp [split]))
    (by rw [pagesDef]; exact le_rfl)
  have tail : vec.lovItem.lovTail = (pre ++ [block, next] ++ rest).getLast? := by
    rw [chain.tail, split]
    simp
  rw [← tail] at chain'
  exact ⟨pages', vec.lovItem.lovTail, _, res, chain', chainWords'⟩

private theorem split_new_spec (noSpace : ∀ next, (vec.pages.cell block).bitmapNext = some next →
      numOfHrlWordsPerPage - (vec.pages.cell next).hrlWordsUsed < newWords.curword - 1) :
    SplitsInto vec block wordNo newWords pre after words := by
  have := numOfHrlWordsPerPage_eq
  have := new.length
  obtain ⟨-, -, _⟩ := splitLeft_spec (block_ok chain) isFill lt new several few
  have res := @split_new wordNo newWords vec block full (by omega) noSpace
  have below (other) (mem : other ∈ pre ++ (block :: after)) : other ≠ vec.pages.next := ne_of_lt (chain.allocated other mem)
  have notMem := chain.block_notMem
  have blockOld : block ≠ vec.pages.next := below block (by simp)
  obtain ⟨target, targetDef⟩ := @exists_eq _ { bitmapInitBitmappage with
    lastTidLocation := (vec.pages.cell block).lastTidLocation
    bitmapNext := (vec.pages.cell block).bitmapNext }
  rw [← targetDef] at res
  obtain ⟨pages', pagesDef⟩ : ∃ pages', pages' =
    ((vec.pages.alloc bitmapInitBitmappage).modify block fun _ =>
      firstPage (vec.pages.cell block) wordNo newWords (some vec.pages.next)).modify
      vec.pages.next fun _ => prepended target
      (splitLeft (vec.pages.cell block) wordNo newWords) := ⟨_, rfl⟩
  rw [← pagesDef] at res
  have out (other) (mem : other ∈ pre ++ after) : pages'.cell other = vec.pages.cell other := by
    have inChain : other ∈ pre ++ (block :: after) :=
      (sublist_cons_self block after).append_left pre |>.subset mem
    have notBlock : other ≠ block := fun same => notMem (same ▸ mem)
    rw [pagesDef, modify_cell_other _ _ (below other inChain),
      modify_cell_other _ _ notBlock, alloc_cell_old _ _ (chain.allocated other inChain)]
  have cell : pages'.cell block =
      firstPage (vec.pages.cell block) wordNo newWords (some vec.pages.next) := by
    rw [pagesDef, modify_cell_other _ _ blockOld, modify_cell_same]
  have newCell : pages'.cell vec.pages.next = prepended target
      (splitLeft (vec.pages.cell block) wordNo newWords) := by
    rw [pagesDef, modify_cell_same]
  have targetOk : PageOk target := by
    rw [targetDef]
    exact pageOk_init.relink _ _
  have targetUsed : target.hrlWordsUsed = 0 := by
    rw [targetDef]
    rfl
  obtain ⟨chain', chainWords'⟩ := overflow_chain chain bounded isFill lt new several few
    gtZero len full (nil_append after).symm out cell newCell targetOk
    (by omega) (by rw [pageWords, targetUsed]; rfl) (by rw [targetDef]; rfl)
    (fun stop seg => by rw [targetDef]; exact seg.2)
    (fun mem => below _ mem rfl)
    (by rw [pagesDef]; exact Nat.lt_succ_self _) (by rw [pagesDef]; exact Nat.le_succ _)
  have tail : (pre ++ [block, vec.pages.next] ++ after).getLast? =
      if (vec.pages.cell block).bitmapNext = none then some vec.pages.next
      else vec.lovItem.lovTail := by
    obtain ⟨_, -, behind⟩ := segment_append.mp chain.linked
    have link := behind.2
    rw [nextBlock] at link
    cases after with
    | nil =>
      rw [if_pos (show (vec.pages.cell block).bitmapNext = none from link)]
      simp
    | cons next rest =>
      rw [if_neg (by rw [link.1]; simp), chain.tail]
      simp
  rw [tail] at chain'
  exact ⟨pages', _, _, res, chain', chainWords'⟩

omit full

theorem updatesetbitSplit_spec : SplitsInto vec block wordNo newWords pre after words := by
  rcases lt_or_ge (numOfHrlWordsPerPage - (vec.pages.cell block).hrlWordsUsed)
    (newWords.curword - 1) with full | fits
  · obtain ⟨mid, -, behind⟩ := segment_append.mp chain.linked
    have link : Segment (nextBlock vec.pages) (vec.pages.cell block).bitmapNext after none :=
      behind.2
    have noSpace_or : (∃ next rest, after = next :: rest ∧ newWords.curword - 1 ≤
        numOfHrlWordsPerPage - (vec.pages.cell next).hrlWordsUsed) ∨
        ∀ next, (vec.pages.cell block).bitmapNext = some next →
          numOfHrlWordsPerPage - (vec.pages.cell next).hrlWordsUsed < newWords.curword - 1 := by
      cases after with
      | nil => exact .inr fun next isNext => by rw [show _ = none from link] at isNext; cases isNext
      | cons next rest =>
        rcases lt_or_ge (numOfHrlWordsPerPage - (vec.pages.cell next).hrlWordsUsed)
          (newWords.curword - 1) with noSpace | space
        · refine .inr fun other isNext => ?_
          rw [link.1] at isNext
          cases isNext
          exact noSpace
        · exact .inl ⟨next, rest, rfl, space⟩
    rcases noSpace_or with ⟨next, rest, split, space⟩ | noSpace
    · exact split_next_spec chain bounded isFill lt new several few gtZero len full split space
    · exact split_new_spec chain bounded isFill lt new several few gtZero len full noSpace
  · exact split_fits_spec chain bounded isFill lt new several few gtZero len fits

end

end Greengage.Bitmap
