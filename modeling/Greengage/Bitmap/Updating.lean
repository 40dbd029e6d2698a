import Greengage.Bitmap.Appending
import Greengage.Bitmap.Splitting

/-!
Contract: `updatesetbit` sets a bit that lies before the last one.
-/

namespace Greengage.Bitmap

open Function List Greengage.Foundations

variable {tid : Nat}

section

variable {pages : Heap BMBitmapPage}

/-- `findbitmappage` finds the page that holds the tid. -/
theorem findbitmappage_spec {head blocks start fuel}
    (link : Segment (nextBlock pages) head blocks none) (located : Located pages start blocks)
    (le : blocks.length < fuel) (lower : start < tid)
    (upper : tid ≤ start + (expand (chainWords pages blocks)).length) :
    ∃ pre block after, blocks = pre ++ (block :: after) ∧
      findbitmappage pages tid fuel head (start + 1) =
        .ok (block, start + (expand (chainWords pages pre)).length + 1) ∧
      start + (expand (chainWords pages pre)).length < tid ∧
      tid ≤ start + (expand (chainWords pages pre)).length +
        (expand (pageWords (pages.cell block))).length := by
  induction blocks generalizing head start fuel with
  | nil =>
    rw [chainWords_nil, expand_nil, length_nil] at upper
    omega
  | cons block rest ih =>
    obtain ⟨rfl, link⟩ := link
    cases fuel with
    | zero => omega
    | succ fuel =>
      rcases lt_or_ge (pages.cell block).lastTidLocation tid with behind | found
      · obtain ⟨pre, target, after, split, run, lower', upper'⟩ := ih link
          located.2 (show rest.length < fuel by simpa using le)
          (by rw [← located.1]; exact behind)
          (by
            rw [chainWords_cons, expand_append, length_append] at upper
            omega)
        refine ⟨block :: pre, target, after, by rw [split, cons_append], ?_, ?_, ?_⟩
        · rw [findbitmappage, if_neg (by omega), located.1, chainWords_cons, expand_append,
            length_append, ← add_assoc]
          exact run
        · rw [chainWords_cons, expand_append, length_append, ← add_assoc]
          exact lower'
        · rw [chainWords_cons, expand_append, length_append, ← add_assoc]
          exact upper'
      · refine ⟨[], block, rest, rfl, by rw [findbitmappage, if_pos found]; rfl, lower, ?_⟩
        rw [chainWords_nil, expand_nil, length_nil, add_zero, ← located.1]
        exact found

/-- The search loop of `updatesetbit_inpage` finds the word that holds the tid. -/
theorem findWord_spec {page start fuel no bitNo} (left : no + fuel = page.hrlWordsUsed)
    (done : bitNo = (expand ((pageWords page).take no)).length) (lower : start + bitNo < tid)
    (upper : tid ≤ start + (expand (pageWords page)).length) :
    ∃ found, found < page.hrlWordsUsed ∧ findWord page (start + 1) tid fuel no bitNo =
        some (found, (expand ((pageWords page).take (found + 1))).length) ∧
      start + (expand ((pageWords page).take found)).length < tid ∧
      tid ≤ start + (expand ((pageWords page).take (found + 1))).length := by
  induction fuel generalizing no bitNo with
  | zero =>
    rw [take_of_length_le (by rw [pageWords, length_wordsOf]; omega)] at done
    omega
  | succ fuel ih =>
    have next : bitNo + (if isFillWord page.hwords no then
        fillLength (page.cwords no) * wordSize else wordSize) =
          (expand ((pageWords page).take (no + 1))).length := by
      rw [done, pageWords, take_wordsOf _ _ (by omega), take_wordsOf _ _ (by omega), wordsOf_succ,
        expand_append, length_append, expand_singleton,
        HrlWord.length_bits]
    rw [findWord, next]
    by_cases here : start + 1 + (expand ((pageWords page).take (no + 1))).length - 1 ≥ tid
    · exact ⟨no, by omega, by rw [if_pos here], by rw [← done]; exact lower, by omega⟩
    · rw [if_neg here]
      exact ih (by omega) rfl (by omega)

end

/-! ### Updating a word of a page -/

def pageWord (page : BMBitmapPage) (wordNo : Nat) : HrlWord :=
  ⟨isFillWord page.hwords wordNo, page.cwords wordNo⟩

variable {no : Nat}

section

variable {page : BMBitmapPage} (lt : no < page.hrlWordsUsed)
include lt

theorem take_succ_pageWords : (pageWords page).take (no + 1) =
    (pageWords page).take no ++ [pageWord page no] := by
  rw [pageWords, take_wordsOf _ _ lt, take_wordsOf _ _ (le_of_lt lt), wordsOf_succ]
  rfl

theorem pageWords_split : pageWords page =
    (pageWords page).take no ++ [pageWord page no] ++ (pageWords page).drop (no +
      1) := by
  rw [← take_succ_pageWords lt, take_append_drop]

theorem expand_replacedWords {words pos} (inWord : pos < (pageWord page no).bits.length)
    (set : expand words = (pageWord page no).bits.set pos true) :
    expand (replacedWords page no words) = (expand (pageWords page)).set
      ((expand ((pageWords page).take no)).length + pos) true := by
  have whole : expand (pageWords page) = expand ((pageWords page).take no) ++
      ((pageWord page no).bits ++ expand ((pageWords page).drop (no + 1))) := by
    conv_lhs => rw [pageWords_split lt]
    simp
  rw [whole, set_append_right _ _ (by omega), Nat.add_sub_cancel_left,
    set_append_left _ _ inWord, replacedWords, expand_append, expand_append, set,
    append_assoc]

theorem replacedWords_singleton {page' word}
    (same : pageWords page' = (pageWords page).set no word) :
    pageWords page' = replacedWords page no [word] := by
  rw [same, replacedWords, set_eq_take_cons_drop]
  · simp
  · rw [pageWords, length_wordsOf]
    exact lt

end

theorem pageWords_setCword (page no word) :
    pageWords { page with cwords := update page.cwords no word } =
      (pageWords page).set no ⟨isFillWord page.hwords no, word⟩ := by
  apply ext_getElem?
  intro i
  rw [pageWords, getElem?_wordsOf, getElem?_set, pageWords, getElem?_wordsOf, length_wordsOf]
  simp only [update_apply]
  by_cases same : i = no
  · subst same
    simp
  · rw [if_neg (Ne.symm same), if_neg same]

/-- The chain of `vector` with the bit of `tid` set. -/
def ChainBitSet (vector : BMVector) (blocks : List BlockNumber) (tid : Nat)
    (result : Except BitmapError BMVector) : Prop :=
  ∃ pages' tail' blocks', result = .ok ⟨{ vector.lovItem with lovTail := tail' }, pages'⟩ ∧
    ChainOk pages' vector.lovItem.lovHead tail' blocks' ∧
    expand (chainWords pages' blocks') = (expand (chainWords vector.pages blocks)).set (tid - 1) true

theorem getFillBit_cases (word) : getFillBit word = 0 ∨ getFillBit word = 1 := by
  have value := getFillBit_toNat word
  rcases lt_or_ge word.toNat (2 ^ 63) with low | _
  · left
    apply BitVec.eq_of_toNat_eq
    rw [value, Nat.div_eq_of_lt low]
    rfl
  · right
    apply BitVec.eq_of_toNat_eq
    rw [value]
    show word.toNat / 2 ^ 63 = 1
    omega

theorem splitFill_length {len loc} (lt : loc < len * wordSize) :
    (splitFill len loc).length ≤ 3 ∧ ((splitFill len loc).length = 1 ↔ len = 1) := by
  have skips : wordSize ≤ loc ↔ 0 < loc / wordSize := by
    simp only [wordSize]
    omega
  obtain ⟨skipped, skippedDef⟩ : ∃ skipped, loc / wordSize = skipped := ⟨_, rfl⟩
  simp only [splitFill]
  grind

variable {vec : BMVector} {pre after : List BlockNumber} {block : BlockNumber} {pos : Nat}

section

variable
  (chain : ChainOk vec.pages vec.lovItem.lovHead vec.lovItem.lovTail
    (pre ++ (block :: after)))
  (lt : no < (vec.pages.cell block).hrlWordsUsed)
  (inWord : pos < (pageWord (vec.pages.cell block) no).bits.length)
  (place : (expand (chainWords vec.pages pre)).length +
    (expand ((pageWords (vec.pages.cell block)).take no)).length + pos = tid - 1)

include lt inWord place

theorem expand_chain_set {words}
    (set : expand words = (pageWord (vec.pages.cell block) no).bits.set pos true) :
    expand (chainWords vec.pages pre ++ (replacedWords (vec.pages.cell block) no words
        ++ chainWords vec.pages after)) =
      (expand (chainWords vec.pages (pre ++ (block :: after)))).set (tid - 1) true := by
  have onPage : (expand ((pageWords (vec.pages.cell block)).take no)).length + pos <
      (expand (pageWords (vec.pages.cell block))).length := by
    conv_rhs => rw [pageWords_split lt]
    simp only [expand_append, length_append, expand_singleton]
    omega
  rw [chainWords_append, chainWords_cons, expand_append, expand_append, expand_append,
    expand_append, ← place, add_assoc, set_append_right _ _ (by omega),
    Nat.add_sub_cancel_left, set_append_left _ _ onPage,
    expand_replacedWords lt inWord set]

include chain

theorem chainBitSet_modify {page' word}
    (words : pageWords page' = (pageWords (vec.pages.cell block)).set no word)
    (clean : HeaderClean page'.hwords page'.hrlWordsUsed)
    (used : page'.hrlWordsUsed = (vec.pages.cell block).hrlWordsUsed)
    (next : page'.bitmapNext = (vec.pages.cell block).bitmapNext)
    (last : page'.lastTidLocation = (vec.pages.cell block).lastTidLocation)
    (gtZero : word.Positive)
    (set : word.bits = (pageWord (vec.pages.cell block) no).bits.set pos true) :
    ChainBitSet vec (pre ++ (block :: after)) tid
      (.ok { vec with pages := vec.pages.modify block fun _ => page' }) := by
  have replaced := replacedWords_singleton lt words
  have pageOk := chain.pageOk block (by simp)
  have setOne : expand [word] = (pageWord (vec.pages.cell block) no).bits.set pos true := by
    rw [expand_singleton, set]
  obtain ⟨chain', chainWords'⟩ := @ChainOk.modify _ _ _ _ _ _ chain page'
    ⟨by rw [used]; exact pageOk.fits, clean, by
      rw [words]
      intro other mem
      rcases mem_or_eq_of_mem_set mem with old | new
      · exact pageOk.positive other old
      · rw [new]
        exact gtZero⟩
    next last
    (by rw [replaced, expand_replacedWords lt inWord setOne, length_set])
  refine ⟨_, vec.lovItem.lovTail, _, rfl, chain', ?_⟩
  rw [chainWords', replaced]
  exact expand_chain_set lt inWord place setOne

variable {start bitNo : Nat}
  (run : findWord (vec.pages.cell block) (start + 1) tid
    (vec.pages.cell block).hrlWordsUsed 0 0 = some (no, bitNo))
include run

private theorem inpage_literal (bound : tid < 2 ^ 63) (gtZero : 1 ≤ tid)
    (isLiteral : isFillWord (vec.pages.cell block).hwords no = false) :
    ChainBitSet vec (pre ++ (block :: after)) tid
      (updatesetbitInpage vec tid block (start + 1)) := by
  have bits : (pageWord (vec.pages.cell block) no).bits =
      literalBits ((vec.pages.cell block).cwords no) := by
    simp [pageWord, HrlWord.bits, isLiteral]
  have small : pos < wordSize := by
    rw [bits, length_literalBits] at inWord
    exact inWord
  have position : subU64 tid 1 % wordSize = pos := by
    have := length_expand_mod (chainWords vec.pages pre)
    have := length_expand_mod ((pageWords (vec.pages.cell block)).take no)
    rw [subU64_mod _ bound]
    simp only [wordSize] at *
    omega
  have res : updatesetbitInpage vec tid block (start + 1) = .ok { vec with
      pages := vec.pages.modify block fun _ => { vec.pages.cell block with
        cwords := update (vec.pages.cell block).cwords no
          ((vec.pages.cell block).cwords no ||| bitWord pos) } } := by
    simp only [updatesetbitInpage, run, isLiteral, position]
    rfl
  rw [res]
  have words := pageWords_setCword (vec.pages.cell block) no
    ((vec.pages.cell block).cwords no ||| bitWord pos)
  rw [isLiteral] at words
  refine chainBitSet_modify chain lt inWord place words (chain.pageOk block (by simp)).clean
    rfl rfl rfl (by simp [HrlWord.Positive]) ?_
  rw [bits]
  exact literalBits_setBit _ _

private theorem inpage_ones (fill : isFillWord (vec.pages.cell block).hwords no)
    (ones : getFillBit ((vec.pages.cell block).cwords no) = 1) :
    ChainBitSet vec (pre ++ (block :: after)) tid
      (updatesetbitInpage vec tid block (start + 1)) := by
  have res : updatesetbitInpage vec tid block (start + 1) = .ok vec := by
    simp [updatesetbitInpage, run, fill, ones]
  have set : expand [pageWord (vec.pages.cell block) no] =
      (pageWord (vec.pages.cell block) no).bits.set pos true := by
    simp [pageWord, HrlWord.bits, fill, ones]
  have same : replacedWords (vec.pages.cell block) no
      [pageWord (vec.pages.cell block) no] = pageWords (vec.pages.cell block) :=
    (pageWords_split lt).symm
  have whole := @expand_chain_set tid no vec pre after block pos lt inWord place
    [pageWord (vec.pages.cell block) no] set
  rw [same, ← chainWords_cons, ← chainWords_append] at whole
  rw [res]
  exact ⟨vec.pages, vec.lovItem.lovTail, _, rfl, chain, whole⟩

private theorem inpage_zeros (bound : (vec.pages.cell block).lastTidLocation < 2 ^ 63)
    (startDef : start = (expand (chainWords vec.pages pre)).length)
    (bitNoDef : bitNo = (expand ((pageWords (vec.pages.cell block)).take no)).length +
      (pageWord (vec.pages.cell block) no).bits.length) (gtZero : 1 ≤ tid)
    (fill : isFillWord (vec.pages.cell block).hwords no)
    (zeros : getFillBit ((vec.pages.cell block).cwords no) = 0) :
    ChainBitSet vec (pre ++ (block :: after)) tid
      (updatesetbitInpage vec tid block (start + 1)) := by
  obtain ⟨word, wordDef⟩ := @exists_eq _ ((vec.pages.cell block).cwords no)
  rw [← wordDef] at zeros
  have bits : (pageWord (vec.pages.cell block) no).bits =
      replicate (fillLength word * wordSize) false := by
    simp [pageWord, HrlWord.bits, fill, ← wordDef, zeros]
  have inFill : pos < fillLength word * wordSize := by
    rw [bits, length_replicate] at inWord
    exact inWord
  have small := fillLength_lt word
  obtain ⟨first, firstDef⟩ := @exists_eq _ (start + 1 + bitNo - fillLength word * wordSize)
  have firstValue : first = tid - pos := by
    rw [bits, length_replicate] at bitNoDef
    omega
  have new := @updatesetbitInword_spec word pos first (by omega) inFill
  obtain ⟨newWords, newDef⟩ := @exists_eq _ (updatesetbitInword word pos first (bufExtend .zero))
  rw [← newDef] at new
  have := new.length
  obtain ⟨few, single⟩ := splitFill_length inFill
  have set : expand (splitFill (fillLength word) pos) =
      (pageWord (vec.pages.cell block) no).bits.set pos true := by
    rw [expand_splitFill small inFill, bits]
  have firstFlag : isFillWord newWords.hwords 0 = decide (wordSize ≤ pos) := by
    have head := @splitFill_head (fillLength word) pos
    rw [← new.content, bufWords, head?_eq_getElem?, getElem?_wordsOf] at head
    split at head
    · simpa using head
    · simp at head
  have reduced : updatesetbitInpage vec tid block (start + 1) = if newWords.curword = 1 then
        if isFillWord newWords.hwords 0 then .error .incorrectHeaderBit
        else .ok { vec with
          pages := vec.pages.modify block fun page => placeFirstWord page no true newWords }
      else updatesetbitSplit vec block no (pos + 1 ≤ wordSize) newWords := by
    have loc : tid - first = pos := by omega
    simp only [updatesetbitInpage, run, fill, ← wordDef, zeros, ← firstDef, loc, ← newDef]
    rfl
  rw [reduced]
  by_cases one : newWords.curword = 1
  · have len : fillLength word = 1 := single.mp (by omega)
    have literal : isFillWord newWords.hwords 0 = false := by
      rw [firstFlag, decide_eq_false]
      rw [len, one_mul] at inFill
      omega
    have words := @placeFirstWord_words (vec.pages.cell block) no newWords fill lt
    have clean := @placeFirstWord_clean (vec.pages.cell block) no newWords
      (chain.pageOk block (by simp)) fill lt
    rw [placedFirst, literal, Bool.not_false] at words clean
    have cid : splitFill (fillLength word) pos = [⟨false, newWords.cwords 0⟩] := by
      rw [← new.content, bufWords, one, ← literal]
      rfl
    rw [if_pos one, literal]
    refine chainBitSet_modify chain lt inWord place words clean rfl rfl rfl
      (by simp [HrlWord.Positive]) ?_
    rw [← set, cid, expand_singleton]
  · have clearBit : decide (pos + 1 ≤ wordSize) = !isFillWord newWords.hwords 0 := by
      rw [firstFlag, ← decide_not, decide_eq_decide]
      omega
    rw [if_neg one, clearBit]
    have positiveWords := splitFill_positive small inFill
    have several : 2 ≤ (splitFill (fillLength word) pos).length := by
      have ne : (splitFill (fillLength word) pos).length ≠ 0 := by
        simp [splitFill]
      omega
    obtain ⟨pages', tail', blocks', res, chain', words'⟩ := updatesetbitSplit_spec chain bound
      fill lt new several few positiveWords
      (by rw [expand_replacedWords lt inWord set, length_set])
    refine ⟨pages', tail', blocks', res, chain', ?_⟩
    rw [words']
    exact expand_chain_set lt inWord place set

end

/-- `updatesetbit_inpage` sets a bit of the page. -/
theorem updatesetbitInpage_spec {vec pre after block tid}
    (chain : ChainOk vec.pages vec.lovItem.lovHead vec.lovItem.lovTail
      (pre ++ (block :: after))) (bound : (vec.pages.cell block).lastTidLocation < 2 ^ 63)
    (lower : (expand (chainWords vec.pages pre)).length < tid)
    (upper : tid ≤ (expand (chainWords vec.pages pre)).length +
      (expand (pageWords (vec.pages.cell block))).length) :
    ChainBitSet vec (pre ++ (block :: after)) tid (updatesetbitInpage vec tid block
      ((expand (chainWords vec.pages pre)).length + 1)) := by
  have := chain.located_block
  obtain ⟨no, lt, run, _, wordUpper⟩ := @findWord_spec tid
    (vec.pages.cell block) (expand (chainWords vec.pages pre)).length
    (vec.pages.cell block).hrlWordsUsed 0 0 (zero_add _) rfl lower upper
  rw [take_succ_pageWords lt, expand_append, length_append, expand_singleton] at run wordUpper
  obtain ⟨pos, _⟩ := @exists_eq _ (tid - 1 - (expand (chainWords vec.pages pre)).length -
    (expand ((pageWords (vec.pages.cell block)).take no)).length)
  have inWord : pos < (pageWord (vec.pages.cell block) no).bits.length := by omega
  have place : (expand (chainWords vec.pages pre)).length +
      (expand ((pageWords (vec.pages.cell block)).take no)).length + pos = tid - 1 := by
    omega
  cases flag : isFillWord (vec.pages.cell block).hwords no with
  | false => exact inpage_literal chain lt inWord place run (by omega) (by omega) flag
  | true =>
    rcases getFillBit_cases ((vec.pages.cell block).cwords no) with zeros | ones
    · exact inpage_zeros chain lt inWord place run bound rfl rfl (by omega) flag zeros
    · exact inpage_ones chain lt inWord place run flag ones

end Greengage.Bitmap
