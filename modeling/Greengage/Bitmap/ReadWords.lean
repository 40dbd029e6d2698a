import Greengage.Bitmap.Insertion

/-!
Contract: reading a stored bitmap vector, `read_words`.

The two words of the LOV item go into the batch of the last page if they fit.
-/

namespace Greengage.Bitmap

open Function List Greengage.Foundations

structure BMBatchWords where
  hwords : WordArray
  cwords : WordArray
  nwords : Nat
  firstTid : Nat
  nwordsread : Nat

namespace BMBatchWords

def words (batch : BMBatchWords) : List HrlWord := wordsOf batch.hwords batch.cwords batch.nwords

/-- `_bitmap_reset_batchwords`. -/
def reset (batch : BMBatchWords) : BMBatchWords := { batch with hwords := fun _ => 0, nwords := 0 }

/-- The words of the LOV item. -/
def readLov (lovItem : BMLOVItem) (batch : BMBatchWords) : BMBatchWords :=
  let header := lovItem.lovWordsHeader.setWidth 64
  if lovItem.lastCompword ≠ literalAllOne then
    { batch with
      nwords := 2
      hwords := update batch.hwords 0 (header <<< (wordSize - 2))
      cwords := update (update batch.cwords 0 lovItem.lastCompword) 1 lovItem.lastWord }
  else
    { batch with
      nwords := 1
      hwords := update batch.hwords 0 (header <<< (wordSize - 1))
      cwords := update batch.cwords 0 lovItem.lastWord }

def readPage (page : BMBitmapPage) (batch : BMBatchWords) : BMBatchWords :=
  let firstTid := page.lastTidLocation - getNumBits page.cwords page.hwords page.hrlWordsUsed + 1
  { nwords := page.hrlWordsUsed
    firstTid
    nwordsread := firstTid / wordSize
    hwords := copyWords batch.hwords 0 page.hwords numOfHeaderWords
    cwords := copyWords batch.cwords 0 page.cwords page.hrlWordsUsed }

/-- The words of the LOV item are put behind those of the last page. -/
def appendLov (lovItem : BMLOVItem) (batch : BMBatchWords) : BMBatchWords :=
  let temp := readLov lovItem ⟨fun _ => 0, fun _ => 0, 0, 0, 0⟩
  let hword := temp.hwords 0
  let offs := batch.nwords / wordSize
  let hwords := update batch.hwords offs (batch.hwords offs ||| hword >>> (batch.nwords % wordSize))
  let next := (batch.nwords + 1) / wordSize
  { batch with
    cwords := copyWords batch.cwords batch.nwords temp.cwords temp.nwords
    hwords := if batch.nwords % wordSize = wordSize - 1 then
        update hwords next (hwords next ||| hword <<< 1)
      else hwords
    nwords := batch.nwords + temp.nwords }

end BMBatchWords

/-- `read_words`, with the next block and `readLastWords`. -/
def readWords (vector : BMVector) (batch : BMBatchWords) :
    Option BlockNumber → BMBatchWords × Option BlockNumber × Bool
  | some block =>
    let page := vector.pages.cell block
    let batch := batch.readPage page
    if page.bitmapNext = none ∧ batch.nwords ≤ numOfHrlWordsPerPage - 2 then
      (batch.appendLov vector.lovItem, none, true)
    else (batch, page.bitmapNext, false)
  | none => (batch.readLov vector.lovItem, none, true)

/-- The words of successive calls, until the last words are read. -/
def readVector (vector : BMVector) :
    Nat → BMBatchWords → Option BlockNumber → Option (List HrlWord)
  | 0, _, _ => none
  | calls + 1, batch, nextBlockNo =>
    let (batch, nextBlockNo, readLastWords) := readWords vector batch.reset nextBlockNo
    if readLastWords then batch.words
    else (readVector vector calls batch nextBlockNo).map (batch.words ++ ·)

/-- The words of the LOV item with their flags. -/
def lovWords (lovItem : BMLOVItem) : List HrlWord :=
  lovCompWords lovItem ++ [⟨lovItem.lovWordsHeader &&& 1 != 0, lovItem.lastWord⟩]

/-- A vector with the pages of its chain. -/
structure StoredVector where
  vector : BMVector
  blocks : List BlockNumber
  ok : VectorOk vector blocks

namespace BMBatchWords

theorem words_readPage {page} (ok : PageOk page) (batch : BMBatchWords) :
    (batch.readPage page).words = pageWords page := by
  have fits := ok.fits
  rw [numOfHrlWordsPerPage_eq] at fits
  refine wordsOf_congr (fun i (below : i < page.hrlWordsUsed) => ?_)
    fun i (below : i < page.hrlWordsUsed) => ?_
  · rw [readPage, isFillWord_copyWords, if_pos]
    rw [numOfHeaderWords_eq, wordSize]
    omega
  · simp [copyWords, readPage, below]

theorem clean_readPage {page} (ok : PageOk page) (batch : BMBatchWords) :
    HeaderClean (batch.reset.readPage page).hwords (batch.reset.readPage page).nwords := by
  intro i ge
  rw [readPage, isFillWord_copyWords, ok.clean i ge]
  exact ite_eq_left_iff.mpr fun _ => isFillWord_zero i

section

variable {lov : BMLOVItem}
  (header : lov.lovWordsHeader = 0 ∨ lov.lovWordsHeader = 2)
  (unset : lov.lastCompword = literalAllOne → lov.lovWordsHeader = 0)
include header unset

theorem hwords_readLov (batch : BMBatchWords) : (batch.readLov lov).hwords 0 =
    if lastCompwordIsFill lov then wordnoGetHeaderBit 0 else 0 := by
  unfold readLov lastCompwordIsFill
  split
  · rcases header with is | is <;> rw [is] <;> rfl
  · next one =>
    rw [unset (not_not.mp one)]
    rfl

theorem lovWords_eq (batch : BMBatchWords) : lovWords lov =
    (range (batch.readLov lov).nwords).map fun i =>
      ⟨lastCompwordIsFill lov && i = 0, (batch.readLov lov).cwords i⟩ := by
  have last : (lov.lovWordsHeader &&& 1 != 0) = false := by
    rcases header with is | is <;> rw [is] <;> rfl
  unfold readLov lovWords lovCompWords compWords
  rw [last]
  split
  · next one => simp [one, lastCompwordIsFill, unset one]
  · simp [range_succ]

theorem words_readLov (batch : BMBatchWords) :
    (batch.reset.readLov lov).words = lovWords lov := by
  rw [lovWords_eq header unset batch.reset]
  refine map_congr_left fun i _ => congrArg (HrlWord.mk · _) ?_
  have flags := hwords_readLov header unset batch.reset
  have rest : (batch.reset.readLov lov).hwords =
      update (fun _ => 0) 0 ((batch.reset.readLov lov).hwords 0) := by
    unfold readLov reset
    split <;> simp
  rw [rest, flags]
  split
  · next fill =>
    have set := isFillWord_set (fun _ => 0) 0 i
    rw [isFillWord_zero] at set
    simpa [fill] using set
  · next literal =>
    rw [update_eq_self 0 fun _ => (0 : Word), isFillWord_zero]
    simp [literal]

theorem words_appendLov {batch : BMBatchWords} (clean : HeaderClean batch.hwords batch.nwords) :
    (batch.appendLov lov).words = batch.words ++ lovWords lov := by
  have flags (i) : isFillWord (batch.appendLov lov).hwords i =
      (isFillWord batch.hwords i || lastCompwordIsFill lov && i = batch.nwords) := by
    have moved : ∀ k < wordSize, wordnoGetHeaderBit 0 >>> k = wordnoGetHeaderBit k := by decide
    have placed : wordnoGetHeaderBit 0 >>> (batch.nwords % wordSize) =
        wordnoGetHeaderBit batch.nwords := by
      rw [moved _ (Nat.mod_lt _ (by decide)), wordnoGetHeaderBit, Nat.mod_mod, wordnoGetHeaderBit]
    have out : wordnoGetHeaderBit 0 <<< 1 = 0 := rfl
    simp only [appendLov, hwords_readLov header unset]
    cases lastCompwordIsFill lov with
    | true => simp [placed, out, isFillWord_set]
    | false => simp
  rw [words, lovWords_eq header unset ⟨fun _ => 0, fun _ => 0, 0, 0, 0⟩]
  change wordsOf _ _ (batch.nwords + _) = _
  rw [wordsOf_add]
  congr 1
  · refine wordsOf_congr (fun i below => ?_) fun i below => ?_
    · simp [flags, ne_of_lt below]
    · simp [appendLov, copyWords, not_le.mpr below]
  · refine map_congr_left fun i mem => ?_
    have below := mem_range.mp mem
    rw [flags, clean _ (Nat.le_add_right ..)]
    simpa [appendLov, copyWords] using fun ge => absurd below (not_lt.mpr ge)

end

end BMBatchWords

theorem readVector_spec (stored : StoredVector) (batch : BMBatchWords) :
    ∃ calls, readVector stored.vector calls batch stored.vector.lovItem.lovHead =
      some (chainWords stored.vector.pages stored.blocks ++ lovWords stored.vector.lovItem) := by
  obtain ⟨vec, blocks, ok⟩ := stored
  have header := ok.header
  have unset (one : vec.lovItem.lastCompword = literalAllOne) := (ok.unset one).2
  have pageOk := ok.chain.pageOk
  have link := ok.chain.linked
  dsimp only
  clear ok
  generalize vec.lovItem.lovHead = head at link ⊢
  induction blocks generalizing head batch with
  | nil =>
    cases link
    exact ⟨1, congrArg some (BMBatchWords.words_readLov header unset batch)⟩
  | cons block rest ih =>
    obtain ⟨rfl, link⟩ := link
    have here := pageOk block mem_cons_self
    have page := BMBatchWords.words_readPage here batch.reset
    have clean := BMBatchWords.clean_readPage here batch
    by_cases last : (vec.pages.cell block).bitmapNext = none ∧
        (vec.pages.cell block).hrlWordsUsed ≤ numOfHrlWordsPerPage - 2
    · have read : readWords vec batch.reset (some block) =
          ((batch.reset.readPage _).appendLov vec.lovItem, none, true) := if_pos last
      have ends : rest = [] := by
        cases rest with
        | nil => rfl
        | cons => exact absurd (last.1.symm.trans link.1) (by simp)
      refine ⟨1, ?_⟩
      rw [readVector, read]
      simp [BMBatchWords.words_appendLov header unset clean, page, ends]
    · have read : readWords vec batch.reset (some block) =
          (batch.reset.readPage _, nextBlock vec.pages block, false) := if_neg last
      obtain ⟨calls, more⟩ := ih (batch.reset.readPage (vec.pages.cell block))
        (fun b mem => pageOk b (mem_cons_of_mem _ mem)) _ link
      refine ⟨calls + 1, ?_⟩
      rw [readVector, read]
      simp [more, page]

/-- A vector that insertions have reached is stored. -/
def Reached.stored {currTidNumber pages vector} (bounded : currTidNumber < 2 ^ 63)
    (reached : Reached currTidNumber pages vector) : StoredVector where
  vector := vector
  blocks := chainBlocks vector
  ok := by
    obtain ⟨blocks, ok⟩ := reached.vectorOk bounded
    have same : chainBlocks vector = blocks := ok.chain.blocks_eq
    exact same ▸ ok

/-- The three words of the page, then the two of the LOV item. -/
theorem readVector_spec_inserted : ∃ vector calls,
    insertAll (formVector 1 noPages) [1, 130, 300] = .ok vector ∧
      readVector vector calls ⟨fun _ => 0, fun _ => 0, 0, 0, 0⟩ vector.lovItem.lovHead =
        some [⟨false, 1⟩, ⟨true, 1⟩, ⟨false, 2⟩, ⟨true, 1⟩, ⟨false, 8796093022208⟩] := by
  obtain ⟨vector, run, reached, test⟩ := exists_insertAll [1, 130, 300]
    (fun vector => chainWords vector.pages (chainBlocks vector) ++ lovWords vector.lovItem =
      [⟨false, 1⟩, ⟨true, 1⟩, ⟨false, 2⟩, ⟨true, 1⟩, ⟨false, 8796093022208⟩]) (by decide)
    (by decide +kernel)
  obtain ⟨calls, read⟩ :=
    readVector_spec (reached.stored (by decide)) ⟨fun _ => 0, fun _ => 0, 0, 0, 0⟩
  exact ⟨vector, calls, run, read.trans (congrArg some (of_decide_eq_true test))⟩

end Greengage.Bitmap
