import Greengage.Bitmap.Words
import Greengage.Foundations.Heap
import Greengage.Foundations.Results

/-!
Contract: insertion into one bitmap vector, `bitmapinsert.c` and
`_bitmap_formitem` of `src/backend/access/bitmap`.

Owns: the LOV item with its page chain, the tid buffer, appending a set bit,
updating a set bit in place, and the write of new words with what the WAL
record says about each page.

Does not own: locks, buffers and the lookup of the LOV item. The pages of the
index are a heap whose addresses are block numbers; `P_NEW` allocates the next
one. Tid locations are natural numbers; unsigned 64-bit arithmetic is reduced
where a subtraction can wrap around.
-/

namespace Greengage.Bitmap

open Function Greengage.Foundations

/-- `InvalidBlockNumber` is `none` where a block number may be invalid. -/
abbrev BlockNumber := Nat

/-- `BMBitmapData` with its `BMBitmapOpaqueData`. -/
structure BMBitmapPage where
  hwords : WordArray
  cwords : WordArray
  hrlWordsUsed : Nat
  bitmapNext : Option BlockNumber
  lastTidLocation : Nat

/-- `_bitmap_init_bitmappage`; a page allocated by `P_NEW` is zeroed. -/
def bitmapInitBitmappage : BMBitmapPage := ⟨fun _ => 0, fun _ => 0, 0, none, 0⟩

structure BMLOVItem where
  lovHead : Option BlockNumber
  lovTail : Option BlockNumber
  lastCompword : Word
  lastWord : Word
  lastTidLocation : Nat
  lastSetbit : Nat
  lovWordsHeader : BitVec 8
deriving DecidableEq

structure BMVector where
  lovItem : BMLOVItem
  pages : Heap BMBitmapPage

/-- Where `cwords` and `last_tids` of a buffer point to. They are allocated and
freed together, and `_bitmap_free_tidbuf` does not reset them. -/
inductive BufArrays
  | null
  | allocated
  | freed
deriving DecidableEq

structure BMTIDBuffer where
  lastCompword : Word
  lastWord : Word
  isLastCompwordFill : Bool
  lastTid : Nat
  curword : Nat
  numCwords : Nat
  lastTids : Nat → Nat
  hwords : WordArray
  cwords : WordArray
  arrays : BufArrays
  used : numCwords ≠ 0 → arrays = .allocated

/-- `MemSet(&buf, 0, sizeof(buf))`. -/
def BMTIDBuffer.zero : BMTIDBuffer :=
  ⟨0, 0, false, 0, 0, 0, fun _ => 0, fun _ => 0, fun _ => 0, .null, absurd rfl⟩

/-- The `ereport(ERROR)` and `elog(ERROR)` exits, and a `pfree` of memory that is
freed already, after which nothing is known. -/
inductive BitmapError
  | tooManyPages
  | pageNotFound (tidnum : Nat)
  | wordNotFound (tidnum : Nat)
  | incorrectHeaderBit
  | freedTwice
deriving DecidableEq

/-- `BM_LAST_COMPWORD_IS_FILL`. -/
def lastCompwordIsFill (lovItem : BMLOVItem) : Bool := lovItem.lovWordsHeader &&& 2 != 0

def subU64 (left right : Nat) : Nat := (left + 2 ^ 64 - right) % 2 ^ 64

def bitmapFormitem (currTidNumber : Nat) : BMLOVItem :=
  if currTidNumber ≤ wordSize then
    { lovHead := none, lovTail := none, lastCompword := literalAllOne
      lastWord := literalAllZero, lastTidLocation := 0, lastSetbit := 0, lovWordsHeader := 0 }
  else
    let numOfTotalFillWords := (currTidNumber - 1) / wordSize
    let numOfFillWords :=
      if numOfTotalFillWords ≥ maxFillLength then maxFillLength else numOfTotalFillWords
    { lovHead := none, lovTail := none
      lastCompword := makeFillWord 0 (BitVec.ofNat 64 numOfFillWords)
      lastWord := literalAllZero, lastTidLocation := numOfFillWords * wordSize
      lastSetbit := numOfFillWords * wordSize, lovWordsHeader := 2 }

def bufInitWords : Nat := 8

def bufExtend (buf : BMTIDBuffer) : BMTIDBuffer :=
  if buf.numCwords > 0 ∧ buf.curword < buf.numCwords - 1 then buf
  else if buf.numCwords = 0 then
    { buf with
      cwords := fun _ => 0, lastTids := fun _ => 0, numCwords := bufInitWords
      arrays := .allocated, used := fun _ => rfl }
  else
    let size := buf.numCwords
    { buf with
      cwords := fun i => if i < size then buf.cwords i else 0
      lastTids := fun i => if i < size then buf.lastTids i else 0
      numCwords := size + size
      used := fun more => buf.used fun none => more (by simp only [size, none]) }

/-- A buffer after `_bitmap_free_tidbuf`. -/
def freedTidbuf (buf : BMTIDBuffer) : BMTIDBuffer :=
  { buf with
    numCwords := 0, curword := 0, hwords := fun _ => 0
    arrays := if buf.arrays = .null then .null else .freed, used := absurd rfl }

def bitmapFreeTidbuf (buf : BMTIDBuffer) : Except BitmapError BMTIDBuffer :=
  if buf.arrays = .freed then .error .freedTwice else .ok (freedTidbuf buf)

@[simp] theorem freedTidbuf_freedTidbuf (buf : BMTIDBuffer) :
    freedTidbuf (freedTidbuf buf) = freedTidbuf buf := by
  simp only [freedTidbuf]
  split <;> simp_all

theorem bitmapFreeTidbuf_of_used {buf : BMTIDBuffer} (words : buf.numCwords ≠ 0) :
    bitmapFreeTidbuf buf = .ok (freedTidbuf buf) := by
  rw [bitmapFreeTidbuf, buf.used words, if_neg (by decide)]

/-- The end of `mergewords`: the last complete word moves to the array and the
last word takes its place. -/
def mergewordsAppend (buf : BMTIDBuffer) (lastWordFill : Bool) (lastTid : Nat) : BMTIDBuffer :=
  let buf := bufExtend buf
  { buf with
    cwords := update buf.cwords buf.curword buf.lastCompword
    lastTids := update buf.lastTids buf.curword lastTid
    hwords := if buf.isLastCompwordFill then
        update buf.hwords (buf.curword / wordSize)
          (buf.hwords (buf.curword / wordSize) ||| wordnoGetHeaderBit buf.curword)
      else buf.hwords
    curword := buf.curword + 1
    lastCompword := buf.lastWord
    isLastCompwordFill := lastWordFill
    lastWord := 0
    lastTid := lastTid + if lastWordFill then fillLength buf.lastWord * wordSize else wordSize }

def mergewords (buf : BMTIDBuffer) (lastWordFill : Bool) : BMTIDBuffer :=
  let lastTid := buf.lastTid - buf.lastTid % wordSize
  if buf.lastCompword = literalAllOne then
    { buf with
      lastCompword := buf.lastWord
      isLastCompwordFill := lastWordFill
      lastWord := 0
      lastTid := if lastWordFill then fillLength buf.lastWord * wordSize else wordSize }
  else if buf.isLastCompwordFill ∧ lastWordFill ∧
      getFillBit buf.lastCompword = getFillBit buf.lastWord then
    if fillLength buf.lastCompword + fillLength buf.lastWord ≤ maxFillLength then
      { buf with
        lastCompword := buf.lastCompword + BitVec.ofNat 64 (fillLength buf.lastWord)
        lastWord := literalAllZero
        lastTid := lastTid + fillLength buf.lastWord * wordSize }
    else
      let lengthMerged := maxFillLength - fillLength buf.lastCompword
      mergewordsAppend
        { buf with
          lastWord := buf.lastWord - BitVec.ofNat 64 lengthMerged
          lastCompword := buf.lastCompword + BitVec.ofNat 64 lengthMerged }
        lastWordFill (lastTid + lengthMerged * wordSize)
  else mergewordsAppend buf lastWordFill lastTid

/-! ### Writing new words -/

/-- `xl_bm_bitmapwords_perpage`. -/
structure XlBitmapwordsPerpage where
  blkno : BlockNumber
  lastTid : Nat
  startHwordNo : Nat
  numHwords : Nat
  startCwordNo : Nat
  numCwords : Nat
  nextBlkno : Option BlockNumber

/-- `_bitmap_write_bitmapwords_on_page`: the page, the number of words written
and the description of the change for the WAL record of block `blkno`. -/
def bitmapWriteBitmapwordsOnPage (bitmapPage : BMBitmapPage) (buf : BMTIDBuffer)
    (startWordNo : Nat) (blkno : BlockNumber) : BMBitmapPage × Nat × XlBitmapwordsPerpage :=
  let cwords := bitmapPage.hrlWordsUsed
  let wordsWritten :=
    if buf.curword - startWordNo > numOfHrlWordsPerPage - cwords
    then numOfHrlWordsPerPage - cwords else buf.curword - startWordNo
  if wordsWritten = 0 then
    (bitmapPage, 0, ⟨blkno, bitmapPage.lastTidLocation, 0, 0, cwords, 0, bitmapPage.bitmapNext⟩)
  else
    let startHwordNo := startWordNo / wordSize
    let endHwordNo := (startWordNo + wordsWritten - 1) / wordSize
    let numHwords := endHwordNo - startHwordNo + 1
    let hwords : WordArray := fun i => if i < numHwords then buf.hwords (startHwordNo + i) else 0
    -- clean up the first and the last header word
    let startHwordBit := startWordNo % wordSize
    let endHwordBit := (startWordNo + wordsWritten - 1) % wordSize
    let hwords := update hwords 0 ((hwords 0 <<< startHwordBit) >>> startHwordBit)
    let hwords := update hwords (numHwords - 1)
      ((hwords (numHwords - 1) >>> (wordSize - endHwordBit - 1)) <<< (wordSize - endHwordBit - 1))
    let finalStartHwordBit := cwords % wordSize
    let hwords :=
      if finalStartHwordBit > startHwordBit then
        rshiftHeaderBits hwords (numHwords + 1) (finalStartHwordBit - startHwordBit)
      else if finalStartHwordBit < startHwordBit then
        lshiftHeaderBits hwords numHwords (startHwordBit - finalStartHwordBit)
      else hwords
    let finalStartHwordNo := cwords / wordSize
    let finalEndHwordNo := (cwords + wordsWritten - 1) / wordSize
    let pageHwords := update bitmapPage.hwords finalStartHwordNo
      (bitmapPage.hwords finalStartHwordNo ||| hwords 0)
    let lastTid := buf.lastTids (startWordNo + wordsWritten - 1)
    ({ bitmapPage with
        cwords := copyWords bitmapPage.cwords cwords (fun i => buf.cwords (startWordNo + i))
          wordsWritten
        hwords := copyWords pageHwords (finalStartHwordNo + 1) (fun i => hwords (i + 1))
          (finalEndHwordNo - finalStartHwordNo)
        hrlWordsUsed := cwords + wordsWritten
        lastTidLocation := lastTid },
      wordsWritten,
      ⟨blkno, lastTid, finalStartHwordNo, finalEndHwordNo + 1 - finalStartHwordNo, cwords,
        wordsWritten, bitmapPage.bitmapNext⟩)

/-- A page that takes part in one write: its block, its new content and its
part of the WAL record. -/
structure WrittenPage where
  blkno : BlockNumber
  page : BMBitmapPage
  xlrec : XlBitmapwordsPerpage

def maxBitmapPagesPerInsert : Nat := 10

/-- The loop of `_bitmap_write_new_bitmapwords` on all pages but the first,
which are newly allocated. The page limit of the source bounds its
iterations. -/
def writeMorePages (buf : BMTIDBuffer) : Nat → Heap BMBitmapPage → List WrittenPage → Nat →
      Except BitmapError (Heap BMBitmapPage × List WrittenPage)
  | 0, _, _, _ => .error .tooManyPages
  | room + 1, pages, written, startWordno =>
    if buf.curword - startWordno > 0 then
      let blkno := pages.next
      let (page, wordsWritten, xlrec) :=
        bitmapWriteBitmapwordsOnPage bitmapInitBitmappage buf startWordno blkno
      if room = 0 then .error .tooManyPages
      else writeMorePages buf room (pages.alloc bitmapInitBitmappage)
        (written ++ [⟨blkno, page, xlrec⟩]) (startWordno + wordsWritten)
    else .ok (pages, written)

def storePages : Heap BMBitmapPage → List WrittenPage → Heap BMBitmapPage
  | pages, [] => pages
  | pages, [last] => pages.modify last.blkno fun _ => last.page
  | pages, entry :: next :: rest =>
    storePages (pages.modify entry.blkno fun _ =>
      { entry.page with bitmapNext := some next.blkno }) (next :: rest)

/-- What `_bitmap_write_new_bitmapwords` leaves behind: the vector and the
pages that took part, with the flag whether the first of them is new. -/
structure WriteResult where
  vector : BMVector
  written : List WrittenPage
  firstPageNeedsInit : Bool

def setLastWords (lovItem : BMLOVItem) (buf : BMTIDBuffer) : BMLOVItem :=
  { lovItem with
    lastCompword := buf.lastCompword
    lastWord := buf.lastWord
    lovWordsHeader := if buf.isLastCompwordFill then 2 else 0
    lastSetbit := buf.lastTid
    lastTidLocation := buf.lastTid - buf.lastTid % wordSize }

def firstWriteBlock (vector : BMVector) : BlockNumber × Heap BMBitmapPage × Bool :=
  match vector.lovItem.lovHead, vector.lovItem.lovTail with
  | some _, some tail => (tail, vector.pages, false)
  | _, _ => (vector.pages.next, vector.pages.alloc bitmapInitBitmappage, true)

def bitmapWriteNewBitmapwords (vector : BMVector) (buf : BMTIDBuffer) :
    Except BitmapError WriteResult :=
  if buf.curword > 0 then do
    let (blkno, pages, needsInit) := firstWriteBlock vector
    let (page, wordsWritten, xlrec) :=
      bitmapWriteBitmapwordsOnPage (pages.cell blkno) buf 0 blkno
    let (pages, written) ← writeMorePages buf maxBitmapPagesPerInsert pages
      [⟨blkno, page, xlrec⟩] wordsWritten
    let lovItem := { vector.lovItem with
      lovHead := if needsInit then some blkno else vector.lovItem.lovHead
      lovTail := (written.getLast?).map WrittenPage.blkno }
    .ok ⟨⟨setLastWords lovItem buf, storePages pages written⟩, written, needsInit⟩
  else .ok ⟨⟨setLastWords vector.lovItem buf, vector.pages⟩, [], false⟩

def bufFreeMemBlock (vector : BMVector) (buf : BMTIDBuffer) :
    Except BitmapError (BMVector × BMTIDBuffer) :=
  if buf.numCwords = 0 then .ok (vector, buf)
  else do
    let result ← bitmapWriteNewBitmapwords vector buf
    let buf ← bitmapFreeTidbuf buf
    .ok (result.vector, buf)

def bufEnsureHeadSpace (vector : BMVector) (buf : BMTIDBuffer) :
    Except BitmapError (BMVector × BMTIDBuffer) :=
  if buf.curword ≥ numOfHeaderWords * wordSize then do
    let (vector, buf) ← bufFreeMemBlock vector buf
    .ok (vector, bufExtend buf)
  else .ok (vector, buf)

def ensureAndMerge (vector : BMVector) (buf : BMTIDBuffer) (lastWordFill : Bool) :
    Except BitmapError (BMVector × BMTIDBuffer) := do
  let (vector, buf) ← bufEnsureHeadSpace vector buf
  .ok (vector, mergewords buf lastWordFill)

/-- The loop of `buf_add_tid_with_fill` that appends words of zeros. Each
iteration appends at least one word, so their number bounds the iterations. -/
def appendFillWords :
    Nat → BMVector → BMTIDBuffer → Nat → Except BitmapError (BMVector × BMTIDBuffer)
  | 0, vector, buf, _ => .ok (vector, buf)
  | fuel + 1, vector, buf, numOfTotalFillWords =>
    if numOfTotalFillWords > 0 then do
      let numOfFillWords :=
        if numOfTotalFillWords ≥ maxFillLength then maxFillLength else numOfTotalFillWords
      let buf := { buf with lastWord := makeFillWord 0 (BitVec.ofNat 64 numOfFillWords) }
      let (vector, buf) ← ensureAndMerge vector buf true
      appendFillWords fuel vector buf (numOfTotalFillWords - numOfFillWords)
    else .ok (vector, buf)

/-- The zeros between the last set bit and `tidnum`. -/
def appendZeros (vector : BMVector) (buf : BMTIDBuffer) (tidnum : Nat) :
    Except BitmapError (BMVector × BMTIDBuffer) :=
  -- `zeros` is an `int64`
  let zeros := (BitVec.ofInt 64 ((tidnum : Int) - buf.lastTid - 1)).toInt
  if zeros > 0 then do
    let zerosNeeded := wordSize - subU64 buf.lastTid 1 % wordSize - 1
    let (vector, buf, zeros) ←
      if zerosNeeded > 0 ∧ zeros ≥ zerosNeeded then do
        let (vector, buf) ← ensureAndMerge vector buf false
        .ok (vector, buf, zeros - zerosNeeded)
      else .ok (vector, buf, zeros)
    let numOfTotalFillWords := (zeros / wordSize).toNat
    appendFillWords numOfTotalFillWords vector buf numOfTotalFillWords
  else .ok (vector, buf)

/-- The end of `buf_add_tid_with_fill`: a full last word is merged, as a fill
word where its bits are equal. -/
def completeLastWord (vector : BMVector) (buf : BMTIDBuffer) (tidnum : Nat) :
    Except BitmapError (BMVector × BMTIDBuffer) :=
  if tidnum % wordSize = 0 then
    if buf.lastWord = literalAllZero then
      ensureAndMerge vector { buf with lastWord := makeFillWord 0 1 } true
    else if buf.lastWord = literalAllOne then
      ensureAndMerge vector { buf with lastWord := makeFillWord 1 1 } true
    else ensureAndMerge vector buf false
  else .ok (vector, buf)

def bufAddTidWithFill (vector : BMVector) (buf : BMTIDBuffer) (tidnum : Nat) :
    Except BitmapError (BMVector × BMTIDBuffer) := do
  let (vector, buf) ← appendZeros vector buf tidnum
  let insertingPos := subU64 tidnum 1 % wordSize
  let buf := { buf with lastWord := buf.lastWord ||| bitWord insertingPos }
  let (vector, buf) ← completeLastWord vector buf tidnum
  .ok (vector, { buf with lastTid := tidnum })

/-! ### Updating a bit in place -/

/-- Append a word to a buffer that `updatesetbit_inword` fills. -/
def putWord (buf : BMTIDBuffer) (word : Word) (lastTid : Nat) (isFill : Bool) : BMTIDBuffer :=
  let buf := bufExtend { buf with
    cwords := update buf.cwords buf.curword word
    lastTids := update buf.lastTids buf.curword lastTid
    curword := buf.curword + 1 }
  if isFill then
    { buf with
      hwords := update buf.hwords ((buf.curword - 1) / wordSize)
        (buf.hwords ((buf.curword - 1) / wordSize) ||| bitWord (wordSize - buf.curword)) }
  else buf

/-- The second half of `updatesetbit_inword`: the literal word with the bit,
and the zeros behind it. -/
def putLiteralAndRest (numBits updateBitLoc usedNumBits firstTid : Nat) (buf : BMTIDBuffer) :
    BMTIDBuffer :=
  let insertingPos := updateBitLoc - usedNumBits
  let firstTid := firstTid + wordSize
  let buf := putWord buf (0 ||| bitWord insertingPos) (firstTid - 1) false
  let usedNumBits := usedNumBits + wordSize
  if numBits > usedNumBits then
    let fillLength := (numBits - usedNumBits) / wordSize
    putWord buf (makeFillWord 0 (BitVec.ofNat 64 fillLength))
      (firstTid + fillLength * wordSize - 1) true
  else buf

def updatesetbitInword (word : Word) (updateBitLoc firstTid : Nat) (buf : BMTIDBuffer) :
    BMTIDBuffer :=
  let numBits := fillLength word * wordSize
  if updateBitLoc ≥ wordSize then
    let skipped := updateBitLoc / wordSize
    let firstTid := firstTid + skipped * wordSize
    putLiteralAndRest numBits updateBitLoc (skipped * wordSize) firstTid
      (putWord buf (makeFillWord 0 (BitVec.ofNat 64 skipped)) (firstTid - 1) true)
  else putLiteralAndRest numBits updateBitLoc 0 firstTid buf

/-- The first loop of `insert_newwords`: the words from `insertPos` on move to
the right, those pushed out of `words` to `wordsLeft`. The loop runs from the
last word back to `insertPos`. -/
def moveWord (newCount : Nat) (state : BMTIDBuffer × BMTIDBuffer) (wordNo : Nat) :
    BMTIDBuffer × BMTIDBuffer :=
  let (words, wordsLeft) := state
  if wordNo + newCount ≥ words.numCwords then
    let n := wordNo + newCount - words.numCwords
    let wordsLeft := { wordsLeft with
      cwords := update wordsLeft.cwords n (words.cwords wordNo) }
    if isFillWord words.hwords wordNo then
      ({ words with
          hwords := update words.hwords (wordNo / wordSize)
            (words.hwords (wordNo / wordSize) &&& ~~~wordnoGetHeaderBit wordNo) },
        { wordsLeft with
          hwords := update wordsLeft.hwords 0 (wordsLeft.hwords 0 ||| wordnoGetHeaderBit n) })
    else (words, wordsLeft)
  else
    ({ words with
        cwords := update words.cwords (wordNo + newCount) (words.cwords wordNo) },
      wordsLeft)

/-- The second loop of `insert_newwords`: the new words fill the gap. -/
def placeWord (insertPos : Nat) (newWords : BMTIDBuffer) (state : BMTIDBuffer × BMTIDBuffer)
    (wordNo : Nat) : BMTIDBuffer × BMTIDBuffer :=
  let (words, wordsLeft) := state
  if insertPos + wordNo ≥ words.numCwords then
    let n := insertPos + wordNo - words.numCwords
    (words, { wordsLeft with
      cwords := update wordsLeft.cwords n (newWords.cwords wordNo)
      hwords := if isFillWord newWords.hwords wordNo then
          update wordsLeft.hwords 0 (wordsLeft.hwords 0 ||| wordnoGetHeaderBit n)
        else wordsLeft.hwords })
  else
    ({ words with
        cwords := update words.cwords (insertPos + wordNo) (newWords.cwords wordNo) },
      wordsLeft)

/-- The last loop of `insert_newwords`: the header bits of the new words. -/
def placeHeaderBit (insertPos numCwords : Nat) (newHwords : WordArray) (hwords : WordArray)
    (wordNo : Nat) : WordArray :=
  if insertPos + wordNo < numCwords ∧ isFillWord newHwords wordNo then
    update hwords ((insertPos + wordNo) / wordSize)
      (hwords ((insertPos + wordNo) / wordSize) ||| wordnoGetHeaderBit (insertPos + wordNo))
  else hwords

/-- `insert_newwords`: the buffer with the new words and the words left over. -/
def insertNewwords (words : BMTIDBuffer) (insertPos : Nat) (newWords wordsLeft : BMTIDBuffer) :
    BMTIDBuffer × BMTIDBuffer :=
  let wordsLeft := { wordsLeft with curword := 0 }
  if words.curword = 0 then
    ({ words with
        cwords := copyWords words.cwords 0 newWords.cwords newWords.curword
        hwords := copyWords words.hwords 0 newWords.hwords (calcHWords newWords.curword)
        curword := newWords.curword }, wordsLeft)
  else if insertPos = words.numCwords then
    (words, { wordsLeft with
      cwords := copyWords wordsLeft.cwords 0 newWords.cwords newWords.curword
      hwords := copyWords wordsLeft.hwords 0 newWords.hwords (calcHWords newWords.curword)
      curword := newWords.curword })
  else
    let curword := words.curword
    let leftCount :=
      if curword + newWords.curword > words.numCwords
      then curword + newWords.curword - words.numCwords else 0
    let wordsLeft := { wordsLeft with curword := leftCount, hwords := fun _ => 0 }
    let (words, wordsLeft) := (List.range (curword - insertPos)).foldl
      (fun state i => moveWord newWords.curword state (curword - 1 - i)) (words, wordsLeft)
    let (words, wordsLeft) := (List.range newWords.curword).foldl
      (placeWord insertPos newWords) (words, wordsLeft)
    let hwords := shiftHeaderBits words.hwords curword numOfHeaderWords insertPos newWords.curword
    let hwords := (List.range newWords.curword).foldl
      (placeHeaderBit insertPos words.numCwords newWords.hwords) hwords
    ({ words with hwords := hwords, curword := curword + (newWords.curword - leftCount) },
      wordsLeft)

/-- The words of a page as `insert_newwords` sees them. -/
def pageBuffer (page : BMBitmapPage) : BMTIDBuffer :=
  { BMTIDBuffer.zero with
    cwords := page.cwords
    hwords := copyWords (fun _ => 0) 0 page.hwords (calcHWords page.hrlWordsUsed)
    numCwords := numOfHrlWordsPerPage
    curword := page.hrlWordsUsed
    arrays := .allocated, used := fun _ => rfl }

def storeBuffer (page : BMBitmapPage) (words : BMTIDBuffer) : BMBitmapPage :=
  { page with
    cwords := words.cwords
    hwords := copyWords page.hwords 0 words.hwords (calcHWords words.curword)
    hrlWordsUsed := words.curword }

/-- The search loop of `updatesetbit_inpage`: the number of the word that holds
`tidnum`, and the number of bits up to its end. -/
def findWord (page : BMBitmapPage) (firstTidNumber tidnum : Nat) :
    Nat → Nat → Nat → Option (Nat × Nat)
  | 0, _, _ => none
  | fuel + 1, wordNo, bitNo =>
    let bitNo := bitNo +
      if isFillWord page.hwords wordNo then fillLength (page.cwords wordNo) * wordSize
      else wordSize
    if firstTidNumber + bitNo - 1 ≥ tidnum then some (wordNo, bitNo)
    else findWord page firstTidNumber tidnum fuel (wordNo + 1) bitNo

def clearHeaderBit (hwords : WordArray) (wordNo : Nat) : WordArray :=
  update hwords (wordNo / wordSize) (hwords (wordNo / wordSize) &&& ~~~wordnoGetHeaderBit wordNo)

/-- The first new word takes the place of the word `wordNo`. -/
def placeFirstWord (page : BMBitmapPage) (wordNo : Nat) (clearBit : Bool)
    (newWords : BMTIDBuffer) : BMBitmapPage :=
  { page with
    cwords := update page.cwords wordNo (newWords.cwords 0)
    hwords := if clearBit then clearHeaderBit page.hwords wordNo else page.hwords }

def ignoreFirstWord (newWords : BMTIDBuffer) : BMTIDBuffer :=
  { newWords with
    hwords := update newWords.hwords 0 (newWords.hwords 0 <<< 1)
    cwords := fun i => newWords.cwords (if i < newWords.curword - 1 then i + 1 else i)
    curword := newWords.curword - 1 }

/-- The end of `updatesetbit_inpage`: more than one new word takes the place of
the word `wordNo`, on this page, the next page or a new page. -/
def updatesetbitSplit (vector : BMVector) (bitmapBlock : BlockNumber) (wordNo : Nat)
    (clearBit : Bool) (newWords : BMTIDBuffer) : Except BitmapError BMVector :=
  let page := vector.pages.cell bitmapBlock
  let needed := newWords.curword - 1
  let noSpace := numOfHrlWordsPerPage - page.hrlWordsUsed < needed
  let nextBuffer := if noSpace then page.bitmapNext else none
  let newLastpage := noSpace ∧ page.bitmapNext = none
  let freeWords := match nextBuffer with
    | some next => numOfHrlWordsPerPage - (vector.pages.cell next).hrlWordsUsed
    | none => numOfHrlWordsPerPage - page.hrlWordsUsed
  let newPage : Bool := freeWords < needed
  let newBlock := vector.pages.next
  let pages := if newPage then vector.pages.alloc bitmapInitBitmappage else vector.pages
  let nextBlock := if newPage then some newBlock else nextBuffer
  let lovItem := if newLastpage then { vector.lovItem with lovTail := nextBlock }
    else vector.lovItem
  if clearBit ∧ isFillWord newWords.hwords 0 then .error .incorrectHeaderBit
  else
    let page := placeFirstWord page wordNo clearBit newWords
    let (words, wordsLeft) := insertNewwords (pageBuffer page) (wordNo + 1)
      (ignoreFirstWord newWords) (bufExtend .zero)
    let page := storeBuffer page words
    let nextPage := if newPage then
        nextBlock.map fun next => { pages.cell next with
          lastTidLocation := page.lastTidLocation, bitmapNext := page.bitmapNext }
      else nextBlock.map pages.cell
    let page := if newPage then { page with bitmapNext := nextBlock } else page
    let page := { page with
      lastTidLocation := subU64 page.lastTidLocation
        (getNumBits wordsLeft.cwords wordsLeft.hwords wordsLeft.curword) }
    let pages := pages.modify bitmapBlock fun _ => page
    match nextBlock, nextPage with
    | some next, some nextPage =>
      let nextPage := if wordsLeft.curword > 0 then
          storeBuffer nextPage (insertNewwords (pageBuffer nextPage) 0 wordsLeft .zero).1
        else nextPage
      .ok ⟨lovItem, pages.modify next fun _ => nextPage⟩
    | _, _ => .ok ⟨lovItem, pages⟩

def updatesetbitInpage (vector : BMVector) (tidnum : Nat) (bitmapBlock : BlockNumber)
    (firstTidNumber : Nat) : Except BitmapError BMVector :=
  let page := vector.pages.cell bitmapBlock
  match findWord page firstTidNumber tidnum page.hrlWordsUsed 0 0 with
  | none => .error (.wordNotFound tidnum)
  | some (wordNo, bitNo) =>
    let word := page.cwords wordNo
    if isFillWord page.hwords wordNo = false then
      let insertingPos := subU64 tidnum 1 % wordSize
      .ok { vector with
        pages := vector.pages.modify bitmapBlock fun page =>
          { page with
            cwords := update page.cwords wordNo (word ||| bitWord insertingPos) } }
    else if getFillBit word = 1 then .ok vector
    else
      let firstTidNumber := firstTidNumber + bitNo - fillLength word * wordSize
      let newWords := updatesetbitInword word (tidnum - firstTidNumber) firstTidNumber
        (bufExtend .zero)
      if newWords.curword = 1 then
        if isFillWord newWords.hwords 0 then .error .incorrectHeaderBit
        else .ok { vector with
          pages := vector.pages.modify bitmapBlock fun page =>
            { page with
              cwords := update page.cwords wordNo (newWords.cwords 0)
              hwords := clearHeaderBit page.hwords wordNo } }
      else
        updatesetbitSplit vector bitmapBlock wordNo
          (tidnum - firstTidNumber + 1 ≤ wordSize) newWords

/-- `findbitmappage`: the page that holds `tidnum` and the first tid location
on it. A chain has no more pages than the index has blocks. -/
def findbitmappage (pages : Heap BMBitmapPage) (tidnum : Nat) :
    Nat → Option BlockNumber → Nat → Except BitmapError (BlockNumber × Nat)
  | 0, _, _ => .error (.pageNotFound tidnum)
  | _ + 1, none, _ => .error (.pageNotFound tidnum)
  | fuel + 1, some blockNo, firstTidNumber =>
    if (pages.cell blockNo).lastTidLocation ≥ tidnum then .ok (blockNo, firstTidNumber)
    else findbitmappage pages tidnum fuel (pages.cell blockNo).bitmapNext
      ((pages.cell blockNo).lastTidLocation + 1)

/-- The branch of `updatesetbit` that sets a bit in `bm_last_compword` without
generating new words. -/
def updateLastCompword (lovItem : BMLOVItem) (tidnum : Nat) : BMLOVItem :=
  let word :=
    if lastCompwordIsFill lovItem then
      if getFillBit lovItem.lastCompword = 1 then literalAllOne else 0
    else lovItem.lastCompword
  let word := word ||| bitWord (subU64 tidnum 1 % wordSize)
  if word = literalAllOne then
    { lovItem with lovWordsHeader := 2, lastCompword := makeFillWord 1 1 }
  else { lovItem with lovWordsHeader := 0, lastCompword := word }

def updatesetbit (vector : BMVector) (tidnum : Nat) : Except BitmapError BMVector := do
  let lovItem := vector.lovItem
  let tidLocation := subU64 lovItem.lastTidLocation
    (if lastCompwordIsFill lovItem then fillLength lovItem.lastCompword * wordSize else wordSize)
  if tidnum > lovItem.lastTidLocation ∨ (tidnum > tidLocation ∧
        (lovItem.lovWordsHeader = 0 ∨ fillLength lovItem.lastCompword = 1)) then
    if tidnum > lovItem.lastTidLocation then
      .ok { vector with
        lovItem := { lovItem with
          lastWord := lovItem.lastWord ||| bitWord (subU64 tidnum 1 % wordSize) } }
    else .ok { vector with lovItem := updateLastCompword lovItem tidnum }
  else if tidnum > tidLocation ∧ lovItem.lovWordsHeader ≥ 2 then
    let buf := updatesetbitInword lovItem.lastCompword (tidnum - tidLocation - 1)
      (tidLocation + 1) (bufExtend .zero)
    let buf := { buf with
      lastCompword := buf.cwords (buf.curword - 1)
      isLastCompwordFill := isFillWord buf.hwords (buf.curword - 1)
      curword := buf.curword - 1
      lastWord := lovItem.lastWord
      lastTid := lovItem.lastSetbit }
    let result ← bitmapWriteNewBitmapwords vector buf
    .ok result.vector
  else
    let (bitmapBlock, firstTidNumber) ←
      findbitmappage vector.pages tidnum (vector.pages.next + 1) lovItem.lovHead 1
    updatesetbitInpage vector tidnum bitmapBlock firstTidNumber

def loadBuffer (lovItem : BMLOVItem) (isFill : Bool) : BMTIDBuffer :=
  { BMTIDBuffer.zero with
    lastCompword := lovItem.lastCompword
    lastWord := lovItem.lastWord
    isLastCompwordFill := isFill
    lastTid := lovItem.lastSetbit }

/-- `insertsetbit`; its caller passes a zeroed buffer. -/
def insertsetbit (vector : BMVector) (tidnum : Nat) : Except BitmapError BMVector :=
  let buf := loadBuffer vector.lovItem (vector.lovItem.lovWordsHeader ≥ 2)
  if tidnum ≤ vector.lovItem.lastSetbit then updatesetbit vector tidnum
  else do
    let (vector, buf) ← bufAddTidWithFill vector buf tidnum
    if buf.numCwords = 0 then
      .ok { vector with
        lovItem := { vector.lovItem with
          lastCompword := buf.lastCompword
          lastWord := buf.lastWord
          lovWordsHeader := if buf.isLastCompwordFill then 2 else 0
          lastSetbit := tidnum
          lastTidLocation := tidnum - tidnum % wordSize } }
    else do
      let result ← bitmapWriteNewBitmapwords vector buf
      .ok result.vector

end Greengage.Bitmap
