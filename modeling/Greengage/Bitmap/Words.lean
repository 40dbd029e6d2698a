import Mathlib.Algebra.Group.Nat.Defs
import Mathlib.Data.List.Basic

/-!
Contract: the words of a bitmap vector, `src/include/access/bitmap.h`.

Owns: the compressed 64-bit words with their macros, the arrays of header
words and the routines of `bitmapinsert.c` that shift header bits. An array is
a function from indexes to words; what lies behind its used part is memory the
source never reads.
-/

namespace Greengage.Bitmap

open Function

/-- `BM_HRL_WORD`. -/
abbrev Word := BitVec 64

/-- An array of words. -/
abbrev WordArray := Nat → Word

/-- `BM_HRL_WORD_SIZE`. -/
def wordSize : Nat := 64

/-- `((BM_HRL_WORD) 1) << pos`. -/
def bitWord (pos : Nat) : Word := 1#64 <<< pos

def literalAllZero : Word := 0

def literalAllOne : Word := ~~~0

def fillMask : Word := ~~~bitWord (wordSize - 1)

/-- `BM_MAKE_FILL_WORD`. -/
def makeFillWord (bit length : Word) : Word := (bit <<< (wordSize - 1)) ||| length

def fillLength (word : Word) : Nat := (word &&& fillMask).toNat

def maxFillLength : Nat := 2 ^ (wordSize - 1) - 1

def getFillBit (word : Word) : Word := word >>> (wordSize - 1)

def wordnoGetHeaderBit (wordNo : Nat) : Word := bitWord (wordSize - 1 - wordNo % wordSize)

def isFillWord (hwords : WordArray) (wordNo : Nat) : Bool :=
  hwords (wordNo / wordSize) &&& wordnoGetHeaderBit wordNo != 0

/-- `BM_CALC_H_WORDS`. -/
def calcHWords (cwords : Nat) : Nat := if cwords = 0 then cwords else (cwords - 1) / wordSize + 1

def getNumBits (contentWords headerWords : WordArray) (nwords : Nat) : Nat :=
  (List.range nwords).foldl (fun nbits i =>
    if isFillWord headerWords i then nbits + fillLength (contentWords i) * wordSize
    else nbits + wordSize) 0

def blcksz : Nat := 32768

/-- `MAXALIGN(sizeof(PageHeaderData))`. -/
def pageHeaderSize : Nat := 24

/-- `MAXALIGN(sizeof(BMBitmapOpaqueData))`. -/
def bitmapOpaqueSize : Nat := 16

def maxNumOfHrlWordsPerPage : Nat := (blcksz - pageHeaderSize - bitmapOpaqueSize) / 8

def maxNumOfHeaderWords : Nat := (maxNumOfHrlWordsPerPage - 1) / wordSize + 1

def numOfHrlWordsPerPage : Nat :=
  (maxNumOfHrlWordsPerPage - maxNumOfHeaderWords) / wordSize * wordSize

def numOfHeaderWords : Nat := (numOfHrlWordsPerPage - 1) / wordSize + 1

theorem numOfHrlWordsPerPage_eq : numOfHrlWordsPerPage = 3968 := by decide

theorem numOfHeaderWords_eq : numOfHeaderWords = 62 := by decide

/-- `memcpy(target + start, source, count)` on words. -/
def copyWords (target : WordArray) (start : Nat) (source : WordArray) (count : Nat) : WordArray :=
  fun i => if start ≤ i ∧ i < start + count then source (i - start) else target i

/-- One iteration of the loop of `rshift_header_bits`; the second component
holds the bits shifted out of the previous word. -/
def rshiftStep (bits : Nat) (state : WordArray × Word) (wordNo : Nat) : WordArray × Word :=
  (update state.1 wordNo ((state.1 wordNo >>> bits) ||| state.2),
    state.1 wordNo <<< (wordSize - bits))

def rshiftHeaderBits (words : WordArray) (nwords bits : Nat) : WordArray :=
  ((List.range nwords).foldl (rshiftStep bits) (words, 0)).1

/-- One iteration of the loop of `lshift_header_bits`. -/
def lshiftStep (bits : Nat) (words : WordArray) (wordNo : Nat) : WordArray :=
  let shiftingBits := words wordNo >>> (wordSize - bits)
  let words := update words wordNo (words wordNo <<< bits)
  if wordNo ≠ 0 then update words (wordNo - 1) (words (wordNo - 1) ||| shiftingBits)
  else words

def lshiftHeaderBits (words : WordArray) (nwords bits : Nat) : WordArray :=
  (List.range nwords).foldl (lshiftStep bits) words

/-- One iteration of the loop of `shift_header_bits`. -/
def shiftStep (maxNumOfWords numOfShiftingBits : Nat) (words : WordArray) (wordNo : Nat) :
    WordArray :=
  let tmpWord := words wordNo <<< (wordSize - numOfShiftingBits)
  let words := update words wordNo (words wordNo >>> numOfShiftingBits)
  if wordNo < maxNumOfWords - 1 then
    update words (wordNo + 1) (words (wordNo + 1) ||| tmpWord)
  else words

/-- The part of `shift_header_bits` behind its loop: the word that holds
`startLoc`. -/
def shiftStartWord (maxNumOfWords startLoc numOfShiftingBits : Nat) (words : WordArray) :
    WordArray :=
  let startWordNo := startLoc / wordSize
  let offset := startLoc % wordSize
  let tmpWord := (words startWordNo <<< offset) >>> offset
  let kept := if offset > 0 then
      (words startWordNo >>> (wordSize - offset)) <<< (wordSize - offset)
    else 0
  let numOfFinalShiftingBits :=
    if wordSize - offset < numOfShiftingBits then wordSize - offset else numOfShiftingBits
  let words := update words startWordNo (kept ||| (tmpWord >>> numOfFinalShiftingBits))
  if startWordNo < maxNumOfWords - 1 then
    let tmpWord := (tmpWord <<< (wordSize - numOfFinalShiftingBits)) >>>
      (numOfShiftingBits - numOfFinalShiftingBits)
    update words (startWordNo + 1) (words (startWordNo + 1) ||| tmpWord)
  else words

/-- `shift_header_bits`: the loop runs from the last word down to the word
behind the one that holds `startLoc`. -/
def shiftHeaderBits (words : WordArray) (numOfBits maxNumOfWords startLoc numOfShiftingBits : Nat) :
    WordArray :=
  let startWordNo := startLoc / wordSize
  let endWordNo := (numOfBits - 1) / wordSize
  let words := (List.range (endWordNo - startWordNo)).foldl
    (fun words i => shiftStep maxNumOfWords numOfShiftingBits words (endWordNo - i)) words
  shiftStartWord maxNumOfWords startLoc numOfShiftingBits words

end Greengage.Bitmap
