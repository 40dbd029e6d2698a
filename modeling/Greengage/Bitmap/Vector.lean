import Greengage.Bitmap.Pages
import Greengage.Foundations.Chain

/-!
Contract: what a bitmap vector stands for, and when it is well formed.

The blocks of a chain are a ghost parameter of its invariant; `chainBlocks` computes
them.
-/

namespace Greengage.Bitmap

open Function List Greengage.Foundations

/-! ### Decoding -/

def nextBlock (pages : Heap BMBitmapPage) (block : BlockNumber) : Option BlockNumber :=
  (pages.cell block).bitmapNext

def chainWords (pages : Heap BMBitmapPage) (blocks : List BlockNumber) : List HrlWord :=
  blocks.flatMap fun block => pageWords (pages.cell block)

/-- The last complete word; `LITERAL_ALL_ONE` says that there is none. -/
def compWords (lastCompword : Word) (isFill : Bool) : List HrlWord :=
  if lastCompword = literalAllOne then [] else [⟨isFill, lastCompword⟩]

/-- The blocks from `bm_lov_head` on. -/
def chainBlocks (vector : BMVector) : List BlockNumber :=
  follow (nextBlock vector.pages) vector.pages.next vector.lovItem.lovHead

def lovCompWords (lovItem : BMLOVItem) : List HrlWord :=
  compWords lovItem.lastCompword (lastCompwordIsFill lovItem)

/-- The page chain, `bm_last_compword` and `bm_last_word` as bits. -/
def vectorBits (vector : BMVector) : List Bool :=
  expand (chainWords vector.pages (chainBlocks vector) ++ lovCompWords vector.lovItem) ++
    literalBits vector.lovItem.lastWord

def bitsAt (bits : List Bool) (i : Nat) : Bool := bits[i]?.getD false

def setTids (vector : BMVector) : Set Nat :=
  {tid | 1 ≤ tid ∧ bitsAt (vectorBits vector) (tid - 1) = true}

theorem bitsAt_append (left right i) : bitsAt (left ++ right) i =
      if i < left.length then bitsAt left i else bitsAt right (i - left.length) := by
  rw [bitsAt, getElem?_append]
  split <;> rfl

theorem bitsAt_replicate_false (count i) : bitsAt (replicate count false) i = false := by
  rw [bitsAt, getElem?_replicate]
  split <;> rfl

theorem bitsAt_append_zeros (bits count) :
    bitsAt (bits ++ replicate count false) = bitsAt bits := by
  funext i
  rw [bitsAt_append, bitsAt_replicate_false]
  split
  · rfl
  case isFalse behind => rw [bitsAt, getElem?_eq_none (by omega), Option.getD_none]

theorem bitsAt_set {bits pos} (lt : pos < bits.length) :
    bitsAt (bits.set pos true) = update (bitsAt bits) pos true := by
  funext i
  rw [bitsAt, getElem?_set, update_apply, bitsAt]
  by_cases same : i = pos
  · subst same
    simp [lt]
  · rw [if_neg (Ne.symm same), if_neg same]

def bitTids (bits : Nat → Bool) : Set Nat := {tid | 1 ≤ tid ∧ bits (tid - 1) = true}

theorem bitTids_update (bits : Nat → Bool) {tid} (pos : 1 ≤ tid) :
    bitTids (update bits (tid - 1) true) = insert tid (bitTids bits) := by
  ext other
  simp only [bitTids, update_apply]
  constructor
  · rintro ⟨first, isSet⟩
    by_cases same : other - 1 = tid - 1
    · exact .inl (by omega)
    · rw [if_neg same] at isSet
      exact .inr ⟨first, isSet⟩
  · rintro (rfl | ⟨first, isSet⟩)
    · exact ⟨pos, if_pos rfl⟩
    · refine ⟨first, ?_⟩
      split
      · rfl
      · exact isSet

theorem setTids_insert {vec vec' tid} (pos : 1 ≤ tid)
    (set : bitsAt (vectorBits vec') = update (bitsAt (vectorBits vec)) (tid - 1) true) :
    setTids vec' = insert tid (setTids vec) := by
  have inserted := bitTids_update (bitsAt (vectorBits vec)) pos
  rw [← set] at inserted
  exact inserted

/-! ### Well-formed pages and chains -/

def HrlWord.Positive (word : HrlWord) : Prop := word.fill = true → 0 < fillLength word.word

structure PageOk (page : BMBitmapPage) : Prop where
  fits : page.hrlWordsUsed ≤ numOfHrlWordsPerPage
  clean : HeaderClean page.hwords page.hrlWordsUsed
  positive : ∀ word ∈ pageWords page, word.Positive

theorem pageWords_relink (page next last) :
    pageWords { page with bitmapNext := next, lastTidLocation := last } = pageWords page := rfl

theorem PageOk.relink {page} (ok : PageOk page) (next last) :
    PageOk { page with bitmapNext := next, lastTidLocation := last } :=
  ⟨ok.fits, ok.clean, ok.positive⟩

/-- Each page stores the number of bits up to its end, `start` of them before
the first page. -/
def Located (pages : Heap BMBitmapPage) : Nat → List BlockNumber → Prop
  | _, [] => True
  | start, block :: rest =>
    (pages.cell block).lastTidLocation = start + (expand (pageWords (pages.cell block))).length ∧
      Located pages (start + (expand (pageWords (pages.cell block))).length) rest

structure ChainOk (pages : Heap BMBitmapPage) (head tail : Option BlockNumber)
    (blocks : List BlockNumber) : Prop where
  linked : Segment (nextBlock pages) head blocks none
  tail : tail = blocks.getLast?
  nodup : blocks.Nodup
  allocated : ∀ block ∈ blocks, block < pages.next
  pageOk : ∀ block ∈ blocks, PageOk (pages.cell block)
  located : Located pages 0 blocks

@[simp] theorem chainWords_nil (pages) : chainWords pages [] = [] := rfl

@[simp] theorem chainWords_append (pages left right) :
    chainWords pages (left ++ right) = chainWords pages left ++ chainWords pages right :=
  flatMap_append

@[simp] theorem chainWords_cons (pages block blocks) :
    chainWords pages (block :: blocks) = pageWords (pages.cell block) ++ chainWords pages blocks :=
  flatMap_cons

section

variable {pages pages' : Heap BMBitmapPage} {blocks : List BlockNumber}
  (same : ∀ block ∈ blocks, pages'.cell block = pages.cell block)
include same

theorem chainWords_congr : chainWords pages' blocks = chainWords pages blocks := by
  apply flatMap_congr
  intro block mem
  rw [same block mem]

theorem Located.congr {start} (located : Located pages start blocks) :
    Located pages' start blocks := by
  induction blocks generalizing start with
  | nil => trivial
  | cons block rest ih =>
    rw [Located, same block mem_cons_self]
    exact ⟨located.1, ih (fun other mem => same other (mem_cons_of_mem block mem)) located.2⟩

end

theorem located_append {pages start left right} :
    Located pages start (left ++ right) ↔ Located pages start left ∧
        Located pages (start + (expand (chainWords pages left)).length) right := by
  induction left generalizing start with
  | nil => simp [Located]
  | cons block left ih =>
    rw [cons_append, Located, Located, ih, chainWords_cons, expand_append,
      length_append, add_assoc, and_assoc]

namespace ChainOk

variable {pages : Heap BMBitmapPage} {head tail : Option BlockNumber} {blocks : List BlockNumber}

theorem blocks_eq {lov} (chain : ChainOk pages lov.lovHead lov.lovTail blocks) :
    chainBlocks ⟨lov, pages⟩ = blocks :=
  chain.linked.follow_eq (length_le_of_nodup chain.nodup chain.allocated)

theorem head_eq_none (chain : ChainOk pages head tail blocks) : head = none ↔ blocks = [] := by
  have link := chain.linked
  cases blocks with
  | nil => simpa [Segment] using link
  | cons block rest => simp [link.1]

end ChainOk

def bufComplete (buf : BMTIDBuffer) : List HrlWord :=
  bufWords buf ++ compWords buf.lastCompword buf.isLastCompwordFill

/-- The invariant of a buffer whose words follow `base` bits of a chain. -/
structure BufOk (base : Nat) (buf : BMTIDBuffer) : Prop where
  aligned : base % wordSize = 0
  position : buf.lastTid - buf.lastTid % wordSize = base + (expand (bufComplete buf)).length
  unset : buf.lastCompword = literalAllOne →
    base = 0 ∧ buf.curword = 0 ∧ buf.isLastCompwordFill = false
  positive : ∀ word ∈ bufComplete buf, word.Positive
  clean : HeaderClean buf.hwords buf.curword
  lastTids : ∀ i < buf.curword,
    buf.lastTids i = base + (expand ((bufWords buf).take (i + 1))).length
  capacity : buf.curword ≤ buf.numCwords
  bounded : buf.lastTid < 2 ^ 63

/-- The bits of the incomplete last word from `lastTid` on are clear. -/
def HighClear (lastWord : Word) (lastTid : Nat) : Prop :=
  ∀ i, lastTid % wordSize ≤ i → lastWord.getLsbD i = false

end Greengage.Bitmap
