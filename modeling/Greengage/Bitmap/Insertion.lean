import Greengage.Bitmap.LastWords

/-!
Contract: insertion of tids one by one into a bitmap vector.

Tid numbers are below `2 ^ 63`, far above what `BM_IPTR_TO_INT` can give: the
number of zeros before a new bit is an `int64`.
-/

namespace Greengage.Bitmap

open List Greengage.Foundations

/-! ### One insertion -/

/-- `result` is a well-formed vector with the bits `bits`. -/
def InsertedTo (bits : Nat → Bool) (result : Except BitmapError BMVector) : Prop :=
  ∃ vector' blocks', result = .ok vector' ∧ VectorOk vector' blocks' ∧
    bitsAt (vectorBits vector') = bits

variable {vector : BMVector} {blocks : List BlockNumber}

section

variable {tid : Nat} (ok : VectorOk vector blocks)
include ok

theorem insert_behind (behind : vector.lovItem.lastSetbit < tid) (bounded : tid < 2 ^ 63) :
    InsertedTo (Function.update (bitsAt (vectorBits vector)) (tid - 1) true)
      (insertsetbit vector tid) := by
  have state := ok.buffered (decide (vector.lovItem.lovWordsHeader ≥ 2)) ok.isFill_eq.symm
  obtain ⟨vec', blocks', buf', run, added⟩ :=
    bufAddTidWithFill_spec state.1 ok.high bounded behind le_rfl
  have bits := added.bits
  rw [state.2] at bits
  have notOld : ¬ tid ≤ vector.lovItem.lastSetbit := by omega
  have last := added.lastTid
  by_cases noWords : buf'.numCwords = 0
  · have noCurword : buf'.curword = 0 := by
      have := added.state.bufOk.capacity
      omega
    have res : insertsetbit vector tid =
        .ok { vec' with lovItem := setLastWords vec'.lovItem buf' } := by
      simp only [insertsetbit, if_neg notOld, run, bind, Except.bind, if_pos noWords, setLastWords,
        last]
    have state' : Buffered { vec' with lovItem := setLastWords vec'.lovItem buf' } blocks'
        buf' := ⟨added.state.chain, added.state.bufOk, added.state.few⟩
    have final := vectorOk_of_buffered state' noCurword added.high rfl
    exact ⟨_, blocks', res, final.1, final.2 ▸ bits⟩
  · obtain ⟨res, blocks'', write, state', compl, _, _, lov⟩ := added.state.write
    have run' : insertsetbit vector tid = .ok res.vector := by
      simp only [insertsetbit, if_neg notOld, run, bind, Except.bind, if_neg noWords, write]
    have final := vectorOk_of_buffered state' rfl added.high (by rw [lov]; rfl)
    have sameBits : bufferedBits res.vector blocks'' (freedTidbuf buf') =
        bufferedBits vec' blocks' buf' := by
      rw [bufferedBits, compl]
      rfl
    exact ⟨_, blocks'', run', final.1, by rw [final.2, sameBits, bits]⟩

section

variable (positive : 1 ≤ tid)
include positive

theorem old_lt_length (old : tid ≤ vector.lovItem.lastSetbit) :
    tid - 1 < (vectorBits vector).length := by
  have setbit := ok.setbit
  have := Nat.mod_lt vector.lovItem.lastSetbit (show 0 < wordSize by decide)
  rw [ok.bits_eq, length_append, ok.length_complete, length_literalBits]
  omega

theorem insert_outside (bounded : tid < 2 ^ 63) (out : ¬ InsideOneFill vector.lovItem tid) :
    InsertedTo (Function.update (bitsAt (vectorBits vector)) (tid - 1) true)
      (insertsetbit vector tid) := by
  rcases lt_or_ge vector.lovItem.lastSetbit tid with behind | old
  · exact insert_behind ok behind bounded
  · obtain ⟨vec', blocks', run, ok', -, bits⟩ := updatesetbit_sets ok positive old out
    refine ⟨vec', blocks', ?_, ok', ?_⟩
    · rw [insertsetbit, if_pos old, run]
    · rw [bits, bitsAt_set (old_lt_length ok positive old)]

theorem mem_of_insideOneFill (lt : InsideOneFill vector.lovItem tid) :
    tid ∈ setTids vector := by
  obtain ⟨fill, ones, _, compl, _⟩ := lt
  have loc := ok.location
  have words := (ok.comp_set positive compl).1
  rw [fill] at words
  have oneBits : HrlWord.bits ⟨true, vector.lovItem.lastCompword⟩ =
      replicate (fillLength vector.lovItem.lastCompword * wordSize) true := by
    simp [HrlWord.bits, ones]
  rw [words, expand_singleton, oneBits, length_replicate] at loc
  have inFill : tid - 1 - (expand (chainWords vector.pages blocks)).length <
      fillLength vector.lovItem.lastCompword * wordSize := by omega
  refine ⟨positive, ?_⟩
  rw [ok.bits_eq, words, expand_singleton, oneBits, append_assoc,
    bitsAt_append, if_neg (by omega), bitsAt_append, length_replicate, if_pos inFill, bitsAt,
    getElem?_replicate, if_pos inFill, Option.getD_some]

theorem insert_inside (lt : InsideOneFill vector.lovItem tid) :
    ∃ vec' blocks' lost, insertsetbit vector tid = .ok vec' ∧ VectorOk vec' blocks' ∧
      lost ∈ setTids vector ∧ lost ∉ setTids vec' := by
  obtain ⟨vec', blocks', run, ok', -, bits⟩ := updatesetbit_clears ok positive lt
  obtain ⟨fill, ones, _, compl, _⟩ := lt
  have setbit := ok.setbit
  have loc := ok.location
  have words := (ok.comp_set positive compl).1
  rw [fill] at words
  rw [words, expand_singleton, HrlWord.length_bits, if_pos rfl] at loc
  simp only at loc
  obtain ⟨base, baseDef⟩ := @exists_eq _ ((expand (chainWords vector.pages blocks)).length)
  -- one of the first two bits of the word is not the inserted one
  obtain ⟨lost, _, _, _⟩ : ∃ lost, base ≤ lost ∧ lost < base + 2 ∧ lost ≠ tid - 1 := by
    by_cases first : base = tid - 1
    · exact ⟨base + 1, by omega, by omega, by omega⟩
    · exact ⟨base, by omega, by omega, first⟩
  have inFill : lost - base < fillLength vector.lovItem.lastCompword * wordSize := by
    simp only [wordSize]
    omega
  have oneBits : HrlWord.bits ⟨true, vector.lovItem.lastCompword⟩ =
      replicate (fillLength vector.lovItem.lastCompword * wordSize) true := by
    simp [HrlWord.bits, ones]
  have pre : bitsAt (vectorBits vector) lost := by
    rw [ok.bits_eq, words, expand_singleton, oneBits, append_assoc,
      bitsAt_append, if_neg (by omega), bitsAt_append, length_replicate, ← baseDef,
      if_pos inFill, bitsAt, getElem?_replicate, if_pos inFill, Option.getD_some]
  have after : bitsAt (vectorBits vec') lost = false := by
    rw [bits, append_assoc, bitsAt_append, if_neg (by omega), bitsAt_append, length_set,
      length_replicate, ← baseDef, if_pos inFill, bitsAt, getElem?_set_ne (by omega)]
    exact bitsAt_replicate_false _ _
  refine ⟨vec', blocks', lost + 1, ?_, ok', ⟨by omega, pre⟩, ?_⟩
  · rw [insertsetbit, if_pos (by omega), run]
  · rintro ⟨-, set⟩
    rw [Nat.add_sub_cancel, after] at set
    exact Bool.noConfusion set

theorem VectorOk.insert (bounded : tid < 2 ^ 63) :
    ∃ vec' blocks', insertsetbit vector tid = .ok vec' ∧ VectorOk vec' blocks' ∧
      (setTids vec' = Insert.insert tid (setTids vector) ↔ ¬ InsideOneFill vector.lovItem tid) := by
  by_cases lt : InsideOneFill vector.lovItem tid
  · obtain ⟨vec', blocks', _, run, ok', pre, after⟩ := insert_inside ok positive lt
    refine ⟨vec', blocks', run, ok', fun inserted => absurd ?_ after, fun out => ?_⟩
    · rw [inserted]
      exact Set.mem_insert_of_mem tid pre
    · exact absurd lt out
  · obtain ⟨vec', blocks', run, ok', bits⟩ := insert_outside ok positive bounded lt
    exact ⟨vec', blocks', run, ok', fun _ => lt, fun _ => setTids_insert positive bits⟩

end

end

/-! ### Every reachable vector -/

def formVector (currTidNumber : Nat) (pages : Heap BMBitmapPage) : BMVector :=
  ⟨bitmapFormitem currTidNumber, pages⟩

variable {currTidNumber : Nat}

/-- The two shapes of a new LOV item: without complete word, or with the zeros
before the first tid. -/
theorem bitmapFormitem_cases (bounded : currTidNumber < 2 ^ 63) :
    bitmapFormitem currTidNumber = ⟨none, none, literalAllOne, 0, 0, 0, 0⟩ ∨
      ∃ fill, 1 ≤ fill ∧ fill * wordSize < currTidNumber ∧ bitmapFormitem currTidNumber =
        ⟨none, none, (zeroFill fill).word, 0, fill * wordSize, fill * wordSize, 2⟩ := by
  by_cases small : currTidNumber ≤ wordSize
  · left
    rw [bitmapFormitem, if_pos small]
    rfl
  · obtain ⟨fill, fillDef⟩ := @exists_eq _ ((currTidNumber - 1) / wordSize)
    have fillBounds : 1 ≤ fill ∧ fill * wordSize < currTidNumber := by
      simp only [wordSize] at *
      omega
    have notMax : ¬ fill ≥ maxFillLength := by
      simp only [maxFillLength, wordSize] at *
      omega
    refine .inr ⟨fill, fillBounds.1, fillBounds.2, ?_⟩
    simp only [bitmapFormitem, if_neg small, ← fillDef, if_neg notMax]
    rfl

theorem formVector_spec (bounded : currTidNumber < 2 ^ 63) (pages) :
    VectorOk (formVector currTidNumber pages) [] ∧ setTids (formVector currTidNumber pages) = ∅ ∧
      ∀ tid, 1 ≤ tid → currTidNumber ≤ tid → (bitmapFormitem currTidNumber).lastSetbit < tid := by
  have chain : ChainOk pages none none [] := ⟨rfl, rfl, nodup_nil, by simp, by simp, trivial⟩
  have empty : ∀ {lov : BMLOVItem} {count : Nat}, VectorOk ⟨lov, pages⟩ [] →
      lov.lastWord = 0 → expand (lovCompWords lov) = replicate count false →
        setTids ⟨lov, pages⟩ = ∅ := by
    intro lov count ok last comp
    have bits : bitsAt (vectorBits ⟨lov, pages⟩) = bitsAt [] := by
      rw [ok.bits_eq, comp, last, literalBits_zero, bitsAt_append_zeros, bitsAt_append_zeros]
      rfl
    ext tid
    rw [setTids, bits]
    simp [bitsAt]
  rcases bitmapFormitem_cases bounded with item | ⟨fill, _, fillBound, item⟩
  · rw [formVector, item]
    have ok : VectorOk ⟨⟨none, none, literalAllOne, 0, 0, 0, 0⟩, pages⟩ [] :=
      ⟨chain, rfl, rfl, fun _ => ⟨rfl, rfl⟩, by simp [lovCompWords, compWords], .inl rfl,
        fun i _ => by simp, Nat.two_pow_pos 63⟩
    exact ⟨ok, @empty _ 0 ok rfl rfl, fun tid positive _ => positive⟩
  · have fillSmall : fill < 2 ^ 63 := by
      simp only [wordSize] at *
      omega
    have bits := bits_zeroFill fillSmall
    have set : (zeroFill fill).word ≠ literalAllOne := by
      apply ne_allOne_of_fill
      rw [fillLength_zeroFill fillSmall]
      simp only [maxFillLength, wordSize] at *
      omega
    have words : lovCompWords ⟨none, none, (zeroFill fill).word, 0, fill * wordSize,
        fill * wordSize, 2⟩ = [zeroFill fill] := by
      rw [lovCompWords, compWords_of_ne set]
      simp [lastCompwordIsFill, zeroFill]
    have compBits : expand (lovCompWords ⟨none, none, (zeroFill fill).word, 0, fill * wordSize,
        fill * wordSize, 2⟩) = replicate (fill * wordSize) false := by
      rw [words, expand_singleton, bits]
    have ok : VectorOk ⟨⟨none, none, (zeroFill fill).word, 0, fill * wordSize, fill * wordSize, 2⟩,
        pages⟩ [] := by
      refine ⟨chain, ?_, ?_, fun ones => absurd ones set, ?_, .inr rfl, fun i _ => by simp, ?_⟩
      · rw [compBits, length_replicate]
        exact (zero_add _).symm
      · simp
      · rw [words]
        simp [HrlWord.Positive, fillLength_zeroFill fillSmall]
        omega
      · exact lt_trans fillBound bounded
    rw [formVector, item]
    exact ⟨ok, empty ok rfl compBits, fun tid _ first => lt_of_lt_of_le fillBound first⟩

/-- The vectors that insertions reach from a new LOV item. -/
inductive Reached (currTidNumber : Nat) (pages : Heap BMBitmapPage) : BMVector → Prop
  | formed : Reached currTidNumber pages (formVector currTidNumber pages)
  | inserted {vector vector' : BMVector} {tid : Nat} (before : Reached currTidNumber pages vector)
      (positive : 1 ≤ tid) (bounded : tid < 2 ^ 63)
      (step : insertsetbit vector tid = .ok vector') : Reached currTidNumber pages vector'

section

variable {pages : Heap BMBitmapPage} {vector : BMVector} (bounded : currTidNumber < 2 ^ 63)
  (reached : Reached currTidNumber pages vector)
include bounded reached

theorem Reached.vectorOk : ∃ blocks, VectorOk vector blocks := by
  induction reached with
  | formed => exact ⟨[], (formVector_spec bounded pages).1⟩
  | inserted pre positive tidBounded step ih =>
    obtain ⟨blocks, ok⟩ := ih
    obtain ⟨_, blocks', run, ok', -⟩ := ok.insert positive tidBounded
    rw [step] at run
    cases run
    exact ⟨blocks', ok'⟩

/-- In every reachable vector, `insertsetbit` inserts exactly its tid if and
only if this does not lie in a last complete word of ones. -/
theorem insertsetbit_inserts_iff {tid : Nat} (positive : 1 ≤ tid) (tidBounded : tid < 2 ^ 63) :
    ∃ vector', insertsetbit vector tid = .ok vector' ∧
      (setTids vector' = insert tid (setTids vector) ↔ ¬ InsideOneFill vector.lovItem tid) := by
  obtain ⟨_, ok⟩ := reached.vectorOk bounded
  obtain ⟨vector', -, run, -, exact⟩ := ok.insert positive tidBounded
  exact ⟨vector', run, exact⟩

end

def insertAll (vector : BMVector) (tids : List Nat) : Except BitmapError BMVector :=
  tids.foldlM insertsetbit vector

theorem Reached.insertAll {pages vector vec' tids} (pre : Reached currTidNumber pages vector)
    (lt : ∀ tid ∈ tids, 1 ≤ tid ∧ tid < 2 ^ 63)
    (run : Bitmap.insertAll vector tids = .ok vec') : Reached currTidNumber pages vec' := by
  induction tids generalizing vector with
  | nil =>
    cases run
    exact pre
  | cons tid tids ih =>
    rw [Bitmap.insertAll, foldlM_cons] at run
    obtain ⟨next, step, run⟩ := bind_eq_ok run
    have range := lt tid mem_cons_self
    exact ih (pre.inserted range.1 range.2 step)
      (fun other mem => lt other (mem_cons_of_mem tid mem)) run

def noPages : Heap BMBitmapPage := ⟨0, fun _ => bitmapInitBitmappage⟩

theorem exists_insertAll (tids : List Nat) (test : BMVector → Bool)
    (range : ∀ tid ∈ tids, 1 ≤ tid ∧ tid < 2 ^ 63)
    (eval : (insertAll (formVector 1 noPages) tids).map test = .ok true) :
    ∃ vector, insertAll (formVector 1 noPages) tids = .ok vector ∧ Reached 1 noPages vector ∧
      test vector = true := by
  obtain ⟨vector, run, holds⟩ := map_eq_ok eval
  exact ⟨vector, run, Reached.formed.insertAll range run, holds⟩

/-- The tid 200 is set in a word of the page, after 300 was set in the last word. -/
theorem insertsetbit_inserts_late : ∃ vector vector',
    insertAll (formVector 1 noPages) [1, 130, 300] = .ok vector ∧ 200 ∉ setTids vector ∧
      insertsetbit vector 200 = .ok vector' ∧ setTids vector' = insert 200 (setTids vector) := by
  obtain ⟨vector, run, reached, test⟩ := exists_insertAll [1, 130, 300]
    (fun vector => ¬ InsideOneFill vector.lovItem 200 ∧ bitsAt (vectorBits vector) 199 = false)
    (by decide) (by decide +kernel)
  obtain ⟨vector', step, inserts⟩ :=
    insertsetbit_inserts_iff (by decide) reached (show 1 ≤ 200 by decide) (by decide)
  obtain ⟨outside, unset⟩ := of_decide_eq_true test
  exact ⟨vector, vector', run, by simp [setTids, unset], step, inserts.mpr outside⟩

/-- After the tids 1 to 128, whose bits form a fill word of ones of length 2,
inserting the tid 5 again loses other tids. -/
theorem insertsetbit_loses_tids : ∃ vector vector',
    Reached 1 ⟨0, fun _ => bitmapInitBitmappage⟩ vector ∧ insertsetbit vector 5 = .ok vector' ∧
      setTids vector' ≠ insert 5 (setTids vector) := by
  obtain ⟨vector, -, reached, test⟩ := exists_insertAll ((range 128).map (· + 1))
    (fun vector => InsideOneFill vector.lovItem 5)
    (fun tid mem => by
      simp only [mem_map, mem_range] at mem
      omega)
    (by decide +kernel)
  obtain ⟨_, ok⟩ := reached.vectorOk (by decide)
  obtain ⟨vector', -, step, -, exact⟩ := ok.insert (show 1 ≤ 5 by decide) (by decide)
  exact ⟨vector, vector', reached, step, fun inserted => exact.mp inserted (of_decide_eq_true test)⟩

/-! ### The redundant positions -/

/-- `GET_NUM_BITS` of a page. -/
def pageNumBits (page : BMBitmapPage) : Nat :=
  getNumBits page.cwords page.hwords page.hrlWordsUsed

/-- The bits of `bm_last_compword`; `LITERAL_ALL_ONE` says that it is unset. -/
def compNumBits (lovItem : BMLOVItem) : Nat :=
  if lovItem.lastCompword = literalAllOne then 0
  else if lastCompwordIsFill lovItem then fillLength lovItem.lastCompword * wordSize
  else wordSize

/-- Pages, LOV item and last complete word agree on all positions. -/
structure Consistent (vector : BMVector) : Prop where
  chain : Segment (nextBlock vector.pages) vector.lovItem.lovHead (chainBlocks vector) none
  pageLocation : ∀ before block after, chainBlocks vector = before ++ block :: after →
    (vector.pages.cell block).lastTidLocation =
      ((before ++ [block]).map fun earlier => pageNumBits (vector.pages.cell earlier)).sum
  tail : vector.lovItem.lovTail = (chainBlocks vector).getLast?
  aligned : vector.lovItem.lastTidLocation % wordSize = 0
  location : vector.lovItem.lastTidLocation =
    ((chainBlocks vector).map fun block => pageNumBits (vector.pages.cell block)).sum +
      compNumBits vector.lovItem
  pageFills : ∀ block ∈ chainBlocks vector, ∀ wordNo < (vector.pages.cell block).hrlWordsUsed,
    isFillWord (vector.pages.cell block).hwords wordNo = true →
      0 < fillLength ((vector.pages.cell block).cwords wordNo)
  compFill : lastCompwordIsFill vector.lovItem = true → 0 < fillLength vector.lovItem.lastCompword
  compSet : vector.lovItem.lastCompword = literalAllOne ↔ vector.lovItem.lastTidLocation = 0

theorem length_expand_chainWords (pages blocks) : (expand (chainWords pages blocks)).length =
      (blocks.map fun block => pageNumBits (pages.cell block)).sum := by
  induction blocks with
  | nil => rfl
  | cons block blocks ih =>
    rw [chainWords_cons, expand_append, length_append, ih, map_cons,
      sum_cons, pageNumBits, getNumBits_eq]
    rfl

theorem length_expand_lovCompWords (lov) :
    (expand (lovCompWords lov)).length = compNumBits lov := by
  unfold lovCompWords compWords compNumBits
  split
  · rfl
  · rw [expand_singleton, HrlWord.length_bits]

section

variable (ok : VectorOk vector blocks)
include ok

theorem VectorOk.compFill (fill : lastCompwordIsFill vector.lovItem) :
    0 < fillLength vector.lovItem.lastCompword := by
  by_cases ones : vector.lovItem.lastCompword = literalAllOne
  · rw [ones]
    decide
  · refine ok.positive ⟨true, vector.lovItem.lastCompword⟩ ?_ rfl
    rw [lovCompWords, compWords_of_ne ones, fill]
    exact mem_singleton_self _

theorem VectorOk.compSet : vector.lovItem.lastCompword = literalAllOne ↔
    vector.lovItem.lastTidLocation = 0 := by
  have loc := ok.location
  rw [length_expand_lovCompWords, compNumBits] at loc
  constructor
  · intro ones
    rw [if_pos ones, (ok.unset ones).1] at loc
    exact loc
  · intro _
    by_contra set
    rw [if_neg set] at loc
    split at loc
    case isTrue fill =>
      have := ok.compFill fill
      simp only [wordSize] at loc
      omega
    case isFalse =>
      simp only [wordSize] at loc
      omega

theorem VectorOk.consistent : Consistent vector := by
  have same : chainBlocks vector = blocks := ok.chain.blocks_eq
  refine ⟨?_, ?_, ?_, ?_, ?_, ?_, ok.compFill, ok.compSet⟩
  · rw [same]
    exact ok.chain.linked
  · intro _ block _ split
    have located := ok.chain.located
    rw [← same, split, located_append] at located
    rw [map_append, sum_append, ← length_expand_chainWords, located.2.1, zero_add,
      map_singleton, sum_singleton, pageNumBits, getNumBits_eq]
    rfl
  · rw [same]
    exact ok.chain.tail
  · rw [ok.location, Nat.add_mod, length_expand_mod, length_expand_mod]
    rfl
  · rw [ok.location, same, length_expand_chainWords, length_expand_lovCompWords]
  · intro block mem no below fill
    rw [same] at mem
    refine (ok.chain.pageOk block mem).positive ⟨true, _⟩ ?_ rfl
    exact mem_map.mpr ⟨no, mem_range.mpr below, by rw [fill]⟩

end

/-- In every reachable vector the positions agree, and setting any bit up to
the last set bit finds its page and its word. -/
theorem reached_consistent {currTidNumber : Nat} {pages : Heap BMBitmapPage} {vector : BMVector}
    (bounded : currTidNumber < 2 ^ 63) (reached : Reached currTidNumber pages vector) :
    Consistent vector ∧ ∀ tid, 1 ≤ tid → tid ≤ vector.lovItem.lastSetbit →
      ∃ vector', updatesetbit vector tid = .ok vector' := by
  obtain ⟨_, ok⟩ := reached.vectorOk bounded
  refine ⟨ok.consistent, fun tid positive old => ?_⟩
  have := ok.bounded
  obtain ⟨vector', -, run, -⟩ := ok.insert positive (by omega)
  rw [insertsetbit, if_pos old] at run
  exact ⟨vector', run⟩

theorem reached_consistent_inserted : ∃ vector,
    insertAll (formVector 1 noPages) [1, 130, 300] = .ok vector ∧ chainBlocks vector = [0] ∧
      Consistent vector ∧ ∃ vector', updatesetbit vector 200 = .ok vector' := by
  obtain ⟨vector, run, reached, test⟩ := exists_insertAll [1, 130, 300]
    (fun vector => chainBlocks vector = [0] ∧ 200 ≤ vector.lovItem.lastSetbit) (by decide)
    (by decide +kernel)
  obtain ⟨chain, old⟩ := of_decide_eq_true test
  obtain ⟨consistent, updates⟩ := reached_consistent (by decide) reached
  exact ⟨vector, run, chain, consistent, updates 200 (by decide) old⟩

end Greengage.Bitmap
