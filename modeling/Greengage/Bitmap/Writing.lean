import Greengage.Bitmap.Merging

/-!
Contract: `_bitmap_write_new_bitmapwords` appends the words of a buffer to the
page chain of a vector.

A write of at most eight pages of words never exceeds the page limit.
-/

namespace Greengage.Bitmap

open List Greengage.Foundations WrittenPage Heap

/-! ### Replacing a stretch of a chain -/

variable {pages pages' : Heap BMBitmapPage} {head tail : Option BlockNumber}
  {pre after mid : List BlockNumber} {first : BlockNumber}

theorem ChainOk.replace {mid'} (chain : ChainOk pages head tail (pre ++ (first :: mid) ++ after))
    (out : ∀ block ∈ pre ++ after, pages'.cell block = pages.cell block)
    (link : ∀ stop, Segment (nextBlock pages) (some first) (first :: mid) stop →
      Segment (nextBlock pages') (some first) (first :: mid') stop)
    (nodup : (pre ++ (first :: mid') ++ after).Nodup)
    (alloc : ∀ block ∈ first :: mid', block < pages'.next) (grown : pages.next ≤ pages'.next)
    (pageOk : ∀ block ∈ first :: mid', PageOk (pages'.cell block))
    (located : Located pages' (expand (chainWords pages pre)).length (first :: mid'))
    (len : after = [] ∨ (expand (chainWords pages' (first :: mid'))).length =
      (expand (chainWords pages (first :: mid))).length) :
    ChainOk pages' head (pre ++ (first :: mid') ++ after).getLast?
      (pre ++ (first :: mid') ++ after) := by
  have outsideBefore (block) (mem : block ∈ pre) : pages'.cell block = pages.cell block := out block (mem_append_left _ mem)
  have outsideAfter (block) (mem : block ∈ after) : pages'.cell block = pages.cell block := out block (mem_append_right _ mem)
  refine ⟨?_, rfl, nodup, ?_, ?_, ?_⟩
  · obtain ⟨stop, toStop, behind⟩ := segment_append.mp chain.linked
    obtain ⟨start, toStart, between⟩ := segment_append.mp toStop
    obtain rfl : start = some first := between.1
    refine segment_append.mpr ⟨stop, segment_append.mpr ⟨some first, ?_, link stop between⟩, ?_⟩
    · exact toStart.congr fun block mem => by rw [nextBlock, outsideBefore block mem]; rfl
    · exact behind.congr fun block mem => by rw [nextBlock, outsideAfter block mem]; rfl
  · have old := forall_mem_append.mp chain.allocated
    exact forall_mem_append.mpr ⟨forall_mem_append.mpr
      ⟨fun block mem => ((forall_mem_append.mp old.1).1 block mem).trans_le grown, alloc⟩,
      fun block mem => (old.2 block mem).trans_le grown⟩
  · have old := forall_mem_append.mp chain.pageOk
    exact forall_mem_append.mpr ⟨forall_mem_append.mpr ⟨fun block mem =>
      outsideBefore block mem ▸ (forall_mem_append.mp old.1).1 block mem, pageOk⟩,
      fun block mem => outsideAfter block mem ▸ old.2 block mem⟩
  · obtain ⟨locatedLeft, locatedAfter⟩ := located_append.mp chain.located
    obtain ⟨locatedBefore, -⟩ := located_append.mp locatedLeft
    refine located_append.mpr ⟨located_append.mpr ⟨locatedBefore.congr outsideBefore, ?_⟩, ?_⟩
    · rw [chainWords_congr outsideBefore, zero_add]
      exact located
    · rcases len with rfl | same
      · trivial
      · rw [chainWords_append, expand_append, length_append, same,
          chainWords_congr outsideBefore, ← length_append, ← expand_append,
          ← chainWords_append]
        exact locatedAfter.congr outsideAfter

section

variable {block : BlockNumber} (chain : ChainOk pages head tail (pre ++ (block :: after)))
include chain

theorem ChainOk.located_block : (pages.cell block).lastTidLocation =
    (expand (chainWords pages pre)).length + (expand (pageWords (pages.cell block))).length := by
  have located := (located_append.mp chain.located).2.1
  rwa [zero_add] at located

theorem ChainOk.block_notMem : block ∉ pre ++ after := by
  have nodup := chain.nodup
  rw [nodup_middle, nodup_cons] at nodup
  exact nodup.1

theorem ChainOk.modify {page'} (pageOk : PageOk page')
    (next : page'.bitmapNext = (pages.cell block).bitmapNext)
    (last : page'.lastTidLocation = (pages.cell block).lastTidLocation)
    (len : (expand (pageWords page')).length = (expand (pageWords (pages.cell block))).length) :
    ChainOk (pages.modify block fun _ => page') head tail (pre ++ (block :: after)) ∧
      chainWords (pages.modify block fun _ => page') (pre ++ (block :: after)) =
        chainWords pages pre ++ (pageWords page' ++ chainWords pages after) := by
  have notMem := chain.block_notMem
  have cell : (pages.modify block fun _ => page').cell block = page' :=
    modify_cell_same _ _ _
  have rest : ∀ other ∈ pre ++ after,
      (pages.modify block fun _ => page').cell other = pages.cell other := by
    intro other mem
    exact modify_cell_other _ _ fun same => notMem (same ▸ mem)
  refine ⟨?_, ?_⟩
  · have replaced := @replace pages (pages.modify block fun _ => page') head tail pre
      after [] block [] (by simpa using chain) rest ?_ (by simpa using chain.nodup) ?_
      le_rfl ?_ ?_ (.inr ?_)
    · simp only [append_assoc, singleton_append] at replaced
      rwa [← chain.tail] at replaced
    · rintro _ ⟨-, rfl⟩
      refine ⟨rfl, ?_⟩
      rw [nextBlock, cell, next]
      rfl
    · rw [forall_mem_singleton]
      exact chain.allocated block (by simp)
    · rw [forall_mem_singleton, cell]
      exact pageOk
    · refine ⟨?_, trivial⟩
      rw [cell, last, chain.located_block, len]
    · simp only [chainWords_cons, chainWords_nil, append_nil, cell, len]
  · have beforeSame := chainWords_congr fun other mem =>
      rest other (mem_append_left _ mem)
    have afterSame := chainWords_congr fun other mem =>
      rest other (mem_append_right _ mem)
    rw [chainWords_append, chainWords_cons, cell, beforeSame, afterSame]

end

theorem ChainOk.replacePair {snd} (chain : ChainOk pages head tail (pre ++ (first :: mid) ++ after))
    (out : ∀ block ∈ pre ++ after, pages'.cell block = pages.cell block)
    (link : (pages'.cell first).bitmapNext = some snd)
    (ends : ∀ stop, Segment (nextBlock pages) (some first) (first :: mid) stop →
      (pages'.cell snd).bitmapNext = stop) (fresh : snd ∉ pre ++ (first :: after))
    (alloc : pages'.next > snd) (grown : pages.next ≤ pages'.next)
    (firstOk : PageOk (pages'.cell first)) (secondOk : PageOk (pages'.cell snd))
    (firstLocated : (pages'.cell first).lastTidLocation =
      (expand (chainWords pages pre)).length + (expand (pageWords (pages'.cell first))).length)
    (secondLocated : (pages'.cell snd).lastTidLocation =
      (expand (chainWords pages pre)).length + (expand (pageWords (pages'.cell first))).length +
          (expand (pageWords (pages'.cell snd))).length)
    (len : (expand (pageWords (pages'.cell first))).length +
      (expand (pageWords (pages'.cell snd))).length =
        (expand (chainWords pages (first :: mid))).length) :
    ChainOk pages' head (pre ++ [first, snd] ++ after).getLast? (pre ++ [first, snd] ++ after) ∧
      chainWords pages' (pre ++ [first, snd] ++ after) =
        chainWords pages pre ++ (pageWords (pages'.cell first) ++
          pageWords (pages'.cell snd)) ++ chainWords pages after := by
  have nodup : (pre ++ (first :: after)).Nodup := by
    refine chain.nodup.sublist ?_
    rw [append_assoc, cons_append]
    exact (Sublist.cons_cons first (sublist_append_right mid after)).append_left pre
  refine ⟨chain.replace out ?_ ?_ ?_ grown ?_ ?_ (.inr ?_), ?_⟩
  · intro stop seg
    exact ⟨rfl, link, ends stop seg⟩
  · rw [append_assoc, cons_append, singleton_append]
    have moved : (pre ++ first :: snd :: after).Perm (snd :: (pre ++ first :: after)) :=
      (append_cons pre first _) ▸ (append_cons pre first after) ▸ perm_middle
    exact moved.nodup_iff.mpr (nodup_cons.mpr ⟨fresh, nodup⟩)
  · rw [forall_mem_cons, forall_mem_singleton]
    exact ⟨lt_of_lt_of_le (chain.allocated first (by simp)) grown, alloc⟩
  · rw [forall_mem_cons, forall_mem_singleton]
    exact ⟨firstOk, secondOk⟩
  · exact ⟨firstLocated, secondLocated, trivial⟩
  · rw [← len, chainWords_cons, chainWords_cons, chainWords_nil, append_nil,
      expand_append, length_append]
  · have beforeSame := chainWords_congr fun other mem =>
      out other (mem_append_left _ mem)
    have afterSame := chainWords_congr fun other mem =>
      out other (mem_append_right _ mem)
    rw [chainWords_append, chainWords_append, chainWords_cons, chainWords_cons, chainWords_nil,
      append_nil, beforeSame, afterSame]

/-! ### Linking the written pages -/

/-- Written pages store the number of bits up to their end, `start` of them
before the first. -/
def WrittenLocated : Nat → List WrittenPage → Prop
  | _, [] => True
  | start, entry :: rest =>
    entry.page.lastTidLocation = start + (expand (pageWords entry.page)).length ∧
      WrittenLocated (start + (expand (pageWords entry.page)).length) rest

section

variable {written : List WrittenPage}

theorem storePages_next : (storePages pages written).next = pages.next := by
  induction pages, written using storePages.induct with
  | case1 => rfl
  | case2 => rfl
  | case3 pages entry next rest ih => exact ih

theorem storePages_cell_other {block} (notWritten : block ∉ written.map blkno) :
    (storePages pages written).cell block = pages.cell block := by
  induction pages, written using storePages.induct with
  | case1 => rfl
  | case2 pages last => exact modify_cell_other _ _ (by simpa using notWritten)
  | case3 pages entry next rest ih =>
    rw [map_cons, mem_cons, not_or] at notWritten
    rw [storePages, ih notWritten.2, modify_cell_other _ _ notWritten.1]

theorem storePages_cell (nodup : (written.map blkno).Nodup) :
    ∀ entry ∈ written, ∃ next, (storePages pages written).cell entry.blkno =
      { entry.page with bitmapNext := next } := by
  induction pages, written using storePages.induct with
  | case1 => simp
  | case2 pages last =>
    intro entry mem
    rw [mem_singleton.mp mem]
    exact ⟨last.page.bitmapNext, modify_cell_same _ _ _⟩
  | case3 pages first next rest ih =>
    rw [map_cons, nodup_cons] at nodup
    intro entry mem
    rcases mem_cons.mp mem with rfl | later
    · exact ⟨some next.blkno, by
        rw [storePages, storePages_cell_other nodup.1, modify_cell_same]⟩
    · exact ih nodup.2 entry later

theorem storePages_linked (nodup : (written.map blkno).Nodup)
    (ends : ∀ entry ∈ written, entry.page.bitmapNext = none) :
    Segment (nextBlock (storePages pages written)) (written.head?.map blkno)
      (written.map blkno) none := by
  induction pages, written using storePages.induct with
  | case1 => rfl
  | case2 pages last =>
    refine ⟨rfl, ?_⟩
    rw [nextBlock, storePages, modify_cell_same]
    exact ends last mem_cons_self
  | case3 pages first next rest ih =>
    rw [map_cons, nodup_cons] at nodup
    refine ⟨rfl, ?_⟩
    have link : nextBlock (storePages pages (first :: next :: rest)) first.blkno =
        some next.blkno := by
      rw [nextBlock, storePages, storePages_cell_other nodup.1, modify_cell_same]
    rw [link]
    exact ih nodup.2 fun entry mem =>
      ends entry (mem_cons_of_mem first mem)

variable {stored : Heap BMBitmapPage}

section

variable
  (cells : ∀ entry ∈ written, ∃ next, stored.cell entry.blkno = { entry.page with bitmapNext := next })

include cells

theorem located_of_written {start} (located : WrittenLocated start written) :
    Located stored start (written.map blkno) := by
  induction written generalizing start with
  | nil => trivial
  | cons entry rest ih =>
    obtain ⟨_, cell⟩ := cells entry mem_cons_self
    rw [map_cons, Located, cell]
    exact ⟨located.1, ih (fun other mem => cells other (mem_cons_of_mem entry mem)) located.2⟩

theorem chainWords_of_written : chainWords stored (written.map blkno) =
      written.flatMap fun entry => pageWords entry.page := by
  rw [chainWords, flatMap_map]
  apply flatMap_congr
  intro entry mem
  obtain ⟨_, cell⟩ := cells entry mem
  rw [cell]
  rfl

theorem pageOk_of_written (pageOk : ∀ entry ∈ written, PageOk entry.page) :
    ∀ block ∈ written.map blkno, PageOk (stored.cell block) := by
  intro block mem
  obtain ⟨entry, inList, rfl⟩ := mem_map.mp mem
  obtain ⟨_, cell⟩ := cells entry inList
  rw [cell]
  have ok := pageOk entry inList
  exact ⟨ok.fits, ok.clean, ok.positive⟩

end

end

/-! ### Filling pages -/

/-- The words of a buffer follow `base` bits of a chain, and it knows for each
of them the number of bits up to its end. -/
structure BufWordsOk (base : Nat) (buf : BMTIDBuffer) : Prop where
  positive : ∀ word ∈ bufWords buf, word.Positive
  lastTids : ∀ i < buf.curword,
    buf.lastTids i = base + (expand ((bufWords buf).take (i + 1))).length

variable {buf : BMTIDBuffer}

theorem BufOk.wordsOk {base} (ok : BufOk base buf) : BufWordsOk base buf :=
  ⟨fun word mem => ok.positive word (mem_append_left _ mem), ok.lastTids⟩

/-- The pages `entries` were filled with the words of a buffer from `start` to
its end. -/
structure Filled (base : Nat) (buf : BMTIDBuffer) (start : Nat) (entries : List WrittenPage) :
    Prop where
  words : (entries.flatMap fun entry => pageWords entry.page) = (bufWords buf).drop start
  pageOk : ∀ entry ∈ entries, PageOk entry.page
  ends : ∀ entry ∈ entries, entry.page.bitmapNext = none
  located : WrittenLocated (base + (expand ((bufWords buf).take start)).length) entries

section

variable {base : Nat} (ok : BufWordsOk base buf)
include ok

variable {start : Nat}

theorem BufWordsOk.appended {page page' count} (pageOk : PageOk page)
    (appended : Appended page page' buf start count) (inBuffer : start + count ≤ buf.curword)
    (room : page.hrlWordsUsed + count ≤ numOfHrlWordsPerPage) (located : count = 0 →
      page.lastTidLocation = base + (expand ((bufWords buf).take start)).length) :
    PageOk page' ∧ page'.lastTidLocation =
      base + (expand ((bufWords buf).take (start + count))).length := by
  refine ⟨⟨by rw [appended.used]; exact room, appended.clean, ?_⟩, ?_⟩
  · rw [appended.words]
    exact forall_mem_append.mpr ⟨pageOk.positive, fun word new =>
      ok.positive word (mem_of_mem_drop (mem_of_mem_take new))⟩
  · rw [appended.lastTid]
    split
    case isTrue none => rw [located none, none, add_zero]
    case isFalse some =>
      rw [ok.lastTids _ (by omega), show start + count - 1 + 1 = start + count by omega]

omit ok in
theorem pageOk_init : PageOk bitmapInitBitmappage :=
  ⟨Nat.zero_le _, fun i _ => isFillWord_zero i, by simp [pageWords, bitmapInitBitmappage, wordsOf]⟩

/-- What the loop over the new pages returns: the heap has grown, and the new
pages hold the words from `start` on. -/
structure FilledPages (base : Nat) (buf : BMTIDBuffer) (start : Nat)
    (pages pages' : Heap BMBitmapPage) (entries : List WrittenPage) : Prop where
  grown : pages.next ≤ pages'.next
  kept : ∀ block < pages.next, pages'.cell block = pages.cell block
  fresh : ∀ entry ∈ entries, pages.next ≤ entry.blkno ∧ pages'.next > entry.blkno
  nodup : (entries.map WrittenPage.blkno).Nodup
  filled : Filled base buf start entries

omit ok in
private theorem filledPages_nil (done : ¬ buf.curword - start > 0) (pages) :
    FilledPages base buf start pages pages [] := by
  refine ⟨le_rfl, fun _ _ => rfl, by simp, by simp, ⟨?_, by simp, by simp, trivial⟩⟩
  rw [flatMap_nil, drop_of_length_le (by rw [bufWords, length_wordsOf]; omega)]

variable (buf start pages) in
private abbrev freshPage := bitmapWriteBitmapwordsOnPage bitmapInitBitmappage buf start pages.next

private theorem filledPages_cons {entries} (more : buf.curword - start > 0)
    (rest : FilledPages base buf (start + (freshPage pages buf start).2.1)
      (pages.alloc bitmapInitBitmappage) pages' entries) (xlrec) :
    FilledPages base buf start pages pages'
      (⟨pages.next, (freshPage pages buf start).1, xlrec⟩ :: entries) := by
  have := numOfHrlWordsPerPage_eq
  obtain ⟨count, appended⟩ := @bitmapWriteBitmapwordsOnPage_spec buf bitmapInitBitmappage start
    (fun i _ => isFillWord_zero i) pages.next
  obtain ⟨pageOk, last⟩ := ok.appended pageOk_init appended
    (by rw [count]; simp only [bitmapInitBitmappage]; omega)
    (by rw [count]; simp only [bitmapInitBitmappage]; omega)
    (by rw [count]; simp only [bitmapInitBitmappage]; omega)
  unfold freshPage at *
  generalize bitmapWriteBitmapwordsOnPage bitmapInitBitmappage buf start pages.next = res at *
  obtain ⟨page, written, _⟩ := res
  have words : pageWords page = ((bufWords buf).drop start).take written := by
    rw [appended.words]
    rfl
  have grown := rest.grown
  rw [alloc_next] at grown
  refine ⟨by omega, fun block below => ?_, ?_, ?_, ⟨?_, ?_, ?_, ?_, ?_⟩⟩
  · rw [rest.kept block (by rw [alloc_next]; omega), alloc_cell_old _ _ below]
  · rw [forall_mem_cons]
    refine ⟨⟨le_rfl, by simp only; omega⟩, fun entry mem => ?_⟩
    have fresh := rest.fresh entry mem
    rw [alloc_next] at fresh
    omega
  · rw [map_cons, nodup_cons]
    refine ⟨fun mem => ?_, rest.nodup⟩
    obtain ⟨entry, inList, same⟩ := mem_map.mp mem
    have fresh := rest.fresh entry inList
    have same : pages.next = entry.blkno := same.symm
    rw [alloc_next] at fresh
    omega
  · rw [flatMap_cons, rest.filled.words, words, ← drop_drop, take_append_drop]
  · exact forall_mem_cons.mpr ⟨pageOk, rest.filled.pageOk⟩
  · exact forall_mem_cons.mpr ⟨appended.next, rest.filled.ends⟩
  · rw [last, words, add_assoc, ← length_append, ← expand_append, ← take_add]
  · rw [words, add_assoc, ← length_append, ← expand_append, ← take_add]
    exact rest.filled.located

theorem writeMorePages_spec {room written}
    (fits : buf.curword ≤ start + room * numOfHrlWordsPerPage) :
    ∃ pages' entries,
      writeMorePages buf (room + 1) pages written start = .ok (pages', written ++ entries) ∧
        FilledPages base buf start pages pages' entries := by
  induction room generalizing start pages written with
  | zero =>
    have done : ¬ buf.curword - start > 0 := by omega
    exact ⟨pages, [], by rw [writeMorePages, if_neg done, append_nil], filledPages_nil done pages⟩
  | succ room ih =>
    by_cases more : buf.curword - start > 0
    · obtain ⟨count, -⟩ := @bitmapWriteBitmapwordsOnPage_spec buf bitmapInitBitmappage start
        (fun i _ => isFillWord_zero i) pages.next
      obtain ⟨written', writtenDef⟩ := @exists_eq _ (written ++ [⟨pages.next,
        (freshPage pages buf start).1, (freshPage pages buf start).2.2⟩])
      obtain ⟨pages', entries, run, rest⟩ := @ih (pages.alloc bitmapInitBitmappage)
        (start + (freshPage pages buf start).2.1) written'
        (by rw [count]; simp only [bitmapInitBitmappage, add_mul] at *; omega)
      refine ⟨pages', _, ?_, filledPages_cons ok more rest (freshPage pages buf start).2.2⟩
      have step : writeMorePages buf (room + 1 + 1) pages written start =
          writeMorePages buf (room + 1) (pages.alloc bitmapInitBitmappage) written'
            (start + (freshPage pages buf start).2.1) := by
        rw [writeMorePages, if_pos more, writtenDef]
        rfl
      rw [step, run, writtenDef, append_assoc]
      rfl
    · exact ⟨pages, [], by rw [writeMorePages, if_neg more, append_nil], filledPages_nil more pages⟩

end

/-! ### The whole write -/

variable {vec : BMVector} {blocks : List BlockNumber}

theorem firstWriteBlock_spec
    (chain : ChainOk vec.pages vec.lovItem.lovHead vec.lovItem.lovTail blocks) :
    ∃ blkno pages needsInit pre, firstWriteBlock vec = (blkno, pages, needsInit) ∧
      ChainOk pages (if needsInit then some blkno else vec.lovItem.lovHead) (some blkno)
        (pre ++ [blkno]) ∧
      chainWords pages (pre ++ [blkno]) = chainWords vec.pages blocks := by
  rcases eq_nil_or_concat blocks with rfl | ⟨pre, last, rfl⟩
  · have noHead := chain.head_eq_none.mpr rfl
    refine ⟨vec.pages.next, vec.pages.alloc bitmapInitBitmappage, true, [], ?_, ?_, ?_⟩
    · rw [firstWriteBlock, noHead]
    · refine ⟨⟨rfl, ?_⟩, rfl, by simp, by simp, ?_, ?_⟩
      · rw [nextBlock, alloc_cell_new]
        rfl
      · rw [nil_append, forall_mem_singleton, alloc_cell_new]
        exact pageOk_init
      · rw [nil_append, Located, alloc_cell_new]
        exact ⟨rfl, trivial⟩
    · rw [nil_append, chainWords_cons, alloc_cell_new]
      rfl
  · have someHead : vec.lovItem.lovHead ≠ none := by
      rw [Ne, chain.head_eq_none]
      simp
    have tail : vec.lovItem.lovTail = some last := by
      rw [chain.tail]
      simp
    obtain ⟨_, headEq⟩ := Option.ne_none_iff_exists'.mp someHead
    refine ⟨last, vec.pages, false, pre, ?_, ?_, ?_⟩
    · rw [firstWriteBlock, headEq, tail]
    · rw [concat_eq_append, tail] at chain
      exact chain
    · rw [concat_eq_append]

section

variable {blkno : BlockNumber} {count : Nat} {page' : BMBitmapPage} {entries : List WrittenPage}

private theorem written_nodup (chain : ChainOk pages head (some blkno) (pre ++ [blkno]))
    {base start} (filled : FilledPages base buf start pages pages' entries) :
    (pre ++ (blkno :: entries.map WrittenPage.blkno)).Nodup := by
  have fresh : ∀ block ∈ pre ++ [blkno], block ∉ entries.map WrittenPage.blkno := by
    intro block old new
    obtain ⟨entry, inList, rfl⟩ := mem_map.mp new
    have below : pages.next > entry.blkno := chain.allocated _ old
    have := (filled.fresh entry inList).1
    omega
  rw [append_cons, nodup_append']
  exact ⟨chain.nodup, filled.nodup, fun block old new => fresh block old new⟩

private theorem chainOk_written (chain : ChainOk pages head (some blkno) (pre ++ [blkno]))
    (ok : BufWordsOk (expand (chainWords pages (pre ++ [blkno]))).length buf)
    (appended : Appended (pages.cell blkno) page' buf 0 count) (inBuffer : count ≤ buf.curword)
    (room : (pages.cell blkno).hrlWordsUsed + count ≤ numOfHrlWordsPerPage)
    (filled : FilledPages (expand (chainWords pages (pre ++ [blkno]))).length buf count pages
      pages' entries) (xlrec : XlBitmapwordsPerpage) :
    let written := ⟨blkno, page', xlrec⟩ :: entries
    ChainOk (storePages pages' written) head (written.getLast?.map WrittenPage.blkno)
        (pre ++ written.map WrittenPage.blkno) ∧
      chainWords (storePages pages' written) (pre ++ written.map WrittenPage.blkno) =
        chainWords pages (pre ++ [blkno]) ++ bufWords buf := by
  intro written
  have nodup := written_nodup chain filled
  obtain ⟨_, writtenNodup, disj⟩ := nodup_append'.mp nodup
  have cells := @storePages_cell pages' written writtenNodup
  have out (block) (mem : block ∈ pre) : (storePages pages' written).cell block = pages.cell block := by
    rw [storePages_cell_other (disj mem), filled.kept block (chain.allocated block
      (mem_append_left _ mem))]
  have lastLocated : (pages.cell blkno).lastTidLocation =
      (expand (chainWords pages (pre ++ [blkno]))).length := by
    have located := (located_append.mp chain.located).2.1
    rw [located, chainWords_append, expand_append, length_append, chainWords_cons,
      chainWords_nil, append_nil, zero_add]
  have lastEnds : (pages.cell blkno).bitmapNext = none := by
    obtain ⟨_, -, last⟩ := segment_append.mp chain.linked
    exact last.2
  obtain ⟨pageOk, lastTid⟩ := ok.appended (chain.pageOk blkno (by simp)) appended (by omega) room
    (fun _ => by simpa using lastLocated)
  have pageWords' : pageWords page' = pageWords (pages.cell blkno) ++ (bufWords buf).take count :=
    appended.words
  have ends : ∀ entry ∈ written, entry.page.bitmapNext = none :=
    forall_mem_cons.mpr ⟨appended.next.trans lastEnds, filled.filled.ends⟩
  have located : WrittenLocated (expand (chainWords pages pre)).length written := by
    have split : (expand (chainWords pages (pre ++ [blkno]))).length =
        (expand (chainWords pages pre)).length +
          (expand (pageWords (pages.cell blkno))).length := by
      simp
    have total : (expand (chainWords pages pre)).length + (expand (pageWords page')).length =
        (expand (chainWords pages (pre ++ [blkno]))).length +
          (expand ((bufWords buf).take count)).length := by
      rw [pageWords', expand_append, length_append, split]
      omega
    refine ⟨?_, ?_⟩
    · rw [total, lastTid, zero_add]
    · rw [total]
      exact filled.filled.located
  refine ⟨?_, ?_⟩
  · have replaced := @ChainOk.replace pages (storePages pages' written) head (some blkno) pre []
      [] blkno (entries.map WrittenPage.blkno) (by simpa using chain)
      (by simpa using out) ?_ (by simpa using nodup) ?_
      (by rw [storePages_next]; exact filled.grown)
      (pageOk_of_written cells (forall_mem_cons.mpr ⟨pageOk, filled.filled.pageOk⟩))
      (located_of_written cells located) (.inl rfl)
    · have last : (pre ++ written.map WrittenPage.blkno).getLast? =
          written.getLast?.map WrittenPage.blkno := by
        rw [getLast?_append, getLast?_map, getLast?_cons]
        rfl
      rw [append_nil] at replaced
      rw [← last]
      exact replaced
    · intro stop seg
      obtain rfl : stop = none := seg.2.symm.trans lastEnds
      exact storePages_linked writtenNodup ends
    · intro block mem
      rw [storePages_next]
      rcases mem_cons.mp mem with rfl | new
      · exact lt_of_lt_of_le (chain.allocated block (by simp)) filled.grown
      · obtain ⟨entry, inList, rfl⟩ := mem_map.mp new
        exact (filled.fresh entry inList).2
  · rw [chainWords_append, chainWords_congr out, chainWords_of_written cells,
      flatMap_cons, filled.filled.words, chainWords_append, chainWords_cons, chainWords_nil,
      append_nil, pageWords']
    simp only [append_assoc, take_append_drop]

end

/-- `_bitmap_write_new_bitmapwords` appends the words of the buffer to the
chain and sets the last words of the LOV item. -/
theorem bitmapWriteNewBitmapwords_spec
    (chain : ChainOk vec.pages vec.lovItem.lovHead vec.lovItem.lovTail blocks)
    (ok : BufWordsOk (expand (chainWords vec.pages blocks)).length buf)
    (few : buf.curword ≤ 8 * numOfHrlWordsPerPage) :
    ∃ res blocks' head tail, bitmapWriteNewBitmapwords vec buf = .ok res ∧ res.vector.lovItem =
        setLastWords { vec.lovItem with lovHead := head, lovTail := tail } buf ∧
      ChainOk res.vector.pages head tail blocks' ∧
      chainWords res.vector.pages blocks' = chainWords vec.pages blocks ++ bufWords buf := by
  by_cases words : buf.curword > 0
  · obtain ⟨blkno, pages, needsInit, _, first, chain', sameWords⟩ := firstWriteBlock_spec chain
    have lastOk := chain'.pageOk blkno (by simp)
    obtain ⟨_, appended⟩ := @bitmapWriteBitmapwordsOnPage_spec buf (pages.cell blkno) 0
      lastOk.clean blkno
    rw [← sameWords] at ok
    have fits := lastOk.fits
    obtain ⟨entry, entryDef⟩ := @exists_eq WrittenPage (⟨blkno,
      (bitmapWriteBitmapwordsOnPage (pages.cell blkno) buf 0 blkno).1,
      (bitmapWriteBitmapwordsOnPage (pages.cell blkno) buf 0 blkno).2.2⟩)
    obtain ⟨pages', entries, run, filled⟩ := @writeMorePages_spec pages buf _ ok
      (bitmapWriteBitmapwordsOnPage (pages.cell blkno) buf 0 blkno).2.1 9 [entry] (by omega)
    obtain ⟨chainOk, chainWords'⟩ := chainOk_written chain' ok appended (by omega) (by omega)
      filled (bitmapWriteBitmapwordsOnPage (pages.cell blkno) buf 0 blkno).2.2
    rw [← entryDef] at chainOk chainWords'
    rw [sameWords] at chainWords'
    have res : bitmapWriteNewBitmapwords vec buf = .ok ⟨⟨setLastWords { vec.lovItem with
        lovHead := if needsInit then some blkno else vec.lovItem.lovHead
        lovTail := (entry :: entries).getLast?.map WrittenPage.blkno } buf,
          storePages pages' (entry :: entries)⟩, entry :: entries, needsInit⟩ := by
      rw [bitmapWriteNewBitmapwords, if_pos words, first]
      simp only [maxBitmapPagesPerInsert, ← entryDef, run]
      rfl
    exact ⟨_, _, _, _, res, rfl, chainOk, chainWords'⟩
  · refine ⟨_, blocks, vec.lovItem.lovHead, vec.lovItem.lovTail,
      by rw [bitmapWriteNewBitmapwords, if_neg words], rfl, chain, ?_⟩
    have none : bufWords buf = [] := by
      rw [bufWords, show buf.curword = 0 by omega]
      rfl
    rw [none, append_nil]

end Greengage.Bitmap
