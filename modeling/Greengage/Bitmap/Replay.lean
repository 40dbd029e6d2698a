import Greengage.Bitmap.Writing

/-!
Contract: replay of `XLOG_BITMAP_INSERT_WORDS`, `_bitmap_log_bitmapwords` of
`bitmaputil.c` and `_bitmap_xlog_insert_bitmapwords` of `bitmapxlog.c`.

Owns: the record of one `_bitmap_write_new_bitmapwords`, its replay for every
outcome of `XLogReadBufferForRedo` on each registered block, and when the
replica agrees with the primary afterwards.

Does not own: page LSNs, which decide the outcomes, and the other records.
-/

namespace Greengage.Bitmap

open List Greengage.Foundations

/-- A registered bitmap page: the description of its change, the header and
content words that go with it, and the full-page image. -/
structure LoggedPage where
  perpage : XlBitmapwordsPerpage
  hwords : WordArray
  cwords : WordArray
  image : BMBitmapPage

/-- `xl_bm_bitmapwords` with its registered blocks. -/
structure XlBitmapwords where
  initFirstPage : Bool
  lastCompword : Word
  lastWord : Word
  lovWordsHeader : BitVec 8
  lastSetbit : Nat
  lovImage : BMLOVItem
  pages : List LoggedPage

def logPage (pages : Heap BMBitmapPage) (entry : WrittenPage) (nextBlkno : Option BlockNumber) :
    LoggedPage :=
  let page := pages.cell entry.blkno
  ⟨{ entry.xlrec with nextBlkno := nextBlkno }, fun i => page.hwords (entry.xlrec.startHwordNo + i),
    fun i => page.cwords (entry.xlrec.startCwordNo + i), page⟩

/-- The loop of `_bitmap_log_bitmapwords`; `bm_next_blkno` is filled in for
each page but the last. -/
def logPages (pages : Heap BMBitmapPage) : List WrittenPage → List LoggedPage
  | [] => []
  | [last] => [logPage pages last last.xlrec.nextBlkno]
  | entry :: next :: rest => logPage pages entry (some next.blkno) :: logPages pages (next :: rest)

def bitmapLogBitmapwords (result : WriteResult) (buf : BMTIDBuffer) : XlBitmapwords :=
  { initFirstPage := result.firstPageNeedsInit
    lastCompword := buf.lastCompword
    lastWord := buf.lastWord
    lovWordsHeader := if buf.isLastCompwordFill then 2 else 0
    lastSetbit := buf.lastTid
    lovImage := result.vector.lovItem
    pages := logPages result.vector.pages result.written }

/-- The outcomes of `XLogReadBufferForRedo` for a block that exists. -/
inductive XLogRedoAction
  | needsRedo
  | restored
  | done
deriving DecidableEq

/-- The content of the block after `XLogReadBufferForRedo`. -/
def xlogReadBufferForRedo {α : Type} (action : XLogRedoAction) (image content : α) : α :=
  match action with
  | .restored => image
  | _ => content

def redoPage (logged : LoggedPage) (page : BMBitmapPage) : BMBitmapPage :=
  { hwords := copyWords page.hwords logged.perpage.startHwordNo logged.hwords
      logged.perpage.numHwords
    cwords := copyWords page.cwords logged.perpage.startCwordNo logged.cwords
      logged.perpage.numCwords
    hrlWordsUsed := logged.perpage.startCwordNo + logged.perpage.numCwords
    bitmapNext := logged.perpage.nextBlkno
    lastTidLocation := logged.perpage.lastTid }

/-- One iteration of the loop over the bitmap pages, with `last_blkno`. The
action of a block is given by its number. -/
def redoStep (actions : BlockNumber → XLogRedoAction)
    (state : Heap BMBitmapPage × Option BlockNumber) (logged : LoggedPage) :
    Heap BMBitmapPage × Option BlockNumber :=
  let blkno := logged.perpage.blkno
  let pages := state.1.modify blkno (xlogReadBufferForRedo (actions blkno) logged.image)
  if actions blkno = .needsRedo then (pages.modify blkno (redoPage logged), some blkno)
  else (pages, state.2)

def redoLovItem (record : XlBitmapwords) (firstBlkno lastBlkno : Option BlockNumber)
    (lovItem : BMLOVItem) : BMLOVItem :=
  { lovHead := if record.initFirstPage then firstBlkno else lovItem.lovHead
    lovTail := lastBlkno
    lastCompword := record.lastCompword
    lastWord := record.lastWord
    lastTidLocation := record.lastSetbit - record.lastSetbit % wordSize
    lastSetbit := record.lastSetbit
    lovWordsHeader := record.lovWordsHeader }

def bitmapXlogInsertBitmapwords (record : XlBitmapwords) (lovAction : XLogRedoAction)
    (actions : BlockNumber → XLogRedoAction) (replica : BMVector) : BMVector :=
  let firstBlkno := record.pages.head?.map fun logged => logged.perpage.blkno
  let (pages, lastBlkno) := record.pages.foldl (redoStep actions) (replica.pages, firstBlkno)
  let lovItem := xlogReadBufferForRedo lovAction record.lovImage replica.lovItem
  ⟨if lovAction = .needsRedo then redoLovItem record firstBlkno lastBlkno lovItem else lovItem,
    pages⟩

/-! ### What the primary wrote -/

/-- The page of a block before the write, which adds pages behind the last one. -/
def pageBefore (vector : BMVector) (block : BlockNumber) : Option BMBitmapPage :=
  if block < vector.pages.next then some (vector.pages.cell block) else none

/-- The description of a change covers everything that differs but the link. -/
structure Described (page page' : BMBitmapPage) (xlrec : XlBitmapwordsPerpage) : Prop where
  hwords : ∀ i, ¬ (xlrec.startHwordNo ≤ i ∧ i < xlrec.startHwordNo + xlrec.numHwords) →
    page'.hwords i = page.hwords i
  cwords : ∀ i, ¬ (xlrec.startCwordNo ≤ i ∧ i < xlrec.startCwordNo + xlrec.numCwords) →
    page'.cwords i = page.cwords i
  used : page'.hrlWordsUsed = xlrec.startCwordNo + xlrec.numCwords
  lastTid : page'.lastTidLocation = xlrec.lastTid
  next : page'.bitmapNext = xlrec.nextBlkno

theorem bitmapWriteBitmapwordsOnPage_described (page buf start blkno) :
    Described page (bitmapWriteBitmapwordsOnPage page buf start blkno).1
        (bitmapWriteBitmapwordsOnPage page buf start blkno).2.2 ∧
      (bitmapWriteBitmapwordsOnPage page buf start blkno).2.2.blkno = blkno := by
  obtain ⟨res, run⟩ : ∃ res, bitmapWriteBitmapwordsOnPage page buf start blkno = res :=
    ⟨_, rfl⟩
  rw [run]
  unfold bitmapWriteBitmapwordsOnPage at run
  extract_lets cwords wordsWritten _ _ _ _ _ _ _ _ _ hwords startNo endNo pageHwords _ at run
  split at run
  case isTrue none =>
    subst run
    exact ⟨⟨fun _ _ => rfl, fun _ _ => rfl, rfl, rfl, rfl⟩, rfl⟩
  case isFalse some =>
    have order : startNo ≤ endNo := Nat.div_le_div_right (by omega)
    subst run
    refine ⟨⟨fun i out => ?_, fun i out => if_neg out, rfl, rfl, rfl⟩, rfl⟩
    simp only at out ⊢
    rw [copyWords, if_neg (by omega)]
    exact Function.update_of_ne (by omega) _ _

variable {buf : BMTIDBuffer} {vector vec : BMVector} {actions : BlockNumber → XLogRedoAction}

section

variable {entry : WrittenPage} {stored : Heap BMBitmapPage} {next : Option BlockNumber}

theorem redoPage_logPage {page} (desc : Described page entry.page entry.xlrec)
    (cell : stored.cell entry.blkno = { entry.page with bitmapNext := next }) :
    redoPage (logPage stored entry next) page = stored.cell entry.blkno := by
  simp only [redoPage, logPage, cell, desc.used, desc.lastTid]
  congr 1
  · funext i
    unfold copyWords
    split
    case isTrue lt => simp only [Nat.add_sub_cancel' lt.1]
    case isFalse out => exact (desc.hwords i out).symm
  · funext i
    unfold copyWords
    split
    case isTrue lt => simp only [Nat.add_sub_cancel' lt.1]
    case isFalse out => exact (desc.cwords i out).symm

/-- What one write leaves: distinct pages, each described against its content
before if it had one. -/
structure WrittenOk (before : BlockNumber → Option BMBitmapPage) (written : List WrittenPage) :
    Prop where
  nodup : (written.map WrittenPage.blkno).Nodup
  described : ∀ entry ∈ written, (∀ page ∈ before entry.blkno,
    Described page entry.page entry.xlrec) ∧ entry.xlrec.blkno = entry.blkno

variable {before pre : BlockNumber → Option BMBitmapPage} {written : List WrittenPage}

theorem WrittenOk.concat (ok : WrittenOk pre written)
    (fresh : ∀ other ∈ written, other.blkno ≠ entry.blkno)
    (desc : ∀ page ∈ pre entry.blkno, Described page entry.page entry.xlrec)
    (blkno : entry.xlrec.blkno = entry.blkno) : WrittenOk pre (written ++ [entry]) := by
  constructor
  · rw [map_append, map_singleton, ← concat_eq_append]
    refine ok.nodup.concat fun mem => ?_
    obtain ⟨other, inList, same⟩ := mem_map.mp mem
    exact fresh other inList same
  · exact forall_mem_append.mpr ⟨ok.described, forall_mem_singleton.mpr ⟨desc, blkno⟩⟩

variable {pages : Heap BMBitmapPage}

theorem writeMorePages_writtenOk {room start pages' written'} (ok : WrittenOk pre written)
    (below : ∀ entry ∈ written, pages.next > entry.blkno)
    (new : ∀ block, pages.next ≤ block → pre block = none)
    (run : writeMorePages buf room pages written start = .ok (pages', written')) :
    WrittenOk pre written' ∧
      (∃ more, written' = written ++ more ∧ ∀ entry ∈ more, pre entry.blkno = none) ∧
      (∀ block < pages.next, pages'.cell block = pages.cell block) ∧
      ∀ block < pages'.next, block < pages.next ∨ block ∈ written'.map WrittenPage.blkno := by
  induction room generalizing start pages written with
  | zero => cases run
  | succ room ih =>
    rw [writeMorePages] at run
    split at run
    case isFalse =>
      cases run
      exact ⟨ok, ⟨[], (append_nil _).symm, by simp⟩, fun _ _ => rfl, fun _ old => .inl old⟩
    case isTrue =>
      have blkno := (bitmapWriteBitmapwordsOnPage_described bitmapInitBitmappage buf
        start pages.next).2
      have added := new pages.next le_rfl
      split at run
      · cases run
      · have ok' := @WrittenOk.concat ⟨pages.next,
            (bitmapWriteBitmapwordsOnPage bitmapInitBitmappage buf start pages.next).1, _⟩ pre
          written ok (fun other mem => ne_of_lt (below other mem)) (by simp [added]) blkno
        obtain ⟨final, ⟨more, rfl, addedMore⟩, kept, covered⟩ := ih ok' (fun entry mem => by
            rw [Heap.alloc_next]
            rcases mem_append.mp mem with old | new
            · have := below entry old
              omega
            · rw [mem_singleton.mp new]
              exact Nat.lt_succ_self _)
          (fun block above => new block (by rw [Heap.alloc_next] at above; omega)) run
        refine ⟨final, ⟨_, append_assoc .., ?_⟩, fun block old => ?_, fun block inHeap => ?_⟩
        · exact forall_mem_append.mpr ⟨forall_mem_singleton.mpr added, addedMore⟩
        · rw [kept block (by rw [Heap.alloc_next]; omega), Heap.alloc_cell_old _ _ old]
        · refine (covered block inHeap).elim (fun below => ?_) .inr
          rw [Heap.alloc_next, Nat.lt_succ_iff_lt_or_eq] at below
          refine below.imp_right fun same => ?_
          exact mem_map.mpr ⟨_, mem_append_left _ (mem_append_right _ (mem_singleton_self _)),
            same.symm⟩

/-- The whole write: the pages that took part, and the blocks that did not. -/
structure Written (vector : BMVector) (buf : BMTIDBuffer) (result : WriteResult) : Prop where
  writtenOk : WrittenOk (pageBefore vector) result.written
  nonempty : result.written ≠ []
  added : ∀ entry ∈ result.written.tail, pageBefore vector entry.blkno = none
  pages : ∃ pages, result.vector.pages = storePages pages result.written ∧
    ∀ block < vector.pages.next, pages.cell block = vector.pages.cell block
  covered : ∀ block < result.vector.pages.next,
    block < vector.pages.next ∨ block ∈ result.written.map WrittenPage.blkno
  lovItem : result.vector.lovItem = setLastWords { vector.lovItem with
    lovHead := if result.firstPageNeedsInit then result.written.head?.map WrittenPage.blkno
      else vector.lovItem.lovHead
    lovTail := result.written.getLast?.map WrittenPage.blkno } buf

theorem firstWriteBlock_before
    (alloc : ∀ tail ∈ vec.lovItem.lovTail, tail < vec.pages.next) {blkno needsInit}
    (first : firstWriteBlock vec = (blkno, pages, needsInit)) :
    (∀ page ∈ pageBefore vec blkno, pages.cell blkno = page) ∧ pages.next > blkno ∧
      vec.pages.next ≤ pages.next ∧
      (∀ block < vec.pages.next, pages.cell block = vec.pages.cell block) ∧
      ∀ block < pages.next, block < vec.pages.next ∨ block = blkno := by
  unfold firstWriteBlock at first
  split at first
  case h_1 _ _ head tail _ isTail =>
    cases first
    have old := alloc blkno isTail
    refine ⟨fun page before => ?_, old, le_rfl, fun _ _ => rfl, fun _ => .inl⟩
    rw [pageBefore, if_pos old] at before
    exact Option.some.inj before
  case h_2 =>
    cases first
    refine ⟨by simp [pageBefore], Nat.lt_succ_self _, Nat.le_succ _,
      fun block old => Heap.alloc_cell_old _ _ old,
      fun block below => Nat.lt_succ_iff_lt_or_eq.mp below⟩

theorem bitmapWriteNewBitmapwords_written {res}
    (alloc : ∀ tail ∈ vec.lovItem.lovTail, tail < vec.pages.next)
    (words : buf.curword > 0) (run : bitmapWriteNewBitmapwords vec buf = .ok res) :
    Written vec buf res := by
  rw [bitmapWriteNewBitmapwords, if_pos words] at run
  obtain ⟨blkno, pages, needsInit, first⟩ : ∃ blkno pages needsInit,
    firstWriteBlock vec = (blkno, pages, needsInit) := ⟨_, _, _, rfl⟩
  obtain ⟨cell, below, grown, kept, covered⟩ := firstWriteBlock_before alloc first
  obtain ⟨desc, xlrecBlkno⟩ := bitmapWriteBitmapwordsOnPage_described (pages.cell blkno) buf 0 blkno
  have firstOk := @WrittenOk.concat ⟨blkno, _, _⟩ (pageBefore vec) [] ⟨by simp, by simp⟩
    (by simp) (fun page before => by rw [← cell page before]; exact desc) xlrecBlkno
  rw [first] at run
  simp only [bind, Except.bind] at run
  split at run
  · cases run
  case h_2 _ more loop =>
    obtain ⟨pages', written⟩ := more
    cases run
    obtain ⟨writtenOk, ⟨more, rfl, added⟩, kept', covered'⟩ := writeMorePages_writtenOk firstOk
      (fun entry mem => by rw [mem_singleton.mp mem]; exact below)
      (fun block above => if_neg (not_lt.mpr (le_trans grown above))) loop
    refine ⟨writtenOk, by simp, added, ⟨pages', rfl, fun block old => ?_⟩, fun block inHeap => ?_,
      rfl⟩
    · rw [kept' block (by omega), kept block old]
    · rw [storePages_next] at inHeap
      refine (covered' block inHeap).elim (fun inFirst => ?_) .inr
      refine (covered block inFirst).imp_right fun same => ?_
      exact mem_map.mpr ⟨_, mem_append_left _ (mem_singleton_self _), same.symm⟩

/-! ### What the replay does -/

/-- The content that a block can have where redo takes an action on it. A block
that did not exist before the write has no older version that needs redo. -/
def BlockBefore {α : Type} (action : XLogRedoAction) (before : Option α) (after content : α) :
    Prop :=
  match action with
  | .needsRedo => before = some content
  | .restored => True
  | .done => content = after

/-- A logged page that the replay brings to its content in `stored`. -/
structure LoggedOk (before : BlockNumber → Option BMBitmapPage) (stored : Heap BMBitmapPage)
    (logged : LoggedPage) : Prop where
  image : logged.image = stored.cell logged.perpage.blkno
  redo : ∀ page ∈ before logged.perpage.blkno,
    redoPage logged page = stored.cell logged.perpage.blkno

theorem logPage_ok (blkno : entry.xlrec.blkno = entry.blkno)
    (desc : ∀ page ∈ pre entry.blkno, Described page entry.page entry.xlrec ∧
      stored.cell entry.blkno = { entry.page with bitmapNext := next }) :
    LoggedOk pre stored (logPage stored entry next) := by
  have sameBlkno : (logPage stored entry next).perpage.blkno = entry.blkno := blkno
  constructor
  · rw [sameBlkno]
    rfl
  · rw [sameBlkno]
    exact fun page before => redoPage_logPage (desc page before).1 (desc page before).2

theorem logPages_ok (ok : WrittenOk pre written) (store : ∀ entry ∈ written,
      stored.cell entry.blkno = (storePages pages written).cell entry.blkno) :
    (∀ logged ∈ logPages stored written, LoggedOk pre stored logged) ∧
      (logPages stored written).map (fun logged => logged.perpage.blkno) =
        written.map WrittenPage.blkno := by
  induction pages, written using storePages.induct with
  | case1 => exact ⟨by simp [logPages], rfl⟩
  | case2 pages last =>
    obtain ⟨desc, blkno⟩ := ok.described last mem_cons_self
    have cell := store last mem_cons_self
    rw [storePages, Heap.modify_cell_same] at cell
    constructor
    · rw [logPages, forall_mem_singleton]
      refine logPage_ok blkno fun page before => ⟨desc page before, ?_⟩
      rw [cell, ← (desc page before).next]
    · exact congrArg (fun block => [block]) blkno
  | case3 pages first next rest ih =>
    have nodup := ok.nodup
    rw [map_cons, nodup_cons] at nodup
    obtain ⟨desc, blkno⟩ := ok.described first mem_cons_self
    have cell := store first mem_cons_self
    rw [storePages, storePages_cell_other nodup.1, Heap.modify_cell_same] at cell
    have rest := ih ⟨nodup.2, fun entry mem => ok.described entry (mem_cons_of_mem first mem)⟩
      (fun entry mem => store entry (mem_cons_of_mem first mem))
    constructor
    · rw [logPages, forall_mem_cons]
      exact ⟨logPage_ok blkno fun page before => ⟨desc page before, cell⟩, rest.1⟩
    · rw [logPages, map_cons, map_cons, rest.2]
      exact congrArg (· :: _) blkno

section

variable {state : Heap BMBitmapPage × Option BlockNumber} {logged : LoggedPage}

theorem redoStep_own (ok : LoggedOk pre stored logged)
    (cid : BlockBefore (actions logged.perpage.blkno) (pre logged.perpage.blkno)
      (stored.cell logged.perpage.blkno) (state.1.cell logged.perpage.blkno)) :
    (redoStep actions state logged).1.cell logged.perpage.blkno =
      stored.cell logged.perpage.blkno := by
  simp only [redoStep]
  cases action : actions logged.perpage.blkno with
  | needsRedo =>
    rw [action] at cid
    rw [if_pos rfl, Heap.modify_cell_same, Heap.modify_cell_same]
    exact ok.redo _ cid
  | restored =>
    rw [if_neg (by decide), Heap.modify_cell_same]
    exact ok.image
  | done =>
    rw [action] at cid
    rw [if_neg (by decide), Heap.modify_cell_same]
    exact cid

theorem redoStep_other {block} (other : block ≠ logged.perpage.blkno) :
    (redoStep actions state logged).1.cell block = state.1.cell block := by
  simp only [redoStep]
  split
  · rw [Heap.modify_cell_other _ _ other, Heap.modify_cell_other _ _ other]
  · rw [Heap.modify_cell_other _ _ other]

/-- The loop brings every logged page to its stored content and changes no
other block; `last_blkno` is the last block that needed redo, if any. -/
theorem redoPages_spec {pages : List LoggedPage} (ok : ∀ logged ∈ pages, LoggedOk pre stored logged)
    (nodup : (pages.map fun logged => logged.perpage.blkno).Nodup)
    (cid : ∀ logged ∈ pages, BlockBefore (actions logged.perpage.blkno)
      (pre logged.perpage.blkno) (stored.cell logged.perpage.blkno)
      (state.1.cell logged.perpage.blkno)) :
    (∀ block, (pages.foldl (redoStep actions) state).1.cell block =
      if block ∈ pages.map (fun logged => logged.perpage.blkno) then stored.cell block
      else state.1.cell block) ∧
    (pages.foldl (redoStep actions) state).2 =
      ((pages.map fun logged => logged.perpage.blkno).filter
        (actions · = .needsRedo)).getLast?.or state.2 := by
  induction pages generalizing state with
  | nil => exact ⟨fun _ => rfl, rfl⟩
  | cons logged pages ih =>
    rw [map_cons, nodup_cons] at nodup
    have own := redoStep_own (ok logged mem_cons_self) (cid logged mem_cons_self)
    have ne : ∀ later ∈ pages, later.perpage.blkno ≠ logged.perpage.blkno := by
      intro later mem same
      exact nodup.1 (same ▸ mem_map_of_mem mem)
    obtain ⟨cells, last⟩ := @ih (redoStep actions state logged)
      (fun later mem => ok later (mem_cons_of_mem logged mem)) nodup.2
      (fun later mem => by
        rw [redoStep_other (ne later mem)]
        exact cid later (mem_cons_of_mem logged mem))
    rw [foldl_cons]
    constructor
    · intro block
      rw [cells block, map_cons]
      by_cases same : block = logged.perpage.blkno
      · rw [same, own, if_pos mem_cons_self, ite_self]
      · rw [redoStep_other same]
        simp only [mem_cons, same, false_or]
    · rw [last, map_cons, filter_cons]
      by_cases redone : actions logged.perpage.blkno = .needsRedo
      · rw [if_pos (decide_eq_true redone)]
        simp only [redoStep, if_pos redone]
        rw [getLast?_cons]
        cases ((pages.map fun logged => logged.perpage.blkno).filter
          (actions · = .needsRedo)).getLast? <;> rfl
      · rw [if_neg (by simpa using redone)]
        simp only [redoStep, if_neg redone]

end

/-- Only the first page of a record can need redo, so it stays `last_blkno`. -/
theorem lastRedone_eq_last_iff {blocks} (nodup : blocks.Nodup) (ne : blocks ≠ [])
    (redone : BlockNumber → Bool) (new : ∀ block ∈ blocks.tail, redone block = false) :
    (blocks.filter redone).getLast?.or blocks.head? = blocks.getLast? ↔ blocks.length = 1 := by
  obtain ⟨first, rest, rfl⟩ := exists_cons_of_ne_nil ne
  have none : rest.filter redone = [] := by simpa [filter_eq_nil_iff] using new
  have isFirst : ((first :: rest).filter redone).getLast?.or (first :: rest).head? =
      some first := by
    rw [filter_cons, none]
    split <;> rfl
  rw [isFirst]
  cases rest with
  | nil => simp
  | cons second rest =>
    have other : (second :: rest).getLast (by simp) ≠ first := fun same =>
      (nodup_cons.mp nodup).1 (same ▸ getLast_mem (by simp))
    simp [getLast?_eq_getLast_of_ne_nil, other.symm]

/-! ### Agreement -/

/-- The replica agrees with the primary: the same LOV item and the same pages
in every block of the index. -/
def Agrees (replica primary : BMVector) : Prop :=
  replica.lovItem = primary.lovItem ∧
    ∀ block < primary.pages.next, replica.pages.cell block = primary.pages.cell block

/-- The blocks of a replica before the replay: registered blocks are in the
state their actions tell, other blocks are as before the write. -/
structure ReplicaBefore (vector : BMVector) (result : WriteResult) (lovAction : XLogRedoAction)
    (actions : BlockNumber → XLogRedoAction) (replica : BMVector) : Prop where
  lovItem : BlockBefore lovAction (some vector.lovItem) result.vector.lovItem replica.lovItem
  registered : ∀ entry ∈ result.written, BlockBefore (actions entry.blkno)
    (pageBefore vector entry.blkno) (result.vector.pages.cell entry.blkno)
    (replica.pages.cell entry.blkno)
  others : ∀ block < vector.pages.next, block ∉ result.written.map WrittenPage.blkno →
    replica.pages.cell block = vector.pages.cell block

end

abbrev WriteResult.blknos (result : WriteResult) : List BlockNumber :=
  result.written.map WrittenPage.blkno

section

variable {replica : BMVector} {result res : WriteResult} {lovAction : XLogRedoAction}
  (written : Written vec buf res)
  (before pre : ReplicaBefore vec res lovAction actions replica)
include written pre

/-- The pages agree after every replay, and `last_blkno` is known. -/
theorem redoPages_written : (∀ block < res.vector.pages.next,
      ((logPages res.vector.pages res.written).foldl (redoStep actions)
        (replica.pages, res.blknos.head?)).1.cell block = res.vector.pages.cell block) ∧
    ((logPages res.vector.pages res.written).foldl (redoStep actions)
      (replica.pages, res.blknos.head?)).2 =
        (res.blknos.filter (actions · = .needsRedo)).getLast?.or res.blknos.head? ∧
    ((logPages res.vector.pages res.written).head?.map fun logged => logged.perpage.blkno) =
      res.blknos.head? := by
  obtain ⟨pages, stored, kept⟩ := written.pages
  obtain ⟨loggedOk, (blknos : _ = res.blknos)⟩ := @logPages_ok res.vector.pages
    (pageBefore vec) res.written pages written.writtenOk (fun entry _ => by rw [stored])
  have nodup : res.blknos.Nodup := written.writtenOk.nodup
  rw [← blknos] at nodup
  obtain ⟨cells, lastBlkno⟩ := @redoPages_spec actions res.vector.pages (pageBefore vec)
    (replica.pages, res.blknos.head?) (logPages res.vector.pages res.written) loggedOk
    nodup (fun logged mem => by
      have inWritten : logged.perpage.blkno ∈ res.blknos := by
        rw [← blknos]
        exact mem_map_of_mem mem
      obtain ⟨entry, inList, same⟩ := mem_map.mp inWritten
      rw [← same]
      exact pre.registered entry inList)
  rw [blknos] at cells lastBlkno
  refine ⟨fun block inHeap => ?_, lastBlkno, by rw [← blknos, head?_map]⟩
  rw [cells block]
  split
  · rfl
  case isFalse notWritten =>
    have old := (written.covered block inHeap).resolve_right notWritten
    rw [pre.others block old notWritten, stored, storePages_cell_other notWritten, kept block old]

theorem redoLovItem_eq_iff (redone : lovAction = .needsRedo) (lastBlkno) :
    redoLovItem (bitmapLogBitmapwords res buf) res.blknos.head? lastBlkno replica.lovItem =
      res.vector.lovItem ↔ lastBlkno = res.blknos.getLast? := by
  have lovBefore := pre.lovItem
  rw [redone] at lovBefore
  have sameItem : replica.lovItem = vec.lovItem := (Option.some.inj lovBefore).symm
  have head : res.written.head?.map WrittenPage.blkno = res.blknos.head? := head?_map.symm
  have last : res.written.getLast?.map WrittenPage.blkno = res.blknos.getLast? :=
    getLast?_map.symm
  rw [written.lovItem, sameItem, head, last]
  simp [redoLovItem, bitmapLogBitmapwords, setLastWords]

/-- The replica agrees with the primary if and only if the LOV block does not
need redo or `last_blkno` is the last page. -/
theorem agrees_iff_lastBlkno :
    Agrees (bitmapXlogInsertBitmapwords (bitmapLogBitmapwords res buf) lovAction actions replica)
        res.vector ↔
      lovAction ≠ .needsRedo ∨ (res.blknos.filter (actions · = .needsRedo)).getLast?.or
        res.blknos.head? = res.blknos.getLast? := by
  obtain ⟨samePages, lastBlkno, first⟩ := redoPages_written written pre
  have pagesAgree : ∀ block < res.vector.pages.next,
      (bitmapXlogInsertBitmapwords (bitmapLogBitmapwords res buf) lovAction actions
        replica).pages.cell block = res.vector.pages.cell block := by
    simp only [bitmapXlogInsertBitmapwords, bitmapLogBitmapwords, first]
    exact samePages
  rw [Agrees, and_iff_left pagesAgree]
  by_cases redone : lovAction = .needsRedo
  · have item : (bitmapXlogInsertBitmapwords (bitmapLogBitmapwords res buf) lovAction actions
        replica).lovItem = redoLovItem (bitmapLogBitmapwords res buf) res.blknos.head?
          ((res.blknos.filter (actions · = .needsRedo)).getLast?.or res.blknos.head?)
          replica.lovItem := by
      rw [← lastBlkno, ← first]
      simp only [redone]
      rfl
    rw [item, redoLovItem_eq_iff written pre redone]
    simp only [redone, ne_eq, not_true_eq_false, false_or]
  · have item : (bitmapXlogInsertBitmapwords (bitmapLogBitmapwords res buf) lovAction actions
        replica).lovItem = res.vector.lovItem := by
      have lovBefore := pre.lovItem
      cases lovAction with
      | needsRedo => exact absurd rfl redone
      | restored => rfl
      | done => exact lovBefore
    exact iff_of_true item (.inl redone)

end

/-- Replaying the record of any write for any outcome of each registered block:
the replica agrees with the primary if and only if the LOV block does not need
redo or the record has one page. -/
theorem replay_agrees_iff {vector replica : BMVector} {buf : BMTIDBuffer} {result : WriteResult}
    {lovAction : XLogRedoAction} {actions : BlockNumber → XLogRedoAction}
    (allocated : ∀ tail ∈ vector.lovItem.lovTail, tail < vector.pages.next)
    (words : buf.curword > 0) (run : bitmapWriteNewBitmapwords vector buf = .ok result)
    (before : ReplicaBefore vector result lovAction actions replica) :
    Agrees (bitmapXlogInsertBitmapwords (bitmapLogBitmapwords result buf) lovAction actions replica)
        result.vector ↔
      lovAction ≠ .needsRedo ∨ result.written.length = 1 := by
  have written := bitmapWriteNewBitmapwords_written allocated words run
  have new : ∀ block ∈ result.blknos.tail, decide (actions block = .needsRedo) = false := by
    rw [← map_tail]
    intro block mem
    obtain ⟨entry, inTail, rfl⟩ := mem_map.mp mem
    have registered := before.registered entry (mem_of_mem_tail inTail)
    rw [written.added entry inTail] at registered
    refine decide_eq_false fun redone => ?_
    rw [redone] at registered
    cases registered
  rw [agrees_iff_lastBlkno written before, lastRedone_eq_last_iff written.writtenOk.nodup
    (by simpa using written.nonempty) _ new, length_map]

/-- The buffer of a build after one tid in each word, from the word `start` on:
`count` complete words, and the two words behind them. -/
def literalBuffer (start count : Nat) : BMTIDBuffer :=
  { BMTIDBuffer.zero with
    curword := count
    numCwords := count + 1
    cwords := fun _ => 1
    lastTids := fun i => (start + i + 1) * wordSize
    lastCompword := 1
    lastWord := 1
    lastTid := (start + count + 1) * wordSize + 1
    arrays := .allocated
    used := fun _ => rfl }

def emptyVector : BMVector := ⟨bitmapFormitem 1, ⟨0, fun _ => bitmapInitBitmappage⟩⟩

/-- A vector with one page, which holds `count` words. -/
def onePageVector (count : Nat) : BMVector :=
  ((bitmapWriteNewBitmapwords emptyVector (literalBuffer 0 count)).toOption.map
    WriteResult.vector).getD emptyVector

/-- The outcomes on a replica that lags behind: the blocks that exist need redo,
those that the record adds are restored from their images. -/
def laggingActions (vector : BMVector) (block : BlockNumber) : XLogRedoAction :=
  if block < vector.pages.next then .needsRedo else .restored

theorem replicaBefore_lagging (vec res) :
    ReplicaBefore vec res .needsRedo (laggingActions vec) vec := by
  refine ⟨rfl, fun entry _ => ?_, fun _ _ _ => rfl⟩
  unfold laggingActions pageBefore
  split
  · rfl
  · trivial

theorem replay_agrees_onePage : ∃ result,
    bitmapWriteNewBitmapwords (onePageVector 3) (literalBuffer 3 2) = .ok result ∧
    Agrees (bitmapXlogInsertBitmapwords (bitmapLogBitmapwords result (literalBuffer 3 2)) .needsRedo
      (laggingActions (onePageVector 3)) (onePageVector 3)) result.vector := by
  have eval : (bitmapWriteNewBitmapwords (onePageVector 3) (literalBuffer 3 2)).map
      (fun result => result.written.length) = .ok 1 := by decide +kernel
  obtain ⟨result, run, onePage⟩ := map_eq_ok eval
  exact ⟨result, run, (replay_agrees_iff (by decide +kernel) (by decide) run
    (replicaBefore_lagging _ result)).mpr (.inr onePage)⟩

/-- As many words as a page holds, behind a page with one word, go to this page
and a new one. Where the new page is restored from its image and the LOV block
needs redo, the replica keeps the old page for the tail. -/
theorem replay_wrong_tail : ∃ result,
    bitmapWriteNewBitmapwords (onePageVector 1) (literalBuffer 1 numOfHrlWordsPerPage) =
      .ok result ∧
    ReplicaBefore (onePageVector 1) result .needsRedo (laggingActions (onePageVector 1))
      (onePageVector 1) ∧
    (bitmapXlogInsertBitmapwords
      (bitmapLogBitmapwords result (literalBuffer 1 numOfHrlWordsPerPage)) .needsRedo
      (laggingActions (onePageVector 1)) (onePageVector 1)).lovItem.lovTail = some 0 ∧
    result.vector.lovItem.lovTail = some 1 := by
  have eval : (bitmapWriteNewBitmapwords (onePageVector 1)
      (literalBuffer 1 numOfHrlWordsPerPage)).map (fun result =>
        ((bitmapXlogInsertBitmapwords
          (bitmapLogBitmapwords result (literalBuffer 1 numOfHrlWordsPerPage)) .needsRedo
          (laggingActions (onePageVector 1)) (onePageVector 1)).lovItem.lovTail,
        result.vector.lovItem.lovTail)) = .ok (some 0, some 1) := by decide +kernel
  obtain ⟨result, run, tails⟩ := map_eq_ok eval
  rw [Prod.mk.injEq] at tails
  exact ⟨result, run, replicaBefore_lagging _ result, tails⟩

end Greengage.Bitmap
