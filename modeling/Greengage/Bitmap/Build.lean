import Greengage.Bitmap.Insertion

/-!
Contract: building one bitmap vector through a tid buffer, `buf_add_tid`,
`buf_make_space` and `_bitmap_write_alltids` of `bitmapinsert.c`.

Does not own: the buffers of the other LOV items, which hold other chains, and
the byte count that decides when space is made.
-/

namespace Greengage.Bitmap

open List Greengage.Foundations

/-- The LOV item and its entry of `BMTIDLOVBuffer`. -/
structure BuildState where
  vector : BMVector
  buf : Option BMTIDBuffer

/-- `buf_add_tid` after the space check. -/
def bufAddTid (state : BuildState) (tidnum : Nat) : Except BitmapError BuildState :=
  match state.buf with
  | some buf =>
    if tidnum < buf.lastTid then do
      let result ← bitmapWriteNewBitmapwords state.vector buf
      let buf ← bitmapFreeTidbuf buf
      let vector ← updatesetbit result.vector tidnum
      .ok ⟨vector, some buf⟩
    else do
      let (vector, buf) ← bufAddTidWithFill state.vector buf tidnum
      .ok ⟨vector, some buf⟩
  | none => do
      let lovItem := state.vector.lovItem
      let buf := bufExtend (loadBuffer lovItem (lovItem.lovWordsHeader == 2))
      let (vector, buf) ← bufAddTidWithFill state.vector buf tidnum
      .ok ⟨vector, some buf⟩

/-- `buf_make_space`; the buffer stays in use. -/
def bufMakeSpace (state : BuildState) : Except BitmapError BuildState :=
  match state.buf with
  | none => .ok state
  | some buf => do
      let (vector, buf) ← bufFreeMemBlock state.vector buf
      .ok ⟨vector, some buf⟩

def bitmapWriteAlltids (state : BuildState) : Except BitmapError BMVector :=
  match state.buf with
  | none => .ok state.vector
  | some buf => do
      let (vector, _) ← bufFreeMemBlock state.vector buf
      .ok vector

inductive BuildOp
  | addTid (tidnum : Nat)
  | makeSpace
deriving DecidableEq

def BuildOp.tids : BuildOp → List Nat
  | .addTid tidnum => [tidnum]
  | .makeSpace => []

def buildStep (state : BuildState) : BuildOp → Except BitmapError BuildState
  | .addTid tidnum => bufAddTid state tidnum
  | .makeSpace => bufMakeSpace state

def build (state : BuildState) : List BuildOp → Except BitmapError BMVector
  | [] => bitmapWriteAlltids state
  | op :: ops => do
      let state ← buildStep state op
      build state ops

def cacheCurrent (lovItem : BMLOVItem) (buf : BMTIDBuffer) : Bool :=
  buf.lastTid != lovItem.lastSetbit || setLastWords lovItem buf == lovItem

def skipHarmless (lovItem : BMLOVItem) (buf : BMTIDBuffer) : Bool :=
  buf.numCwords != 0 || buf.lastTid == lovItem.lastSetbit

def freesOnce (tidnum : Nat) (buf : BMTIDBuffer) : Bool :=
  buf.lastTid ≤ tidnum || buf.arrays != .freed

def opCurrent (state : BuildState) : BuildOp → Bool
  | .addTid tidnum => state.buf.all fun buf =>
      cacheCurrent state.vector.lovItem buf && freesOnce tidnum buf
  | .makeSpace => true

/-- Every tid is added to a current buffer, a tid before its last one not to a
freed buffer, and the final write skips no newer words. -/
def buildCurrent (state : BuildState) : List BuildOp → Bool
  | [] => state.buf.all (skipHarmless state.vector.lovItem)
  | op :: ops => opCurrent state op &&
      match buildStep state op with
      | .ok state => buildCurrent state ops
      | .error _ => false

/-- The state of a build that was fed the tids `tids`. Without buffer the LOV
item holds them. A buffer holds them together with the chain while it is ahead
of the LOV item or equal to it; after an update in place it may be outdated, and
the LOV item holds them. -/
inductive BuildOk (tids : Set Nat) : BuildState → Prop
  | unbuffered {vector : BMVector} {blocks : List BlockNumber} (ok : VectorOk vector blocks)
      (held : setTids vector = tids) : BuildOk tids ⟨vector, none⟩
  | ahead {vector : BMVector} {blocks : List BlockNumber} {buf : BMTIDBuffer}
      (state : Buffered vector blocks buf) (high : HighClear buf.lastWord buf.lastTid)
      (held : bitTids (bitsAt (bufferedBits vector blocks buf)) = tids)
      (last : buf.lastTid ∈ tids) (older : vector.lovItem.lastSetbit ≤ buf.lastTid)
      (synced : vector.lovItem.lastSetbit = buf.lastTid →
        buf.curword = 0 ∧ vector.lovItem = setLastWords vector.lovItem buf) :
      BuildOk tids ⟨vector, some buf⟩
  | updated {vector : BMVector} {blocks : List BlockNumber} {buf : BMTIDBuffer}
      (ok : VectorOk vector blocks) (held : setTids vector = tids) (last : buf.lastTid ∈ tids)
      (freed : freedTidbuf buf = buf) (same : buf.lastTid = vector.lovItem.lastSetbit) :
      BuildOk tids ⟨vector, some buf⟩

theorem VectorOk.buffered_of_synced {vec blocks buf} (ok : VectorOk vec blocks)
    (noWords : buf.curword = 0) (clean : HeaderClean buf.hwords 0)
    (synced : setLastWords vec.lovItem buf = vec.lovItem) :
    Buffered vec blocks buf ∧ bufferedBits vec blocks buf = vectorBits vec ∧
      HighClear buf.lastWord buf.lastTid := by
  have comp : vec.lovItem.lastCompword = buf.lastCompword := by rw [← synced]; rfl
  have last : vec.lovItem.lastWord = buf.lastWord := by rw [← synced]; rfl
  have lastTid : vec.lovItem.lastSetbit = buf.lastTid := by rw [← synced]; rfl
  have fill : lastCompwordIsFill vec.lovItem = buf.isLastCompwordFill := by
    rw [← synced, lastCompwordIsFill_setLastWords]
  have compl : bufComplete buf = lovCompWords vec.lovItem := by
    have noBufWords : bufWords buf = [] := by
      rw [bufWords, noWords]
      rfl
    rw [bufComplete, noBufWords, lovCompWords, comp, fill]
    rfl
  have bufOk : BufOk (expand (chainWords vec.pages blocks)).length buf := by
    refine ⟨length_expand_mod _, ?_, ?_, ?_, ?_, ?_, ?_, ?_⟩
    · rw [compl, ← ok.location, ok.setbit, lastTid]
    · intro ones
      obtain ⟨noChain, hdr⟩ := ok.unset (comp.trans ones)
      refine ⟨noChain, noWords, ?_⟩
      rw [← fill, lastCompwordIsFill, hdr]
      decide
    · rw [compl]
      exact ok.positive
    · rw [noWords]
      exact clean
    · rw [noWords]
      exact fun i below => absurd below (Nat.not_lt_zero i)
    · rw [noWords]
      exact Nat.zero_le _
    · rw [← lastTid]
      exact ok.bounded
  refine ⟨⟨ok.chain, bufOk, by rw [noWords]; exact Nat.zero_le _⟩, ?_, ?_⟩
  · rw [bufferedBits, completeBits, compl, ok.bits_eq, last]
  · rw [← last, ← lastTid]
    exact ok.high

/-! ### One operation -/

section

variable {tids : Set Nat} {vector vec : BMVector} {blocks : List BlockNumber} {buf : BMTIDBuffer}

section

variable (state : Buffered vec blocks buf) (high : HighClear buf.lastWord buf.lastTid)
  (held : bitTids (bitsAt (bufferedBits vec blocks buf)) = tids)
include state high held

variable {tid : Nat}

theorem add_behind (pos : 1 ≤ tid) (bound : tid < 2 ^ 63) (later : buf.lastTid < tid)
    (older : vec.lovItem.lastSetbit ≤ buf.lastTid) :
    ∃ vec' buf', bufAddTidWithFill vec buf tid = .ok (vec', buf') ∧
      BuildOk (insert tid tids) ⟨vec', some buf'⟩ := by
  obtain ⟨vec', _, buf', run, added⟩ :=
    bufAddTidWithFill_spec state high bound later older
  have last := added.lastTid
  have setbit := added.setbit
  refine ⟨vec', buf', run, .ahead added.state added.high ?_ ?_ (by omega) (by omega)⟩
  · rw [added.bits, bitTids_update _ pos, held]
  · rw [last]
    exact Set.mem_insert tid tids

theorem write_ahead : ∃ res blocks', bitmapWriteNewBitmapwords vec buf = .ok res ∧
      Buffered res.vector blocks' (freedTidbuf buf) ∧
      VectorOk res.vector blocks' ∧ setTids res.vector = tids ∧
      bitTids (bitsAt (bufferedBits res.vector blocks' (freedTidbuf buf))) = tids ∧
      res.vector.lovItem = setLastWords res.vector.lovItem buf := by
  obtain ⟨res, blocks', run, state', compl, _, _, lov⟩ := state.write
  have synced : res.vector.lovItem = setLastWords res.vector.lovItem buf := by
    rw [lov]
    rfl
  have final := vectorOk_of_buffered state' rfl high synced
  have bits : bufferedBits res.vector blocks' (freedTidbuf buf) =
      bufferedBits vec blocks buf := by
    rw [bufferedBits, compl]
    rfl
  refine ⟨res, blocks', run, state', final.1, ?_, by rw [bits, held], synced⟩
  rw [← held, ← bits, ← final.2]
  rfl

theorem add_before (last : buf.lastTid ∈ tids) (pos : 1 ≤ tid) (fresh : tid ∉ tids)
    (earlier : tid < buf.lastTid) (once : freesOnce tid buf) :
    ∃ vec' buf', bufAddTid ⟨vec, some buf⟩ tid = .ok ⟨vec', some buf'⟩ ∧
      BuildOk (insert tid tids) ⟨vec', some buf'⟩ := by
  obtain ⟨res, _, write, -, ok, setTids, -, synced⟩ := write_ahead state high held
  have lastSetbit : res.vector.lovItem.lastSetbit = buf.lastTid := by rw [synced]; rfl
  have unfreed : buf.arrays ≠ .freed := by
    simpa [freesOnce, not_le.mpr earlier] using once
  have old : tid ≤ res.vector.lovItem.lastSetbit := by omega
  have out : ¬ InsideOneFill res.vector.lovItem tid := by
    intro lt
    have mem := mem_of_insideOneFill ok pos lt
    rw [setTids] at mem
    exact fresh mem
  obtain ⟨vec', _, run, ok', setbit, bits⟩ := updatesetbit_sets ok pos old out
  refine ⟨vec', freedTidbuf buf, ?_, .updated ok' ?_ ?_ (freedTidbuf_freedTidbuf buf) ?_⟩
  · simp only [bufAddTid, if_pos earlier, write, bitmapFreeTidbuf, if_neg unfreed, bind, Except.bind,
      run]
  · rw [← setTids]
    apply setTids_insert pos
    rw [bits, bitsAt_set (old_lt_length ok pos old)]
  · exact Set.mem_insert_of_mem tid last
  · rw [setbit, lastSetbit]
    rfl

theorem add_ahead (last : buf.lastTid ∈ tids) (older : vec.lovItem.lastSetbit ≤ buf.lastTid)
    (pos : 1 ≤ tid) (bound : tid < 2 ^ 63) (fresh : tid ∉ tids) (once : freesOnce tid buf) :
    ∃ vec' buf', bufAddTid ⟨vec, some buf⟩ tid = .ok ⟨vec', some buf'⟩ ∧
      BuildOk (insert tid tids) ⟨vec', some buf'⟩ := by
  by_cases old : tid < buf.lastTid
  · exact add_before state high held last pos fresh old once
  · have other : tid ≠ buf.lastTid := by
      rintro rfl
      exact fresh last
    obtain ⟨vec', buf', run, ok'⟩ :=
      add_behind state high held pos bound (by omega) older
    refine ⟨vec', buf', ?_, ok'⟩
    simp only [bufAddTid, if_neg old, run, bind, Except.bind]

end

end

variable {tids : Set Nat} {state : BuildState}

/-- One `buf_add_tid` on a state where the buffer is current. -/
theorem BuildOk.add (ok : BuildOk tids state) {tid} (gtZero : 1 ≤ tid) (bound : tid < 2 ^ 63)
    (fresh : tid ∉ tids) (first : state.buf = none → state.vector.lovItem.lastSetbit < tid)
    (cur : opCurrent state (.addTid tid)) :
    ∃ vec' buf', bufAddTid state tid = .ok ⟨vec', some buf'⟩ ∧
      BuildOk (insert tid tids) ⟨vec', some buf'⟩ := by
  cases ok with
  | @unbuffered vec blocks ok held =>
    obtain ⟨buf, bufDef⟩ := @exists_eq _
      (bufExtend (loadBuffer vec.lovItem (vec.lovItem.lovWordsHeader == 2)))
    have synced : setLastWords vec.lovItem buf = vec.lovItem := by
      have header : (if (vec.lovItem.lovWordsHeader == 2) = true then (2 : BitVec 8) else 0) =
          vec.lovItem.lovWordsHeader := by
        rcases ok.header with header | header <;> rw [header] <;> decide
      have location := ok.setbit
      rw [bufDef]
      simp only [setLastWords, bufExtend_last, loadBuffer, header, ← location]
    have noWords : buf.curword = 0 := by
      rw [bufDef, bufExtend_curword]
      rfl
    have clean : HeaderClean buf.hwords 0 := by
      rw [bufDef, bufExtend_hwords]
      exact fun i _ => isFillWord_zero i
    have lastTid : vec.lovItem.lastSetbit = buf.lastTid := by rw [← synced]; rfl
    obtain ⟨state, bits, high⟩ := ok.buffered_of_synced noWords clean synced
    have behind := first rfl
    simp only at behind
    have held' : bitTids (bitsAt (bufferedBits vec blocks buf)) = tids := by
      rw [bits]
      exact held
    obtain ⟨vec', buf', run, ok'⟩ :=
      add_behind state high held' gtZero bound (by omega) (by omega)
    refine ⟨vec', buf', ?_, ok'⟩
    simp only [bufAddTid, ← bufDef, run, bind, Except.bind]
  | ahead state high held last older _ =>
    have once := (Bool.and_eq_true _ _).mp cur
    exact add_ahead state high held last older gtZero bound fresh once.2
  | @updated vec blocks buf ok held last freed same =>
    obtain ⟨synced, once⟩ : setLastWords vec.lovItem buf = vec.lovItem ∧ freesOnce tid buf := by
      simpa [opCurrent, cacheCurrent, same] using cur
    obtain ⟨state, bits, high⟩ := ok.buffered_of_synced (by rw [← freed]; rfl)
      (by rw [← freed]; exact fun i _ => isFillWord_zero i) synced
    exact add_ahead state high (by rw [bits]; exact held) last (by omega) gtZero bound fresh
      once

/-- `buf_make_space` keeps the tids. -/
theorem BuildOk.makeSpace (ok : BuildOk tids state) :
    ∃ state', bufMakeSpace state = .ok state' ∧ BuildOk tids state' ∧
      (state'.buf = none → state' = state) := by
  cases ok with
  | unbuffered ok held => exact ⟨_, rfl, .unbuffered ok held, fun _ => rfl⟩
  | @ahead vec blocks buf state high held last older synced =>
    by_cases empty : buf.numCwords = 0
    · refine ⟨⟨vec, some buf⟩, ?_, .ahead state high held last older synced, fun _ => rfl⟩
      simp only [bufMakeSpace, bufFreeMemBlock, if_pos empty, bind, Except.bind]
    · obtain ⟨res, _, write, state', -, -, held', synced'⟩ :=
        write_ahead state high held
      have lastSetbit : res.vector.lovItem.lastSetbit = buf.lastTid := by rw [synced']; rfl
      refine ⟨⟨res.vector, some (freedTidbuf buf)⟩, ?_, .ahead state' high held' last
        (le_of_eq lastSetbit) fun _ => ⟨rfl, synced'⟩, fun none => ?_⟩
      · simp only [bufMakeSpace, bufFreeMemBlock, if_neg empty, write,
          bitmapFreeTidbuf_of_used empty, bind, Except.bind]
      · cases none
  | @updated vec blocks buf ok held last freed same =>
    have empty : buf.numCwords = 0 := by rw [← freed]; rfl
    refine ⟨⟨vec, some buf⟩, ?_, .updated ok held last freed same, fun _ => rfl⟩
    simp only [bufMakeSpace, bufFreeMemBlock, if_pos empty, bind, Except.bind]

/-- The final write leaves exactly the tids in the vector, unless it skips a
buffer that is ahead of the LOV item. -/
theorem BuildOk.writeAlltids (ok : BuildOk tids state)
    (harmless : state.buf.all (skipHarmless state.vector.lovItem)) :
    ∃ vec', bitmapWriteAlltids state = .ok vec' ∧ setTids vec' = tids := by
  cases ok with
  | unbuffered ok held => exact ⟨_, rfl, held⟩
  | @ahead vec blocks buf state high held last older synced =>
    by_cases empty : buf.numCwords = 0
    · have lastTid : buf.lastTid = vec.lovItem.lastSetbit := by
        simpa [skipHarmless, empty] using harmless
      obtain ⟨noWords, synced⟩ := synced lastTid.symm
      have final := vectorOk_of_buffered state noWords high synced
      refine ⟨vec, ?_, ?_⟩
      · simp only [bitmapWriteAlltids, bufFreeMemBlock, if_pos empty, bind, Except.bind]
      · rw [← held, ← final.2]
        rfl
    · obtain ⟨res, _, write, -, -, setTids, -, -⟩ := write_ahead state high held
      refine ⟨res.vector, ?_, setTids⟩
      simp only [bitmapWriteAlltids, bufFreeMemBlock, if_neg empty, write,
        bitmapFreeTidbuf_of_used empty, bind, Except.bind]
  | @updated vec blocks buf ok held last freed same =>
    have empty : buf.numCwords = 0 := by rw [← freed]; rfl
    refine ⟨vec, ?_, held⟩
    simp only [bitmapWriteAlltids, bufFreeMemBlock, if_pos empty, bind, Except.bind]

/-! ### A whole build -/

def fedTids (ops : List BuildOp) : List Nat := ops.flatMap BuildOp.tids

theorem BuildOk.build {ops} (ok : BuildOk tids state)
    (lt : ∀ tid ∈ fedTids ops, 1 ≤ tid ∧ tid < 2 ^ 63)
    (fresh : ∀ tid ∈ fedTids ops, tid ∉ tids) (distinct : (fedTids ops).Nodup)
    (first : state.buf = none → ∀ tid ∈ (fedTids ops).head?, state.vector.lovItem.lastSetbit < tid)
    (cur : buildCurrent state ops) :
    ∃ vec', Bitmap.build state ops = .ok vec' ∧
      setTids vec' = {tid | tid ∈ tids ∨ tid ∈ fedTids ops} := by
  induction ops generalizing tids state with
  | nil =>
    obtain ⟨vec', run, held⟩ := ok.writeAlltids cur
    refine ⟨vec', run, ?_⟩
    rw [held]
    ext tid
    simp [fedTids]
  | cons op ops ih =>
    rw [buildCurrent, Bool.and_eq_true] at cur
    cases op with
    | makeSpace =>
      obtain ⟨state', step, ok', unbuffered⟩ := ok.makeSpace
      have step : buildStep state .makeSpace = .ok state' := step
      rw [step] at cur
      obtain ⟨vec', run, held⟩ := ih ok' lt fresh distinct (fun none => by
          have same := unbuffered none
          subst same
          exact first none) cur.2
      refine ⟨vec', ?_, held⟩
      simp only [Bitmap.build, step]
      exact run
    | addTid tid =>
      have fed : fedTids (.addTid tid :: ops) = tid :: fedTids ops := rfl
      rw [fed] at lt fresh distinct first ⊢
      have range := lt tid mem_cons_self
      obtain ⟨vec', buf', step, ok'⟩ := ok.add range.1 range.2
        (fresh tid mem_cons_self) (fun none => first none tid rfl) cur.1
      have step : buildStep state (.addTid tid) = .ok ⟨vec', some buf'⟩ := step
      rw [step] at cur
      obtain ⟨final, run, held⟩ := ih ok' (fun other mem => lt other (mem_cons_of_mem tid mem))
        (fun other mem => by
          have notHead : other ≠ tid := by
            rintro rfl
            exact (nodup_cons.mp distinct).1 mem
          have notFed := fresh other (mem_cons_of_mem tid mem)
          rw [Set.mem_insert_iff, not_or]
          exact ⟨notHead, notFed⟩)
        (nodup_cons.mp distinct).2 (fun none => by cases none) cur.2
      refine ⟨final, ?_, ?_⟩
      · simp only [Bitmap.build, step]
        exact run
      · rw [held]
        ext other
        simp only [Set.mem_insert_iff, mem_cons, Set.mem_ofPred_eq]
        tauto

end Greengage.Bitmap
