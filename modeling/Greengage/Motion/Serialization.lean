import Greengage.Motion.Tuples

/-!
Contract: a tuple survives its serialization.

A tuple without attributes that goes straight into the transport buffer is replaced by
the one the receiver forms.
-/

namespace Greengage.Motion

open List Foundations TupleChunkList

def frame (tuple : MinimalTuple) : List Byte := lengthWord tuple ++ tuple.body

/-- The chunks of a tuple, and the tuple that the receiver is to make of them. -/
inductive Framed (info : SerTupInfo) : List TupleChunkListItem → MinimalTuple → Prop
  | empty (data : List Byte) : Framed info [⟨.empty, data⟩] info.formed
  | whole (tuple : MinimalTuple) : Framed info [⟨.whole, frame tuple⟩] tuple
  | split {tuple : MinimalTuple} {first last : List Byte} {middle : List TupleChunkListItem}
      (types : ∀ item ∈ middle, item.type = .partialMid)
      (content : first ++ middle.flatMap (·.data) ++ last = frame tuple) :
      Framed info (⟨.partialStart, first⟩ :: middle ++ [⟨.partialEnd, last⟩]) tuple

/-! ## Splitting -/

namespace TupleChunkList

def types (tcList : TupleChunkList) : List TupleChunkType := tcList.items.map (·.type)

def content (tcList : TupleChunkList) : List Byte := tcList.items.flatMap (·.data)

/-- What `addByteStringToChunkList` does to a list. -/
structure Extended (before after : TupleChunkList) (data : List Byte) : Prop where
  maxChunkLength : after.maxChunkLength = before.maxChunkLength
  content : after.content = before.content ++ data
  types : ∃ count, after.types = before.types ++ List.replicate count .partialMid

theorem Extended.trans {pre middle after data data'} (first : Extended pre middle data)
    (second : Extended middle after data') :
    Extended pre after (data ++ data') where
  maxChunkLength := second.maxChunkLength.trans first.maxChunkLength
  content := by rw [second.content, first.content, append_assoc]
  types := by
    obtain ⟨count, typesMiddle⟩ := first.types
    obtain ⟨count', typesAfter⟩ := second.types
    exact ⟨count + count', by
      rw [typesAfter, typesMiddle, append_assoc, replicate_append_replicate]⟩

theorem Extended.fill (tcList data) : Extended tcList (tcList.fillLast data) data where
  maxChunkLength := rfl
  content := by simp [TupleChunkList.content, items, fillLast]
  types := ⟨0, by simp [TupleChunkList.types, items, fillLast]⟩

theorem Extended.newChunk (tcList) :
    Extended tcList (tcList.appendChunkToTCList { type := .partialMid, data := [] }) [] where
  maxChunkLength := rfl
  content := by simp [TupleChunkList.content, items, appendChunkToTCList]
  types := ⟨1, by simp [TupleChunkList.types, items, appendChunkToTCList]⟩

/-- The loop ends after as many rounds as there are bytes, and one more when the last
chunk is full. -/
theorem addByteStringToChunkList_extended {fuel tcList data}
    (large : tupleChunkHeaderSize < tcList.maxChunkLength) (le : data.length < fuel ∨
      data.length ≤ fuel ∧ 0 < fuel ∧ tcList.pLast.chunkLength < tcList.maxChunkLength) :
    ∃ after, tcList.addByteStringToChunkList fuel data = some after ∧
      Extended tcList after data := by
  induction fuel generalizing tcList data with
  | zero => omega
  | succ fuel ih =>
    simp only [addByteStringToChunkList]
    generalize copied : min (tcList.maxChunkLength - tcList.pLast.chunkLength) data.length = copyLen
    have filled := Extended.fill tcList (data.take copyLen)
    by_cases done : data.drop copyLen = []
    · rw [if_pos done]
      rw [take_of_length_le (drop_eq_nil_iff.mp done)] at filled ⊢
      exact ⟨_, rfl, filled⟩
    · rw [if_neg done]
      have left : copyLen < data.length := by simpa using done
      have started := filled.trans (.newChunk _)
      have rounds : (data.drop copyLen).length ≤ fuel ∧ 0 < fuel := by
        rw [length_drop]
        omega
      generalize next : (tcList.fillLast (data.take copyLen)).appendChunkToTCList
        { type := .partialMid, data := [] } = nextList at started ⊢
      have room : nextList.pLast.chunkLength < nextList.maxChunkLength := next ▸ large
      obtain ⟨after, ret, ext⟩ := ih
        (started.maxChunkLength ▸ large) (.inr ⟨rounds.1, rounds.2, room⟩)
      have all := started.trans ext
      rw [append_nil, take_append_drop] at all
      exact ⟨after, ret, all⟩

theorem framed_setPartialTypes {info : SerTupInfo} {tcList : TupleChunkList} {tuple : MinimalTuple}
    {count : Nat} (types : tcList.types = .whole :: replicate count .partialMid)
    (cid : tcList.content = frame tuple) : Framed info tcList.setPartialTypes.items tuple := by
  obtain ⟨_, old, ⟨_, _⟩⟩ := tcList
  cases old with
  | nil =>
    simp only [TupleChunkList.types, content, items, nil_append,
      map_cons, flatMap_cons, flatMap_nil, append_nil,
      cons.injEq] at types cid
    simp only [types.1, cid]
    exact .whole tuple
  | cons first rest =>
    simp only [TupleChunkList.types, items, cons_append, map_cons, map_append,
      cons.injEq] at types
    have middle (item) (mem : item ∈ rest) : item.type = .partialMid := by
      apply eq_of_mem_replicate (n := count)
      rw [← types.2]
      exact mem_append_left _ (mem_map_of_mem mem)
    simp only [content, items, cons_append, flatMap_cons,
      flatMap_append, flatMap_nil, append_nil] at cid
    exact .split middle (by rw [append_assoc]; exact cid)

end TupleChunkList

def delivered (info : SerTupInfo) (b : DirectTransportBuffer) (targetRoute : Int)
    (tuple : MinimalTuple) : MinimalTuple :=
  if info.natts = 0 ∧ candidateForSerializeDirect targetRoute b then .withoutAttributes else tuple

theorem serializeTuple_framed (info : SerTupInfo) {gpMaxTupleChunkSize : Nat}
    (large : tupleChunkHeaderSize < gpMaxTupleChunkSize) (b : DirectTransportBuffer)
    (targetRoute : Int) (tuple : MinimalTuple) :
    ∃ serialized, serializeTuple info gpMaxTupleChunkSize b targetRoute tuple = some serialized ∧
      Framed info serialized.chunks (delivered info b targetRoute tuple) := by
  simp only [serializeTuple, delivered]
  split
  case isTrue noAttributes =>
    exact ⟨_, rfl, info.formed_eq noAttributes.1 ▸ .empty []⟩
  case isFalse =>
    split
    · exact ⟨_, rfl, .whole tuple⟩
    · obtain ⟨withLength, ret, ext⟩ :=
        @addByteStringToChunkList_extended 5
          ⟨gpMaxTupleChunkSize, [], ⟨.whole, []⟩⟩ (lengthWord tuple) large
          (.inl (by rw [lengthWord, length_encodeLE]; omega))
      have largeStill : tupleChunkHeaderSize < withLength.maxChunkLength :=
        ext.maxChunkLength ▸ large
      obtain ⟨withBody, ret', ext'⟩ :=
        addByteStringToChunkList_extended largeStill
          (.inl (Nat.lt_succ_self tuple.body.length))
      have all := ext.trans ext'
      obtain ⟨_, types⟩ := all.types
      refine ⟨.outOfLine withBody.setPartialTypes, ?_, ?_⟩
      · simp [ret, ret']
      · exact framed_setPartialTypes types all.content

theorem deserialize_frame (tuple) : deserialize (frame tuple) = .ok (some tuple) := by
  have alloc := tuple.allocated
  have len : (frame tuple).length = 4 + tuple.body.length := by
    rw [frame, length_append, lengthWord, length_encodeLE]
  have take : (frame tuple).take 4 = lengthWord tuple := by
    rw [frame, take_left' (by rw [lengthWord, length_encodeLE])]
  have drop : (frame tuple).drop 4 = tuple.body := by
    rw [frame, drop_left' (by rw [lengthWord, length_encodeLE])]
  unfold minimalTupleDataOffset maxAllocSize at alloc
  have small : tuple.body.length < 256 ^ 4 := show _ < 4294967296 by omega
  have decoded : decodeLE (lengthWord tuple) = tuple.body.length := decodeLE_encodeLE small
  have noRecords : ¬ tuple.body.length = recordCacheMagicTuplen := by
    unfold recordCacheMagicTuplen
    omega
  have sum : (tuple.body.length + minimalTupleDataOffset) % 2 ^ 32 ≤ maxAllocSize := by
    unfold minimalTupleDataOffset maxAllocSize
    omega
  unfold deserialize
  simp only [take, drop, decoded]
  rw [if_neg (by omega), if_neg noRecords, palloc, if_pos sum]
  simp [tuple.allocated]

theorem checkChunks_eq {last middle totalLen} (types : ∀ item ∈ middle, item.type = .partialMid)
    (fits : totalLen + (middle.flatMap (·.data)).length + last.length ≤ maxAllocSize) :
    checkChunks totalLen (middle ++ [⟨.partialEnd, last⟩]) =
      .ok (totalLen + (middle.flatMap (·.data)).length + last.length) := by
  induction middle generalizing totalLen with
  | nil =>
    have noOverflow : ¬ (maxAllocSize < last.length ∨ maxAllocSize < totalLen + last.length) := by
      omega
    simp [checkChunks, noOverflow]
  | cons item rest ih =>
    simp only [flatMap_cons, length_append, ← add_assoc] at fits ⊢
    have noOverflow : ¬ (maxAllocSize < item.data.length ∨
        maxAllocSize < totalLen + item.data.length) := by
      omega
    have restChecked := @ih (totalLen + item.data.length)
      (fun other mem => types other (mem_cons_of_mem _ mem)) fits
    simp [checkChunks, noOverflow, types item mem_cons_self, restChecked]

theorem Framed.cvtChunksToTup {info chunks tuple} (framed : Framed info chunks tuple) :
    cvtChunksToTup info chunks = .ok (some tuple) := by
  cases framed with
  | empty => rfl
  | whole => exact deserialize_frame tuple
  | @split _ first last middle types cid =>
    have len := congrArg List.length cid
    have alloc := tuple.allocated
    simp only [frame, lengthWord, length_append, length_encodeLE] at len
    have fits : first.length + (middle.flatMap (·.data)).length + last.length ≤ maxAllocSize := by
      unfold minimalTupleDataOffset at alloc
      omega
    have data : first ++ (middle ++ [(⟨.partialEnd, last⟩ : TupleChunkListItem)]).flatMap
        (·.data) = frame tuple := by
      rw [← cid]
      simp
    simp only [cons_append, Motion.cvtChunksToTup, checkChunks_eq types fits, data]
    show (do palloc _; deserialize (frame tuple)) = _
    rw [palloc, if_pos fits, deserialize_frame]
    rfl

end Greengage.Motion
