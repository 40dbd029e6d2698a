import Greengage.Foundations.ByteMemory

/-!
Contract: the tuples of a motion, `tupser.c`, `tupchunklist.c` and the chunk
sorter of `cdbmotion.c`.

Does not own: the detoasting of attributes, which comes before a tuple is formed,
the type remapper, statistics, and the size in the header of a chunk, which the
transport reads and none of these functions. An access outside the received data
is the fault `undefinedAccess`, since the source does not check for it.
-/

namespace Greengage.Motion

open Foundations (encodeLE decodeLE)

abbrev Byte := BitVec 8

/-- The types `TC_...`. -/
inductive TupleChunkType
  | whole
  | partialStart
  | partialMid
  | partialEnd
  | endOfStream
  | empty
deriving DecidableEq

def TupleChunkType.number : TupleChunkType → Nat
  | whole => 0
  | partialStart => 1
  | partialMid => 2
  | partialEnd => 3
  | endOfStream => 4
  | empty => 5

def tupleChunkHeaderSize : Nat := 4

def minimalTupleDataOffset : Nat := 10

def maxAllocSize : Nat := 0x3fffffff

def broadcastSegidx : Int := -2

/-- `RECORD_CACHE_MAGIC_TUPLEN`, the word of -1. -/
def recordCacheMagicTuplen : Nat := 0xffffffff

structure TupleChunkListItem where
  type : TupleChunkType
  data : List Byte
deriving DecidableEq

def TupleChunkListItem.chunkLength (item : TupleChunkListItem) : Nat :=
  item.data.length + tupleChunkHeaderSize

/-- A `MinimalTuple`: the bytes from `MINIMAL_TUPLE_DATA_OFFSET` on. Every tuple was
allocated by `palloc`. -/
structure MinimalTuple where
  body : List Byte
  allocated : body.length + minimalTupleDataOffset ≤ maxAllocSize
deriving DecidableEq

/-- `heap_form_minimal_tuple` for a descriptor without attributes: no attributes in
`t_infomask2`, no flags in `t_infomask`, a header of 24 bytes and a byte of padding. -/
def MinimalTuple.withoutAttributes : MinimalTuple where
  body := [0, 0, 0, 0, 24, 0]
  allocated := by decide

/-- The `SerTupInfo` of a motion, with the tuple that `heap_form_minimal_tuple` makes of
its `tupdesc`, `values` and `nulls`. -/
structure SerTupInfo where
  natts : Nat
  formed : MinimalTuple
  formed_eq : natts = 0 → formed = .withoutAttributes

/-! ## Serialization -/

/-- A `TupleChunkList` that has a chunk: the ones before `p_last`, and `p_last`. -/
structure TupleChunkList where
  maxChunkLength : Nat
  earlier : List TupleChunkListItem
  pLast : TupleChunkListItem
deriving DecidableEq

namespace TupleChunkList

def items (tcList : TupleChunkList) : List TupleChunkListItem := tcList.earlier ++ [tcList.pLast]

def appendChunkToTCList (tcList : TupleChunkList) (item : TupleChunkListItem) : TupleChunkList :=
  { tcList with earlier := tcList.earlier ++ [tcList.pLast], pLast := item }

def fillLast (tcList : TupleChunkList) (data : List Byte) : TupleChunkList :=
  { tcList with pLast := { tcList.pLast with data := tcList.pLast.data ++ data } }

/-- The loop of `addByteStringToChunkList`, at most `fuel` times: the last chunk takes
what fits, and the rest goes into new chunks. -/
def addByteStringToChunkList : Nat → TupleChunkList → List Byte → Option TupleChunkList
  | 0, _, _ => none
  | fuel + 1, tcList, data =>
    let available := tcList.maxChunkLength - tcList.pLast.chunkLength
    let copyLen := min available data.length
    let filled := tcList.fillLast (data.take copyLen)
    let remain := data.drop copyLen
    if remain = [] then some filled
    else
      addByteStringToChunkList fuel
        (filled.appendChunkToTCList { type := .partialMid, data := [] }) remain

def setPartialTypes (tcList : TupleChunkList) : TupleChunkList :=
  match tcList.earlier with
  | [] => tcList
  | first :: others =>
    { tcList with
      earlier := { first with type := .partialStart } :: others
      pLast := { tcList.pLast with type := .partialEnd } }

end TupleChunkList

/-- A `directTransportBuffer`: whether `pri` is set, and `prilen`. -/
structure DirectTransportBuffer where
  hasPri : Bool
  prilen : Nat
deriving DecidableEq

def candidateForSerializeDirect (targetRoute : Int) (b : DirectTransportBuffer) : Bool :=
  targetRoute ≠ broadcastSegidx && b.hasPri && decide (tupleChunkHeaderSize < b.prilen)

/-- A tuple is in the transport buffer as one chunk, or in a list of chunks. -/
inductive Serialized
  | inBuffer (chunk : TupleChunkListItem)
  | outOfLine (tcList : TupleChunkList)
deriving DecidableEq

def Serialized.chunks : Serialized → List TupleChunkListItem
  | inBuffer chunk => [chunk]
  | outOfLine tcList => tcList.items

/-- The word `tupbodylen` as bytes. -/
def lengthWord (tuple : MinimalTuple) : List Byte := encodeLE 4 tuple.body.length

/-- `SerializeTuple`. `none`: one of the loops needs more rounds than the string has
bytes, and one. -/
def serializeTuple (info : SerTupInfo) (gpMaxTupleChunkSize : Nat) (b : DirectTransportBuffer)
    (targetRoute : Int) (tuple : MinimalTuple) : Option Serialized :=
  if info.natts = 0 ∧ candidateForSerializeDirect targetRoute b then
    some (.inBuffer { type := .empty, data := [] })
  else
    let tuplen := tuple.body.length + 4
    if candidateForSerializeDirect targetRoute b ∧ tuplen + tupleChunkHeaderSize ≤ b.prilen then
      some (.inBuffer { type := .whole, data := lengthWord tuple ++ tuple.body })
    else do
      let tcList : TupleChunkList :=
        { maxChunkLength := gpMaxTupleChunkSize, earlier := [], pLast := { type := .whole, data := [] } }
      let tcList ← tcList.addByteStringToChunkList 5 (lengthWord tuple)
      let tcList ← tcList.addByteStringToChunkList (tuple.body.length + 1) tuple.body
      return .outOfLine tcList.setPartialTypes

inductive ErrCode
  | protocolViolation
  | gpInterconnectionError
  | internalError
deriving DecidableEq

inductive MotionFault
  | error (code : ErrCode) (message : String)
  | undefinedAccess
deriving DecidableEq

/-- The check of `palloc`. -/
def palloc (size : Nat) : Except MotionFault Unit :=
  if size ≤ maxAllocSize then .ok ()
  else .error (.error .internalError s!"invalid memory alloc request size {size}")

/-- The chunks behind a `TC_PARTIAL_START` chunk: their types, and the length of all. -/
def checkChunks : Nat → List TupleChunkListItem → Except MotionFault Nat
  | totalLen, [] => .ok totalLen
  | totalLen, tcItem :: rest =>
    if rest = [] ∧ tcItem.type ≠ .partialEnd then
      .error (.error .protocolViolation "last chunk of collection must have type TC_PARTIAL_END")
    else if rest ≠ [] ∧ tcItem.type ≠ .partialMid then
      .error (.error .protocolViolation "middle chunk of collection must have type TC_PARTIAL_MID")
    else if maxAllocSize < tcItem.data.length ∨ maxAllocSize < totalLen + tcItem.data.length then
      .error (.error .protocolViolation "chunked tuple is too large")
    else checkChunks (totalLen + tcItem.data.length) rest

/-- The tuple of the reassembled data. The word in front of it is the length of the body,
or says that the data is a list of record types, which is no tuple. -/
def deserialize (serData : List Byte) : Except MotionFault (Option MinimalTuple) :=
  if serData.length < 4 then .error .undefinedAccess
  else
    let tupbodylen := decodeLE (serData.take 4)
    let pos := serData.drop 4
    if tupbodylen = recordCacheMagicTuplen then .ok none
    else do
      palloc ((tupbodylen + minimalTupleDataOffset) % 2 ^ 32)
      -- a negative length passes the check when its sum with the offset is not negative
      if fits : tupbodylen ≤ pos.length ∧ tupbodylen + minimalTupleDataOffset ≤ maxAllocSize then
        return some
          { body := pos.take tupbodylen
            allocated := by
              rw [List.length_take]
              exact Nat.le_trans (Nat.add_le_add_right (Nat.min_le_left ..) _) fits.2 }
      else throw .undefinedAccess

def cvtChunksToTup (info : SerTupInfo) :
    List TupleChunkListItem → Except MotionFault (Option MinimalTuple)
  | [] => .error .undefinedAccess
  | first :: rest =>
    match first.type with
    | .whole =>
      if rest ≠ [] then
        .error (.error .protocolViolation "Single chunk's type must be TC_WHOLE.")
      else deserialize first.data
    | .empty => .ok (some info.formed)
    | .partialStart => do
        let totalLen ← checkChunks first.data.length rest
        palloc totalLen
        deserialize (first.data ++ rest.flatMap (·.data))
    | type =>
      .error (.error .protocolViolation
        s!"unexpected tuple chunk type {type.number} at beginning of chunk list")

/-! ## The chunk sorter -/

/-- A tuple in a FIFO. Which sender it came from is not stored by the source. -/
structure ReadyTuple where
  srcRoute : Nat
  tuple : MinimalTuple
deriving DecidableEq

structure ChunkSorterEntry where
  chunkList : List TupleChunkListItem
  endOfStream : Bool
  readyTuples : List ReadyTuple
deriving DecidableEq

structure MotionNodeEntry where
  motionNodeId : Int
  preserveOrder : Bool
  numSenders : Nat
  serTupInfo : SerTupInfo
  readyTupleLists : Nat → Option ChunkSorterEntry
  readyTuples : List ReadyTuple
  numStreamEndsRecvd : Nat
  moreNetWork : Bool

namespace MotionNodeEntry

/-- `UpdateMotionLayerNode`: the entry of a node that has received nothing. -/
def create (motionNodeId : Int) (preserveOrder : Bool) (numSenders : Nat)
    (serTupInfo : SerTupInfo) : MotionNodeEntry where
  motionNodeId := motionNodeId
  preserveOrder := preserveOrder
  numSenders := numSenders
  serTupInfo := serTupInfo
  readyTupleLists := fun _ => none
  readyTuples := []
  numStreamEndsRecvd := 0
  moreNetWork := true

def getChunkSorterEntry (node : MotionNodeEntry) (srcRoute : Nat) : ChunkSorterEntry :=
  (node.readyTupleLists srcRoute).getD { chunkList := [], endOfStream := false, readyTuples := [] }

def setChunkSorterEntry (node : MotionNodeEntry) (srcRoute : Nat) (entry : ChunkSorterEntry) :
    MotionNodeEntry :=
  { node with readyTupleLists := Function.update node.readyTupleLists srcRoute (some entry) }

/-- `htfifo_addtuple` on the FIFO of the sender, or on the one that all share. -/
def addTuple (node : MotionNodeEntry) (srcRoute : Nat) (tuple : MinimalTuple) : MotionNodeEntry :=
  if node.preserveOrder then
    let entry := node.getChunkSorterEntry srcRoute
    node.setChunkSorterEntry srcRoute
      { entry with readyTuples := entry.readyTuples ++ [{ srcRoute, tuple }] }
  else { node with readyTuples := node.readyTuples ++ [{ srcRoute, tuple }] }

def reconstructTuple (node : MotionNodeEntry) (srcRoute : Nat)
    (chunkList : List TupleChunkListItem) : Except MotionFault MotionNodeEntry := do
  let tup ← cvtChunksToTup node.serTupInfo chunkList
  let cleared :=
    node.setChunkSorterEntry srcRoute { node.getChunkSorterEntry srcRoute with chunkList := [] }
  match tup with
  | none => return cleared
  | some tuple => return cleared.addTuple srcRoute tuple

def sorterError (node : MotionNodeEntry) (srcRoute : Nat) (chunk problem : String) :
    Except MotionFault MotionNodeEntry :=
  .error (.error .gpInterconnectionError
    s!"received {chunk} chunk from [src={srcRoute},mn={node.motionNodeId}] {problem}")

def addChunkToSorter (node : MotionNodeEntry) (srcRoute : Nat) (tcItem : TupleChunkListItem) :
    Except MotionFault MotionNodeEntry :=
  let entry := node.getChunkSorterEntry srcRoute
  match tcItem.type with
  | .whole | .empty =>
    if entry.chunkList ≠ [] then
      node.sorterError srcRoute "TC_WHOLE" "after partial tuple data"
    else node.reconstructTuple srcRoute [tcItem]
  | .partialStart =>
    if entry.chunkList ≠ [] then
      node.sorterError srcRoute "TC_PARTIAL_START" "after partial tuple data"
    else .ok (node.setChunkSorterEntry srcRoute { entry with chunkList := [tcItem] })
  | .partialMid =>
    if entry.chunkList = [] then
      node.sorterError srcRoute "TC_PARTIAL_MID" "without any leading tuple data"
    else
      .ok (node.setChunkSorterEntry srcRoute
        { entry with chunkList := entry.chunkList ++ [tcItem] })
  | .partialEnd =>
    if entry.chunkList = [] then
      node.sorterError srcRoute "TC_PARTIAL_END" "without any leading tuple data"
    else node.reconstructTuple srcRoute (entry.chunkList ++ [tcItem])
  | .endOfStream =>
    if entry.chunkList ≠ [] then
      node.sorterError srcRoute "TC_END_OF_STREAM" "after partial tuple data"
    else if entry.endOfStream then
      node.sorterError srcRoute "end-of-stream" "when already marked as at end-of-stream"
    else
      let ended := node.setChunkSorterEntry srcRoute { entry with endOfStream := true }
      let received := node.numStreamEndsRecvd + 1
      .ok
        { ended with
          numStreamEndsRecvd := received
          moreNetWork := if received = node.numSenders then false else node.moreNetWork }

def ready (node : MotionNodeEntry) (srcRoute : Nat) : List MinimalTuple :=
  if node.preserveOrder then (node.getChunkSorterEntry srcRoute).readyTuples.map (·.tuple)
  else (node.readyTuples.filter fun ready => ready.srcRoute = srcRoute).map (·.tuple)

/-- `processIncomingChunks`, chunk by chunk in the order of their arrival. -/
def processIncomingChunks (node : MotionNodeEntry) (arrivals : List (Nat × TupleChunkListItem)) :
    Except MotionFault MotionNodeEntry :=
  arrivals.foldlM (fun node arrival => node.addChunkToSorter arrival.1 arrival.2) node

end MotionNodeEntry

end Greengage.Motion
