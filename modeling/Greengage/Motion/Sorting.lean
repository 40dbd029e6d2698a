import Greengage.Motion.Serialization
import Mathlib.Data.Finset.Card

/-!
Contract: the chunk sorter gives every sender's tuples back.

Assumes of the transport that the chunks of one sender arrive in their order. That
they do is the business of the interconnect.
-/

namespace Greengage.Motion

open Function List

/-- A tuple that a sender serializes, the buffer it has at that moment and the route. -/
structure Shipment where
  tuple : MinimalTuple
  buffer : DirectTransportBuffer
  targetRoute : Int
deriving DecidableEq

/-- `s_eos_chunk_data`. -/
def endOfStreamChunk : TupleChunkListItem := { type := .endOfStream, data := [] }

def stream (info : SerTupInfo) (gpMaxTupleChunkSize : Nat) :
    List Shipment → Option (List TupleChunkListItem)
  | [] => some [endOfStreamChunk]
  | shipment :: later => do
      let serialized ←
        serializeTuple info gpMaxTupleChunkSize shipment.buffer shipment.targetRoute shipment.tuple
      let others ← stream info gpMaxTupleChunkSize later
      return serialized.chunks ++ others

def deliveries (info : SerTupInfo) (shipments : List Shipment) : List MinimalTuple :=
  shipments.map fun shipment =>
    delivered info shipment.buffer shipment.targetRoute shipment.tuple

def arrivalsOf (srcRoute : Nat) (arrivals : List (Nat × TupleChunkListItem)) :
    List TupleChunkListItem :=
  (arrivals.filter fun arrival => arrival.1 = srcRoute).map (·.2)

/-- The chunks up to the end of a stream, and the tuples in them. -/
inductive StreamOf (info : SerTupInfo) : List TupleChunkListItem → List MinimalTuple → Prop
  | ended : StreamOf info [endOfStreamChunk] []
  | tuple {chunks later : List TupleChunkListItem} {tuple : MinimalTuple}
      {tuples : List MinimalTuple} (framed : Framed info chunks tuple)
      (rest : StreamOf info later tuples) : StreamOf info (chunks ++ later) (tuple :: tuples)

theorem stream_eq (info) {gpMaxTupleChunkSize} (large : tupleChunkHeaderSize < gpMaxTupleChunkSize)
    (shipments) :
    ∃ chunks, stream info gpMaxTupleChunkSize shipments = some chunks ∧
      StreamOf info chunks (deliveries info shipments) := by
  induction shipments with
  | nil => exact ⟨_, rfl, .ended⟩
  | cons shipment later ih =>
    obtain ⟨serialized, ret, framed⟩ := serializeTuple_framed info large shipment.buffer
      shipment.targetRoute shipment.tuple
    obtain ⟨others, returnedLater, rest⟩ := ih
    exact ⟨serialized.chunks ++ others, by simp [stream, ret, returnedLater], .tuple framed rest⟩

variable {info : SerTupInfo} {chunks : List TupleChunkListItem}

theorem Framed.endOfStream_notMem {tuple} (framed : Framed info chunks tuple) :
    endOfStreamChunk ∉ chunks := by
  cases framed with
  | empty => simp [endOfStreamChunk]
  | whole => simp [endOfStreamChunk]
  | split types =>
    intro isIn
    simp only [cons_append, mem_cons, mem_append] at isIn
    rcases isIn with first | middle | last
    · exact absurd first (by simp [endOfStreamChunk])
    · exact absurd (types _ middle) (by simp [endOfStreamChunk])
    · exact absurd last (by simp [endOfStreamChunk])

variable {tuples : List MinimalTuple}

theorem StreamOf.eq_append (streamOf : StreamOf info chunks tuples) :
    ∃ front, chunks = front ++ [endOfStreamChunk] ∧ endOfStreamChunk ∉ front := by
  induction streamOf with
  | ended => exact ⟨[], rfl, not_mem_nil⟩
  | tuple framed _ ih =>
    obtain ⟨front, later, absent⟩ := ih
    exact ⟨_, by rw [later, append_assoc], by simp [framed.endOfStream_notMem, absent]⟩

theorem StreamOf.ne_nil (streamOf : StreamOf info chunks tuples) : chunks ≠ [] := by
  obtain ⟨_, rfl, _⟩ := streamOf.eq_append
  simp

theorem StreamOf.endOfStream_mem_iff {arrived left}
    (streamOf : StreamOf info (arrived ++ left) tuples) :
    endOfStreamChunk ∈ arrived ↔ left = [] := by
  obtain ⟨front, chunks, absent⟩ := streamOf.eq_append
  constructor
  · intro mem
    by_contra ne
    have inFront : arrived <+: front := by
      obtain ⟨others, _, rfl⟩ := (eq_nil_or_concat left).resolve_left ne
      rw [concat_eq_append, ← append_assoc] at chunks
      exact ⟨others, (append_inj' chunks rfl).1⟩
    exact absent (inFront.subset mem)
  · rintro rfl
    rw [append_nil] at chunks
    simp [chunks]

/-- What a sender's entry waits for: `chunkList` is there of the current tuple, and
`remaining` is still to come, with `pending` tuples. -/
inductive Awaits (info : SerTupInfo) :
    List TupleChunkListItem → List TupleChunkListItem → List MinimalTuple → Prop
  | between {remaining : List TupleChunkListItem} {pending : List MinimalTuple}
      (streamOf : StreamOf info remaining pending) : Awaits info [] remaining pending
  | inside {chunkList rest later : List TupleChunkListItem} {tuple : MinimalTuple}
      {pending : List MinimalTuple} (started : chunkList ≠ []) (unfinished : rest ≠ [])
      (framed : Framed info (chunkList ++ rest) tuple) (streamOf : StreamOf info later pending) :
      Awaits info chunkList (rest ++ later) (tuple :: pending)
  | ended : Awaits info [] [] []

/-! The position of a chunk among the ones of its tuple determines its type. -/

section

variable {info : SerTupInfo} {chunkList rest : List TupleChunkListItem}
  {chunk : TupleChunkListItem} {tuple : MinimalTuple}

theorem Framed.ne_nil (framed : Framed info chunkList tuple) : chunkList ≠ [] := by
  cases framed <;> simp

theorem Framed.type_single (framed : Framed info [chunk] tuple) :
    chunk.type = .whole ∨ chunk.type = .empty := by
  generalize chunks : [chunk] = all at framed
  cases framed with
  | empty => exact .inr (by simp_all)
  | whole => exact .inl (by simp_all)
  | split => simp at chunks

theorem Framed.type_first (framed : Framed info (chunk :: rest) tuple) (several : rest ≠ []) :
    chunk.type = .partialStart := by
  generalize chunks : chunk :: rest = all at framed
  cases framed with
  | empty => simp_all
  | whole => simp_all
  | split => simp_all

theorem Framed.type_last (framed : Framed info (chunkList ++ [chunk]) tuple)
    (started : chunkList ≠ []) : chunk.type = .partialEnd := by
  generalize chunks : chunkList ++ [chunk] = all at framed
  cases framed with
  | empty => simp_all [append_eq_cons_iff]
  | whole => simp_all [append_eq_cons_iff]
  | split =>
    have last := head_eq_of_cons_eq (append_inj' chunks rfl).2
    rw [last]

theorem Framed.type_middle (framed : Framed info (chunkList ++ chunk :: rest) tuple)
    (started : chunkList ≠ []) (unfinished : rest ≠ []) : chunk.type = .partialMid := by
  generalize chunks : chunkList ++ chunk :: rest = all at framed
  cases framed with
  | empty => simp_all [append_eq_cons_iff]
  | whole => simp_all [append_eq_cons_iff]
  | split types =>
    obtain ⟨_, chunkList, rfl⟩ := exists_cons_of_ne_nil started
    obtain ⟨others, last, rfl⟩ := (eq_nil_or_concat rest).resolve_left unfinished
    have tails := (cons.inj chunks).2
    change chunkList ++ chunk :: others.concat last = _ ++ _ at tails
    rw [concat_eq_append, ← cons_append, ← append_assoc] at tails
    have mid := (append_inj' tails rfl).1
    exact types chunk (by simp [← mid])

end

/-! ## The node -/

/-- What a chunk of a sender changes: the chunks that are kept, the tuples that become
ready, and whether the stream has ended. -/
structure Added (node after : MotionNodeEntry) (srcRoute : Nat) (tuples : List MinimalTuple)
    (chunkList : List TupleChunkListItem) (ended : Bool) : Prop where
  serTupInfo : after.serTupInfo = node.serTupInfo
  numSenders : after.numSenders = node.numSenders
  chunkList : (after.getChunkSorterEntry srcRoute).chunkList = chunkList
  endOfStream : (after.getChunkSorterEntry srcRoute).endOfStream =
    ((node.getChunkSorterEntry srcRoute).endOfStream || ended)
  ready : after.ready srcRoute = node.ready srcRoute ++ tuples
  others : ∀ other, other ≠ srcRoute →
    after.getChunkSorterEntry other = node.getChunkSorterEntry other ∧
      after.ready other = node.ready other
  numStreamEndsRecvd : after.numStreamEndsRecvd = node.numStreamEndsRecvd + ended.toNat
  moreNetWork : after.moreNetWork =
    (node.moreNetWork && !(ended && node.numStreamEndsRecvd + 1 == node.numSenders))

namespace MotionNodeEntry

variable (node : MotionNodeEntry) (srcRoute route : Nat)

@[simp] theorem getChunkSorterEntry_set (entry) :
    (node.setChunkSorterEntry route entry).getChunkSorterEntry route = entry := by
  simp [getChunkSorterEntry, setChunkSorterEntry]

theorem getChunkSorterEntry_set_of_ne {other} (ne : other ≠ route) (entry) :
    (node.setChunkSorterEntry route entry).getChunkSorterEntry other =
      node.getChunkSorterEntry other := by
  simp [getChunkSorterEntry, setChunkSorterEntry, update_of_ne ne]

theorem ready_set (entry)
    (same : entry.readyTuples = (node.getChunkSorterEntry route).readyTuples) (other) :
    (node.setChunkSorterEntry route entry).ready other = node.ready other := by
  by_cases src : other = route
  · subst src
    simp only [ready, getChunkSorterEntry_set, same]
    rfl
  · simp only [ready, getChunkSorterEntry_set_of_ne node route src]
    rfl

theorem added_set (chunkList) : Added node
      (node.setChunkSorterEntry route { node.getChunkSorterEntry route with chunkList })
      route [] chunkList false where
  serTupInfo := rfl
  numSenders := rfl
  chunkList := by simp
  endOfStream := by simp
  ready := by rw [ready_set node route _ (by rfl), append_nil]
  others other ne :=
    ⟨getChunkSorterEntry_set_of_ne node route ne _, ready_set node route _ (by rfl) other⟩
  numStreamEndsRecvd := rfl
  moreNetWork := by simp [setChunkSorterEntry]

theorem added_addTuple (tuple) :
    Added node (node.addTuple route tuple) route [tuple]
      (node.getChunkSorterEntry route).chunkList false := by
  unfold addTuple
  split
  case isTrue ord =>
    exact {
      serTupInfo := rfl
      numSenders := rfl
      chunkList := by simp
      endOfStream := by simp
      ready := by
        have same (entry : ChunkSorterEntry) :
            (node.setChunkSorterEntry route entry).preserveOrder = true := ord
        simp [ready, same, ord]
      others other ne := by
        have entry := getChunkSorterEntry_set_of_ne node route ne
        refine ⟨entry _, ?_⟩
        simp only [ready, entry]
        rw [if_pos ord]
        exact if_pos ord
      numStreamEndsRecvd := rfl
      moreNetWork := by simp [setChunkSorterEntry] }
  case isFalse shared =>
    exact {
      serTupInfo := rfl
      numSenders := rfl
      chunkList := rfl
      endOfStream := by simp [getChunkSorterEntry]
      ready := by simp [ready, shared]
      others other ne := by
        exact ⟨rfl, by simp [ready, shared, ne.symm]⟩
      numStreamEndsRecvd := rfl
      moreNetWork := by simp }

theorem reconstructTuple_added {chunkList tuple} (framed : Framed node.serTupInfo chunkList tuple) :
    ∃ after, node.reconstructTuple route chunkList = .ok after ∧
      Added node after route [tuple] [] false := by
  have cleared := added_set node route []
  have added := added_addTuple
    (node.setChunkSorterEntry route { node.getChunkSorterEntry route with chunkList := [] })
    route tuple
  refine ⟨_, by simp only [reconstructTuple, framed.cvtChunksToTup]; rfl, ?_⟩
  exact {
    serTupInfo := added.serTupInfo.trans cleared.serTupInfo
    numSenders := added.numSenders.trans cleared.numSenders
    chunkList := added.chunkList.trans cleared.chunkList
    endOfStream := by rw [added.endOfStream, cleared.endOfStream]; simp
    ready := by rw [added.ready, cleared.ready, append_nil]
    others other ne := by
      have first := cleared.others other ne
      have second := added.others other ne
      exact ⟨second.1.trans first.1, second.2.trans first.2⟩
    numStreamEndsRecvd := added.numStreamEndsRecvd.trans cleared.numStreamEndsRecvd
    moreNetWork := by rw [added.moreNetWork, cleared.moreNetWork]; simp }

theorem added_endOfStream (empty : (node.getChunkSorterEntry route).chunkList = [])
    (open_ : (node.getChunkSorterEntry route).endOfStream = false) :
    ∃ after, node.addChunkToSorter route endOfStreamChunk = .ok after ∧
      Added node after route [] [] true := by
  refine ⟨_, by simp only [addChunkToSorter, empty, open_]; rfl, ?_⟩
  exact {
    serTupInfo := rfl
    numSenders := rfl
    chunkList := by
      show ((node.setChunkSorterEntry route _).getChunkSorterEntry route).chunkList = []
      simp
    endOfStream := by
      show ((node.setChunkSorterEntry route _).getChunkSorterEntry route).endOfStream = _
      simp
    ready := by
      rw [append_nil]
      exact ready_set node route _ (by rfl) route
    others other ne :=
      ⟨getChunkSorterEntry_set_of_ne node route ne _,
        ready_set node route _ (by rfl) other⟩
    numStreamEndsRecvd := rfl
    moreNetWork := by
      split <;> simp [*] }

theorem addChunkToSorter_added {chunk remaining pending}
    (awaits : Awaits node.serTupInfo (node.getChunkSorterEntry route).chunkList
      (chunk :: remaining) pending)
    (open_ : (node.getChunkSorterEntry route).endOfStream = false) :
    ∃ after completed later chunkList, node.addChunkToSorter route chunk = .ok after ∧
      Added node after route completed chunkList remaining.isEmpty ∧
      Awaits node.serTupInfo chunkList remaining later ∧ pending = completed ++ later := by
  generalize entryList : (node.getChunkSorterEntry route).chunkList = cur at awaits
  generalize incoming : chunk :: remaining = chunks at awaits
  cases awaits with
  | ended => cases incoming
  | between streamOf =>
    cases streamOf with
    | ended =>
      cases incoming
      obtain ⟨after, ret, added⟩ := added_endOfStream node route entryList open_
      exact ⟨after, [], [], [], ret, added, .ended, rfl⟩
    | @tuple chunks later tuple tuples framed rest =>
      obtain ⟨first, others, rfl⟩ := exists_cons_of_ne_nil framed.ne_nil
      rw [cons_append] at incoming
      cases incoming
      have more : (others ++ later).isEmpty = false := by simp [rest.ne_nil]
      rw [more]
      by_cases single : others = []
      · subst single
        obtain ⟨after, ret, added⟩ := reconstructTuple_added node route framed
        refine ⟨after, [tuple], tuples, [], ?_, added, .between rest, rfl⟩
        rcases framed.type_single with whole | empty
        · simp [addChunkToSorter, whole, entryList, ret]
        · simp [addChunkToSorter, empty, entryList, ret]
      · refine ⟨_, [], _, [chunk], ?_, added_set node route [chunk],
          .inside (cons_ne_nil _ _) single framed rest, rfl⟩
        simp [addChunkToSorter, framed.type_first single, entryList]
  | @inside _ rest later tuple pending started unfinished framed streamOf =>
    obtain ⟨first, others, rfl⟩ := exists_cons_of_ne_nil unfinished
    rw [cons_append] at incoming
    cases incoming
    have more : (others ++ later).isEmpty = false := by simp [streamOf.ne_nil]
    rw [more]
    by_cases last : others = []
    · subst last
      obtain ⟨after, ret, added⟩ := reconstructTuple_added node route framed
      refine ⟨after, [tuple], pending, [], ?_, added, .between streamOf, rfl⟩
      simp [addChunkToSorter, framed.type_last started, entryList, started, ret]
    · refine ⟨_, [], _, cur ++ [chunk], ?_, added_set node route _,
        .inside (by simp) last (by simpa using framed) streamOf, rfl⟩
      simp [addChunkToSorter, framed.type_middle started last, entryList, started]

end MotionNodeEntry

/-- A sender whose chunks up to `remaining` have been processed: `deliveries` are its
tuples. -/
structure SenderOk (node : MotionNodeEntry) (srcRoute : Nat) (deliveries : List MinimalTuple)
    (remaining : List TupleChunkListItem) : Prop where
  awaits : ∃ pending, Awaits node.serTupInfo (node.getChunkSorterEntry srcRoute).chunkList
    remaining pending ∧ node.ready srcRoute ++ pending = deliveries
  endOfStream : (node.getChunkSorterEntry srcRoute).endOfStream = remaining.isEmpty

def endedSenders (numSenders : Nat) (remaining : Nat → List TupleChunkListItem) : Finset Nat :=
  {srcRoute ∈ Finset.range numSenders | remaining srcRoute = []}

structure NodeOk (node : MotionNodeEntry) (deliveries : Nat → List MinimalTuple)
    (remaining : Nat → List TupleChunkListItem) : Prop where
  senders : ∀ srcRoute, SenderOk node srcRoute (deliveries srcRoute) (remaining srcRoute)
  ends : node.numStreamEndsRecvd = (endedSenders node.numSenders remaining).card
  moreNetWork : node.moreNetWork = false ↔
    0 < node.numSenders ∧ node.numStreamEndsRecvd = node.numSenders

theorem Awaits.ended_of_nil {chunkList pending} (awaits : Awaits info chunkList [] pending) :
    pending = [] := by
  generalize nothing : [] = remaining at awaits
  cases awaits with
  | between streamOf => exact absurd nothing.symm streamOf.ne_nil
  | inside _ unfinished => exact absurd (append_eq_nil_iff.mp nothing.symm).1 unfinished
  | ended => rfl

section

variable {numSenders count srcRoute route : Nat} {remaining : Nat → List TupleChunkListItem}
  {rest : List TupleChunkListItem}

theorem card_endedSenders_eq : (endedSenders count remaining).card = count ↔
      ∀ route, route < count → remaining route = [] := by
  have all := @Finset.card_filter_eq_iff _ (Finset.range count)
    (fun route => remaining route = []) _
  rw [Finset.card_range] at all
  simpa only [endedSenders, Finset.mem_range] using all

theorem card_endedSenders_update (lt : route < count) (pre : remaining route ≠ []) :
    (endedSenders count (update remaining route rest)).card =
      (endedSenders count remaining).card + rest.isEmpty.toNat := by
  have absent : route ∉ endedSenders count remaining := by
    simp [endedSenders, pre]
  cases rest with
  | nil =>
    have inserted : endedSenders count (update remaining route []) =
        insert route (endedSenders count remaining) := by
      ext other
      by_cases src : other = route
      · simp [endedSenders, src, lt]
      · simp [endedSenders, src]
    rw [inserted, Finset.card_insert_of_notMem absent]
    rfl
  | cons chunk others =>
    have same : endedSenders count (update remaining route (chunk :: others)) =
        endedSenders count remaining := by
      ext other
      by_cases src : other = route
      · simp [endedSenders, src, pre]
      · simp [endedSenders, src]
    rw [same]
    rfl

end

theorem NodeOk.addChunkToSorter {node deliveries remaining route chunk rest}
    (ok : NodeOk node deliveries remaining) (lt : route < node.numSenders)
    (next : remaining route = chunk :: rest) :
    ∃ after, node.addChunkToSorter route chunk = .ok after ∧ after.numSenders = node.numSenders ∧
      NodeOk after deliveries (update remaining route rest) := by
  have sender := ok.senders route
  obtain ⟨pending, awaits, compl⟩ := sender.awaits
  rw [next] at awaits
  have open_ := sender.endOfStream
  rw [next, isEmpty_cons] at open_
  obtain ⟨after, completed, later, chunkList, ret, added, awaitsLater, pendingEq⟩ :=
    node.addChunkToSorter_added route awaits open_
  have counted := @card_endedSenders_update node.numSenders route remaining rest lt
    (by simp [next])
  have notAll : (endedSenders node.numSenders remaining).card ≠ node.numSenders := by
    rw [Ne, card_endedSenders_eq]
    intro all
    simpa [next] using all route lt
  refine ⟨after, ret, added.numSenders, ?_⟩
  exact {
    senders other := by
      by_cases src : other = route
      · subst src
        rw [update_self]
        refine ⟨⟨later, ?_, ?_⟩, ?_⟩
        · rw [added.serTupInfo, added.chunkList]
          exact awaitsLater
        · rw [added.ready, append_assoc, ← pendingEq, compl]
        · rw [added.endOfStream, open_, Bool.false_or]
      · have others := added.others other src
        have same := ok.senders other
        rw [update_of_ne src]
        refine ⟨?_, ?_⟩
        · rw [added.serTupInfo, others.1, others.2]
          exact same.awaits
        · rw [others.1]
          exact same.endOfStream
    ends := by rw [added.numSenders, counted, added.numStreamEndsRecvd, ok.ends]
    moreNetWork := by
      have more : node.moreNetWork := by
        rw [← Bool.not_eq_false, ok.moreNetWork, ok.ends]
        exact fun all => notAll all.2
      rw [added.moreNetWork, added.numStreamEndsRecvd, added.numSenders, more, ok.ends]
      cases rest with
      | nil => simp; omega
      | cons => simp [notAll] }

theorem NodeOk.processIncomingChunks {node deliveries remaining left arrivals}
    (ok : NodeOk node deliveries remaining)
    (lt : ∀ arrival ∈ arrivals, arrival.1 < node.numSenders)
    (inOrder : ∀ route, arrivalsOf route arrivals ++ left route = remaining route) :
    ∃ after, node.processIncomingChunks arrivals = .ok after ∧
      after.numSenders = node.numSenders ∧ NodeOk after deliveries left := by
  induction arrivals generalizing node remaining with
  | nil =>
    have same : left = remaining := funext inOrder
    exact ⟨node, rfl, rfl, same ▸ ok⟩
  | cons arrival later ih =>
    obtain ⟨route, chunk⟩ := arrival
    have next : remaining route = chunk :: (arrivalsOf route later ++ left route) := by
      rw [← inOrder route]
      simp [arrivalsOf]
    obtain ⟨_, ret, senders, okMiddle⟩ :=
      ok.addChunkToSorter (lt _ mem_cons_self) next
    have run := ih okMiddle (fun arrival mem => senders ▸ lt arrival (mem_cons_of_mem _ mem)) (by
        intro other
        by_cases src : other = route
        · rw [src, update_self]
        · rw [update_of_ne src, ← inOrder other]
          simp [arrivalsOf, Ne.symm src])
    obtain ⟨after, returnedLater, sendersLater, okAfter⟩ := run
    refine ⟨after, ?_, sendersLater.trans senders, okAfter⟩
    rw [MotionNodeEntry.processIncomingChunks, foldlM_cons, ret]
    exact returnedLater

theorem nodeOk_create (motionNodeId : Int) (preserveOrder : Bool) (count : Nat)
    {deliveries streams}
    (streamsOf : ∀ route, StreamOf info (streams route) (deliveries route)) :
    NodeOk (.create motionNodeId preserveOrder count info) deliveries streams where
  senders route :=
    { awaits := by
        refine ⟨_, .between (streamsOf route), ?_⟩
        cases preserveOrder <;> rfl
      endOfStream := by
        rw [isEmpty_eq_false_iff.mpr (streamsOf route).ne_nil]
        rfl }
  ends := by
    show 0 = (endedSenders count streams).card
    rw [eq_comm, Finset.card_eq_zero, endedSenders, Finset.filter_eq_empty_iff]
    exact fun route _ => (streamsOf route).ne_nil
  moreNetWork := by
    constructor
    · intro none
      cases none
    · intro all
      exact absurd all.2 (ne_of_lt all.1)

theorem arrivalsOf_eq_nil {count route arrivals}
    (lt : ∀ arrival ∈ arrivals, arrival.1 < count) (out : count ≤ route) :
    arrivalsOf route arrivals = [] := by
  have none : arrivals.filter (fun arrival => arrival.1 = route) = [] := by
    rw [filter_eq_nil_iff]
    intro arrival mem
    have := lt arrival mem
    simp only [decide_eq_true_eq]
    omega
  rw [arrivalsOf, none, map_nil]

/-- Tuples of any number of senders, each serialized into a buffer of any size or into
chunks of any maximal size, whose chunks arrive in any interleaving that keeps the order
of every sender: the sorter raises no error, it makes a sender's tuples ready in their
order, all of them when the stream is complete, and the network has no more work exactly
when every sender's end of stream was among the arrivals. -/
theorem processIncomingChunks_delivers (info : SerTupInfo) (motionNodeId : Int)
    (preserveOrder : Bool) (numSenders gpMaxTupleChunkSize : Nat)
    (large : tupleChunkHeaderSize < gpMaxTupleChunkSize) (shipments : Nat → List Shipment) :
    ∃ streams : Nat → List TupleChunkListItem,
      (∀ srcRoute, stream info gpMaxTupleChunkSize (shipments srcRoute) = some (streams srcRoute)) ∧
      ∀ arrivals : List (Nat × TupleChunkListItem), (∀ arrival ∈ arrivals, arrival.1 < numSenders) →
        (∀ srcRoute, srcRoute < numSenders → arrivalsOf srcRoute arrivals <+: streams srcRoute) →
        ∃ node, (MotionNodeEntry.create motionNodeId preserveOrder numSenders
            info).processIncomingChunks arrivals = .ok node ∧
          (∀ srcRoute, srcRoute < numSenders →
            node.ready srcRoute <+: deliveries info (shipments srcRoute) ∧
            (arrivalsOf srcRoute arrivals = streams srcRoute →
              node.ready srcRoute = deliveries info (shipments srcRoute))) ∧
          (node.moreNetWork = false ↔ 0 < numSenders ∧
            ∀ srcRoute, srcRoute < numSenders → (srcRoute, endOfStreamChunk) ∈ arrivals) := by
  choose streams ret streamsOf using fun srcRoute =>
    stream_eq info large (shipments srcRoute)
  refine ⟨streams, ret, ?_⟩
  intro arrivals lt inOrder
  have started (srcRoute) : arrivalsOf srcRoute arrivals <+: streams srcRoute := by
    by_cases sender : srcRoute < numSenders
    · exact inOrder srcRoute sender
    · rw [arrivalsOf_eq_nil lt (not_lt.mp sender)]
      exact nil_prefix
  choose left split using started
  have created := nodeOk_create motionNodeId preserveOrder numSenders streamsOf
  obtain ⟨node, run, senders, ok⟩ := created.processIncomingChunks lt split
  refine ⟨node, run, ?_, ?_⟩
  · intro srcRoute _
    obtain ⟨pending, awaits, compl⟩ := (ok.senders srcRoute).awaits
    refine ⟨⟨pending, compl⟩, ?_⟩
    intro whole
    have nothing : left srcRoute = [] := by
      have sum := split srcRoute
      rwa [whole, append_right_eq_self] at sum
    rw [nothing] at awaits
    rw [awaits.ended_of_nil, append_nil] at compl
    exact compl
  · have numSendersEq : node.numSenders = numSenders := senders
    have ends (srcRoute) : left srcRoute = [] ↔ (srcRoute, endOfStreamChunk) ∈ arrivals := by
      have whole := streamsOf srcRoute
      rw [← split srcRoute] at whole
      simp [← whole.endOfStream_mem_iff, arrivalsOf]
    simp only [ok.moreNetWork, ok.ends, numSendersEq, card_endedSenders_eq, ends]

def exampleTuple : MinimalTuple := { body := [1, 0, 0, 0, 24, 0, 7], allocated := by decide }

def exampleInfo : SerTupInfo := { natts := 1, formed := exampleTuple, formed_eq := by decide }

def exampleShipments (srcRoute : Nat) : List Shipment :=
  [{ tuple := exampleTuple, buffer := ⟨true, if srcRoute = 0 then 14 else 15⟩, targetRoute := 0 }]

def exampleArrivals : List (Nat × TupleChunkListItem) :=
  [(0, ⟨.partialStart, [7, 0, 0]⟩), (1, ⟨.whole, [7, 0, 0, 0, 1, 0, 0, 0, 24, 0, 7]⟩),
    (0, ⟨.partialMid, [0, 1, 0]⟩), (0, ⟨.partialMid, [0, 0, 24]⟩), (1, endOfStreamChunk),
    (0, ⟨.partialEnd, [0, 7]⟩), (0, endOfStreamChunk)]

/-- Chunks with room for three bytes: the length word is split, and the chunks of the two
senders alternate. -/
theorem processIncomingChunks_delivers_alternating :
    ∃ node, (MotionNodeEntry.create 1 false 2 exampleInfo).processIncomingChunks
        exampleArrivals = .ok node ∧
      node.ready 0 = [exampleTuple] ∧ node.ready 1 = [exampleTuple] ∧
      node.moreNetWork = false := by
  obtain ⟨streams, ret, delivers⟩ :=
    processIncomingChunks_delivers exampleInfo 1 false 2 7 (by decide) exampleShipments
  have first : arrivalsOf 0 exampleArrivals = streams 0 := by
    apply Option.some.inj
    rw [← ret 0]
    decide
  have second : arrivalsOf 1 exampleArrivals = streams 1 := by
    apply Option.some.inj
    rw [← ret 1]
    decide
  obtain ⟨node, run, ready, more⟩ := delivers exampleArrivals (by decide) (by
    intro route sender
    have either : route = 0 ∨ route = 1 := by omega
    rcases either with rfl | rfl
    · exact first ▸ prefix_rfl
    · exact second ▸ prefix_rfl)
  exact ⟨node, run, (ready 0 (by decide)).2 first, (ready 1 (by decide)).2 second,
    more.mpr (by decide)⟩

/-- The tuple of a heap table without columns, with the flags `HEAP_XMIN_COMMITTED` and
`HEAP_XMAX_INVALID` of the page. -/
def rowWithoutAttributes : MinimalTuple :=
  { body := [0, 0, 0, 9, 24, 0], allocated := by decide }

/-- A tuple without attributes that goes into the transport buffer does not arrive byte
for byte: `TC_EMPTY` has no content, and the receiver forms a tuple without flags. -/
theorem processIncomingChunks_withoutAttributes : stream ⟨0, .withoutAttributes, fun _ => rfl⟩ 8192
        [{ tuple := rowWithoutAttributes, buffer := ⟨true, 8192⟩, targetRoute := 0 }] =
      some [⟨.empty, []⟩, endOfStreamChunk] ∧
    ∃ node, (MotionNodeEntry.create 1 true 1
        ⟨0, .withoutAttributes, fun _ => rfl⟩).processIncomingChunks
          [(0, ⟨.empty, []⟩), (0, endOfStreamChunk)] = .ok node ∧
      node.ready 0 ≠ [rowWithoutAttributes] := by
  refine ⟨by decide, _, rfl, ?_⟩
  decide

end Greengage.Motion
