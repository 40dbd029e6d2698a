import Greengage.Foundations.Transition
import Greengage.Interconnect.Receiver

/-!
Contract: a connection over a network that loses, repeats and reorders packets.

Does not own: stop requests, and progress. A run may stop anywhere.

## The network

Whatever was handed to a socket may arrive at any later time, any number of
times, or never. So nothing is ever taken from `wire` and `acks`.
-/

namespace Greengage.Interconnect

open List Greengage.Foundations Option

universe u

/-- One connection, with the packets prepared and consumed so far. -/
structure System (α : Type u) where
  sender : SenderConn α
  receiver : ReceiverConn α
  prepared : List (IcPkt α)
  consumed : List (IcPkt α)

/-- What may happen next. Indices are those of `wire`, `acks` and the unack queue. -/
inductive Event (α : Type u)
  | prepare (content : List α) (eos : Bool)
  | sendBuffers (congested : Nat → Bool)
  | retransmit (index : Nat)
  | statusQuery
  | otherConnection (lastSeq times : Nat)
  | eosSent
  | handleAcks (indices : List Nat) (congested : Nat → Bool)
  | handleDataPacket (index : Nat)
  | consume
  | readEos

variable {α : Type u}

namespace System

def start (queueDepth : Nat) : System α := ⟨.setup queueDepth, .setup queueDepth, [], []⟩

/-- The reader has the end of the stream: it is in the packet at the head of the
queue or in the one consumed last. -/
def eosRead (sys : System α) : Bool :=
  (sys.receiver.pktQ sys.receiver.pktQHead).any (fun pkt => pkt.flags.eos) ||
    sys.consumed.getLast?.any (fun pkt => pkt.flags.eos)

/-- One event. The packet with the end of the stream is the last one prepared. -/
def step (fcMethod : FcMethod) (sys : System α) : Event α → Option (System α)
  | .prepare content eos =>
    if sys.sender.flags.eos then none
    else some { sys with
      sender := sys.sender.prepareXmit content eos
      prepared := sys.prepared ++ [sys.sender.nextPacket content eos] }
  | .sendBuffers congested =>
    some { sys with sender := sys.sender.sendBuffers fcMethod congested }
  | .retransmit index =>
    sys.sender.unackQueue[index]?.map fun buf => { sys with sender := sys.sender.sendOnce buf }
  | .statusQuery =>
    if sys.sender.unackQueue = [] ∧ sys.sender.capacity = 0 ∧ sys.sender.sndQueue ≠ [] then
      some { sys with sender := sys.sender.sendStatusQueryMessage }
    else none
  | .otherConnection lastSeq times =>
    some { sys with sender := { sys.sender with lastSeq := lastSeq, times := times } }
  | .eosSent =>
    if sys.sender.flags.eos ∧ sys.sender.unackQueue = [] ∧ sys.sender.sndQueue = [] then
      some { sys with sender := { sys.sender with stillActive := false } }
    else none
  | .handleAcks indices congested =>
    let pkts := indices.filterMap fun index => sys.receiver.acks[index]?
    some { sys with sender := SenderConn.handleAcks fcMethod congested pkts false sys.sender }
  | .handleDataPacket index =>
    sys.sender.wire[index]?.map fun pkt =>
      { sys with receiver := sys.receiver.handleDataPacket pkt }
  | .consume =>
    sys.receiver.putRxBufferAndSendAck.map fun (receiver, pkt) =>
      { sys with receiver := receiver, consumed := sys.consumed ++ [pkt] }
  | .readEos =>
    if sys.eosRead then some { sys with receiver := sys.receiver.markInactive } else none

end System

structure SystemOk (queueDepth : Nat) (sys : System α) : Prop where
  sender : SenderOk queueDepth sys.prepared sys.receiver.Received sys.sender
  receiver : ReceiverOk queueDepth sys.prepared sys.consumed.length sys.receiver
  consumedSeq : sys.sender.consumedSeq ≤ sys.consumed.length
  consumed : sys.consumed = sys.prepared.take sys.consumed.length
  flags : sys.sender.flags.stop = false ∧ sys.sender.flags.capacity = false
  prepared : ∀ pkt ∈ sys.prepared, pkt.flags.stop = false ∧ pkt.flags.capacity = false
  eosLast : ∀ pkt ∈ sys.prepared, pkt.flags.eos = true →
    sys.sender.flags.eos = true ∧ pkt.seq = sys.prepared.length
  inactive : sys.receiver.stillActive = false → sys.sender.flags.eos = true

section

variable {depth : Nat} {fcMethod : FcMethod} {sys after : System α}

theorem start_ok (pos : 0 < depth) : SystemOk depth (System.start depth : System α) where
  sender := setup_senderOk depth _
  receiver := setup_receiverOk pos
  consumedSeq := le_refl 0
  consumed := rfl
  flags := ⟨rfl, rfl⟩
  prepared _ mem := nomatch mem
  eosLast _ mem := nomatch mem
  inactive inactive := nomatch inactive

section

variable (ok : SystemOk depth sys)
include ok

variable {sender : SenderConn α}

theorem SystemOk.ofSender (senderOk : SenderOk depth sys.prepared sys.receiver.Received sender)
    (role : SameRole sys.sender sender) (consumedSeq : sender.consumedSeq ≤ sys.consumed.length) :
    SystemOk depth { sys with sender := sender } :=
  { ok with
    sender := senderOk
    consumedSeq := consumedSeq
    flags := role.flags ▸ ok.flags
    eosLast pkt mem eos := by
      simp only [role.flags]
      exact ok.eosLast pkt mem eos
    inactive inactive := by
      simp only [role.flags]
      exact ok.inactive inactive }

theorem SystemOk.ofSenderStep
    (step : SenderStep depth sys.prepared sys.receiver.Received sys.sender sender) :
    SystemOk depth { sys with sender := sender } :=
  ok.ofSender step.ok step.role (step.consumedSeq.trans_le ok.consumedSeq)

theorem prepare_ok {cid eos} (more : sys.sender.flags.eos = false) : SystemOk depth { sys with
      sender := sys.sender.prepareXmit cid eos
      prepared := sys.prepared ++ [sys.sender.nextPacket cid eos] } := by
  have active : sys.receiver.stillActive := by
    cases eq : sys.receiver.stillActive with
    | true => rfl
    | false => exact absurd (ok.inactive eq) (by simp [more])
  have within : sys.consumed.length ≤ sys.prepared.length := by
    have taken := congrArg length ok.consumed
    rw [length_take] at taken
    omega
  constructor
  · exact prepareXmit_ok cid eos ok.sender
  · exact ok.receiver.prepare active
  · exact ok.consumedSeq
  · simp only [take_append_of_le_length within]
    exact ok.consumed
  · exact ok.flags
  · exact forall_mem_append.mpr ⟨ok.prepared, forall_mem_singleton.mpr ok.flags⟩
  · intro pkt mem isEos
    rcases mem_append.mp mem with old | new
    · exact absurd (ok.eosLast pkt old isEos).1 (by simp [more])
    · obtain rfl := mem_singleton.mp new
      refine ⟨isEos, ?_⟩
      simp only [SenderConn.nextPacket, ok.sender.nextSeq, length_append, length_singleton]
  · intro inactive
    rw [active] at inactive
    exact nomatch inactive

variable {pkt : IcPkt α}

theorem SystemOk.window (sent : pkt ∈ sys.prepared.take sys.sender.sentSeq) :
    pkt ∈ sys.prepared ∧ pkt.seq ≤ sys.consumed.length + depth := by
  have mem := mem_of_mem_take sent
  have := (ok.sender.numbered.mem_take_iff mem).mp sent
  have := ok.sender.credit
  have := ok.consumedSeq
  exact ⟨mem, by omega⟩

variable {receiver : ReceiverConn α}

theorem SystemOk.ofReceiverStep
    (step : ReceiverStep depth sys.prepared sys.consumed.length sys.receiver receiver) :
    SystemOk depth { sys with receiver := receiver } :=
  { ok with
    receiver := step.ok
    sender := ok.sender.mono step.received
    inactive inactive := ok.inactive (step.stillActive.symm.trans inactive) }

theorem handleDataPacket_ok (sent : pkt ∈ sys.sender.wire) :
    SystemOk depth { sys with receiver := sys.receiver.handleDataPacket pkt } := by
  rcases ok.sender.wire pkt sent with query | data
  · exact ok.ofReceiverStep (handleStatusQuery_step ok.receiver query)
  · obtain ⟨mem, window⟩ := ok.window data
    obtain ⟨noStop, noCapacity⟩ := ok.prepared pkt mem
    exact ok.ofReceiverStep
      (handleDataPacket_step ok.receiver ok.sender.numbered mem window noStop noCapacity)

theorem consume_ok (taken : sys.receiver.putRxBufferAndSendAck = some (receiver, pkt)) :
    SystemOk depth { sys with receiver := receiver, consumed := sys.consumed ++ [pkt] } := by
  obtain ⟨mem, seqEq, step⟩ := putRxBufferAndSendAck_step ok.receiver taken
  have place := (ok.sender.numbered.getElem?_of_mem mem).2
  rw [seqEq, Nat.add_sub_cancel] at place
  have lengthEq : (sys.consumed ++ [pkt]).length = sys.consumed.length + 1 := by simp
  refine { ok with
    sender := ok.sender.mono step.received
    receiver := ?_, consumedSeq := ?_, consumed := ?_
    inactive inactive := ok.inactive (step.stillActive.symm.trans inactive) }
  · simp only [lengthEq]
    exact step.ok
  · simp only [lengthEq]
    exact Nat.le_succ_of_le ok.consumedSeq
  · simp only [lengthEq]
    rw [take_add_one, place, toList_some, ← ok.consumed]

theorem readEos_ok (eos : sys.eosRead) :
    SystemOk depth { sys with receiver := sys.receiver.markInactive } := by
  have := ok.receiver.queue.seq
  have found : ∃ pkt ∈ sys.prepared, pkt.flags.eos = true ∧ pkt.seq < sys.receiver.seq := by
    rcases Bool.or_eq_true_iff.mp eos with atHead | last
    · obtain ⟨pkt, place, isEos⟩ := (Option.any_eq_true ..).mp atHead
      obtain ⟨_, _⟩ := ok.receiver.head place
      exact ⟨pkt, (ok.receiver.queue.known _ _ place).1, isEos, by omega⟩
    · obtain ⟨pkt, place, isEos⟩ := (Option.any_eq_true ..).mp last
      have taken := mem_of_getLast? place
      rw [ok.consumed] at taken
      have mem := mem_of_mem_take taken
      have small := (ok.sender.numbered.mem_take_iff mem).mp taken
      exact ⟨pkt, mem, isEos, by omega⟩
  obtain ⟨pkt, mem, isEos, small⟩ := found
  obtain ⟨senderEos, lengthEq⟩ := ok.eosLast pkt mem isEos
  have all : sys.prepared.length < sys.receiver.seq := lengthEq ▸ small
  exact { ok with
    receiver := markInactive_ok ok.receiver all
    sender := ok.sender
    inactive _ := senderEos }

theorem step_ok {event} (taken : sys.step fcMethod event = some after) : SystemOk depth after := by
  cases event with
  | prepare cid eos =>
    simp only [System.step] at taken
    split at taken
    · exact nomatch taken
    · rename_i more
      cases taken
      exact prepare_ok ok (by simpa using more)
  | sendBuffers congested =>
    cases taken
    exact ok.ofSenderStep (sendBuffers_step ok.sender fcMethod congested)
  | retransmit index =>
    obtain ⟨_, place, rfl⟩ := map_eq_some_iff.mp taken
    have queued := ok.sender.unackQueue.subset (mem_of_getElem? place)
    exact ok.ofSenderStep (sendOnce_step ok.sender (.inr queued))
  | statusQuery =>
    simp only [System.step] at taken
    split at taken
    · cases taken
      exact ok.ofSenderStep (sendOnce_step ok.sender (.inl ⟨rfl, rfl⟩))
    · exact nomatch taken
  | otherConnection lastSeq times =>
    cases taken
    exact ok.ofSender { ok.sender with } ⟨rfl, rfl⟩ ok.consumedSeq
  | eosSent =>
    simp only [System.step] at taken
    split at taken
    · cases taken
      exact ok.ofSender { ok.sender with } ⟨rfl, rfl⟩ ok.consumedSeq
    · exact nomatch taken
  | handleAcks indices congested =>
    cases taken
    have acksOk : ∀ pkt ∈ indices.filterMap fun index => sys.receiver.acks[index]?,
        AckOk sys.receiver.Received sys.consumed.length pkt := fun pkt mem => by
      obtain ⟨index, -, place⟩ := mem_filterMap.mp mem
      exact ok.receiver.acks pkt (mem_of_getElem? place)
    obtain ⟨senderOk, role, bound⟩ := handleAcks_ok fcMethod congested false ok.sender
      ok.consumedSeq acksOk
    exact ok.ofSender senderOk role bound
  | handleDataPacket index =>
    obtain ⟨pkt, place, rfl⟩ := map_eq_some_iff.mp taken
    exact handleDataPacket_ok ok (mem_of_getElem? place)
  | consume =>
    obtain ⟨⟨receiver, pkt⟩, recv, rfl⟩ := map_eq_some_iff.mp taken
    exact consume_ok ok recv
  | readEos =>
    simp only [System.step] at taken
    split at taken
    · cases taken
      exact readEos_ok ok ‹_›
    · exact nomatch taken

end

theorem reachable_ok (pos : 0 < depth)
    (reach : Reachable (System.step fcMethod) (System.start depth) sys) : SystemOk depth sys :=
  reach.invariant (start_ok pos) fun _ _ _ ok taken => step_ok ok taken

theorem SystemOk.held (ok : SystemOk depth sys) {pkt} (mem : pkt ∈ sys.prepared)
    (isReceived : sys.receiver.Received pkt.seq) :
    pkt ∈ sys.consumed ∨ ∃ pos < depth, sys.receiver.pktQ pos = some pkt := by
  have numbered := ok.sender.numbered
  have queue := ok.receiver.queue
  have := queue.seq
  by_cases old : pkt.seq ≤ sys.consumed.length
  · left
    rw [ok.consumed]
    exact (numbered.mem_take_iff mem).mpr old
  right
  obtain ⟨other, place, same⟩ : ∃ other,
      sys.receiver.pktQ ((pkt.seq - 1) % depth) = some other ∧ other.seq = pkt.seq := by
    rcases isReceived with _ | ⟨other, place, same⟩
    · obtain ⟨other, place⟩ := queue.present pkt.seq (by omega) (by omega)
      have := queue.size
      exact ⟨other, place, queue.seq_of_place (by omega) (by omega) place⟩
    · exact ⟨other, by rwa [queue.capacity] at place, same⟩
  have otherMem := (queue.known _ _ place).1
  obtain rfl := numbered.eq_of_seq otherMem mem same
  exact ⟨_, Nat.mod_lt _ queue.positive, place⟩

end

/-- In every run the consumed packets are the first ones prepared, in order and
with their content, and a packet that the receiver neither consumed nor holds is
in a queue of the sender. -/
theorem reachable_delivers {queueDepth : Nat} (positive : 0 < queueDepth) (fcMethod : FcMethod)
    (sys : System α)
    (reached : Reachable (System.step fcMethod) (System.start queueDepth) sys) :
    sys.consumed.map (·.seq) = List.range' 1 sys.consumed.length ∧ sys.consumed <+: sys.prepared ∧
      ∀ pkt ∈ sys.prepared,
        (pkt ∈ sys.consumed ∨ ∃ pos < queueDepth, sys.receiver.pktQ pos = some pkt) ∨
          pkt ∈ sys.sender.sndQueue ∨ pkt ∈ sys.sender.unackQueue := by
  have ok := reachable_ok positive reached
  have isPrefix : sys.consumed <+: sys.prepared := by
    rw [ok.consumed]
    exact take_prefix _ _
  refine ⟨?_, isPrefix, fun pkt mem => ?_⟩
  · apply ext_getElem (by simp)
    intro i left right
    rw [length_map] at left
    have place := prefix_iff_getElem?.mp isPrefix i left
    rw [getElem_map, getElem_range', ok.sender.numbered i _ place]
    omega
  · by_cases unsent : sys.sender.sentSeq < pkt.seq
    · -- The send queue has what was not sent yet.
      right; left
      have place := ok.sender.numbered.getElem?_of_mem mem
      rw [ok.sender.sndQueue]
      apply mem_iff_getElem?.mpr
      exact ⟨pkt.seq - 1 - sys.sender.sentSeq, by
        rw [getElem?_drop, Nat.add_sub_cancel' (by omega), place.2]⟩
    · have sent := (ok.sender.numbered.mem_take_iff mem).mpr (not_lt.mp unsent)
      by_cases isReceived : sys.receiver.Received pkt.seq
      · exact .inl (ok.held mem isReceived)
      · exact .inr (.inr (ok.sender.retained pkt sent isReceived))

/-- A run with three packets and a queue of two. The first packet is sent twice
and arrives twice, the third arrives before the second. -/
def lossyRun : List (Event Nat) :=
  [.prepare [10] false, .prepare [20] false, .prepare [30] true, .sendBuffers fun _ => false,
    .retransmit 0, .handleDataPacket 1, .consume, .handleDataPacket 0,
    .handleAcks [1] fun _ => false, .handleDataPacket 3, .retransmit 0, .handleDataPacket 4,
    .consume, .handleAcks [0, 3, 2] fun _ => true]

theorem reachable_delivers_lossyRun :
    ∃ sys : System Nat, Reachable (System.step .loss) (System.start 2) sys ∧
      (sys.consumed.map (·.content), sys.sender.unackQueue.map (·.seq)) = ([[10], [20]], []) ∧
      sys.consumed <+: sys.prepared := by
  obtain ⟨sys, reach, view⟩ := @Reachable.exists_of_run _ _ (System.step .loss)
    (System.start 2) lossyRun _
    (fun sys => (sys.consumed.map (·.content), sys.sender.unackQueue.map (·.seq)))
    ([[10], [20]], []) (by decide +kernel)
  exact ⟨sys, reach, view, (reachable_delivers (by decide) .loss sys reach).2.1⟩

/-- In every run the sender's account is right, its capacity is never too large,
and no packet arrives at a full queue. -/
theorem reachable_flowControl {queueDepth : Nat} (positive : 0 < queueDepth)
    (fcMethod : FcMethod) (sys : System α)
    (reached : Reachable (System.step fcMethod) (System.start queueDepth) sys) :
    sys.sender.capacity + sys.sender.sentSeq = queueDepth + sys.sender.consumedSeq ∧
      sys.sender.consumedSeq ≤ sys.consumed.length ∧
      sys.sender.sentSeq ≤ sys.consumed.length + queueDepth ∧
      sys.receiver.statCountDropped = 0 ∧
      ∀ pkt ∈ sys.sender.wire, (sys.receiver.handleDataPacket pkt).statCountDropped = 0 := by
  have ok := reachable_ok positive reached
  have account := ok.sender.credit
  have bound := ok.consumedSeq
  refine ⟨account, bound, by omega, ok.receiver.dropped, fun pkt sent => ?_⟩
  exact (handleDataPacket_ok ok sent).receiver.dropped

theorem reachable_flowControl_lossyRun :
    ∃ sys : System Nat, Reachable (System.step .capacity) (System.start 2) sys ∧
      (sys.sender.capacity, sys.sender.sentSeq, sys.consumed.length) = (0, 3, 2) ∧
      sys.receiver.statCountDropped = 0 := by
  obtain ⟨sys, reach, view⟩ := @Reachable.exists_of_run _ _ (System.step .capacity)
    (System.start 2) lossyRun _
    (fun sys => (sys.sender.capacity, sys.sender.sentSeq, sys.consumed.length)) (0, 3, 2)
    (by decide +kernel)
  exact ⟨sys, reach, view, (reachable_flowControl (by decide) .capacity sys reach).2.2.2.1⟩

end Greengage.Interconnect
