import Greengage.Interconnect.Sender
import Mathlib.Data.Nat.ModEq

/-!
Contract: what the receiver of a connection keeps.

Does not own: which packets arrive. `handleDataPacket` is trusted with packets of
the sender that lie in the window.

## The window

A packet `seq` has the place `(seq - 1) % pktQCapacity`. The places are used by the
`pktQCapacity` packets behind the consumed ones, so no two of them share a place.
All of this rests on `eq_of_mod_eq`.
-/

namespace Greengage.Interconnect

open Option Function List ReceiverConn

universe u

variable {α : Type u}

theorem eq_of_mod_eq {first snd base size : Nat} (firstLow : base ≤ first)
    (firstHigh : first < base + size) (secondLow : base ≤ snd)
    (secondHigh : snd < base + size) (same : first % size = snd % size) : first = snd := by
  rcases le_total first snd with le | le
  · have dvd := (Nat.modEq_iff_dvd' le).mp same
    have zero := Nat.eq_zero_of_dvd_of_lt dvd (by omega)
    omega
  · have dvd := (Nat.modEq_iff_dvd' le).mp same.symm
    have zero := Nat.eq_zero_of_dvd_of_lt dvd (by omega)
    omega

namespace ReceiverConn

def Received (conn : ReceiverConn α) (seq : Nat) : Prop :=
  seq < conn.seq ∨ ∃ pkt, conn.pktQ ((seq - 1) % conn.pktQCapacity) = some pkt ∧ pkt.seq = seq

end ReceiverConn

/-- The receive queue over the prepared packets, after `consumed` packets were
consumed. The place behind the last continuous packet may be filled. -/
structure QueueOk (queueDepth : Nat) (prepared : List (IcPkt α)) (consumed : Nat)
    (conn : ReceiverConn α) : Prop where
  positive : 0 < queueDepth
  capacity : conn.pktQCapacity = queueDepth
  seq : conn.seq = consumed + conn.pktQSize + 1
  size : conn.pktQSize ≤ queueDepth
  head : conn.pktQHead = consumed % queueDepth
  tail : conn.pktQTail = (consumed + conn.pktQSize) % queueDepth
  known : ∀ pos pkt, conn.pktQ pos = some pkt →
    pkt ∈ prepared ∧ consumed < pkt.seq ∧ pkt.seq ≤ consumed + queueDepth ∧
      pos = (pkt.seq - 1) % queueDepth
  present : ∀ seq, consumed < seq → seq ≤ consumed + conn.pktQSize →
    ∃ pkt, conn.pktQ ((seq - 1) % queueDepth) = some pkt

structure ReceiverRole (conn : ReceiverConn α) : Prop where
  notStopped : conn.stopRequested = false
  stop : conn.flags.stop = false
  nak : conn.flags.nak = false
  disorder : conn.flags.disorder = false
  duplicate : conn.flags.duplicate = false
  capacity : conn.flags.capacity = false

structure ReceiverOk (queueDepth : Nat) (prepared : List (IcPkt α)) (consumed : Nat)
    (conn : ReceiverConn α) : Prop where
  queue : QueueOk queueDepth prepared consumed conn
  role : ReceiverRole conn
  extraSeq : conn.extraSeq = consumed
  tailEmpty : conn.pktQSize < queueDepth → conn.pktQ conn.pktQTail = none
  inactive : conn.stillActive = false → prepared.length < conn.seq
  dropped : conn.statCountDropped = 0
  acks : ∀ pkt ∈ conn.acks, AckOk conn.Received consumed pkt

/-- A step of the receiver, after which `consumed` packets are consumed. -/
structure ReceiverStep (queueDepth : Nat) (prepared : List (IcPkt α)) (consumed : Nat)
    (conn conn' : ReceiverConn α) : Prop where
  ok : ReceiverOk queueDepth prepared consumed conn'
  received : ∀ seq, conn.Received seq → conn'.Received seq
  stillActive : conn'.stillActive = conn.stillActive

section

variable {depth : Nat} {prep : List (IcPkt α)} {used : Nat}
  {conn conn' : ReceiverConn α}

variable {seq : Nat} {pkt : IcPkt α}

section

variable (ok : QueueOk depth prep used conn) (low : used < seq)
  (high : seq ≤ used + depth) (place : conn.pktQ ((seq - 1) % depth) = some pkt)
include ok low high place

theorem QueueOk.seq_of_place : pkt.seq = seq := by
  obtain ⟨-, _, _, pos⟩ := ok.known _ _ place
  have := @eq_of_mod_eq (seq - 1) (pkt.seq - 1) used depth (by omega) (by omega)
    (by omega) (by omega) pos
  omega

theorem QueueOk.received_of_place : conn.Received seq :=
  .inr ⟨pkt, by rw [ok.capacity]; exact place, ok.seq_of_place low high place⟩

end

theorem acks_append {recv acks pkt} (old : ∀ other ∈ acks, AckOk recv used other)
    (new : AckOk recv used pkt) : ∀ other ∈ acks ++ [pkt], AckOk recv used other :=
  forall_mem_append.mpr ⟨old, forall_mem_singleton.mpr new⟩

theorem sendAck_step (ok : ReceiverOk depth prep used conn) :
    ReceiverStep depth prep used conn
      (conn.sendAck conn.ackFlags (conn.seq - 1) conn.extraSeq) := by
  have := ok.queue.seq
  refine ⟨{ ok with queue := { ok.queue with }, role := { ok.role with }, acks := ?_ },
    fun _ => id, rfl⟩
  refine acks_append ok.acks (.capacity ok.role.nak ok.role.stop rfl (fun seq le => .inl ?_)
    (le_of_eq ok.extraSeq))
  simp only [sendAck] at le ⊢
  omega

theorem QueueOk.advance (ok : QueueOk depth prep used conn)
    (there : conn.pktQ conn.pktQTail = some pkt) (room : conn.pktQSize < depth) :
    QueueOk depth prep used { conn with
      pktQSize := conn.pktQSize + 1
      pktQTail := (conn.pktQTail + 1) % conn.pktQCapacity
      seq := conn.seq + 1 } := by
  refine { ok with seq := ?_, size := room, tail := ?_, present := ?_ }
  · simp only [ok.seq]
    omega
  · simp only [ok.capacity, ok.tail, Nat.mod_add_mod, add_assoc]
  · intro seq low high
    by_cases last : seq = used + conn.pktQSize + 1
    · subst last
      exact ⟨pkt, by rw [← there, ok.tail, Nat.add_sub_cancel]⟩
    · exact ok.present seq low (by simp only at high; omega)

structure TailMoved (conn conn' : ReceiverConn α) : Prop where
  pktQ : conn'.pktQ = conn.pktQ
  pktQCapacity : conn'.pktQCapacity = conn.pktQCapacity
  seq : conn.seq ≤ conn'.seq
  extraSeq : conn'.extraSeq = conn.extraSeq
  flags : conn'.flags = conn.flags
  stopRequested : conn'.stopRequested = conn.stopRequested
  stillActive : conn'.stillActive = conn.stillActive
  statCountDropped : conn'.statCountDropped = conn.statCountDropped
  acks : conn'.acks = conn.acks

theorem moveTail_ok {fuel} (ok : QueueOk depth prep used conn)
    (le : depth ≤ conn.pktQSize + fuel) : let conn' := moveTail fuel conn
    QueueOk depth prep used conn' ∧ TailMoved conn conn' ∧
      (conn'.pktQSize < depth → conn'.pktQ conn'.pktQTail = none) := by
  induction fuel generalizing conn with
  | zero =>
    exact ⟨ok, ⟨rfl, rfl, le_rfl, rfl, rfl, rfl, rfl, rfl, rfl⟩,
      fun room => absurd room (by simp only [moveTail]; omega)⟩
  | succ fuel ih =>
    simp only [moveTail]
    split
    · rename_i there
      obtain ⟨pkt, place⟩ := isSome_iff_exists.mp there.1
      have room : conn.pktQSize < depth := ok.capacity ▸ there.2
      obtain ⟨finalOk, moved, empty⟩ := ih (ok.advance place room) (by simp only; omega)
      refine ⟨finalOk, ⟨moved.pktQ, moved.pktQCapacity, ?_, moved.extraSeq, moved.flags,
        moved.stopRequested, moved.stillActive, moved.statCountDropped, moved.acks⟩, empty⟩
      exact Nat.le_of_succ_le moved.seq
    · rename_i stopped
      refine ⟨ok, ⟨rfl, rfl, le_rfl, rfl, rfl, rfl, rfl, rfl, rfl⟩, fun room => ?_⟩
      cases place : conn.pktQ conn.pktQTail with
      | none => rfl
      | some pkt => exact absurd ⟨by rw [place]; rfl, ok.capacity ▸ room⟩ stopped

/-! ### Lost packets -/

theorem lostSeqs_eq (gtZero : 0 < conn.pktQCapacity) {fuel start tailSeq count : Nat}
    (startEq : start = (tailSeq - 1) % conn.pktQCapacity) (tailPos : 0 < tailSeq)
    (low : tailSeq ≤ seq) (high : seq < tailSeq + conn.pktQCapacity)
    (le : seq ≤ tailSeq + fuel) :
    conn.lostSeqs ((seq - 1) % conn.pktQCapacity) fuel start tailSeq count =
      ((range' tailSeq (seq - tailSeq)).filter fun other =>
        (conn.pktQ ((other - 1) % conn.pktQCapacity)).isNone).take count := by
  induction fuel generalizing start tailSeq count with
  | zero =>
    have same : seq - tailSeq = 0 := by omega
    simp [lostSeqs, same]
  | succ fuel ih =>
    rw [lostSeqs]
    by_cases same : tailSeq = seq
    · subst same
      rw [if_neg (fun cont => cont.1 startEq)]
      simp
    have notPos : start ≠ (seq - 1) % conn.pktQCapacity := by
      intro pos
      have := @eq_of_mod_eq (tailSeq - 1) (seq - 1) (tailSeq - 1) conn.pktQCapacity
        (by omega) (by omega) (by omega) (by omega) (startEq ▸ pos)
      omega
    by_cases full : count = 0
    · rw [if_neg (fun cont => by omega), full]
      rfl
    have nextEq : (start + 1) % conn.pktQCapacity = (tailSeq + 1 - 1) % conn.pktQCapacity := by
      rw [startEq, Nat.mod_add_mod, Nat.sub_add_cancel tailPos, Nat.add_sub_cancel]
    have rangeEq : range' tailSeq (seq - tailSeq) =
        tailSeq :: range' (tailSeq + 1) (seq - (tailSeq + 1)) := by
      rw [show seq - tailSeq = seq - (tailSeq + 1) + 1 by omega, range'_succ]
    have rest (left) := @ih ((start + 1) % conn.pktQCapacity) (tailSeq + 1)
      left nextEq (by omega) (by omega) (by omega) (by omega)
    rw [if_pos ⟨notPos, by omega⟩, rangeEq]
    by_cases missing : conn.pktQ start = none
    · rw [if_pos missing, filter_cons_of_pos (by rw [← startEq, missing]; rfl),
        show count = count - 1 + 1 by omega, take_succ_cons, Nat.add_sub_cancel]
      exact congrArg _ (rest (count - 1))
    · rw [if_neg missing, filter_cons_of_neg]
      · exact rest count
      · rw [← startEq]
        simpa using missing

theorem mem_of_lt_take {numbers : List Nat} {count first snd : Nat}
    (ord : numbers.Pairwise (· < ·)) (mem : first ∈ numbers)
    (taken : snd ∈ numbers.take count) (lt : first < snd) : first ∈ numbers.take count := by
  rw [← take_append_drop count numbers] at ord mem
  rcases mem_append.mp mem with inTake | inDrop
  · exact inTake
  · have gt := (pairwise_append.mp ord).2.2 snd taken first inDrop
    omega

section

variable (ok : QueueOk depth prep used conn) (low : conn.seq ≤ pkt.seq)
  (high : pkt.seq ≤ used + depth)
include ok low high

theorem disorder_ackOk (role : ReceiverRole conn) (isReceived : conn.Received pkt.seq) :
    AckOk conn.Received used ⟨{ conn.flags with disorder := true }, pkt.seq, conn.seq - 1,
      conn.lostSeqs ((pkt.seq - 1) % conn.pktQCapacity) conn.pktQCapacity conn.pktQTail conn.seq
        maxSeqsInDisorderAck⟩ := by
  have pos := ok.positive
  have seqEq := ok.seq
  have lostEq := @lostSeqs_eq α conn pkt.seq (ok.capacity ▸ pos) conn.pktQCapacity
    conn.pktQTail conn.seq maxSeqsInDisorderAck
    (by rw [ok.tail, ok.capacity, seqEq, Nat.add_sub_cancel]) (by omega) low
    (by rw [ok.capacity]; omega) (by rw [ok.capacity]; omega)
  rw [lostEq]
  have ord : ((range' conn.seq (pkt.seq - conn.seq)).filter fun other =>
      (conn.pktQ ((other - 1) % conn.pktQCapacity)).isNone).Pairwise (· < ·) :=
    (pairwise_lt_range' 1).filter _
  refine .disorder role.nak role.capacity role.duplicate rfl isReceived
    (ord.sublist (take_sublist _ _)) ?_
  intro _ isLost seq lt notLost
  -- A number before a reported one that is not reported itself is not missing.
  by_cases old : seq < conn.seq
  · exact .inl old
  have := mem_range'_1.mp (mem_filter.mp (mem_of_mem_take isLost)).1
  have inRange : seq ∈ range' conn.seq (pkt.seq - conn.seq) :=
    mem_range'_1.mpr ⟨by omega, by omega⟩
  cases place : conn.pktQ ((seq - 1) % conn.pktQCapacity) with
  | none =>
    have missing : seq ∈ (range' conn.seq (pkt.seq - conn.seq)).filter fun other =>
        (conn.pktQ ((other - 1) % conn.pktQCapacity)).isNone :=
      mem_filter.mpr ⟨inRange, by rw [place]; rfl⟩
    exact absurd (mem_of_lt_take ord missing isLost lt) notLost
  | some other =>
    rw [ok.capacity] at place
    exact ok.received_of_place (by omega) (by omega) place

/-! ### Storing a packet -/

theorem QueueOk.put (mem : pkt ∈ prep) : QueueOk depth prep used { conn with
      pktQ := update conn.pktQ ((pkt.seq - 1) % conn.pktQCapacity) (some pkt) } := by
  have := ok.seq
  refine { ok with known := ?_, present := ?_ }
  · intro pos other place
    simp only [ok.capacity, update_apply] at place
    split at place
    · rename_i here
      cases place
      exact ⟨mem, by omega, high, here⟩
    · exact ok.known pos other place
  · intro seq seqLow seqHigh
    simp only [update_apply]
    split
    · exact ⟨pkt, rfl⟩
    · exact ok.present seq seqLow seqHigh

end

theorem received_put {pos} (empty : conn.pktQ pos = none) (old : conn.Received seq) :
    ({ conn with pktQ := update conn.pktQ pos (some pkt) } : ReceiverConn α).Received seq := by
  rcases old with pre | ⟨other, place, seqEq⟩
  · exact .inl pre
  · refine .inr ⟨other, ?_, seqEq⟩
    simp only
    rw [update_of_ne, place]
    rintro rfl
    rw [empty] at place
    exact nomatch place

theorem TailMoved.received (moved : TailMoved conn conn') (old : conn.Received seq) :
    conn'.Received seq := by
  rcases old with pre | _
  · exact .inl (lt_of_lt_of_le pre moved.seq)
  · right
    rwa [moved.pktQ, moved.pktQCapacity]

theorem setEos_step (ok : ReceiverOk depth prep used conn) (last : Bool) :
    ReceiverStep depth prep used conn
      (if last then { conn with flags := { conn.flags with eos := true } } else conn) := by
  split
  · exact ⟨{ ok with queue := { ok.queue with }, role := { ok.role with }, acks := ok.acks },
      fun _ => id, rfl⟩
  · exact ⟨ok, fun _ => id, rfl⟩

theorem moveTail_receiverOk {put} (ok : QueueOk depth prep used put) (role : ReceiverRole put)
    (extraSeq : put.extraSeq = used) (active : put.stillActive)
    (dropped : put.statCountDropped = 0) (acks : ∀ ack ∈ put.acks,
      AckOk put.Received used ack) :
    ReceiverOk depth prep used (moveTail put.pktQCapacity put) ∧
      TailMoved put (moveTail put.pktQCapacity put) := by
  obtain ⟨movedOk, moved, empty⟩ := @moveTail_ok α depth prep used put
    put.pktQCapacity ok (by rw [ok.capacity]; omega)
  refine ⟨?_, moved⟩
  constructor
  · exact movedOk
  · exact ⟨moved.stopRequested.trans role.notStopped, moved.flags ▸ role.stop,
      moved.flags ▸ role.nak, moved.flags ▸ role.disorder, moved.flags ▸ role.duplicate,
      moved.flags ▸ role.capacity⟩
  · exact moved.extraSeq.trans extraSeq
  · exact empty
  · intro inactive
    rw [moved.stillActive, active] at inactive
    exact nomatch inactive
  · exact moved.statCountDropped.trans dropped
  · intro ack sent
    exact (acks ack (moved.acks ▸ sent)).mono (fun _ old => moved.received old) le_rfl

section

variable (ok : ReceiverOk depth prep used conn)
include ok

theorem storePacket_step (mem : pkt ∈ prep) (active : conn.stillActive)
    (low : conn.seq ≤ pkt.seq) (high : pkt.seq ≤ used + depth)
    (empty : conn.pktQ ((pkt.seq - 1) % conn.pktQCapacity) = none) :
    ReceiverStep depth prep used conn (conn.storePacket pkt) := by
  have := ok.queue.seq
  have putOk := ok.queue.put low high mem
  have putReceived := fun seq => @received_put α conn seq pkt _ empty
  have putAcks (ack) (sent : ack ∈ conn.acks) : AckOk _ used ack := (ok.acks ack sent).mono putReceived le_rfl
  simp only [storePacket]
  split
  · -- The packet closes the gap at the tail.
    obtain ⟨movedOk, moved⟩ := moveTail_receiverOk putOk { ok.role with } ok.extraSeq active
      ok.dropped putAcks
    refine ⟨(sendAck_step (setEos_step movedOk _).ok).ok, fun seq old => ?_, ?_⟩
    · exact (setEos_step movedOk _).received seq (moved.received (putReceived seq old))
    · exact (setEos_step movedOk _).stillActive.trans moved.stillActive
  · -- There are packets missing before this one.
    rename_i notTail
    have tailSeq : conn.seq - conn.pktQSize + conn.pktQSize = conn.seq := by omega
    have isReceived : Received { conn with
        pktQ := update conn.pktQ ((pkt.seq - 1) % conn.pktQCapacity) (some pkt) }
        pkt.seq := .inr ⟨pkt, update_self .., rfl⟩
    have msg := disorder_ackOk putOk low high { ok.role with } isReceived
    refine ⟨?_, fun seq old => putReceived seq old, rfl⟩
    simp only [handleDisorderPacket, tailSeq]
    refine { ok with
      queue := { putOk with }, role := { ok.role with }, tailEmpty := ?_,
      acks := acks_append putAcks msg }
    intro room
    simp only
    rw [update_of_ne (symm notTail)]
    exact ok.tailEmpty room

/-! ### The functions of the receiver -/

/-- A packet of the sender that lies in the window is handled, and is not one too
many for the queue. -/
theorem handleDataPacket_step (numbered : Numbered prep) (mem : pkt ∈ prep)
    (window : pkt.seq ≤ used + depth) (noStop : pkt.flags.stop = false)
    (noCapacity : pkt.flags.capacity = false) :
    ReceiverStep depth prep used conn (conn.handleDataPacket pkt) := by
  have := ok.queue.seq
  have := numbered.seq_le mem
  rw [handleDataPacket, if_neg (by simp [noCapacity]), if_neg (by simp [noStop]),
    if_neg (by simp [ok.role.notStopped])]
  split
  · exact sendAck_step ok
  rename_i notOld
  -- An inactive receiver has all packets.
  rw [if_neg (fun inactive => absurd (ok.inactive inactive) (by omega))]
  -- The window leaves room in the queue.
  rw [if_neg (by rw [ok.queue.capacity]; omega)]
  have active : conn.stillActive := by
    cases eq : conn.stillActive with
    | true => rfl
    | false => exact absurd (ok.inactive eq) (by omega)
  split
  · exact storePacket_step ok mem active (not_lt.mp notOld) window ‹_›
  · rename_i there
    obtain ⟨_, place⟩ := ne_none_iff_exists'.mp there
    rw [ok.queue.capacity] at place
    have isReceived := ok.queue.received_of_place (by omega) window place
    refine ⟨{ ok with queue := { ok.queue with }, role := { ok.role with }, acks := ?_ },
      fun _ => id, rfl⟩
    refine acks_append ok.acks (.duplicate ok.role.nak ok.role.capacity rfl isReceived ?_)
    intro seq le
    refine .inl ?_
    simp only [sendAck] at le ⊢
    omega

theorem handleStatusQuery_step (query : IsStatusQuery pkt) :
    ReceiverStep depth prep used conn (conn.handleDataPacket pkt) := by
  have answer : conn.handleDataPacket pkt =
      conn.sendAck conn.ackFlags (conn.seq - 1) conn.extraSeq := by
    rw [handleDataPacket, if_pos ⟨query.1, query.2⟩, ok.role.notStopped]
    rfl
  rw [answer]
  exact sendAck_step ok

end

/-- The queue without the packet at its head. -/
abbrev ReceiverConn.taken (conn : ReceiverConn α) (extraSeq : Nat) : ReceiverConn α :=
  { conn with
    pktQ := update conn.pktQ conn.pktQHead none
    pktQHead := (conn.pktQHead + 1) % conn.pktQCapacity
    pktQSize := conn.pktQSize - 1
    extraSeq }

section

variable (ok : QueueOk depth prep used conn) (held : 0 < conn.pktQSize)
include ok held

theorem QueueOk.take (extraSeq) : QueueOk depth prep (used + 1) (conn.taken extraSeq) := by
  have := ok.seq
  have := ok.size
  constructor
  · exact ok.positive
  · exact ok.capacity
  · simp only
    omega
  · simp only
    omega
  · simp only [ok.head, ok.capacity, Nat.mod_add_mod]
  · simp only [ok.tail, show used + 1 + (conn.pktQSize - 1) = used + conn.pktQSize by omega]
  · intro pos pkt place
    simp only [update_apply] at place
    split at place
    · exact nomatch place
    rename_i notHead
    obtain ⟨mem, low, high, posEq⟩ := ok.known pos pkt place
    refine ⟨mem, ?_, by omega, posEq⟩
    -- The place of the packet behind the consumed ones is the head.
    by_contra small
    have first : pkt.seq = used + 1 := by omega
    rw [first, Nat.add_sub_cancel, ← ok.head] at posEq
    exact notHead posEq
  · intro seq low high
    obtain ⟨pkt, place⟩ := ok.present seq (by omega) (by simp only at high; omega)
    refine ⟨pkt, ?_⟩
    simp only
    rw [update_of_ne, place]
    intro isHead
    rw [ok.head] at isHead
    have := @eq_of_mod_eq (seq - 1) used used depth (by omega)
      (by simp only at high; omega) le_rfl (by omega) isHead
    omega

theorem received_take {extraSeq : Nat} (old : conn.Received seq) :
    (conn.taken extraSeq).Received seq := by
  rcases old with pre | ⟨pkt, place, seqEq⟩
  · exact .inl pre
  by_cases isHead : (seq - 1) % conn.pktQCapacity = conn.pktQHead
  · -- The packet at the head is one of the continuous ones.
    left
    obtain ⟨-, _, _, -⟩ := ok.known _ _ place
    rw [ok.head, ok.capacity] at isHead
    have := @eq_of_mod_eq (seq - 1) used used depth (by omega) (by omega)
      le_rfl (Nat.lt_add_of_pos_right ok.positive) isHead
    have := ok.seq
    simp only
    omega
  · exact .inr ⟨pkt, by simp only; rw [update_of_ne isHead, place], seqEq⟩

end

section

variable (ok : ReceiverOk depth prep used conn)
include ok

/-- What lies at the head is the packet behind the consumed ones, and one of the
continuous packets. -/
theorem ReceiverOk.head (place : conn.pktQ conn.pktQHead = some pkt) :
    pkt.seq = used + 1 ∧ 0 < conn.pktQSize := by
  have := ok.queue.positive
  constructor
  · apply ok.queue.seq_of_place (Nat.lt_add_one _) (by omega)
    rwa [Nat.add_sub_cancel, ← ok.queue.head]
  · -- An empty queue has nothing at its head.
    by_contra empty
    have zero : conn.pktQSize = 0 := by omega
    have none := ok.tailEmpty (by omega)
    rw [ok.queue.tail, zero, add_zero, ← ok.queue.head, place] at none
    exact nomatch none

theorem putRxBufferAndSendAck_step {buf} (taken : conn.putRxBufferAndSendAck = some (conn', buf)) :
    buf ∈ prep ∧ buf.seq = used + 1 ∧ ReceiverStep depth prep (used + 1) conn conn' := by
  simp only [putRxBufferAndSendAck, map_eq_some_iff] at taken
  obtain ⟨pkt, place, res⟩ := taken
  obtain ⟨pktSeq, held⟩ := ok.head place
  have takenOk : ReceiverOk depth prep (used + 1) (conn.taken pkt.seq) := by
    refine ⟨ok.queue.take held _, { ok.role with }, pktSeq, ?_, ok.inactive, ok.dropped, ?_⟩
    · intro _
      simp only [update_apply]
      split
      · rfl
      rename_i notHead
      apply ok.tailEmpty
      have := ok.queue.size
      by_contra full
      have isFull : conn.pktQSize = depth := by omega
      rw [ok.queue.tail, isFull, Nat.add_mod_right, ← ok.queue.head] at notHead
      exact notHead rfl
    · intro ack sent
      exact (ok.acks ack sent).mono (fun _ old => received_take ok.queue held old) (Nat.le_succ _)
  have takenReceived := fun seq => @received_take α depth prep used conn seq ok.queue
    held pkt.seq
  have bufMember := (ok.queue.known _ _ place).1
  split at res
  · cases res
    exact ⟨bufMember, pktSeq, (sendAck_step takenOk).ok, fun seq old => takenReceived seq old, rfl⟩
  · cases res
    exact ⟨bufMember, pktSeq, takenOk, fun seq old => takenReceived seq old, rfl⟩

theorem ReceiverOk.prepare (active : conn.stillActive) :
    ReceiverOk depth (prep ++ [pkt]) used conn := by
  refine { ok with queue := { ok.queue with known := ?_ }, inactive := ?_ }
  · intro pos other place
    obtain ⟨mem, rest⟩ := ok.queue.known pos other place
    exact ⟨mem_append_left _ mem, rest⟩
  · intro inactive
    rw [active] at inactive
    exact nomatch inactive

theorem markInactive_ok (all : prep.length < conn.seq) :
    ReceiverOk depth prep used conn.markInactive :=
  { ok with queue := { ok.queue with }, role := { ok.role with }, inactive := fun _ => all }

end

end

theorem setup_receiverOk {depth} (pos : 0 < depth) :
    ReceiverOk depth ([] : List (IcPkt α)) 0 (.setup depth) := by
  constructor
  · exact ⟨pos, rfl, rfl, Nat.zero_le _, (Nat.zero_mod _).symm, (Nat.zero_mod _).symm,
      fun _ _ place => (nomatch place), fun _ low high => absurd high (not_le.mpr low)⟩
  · exact ⟨rfl, rfl, rfl, rfl, rfl, rfl⟩
  · rfl
  · exact fun _ => rfl
  · exact fun inactive => nomatch inactive
  · rfl
  · exact fun _ mem => nomatch mem

end Greengage.Interconnect
