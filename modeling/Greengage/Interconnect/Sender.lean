import Greengage.Interconnect.Connection
import Mathlib.Order.Basic

/-!
Contract: what the sender of a connection keeps.

Does not own: when a packet is received. The predicate `received` is a parameter
here, and a message is trusted as far as `AckOk` says.
-/

namespace Greengage.Interconnect

open Option List Nat SenderConn

universe u

variable {α : Type u}

def Numbered (prepared : List (IcPkt α)) : Prop :=
  ∀ i pkt, prepared[i]? = some pkt → pkt.seq = i + 1

namespace Numbered

variable {prep : List (IcPkt α)} {pkt : IcPkt α} (numbered : Numbered prep)
include numbered

theorem getElem?_of_mem (mem : pkt ∈ prep) : 0 < pkt.seq ∧ prep[pkt.seq - 1]? = some pkt := by
  obtain ⟨i, place⟩ := mem_iff_getElem?.mp mem
  have := numbered i pkt place
  exact ⟨by omega, by rwa [show pkt.seq - 1 = i by omega]⟩

theorem eq_of_seq {other} (mem : pkt ∈ prep) (otherMem : other ∈ prep)
    (same : pkt.seq = other.seq) : pkt = other := by
  have place := (numbered.getElem?_of_mem mem).2
  have otherPlace := (numbered.getElem?_of_mem otherMem).2
  rw [same, otherPlace] at place
  exact (some.inj place).symm

theorem seq_le (mem : pkt ∈ prep) : pkt.seq ≤ prep.length := by
  have place := numbered.getElem?_of_mem mem
  have := (List.getElem?_eq_some_iff.mp place.2).1
  omega

theorem mem_take_iff {count} (mem : pkt ∈ prep) : pkt ∈ prep.take count ↔ pkt.seq ≤ count := by
  have place := numbered.getElem?_of_mem mem
  constructor
  · intro taken
    obtain ⟨i, takenPlace⟩ := mem_iff_getElem?.mp taken
    rw [getElem?_take] at takenPlace
    split at takenPlace
    · have := numbered i pkt takenPlace
      omega
    · exact nomatch takenPlace
  · intro _
    apply mem_iff_getElem?.mpr
    exact ⟨pkt.seq - 1, by rw [getElem?_take_of_lt (by omega), place.2]⟩

theorem pairwise_lt : prep.Pairwise fun first snd => first.seq < snd.seq := by
  rw [pairwise_iff_getElem]
  intro i j iLt jLt _
  have first := numbered i _ (getElem?_eq_getElem iLt)
  have snd := numbered j _ (getElem?_eq_getElem jLt)
  omega

theorem append (next : pkt.seq = prep.length + 1) : Numbered (prep ++ [pkt]) := by
  intro i other place
  rcases Nat.lt_trichotomy i prep.length with lt | last | _
  · rw [getElem?_append_left lt] at place
    exact numbered i other place
  · subst last
    rw [getElem?_concat_length] at place
    rw [← some.inj place, next]
  · rw [getElem?_eq_none (by simp; omega)] at place
    cases place

end Numbered

def IsStatusQuery (pkt : IcPkt α) : Prop := pkt.content = [] ∧ pkt.flags.capacity = true

/-- The sender over all packets it has prepared, for a queue depth and the
packets that are received. -/
structure SenderOk (queueDepth : Nat) (prepared : List (IcPkt α)) (received : Nat → Prop)
    (conn : SenderConn α) : Prop where
  numbered : Numbered prepared
  nextSeq : conn.nextSeq = prepared.length + 1
  sent : conn.sentSeq ≤ prepared.length
  sndQueue : conn.sndQueue = prepared.drop conn.sentSeq
  unackQueue : conn.unackQueue.Sublist (prepared.take conn.sentSeq)
  wire : ∀ pkt ∈ conn.wire, IsStatusQuery pkt ∨ pkt ∈ prepared.take conn.sentSeq
  credit : conn.capacity + conn.sentSeq = queueDepth + conn.consumedSeq
  retained : ∀ pkt ∈ prepared.take conn.sentSeq, ¬ received pkt.seq → pkt ∈ conn.unackQueue

/-- The parts of the state that only `prepareXmit` and a stop request change. -/
structure SameRole (conn conn' : SenderConn α) : Prop where
  flags : conn'.flags = conn.flags
  stopRequested : conn'.stopRequested = conn.stopRequested

theorem SameRole.refl (conn : SenderConn α) : SameRole conn conn := ⟨rfl, rfl⟩

theorem SameRole.trans {first snd third : SenderConn α} (left : SameRole first snd)
    (right : SameRole snd third) : SameRole first third :=
  ⟨right.flags.trans left.flags, right.stopRequested.trans left.stopRequested⟩

/-- A message of the receiver that has consumed `consumed` packets tells the
truth about what is received. -/
inductive AckOk (received : Nat → Prop) (consumed : Nat) (pkt : IcPkt Nat) : Prop
  | capacity (nak : pkt.flags.nak = false) (stop : pkt.flags.stop = false)
      (kind : pkt.flags.capacity = true) (upTo : ∀ seq ≤ pkt.seq, received seq)
      (extra : pkt.extraSeq ≤ consumed)
  | duplicate (nak : pkt.flags.nak = false) (notCapacity : pkt.flags.capacity = false)
      (kind : pkt.flags.duplicate = true) (single : received pkt.seq)
      (upTo : ∀ seq ≤ pkt.extraSeq, received seq)
  | disorder (nak : pkt.flags.nak = false) (notCapacity : pkt.flags.capacity = false)
      (notDuplicate : pkt.flags.duplicate = false) (kind : pkt.flags.disorder = true)
      (single : received pkt.seq) (ordered : pkt.content.Pairwise (· < ·))
      (between : ∀ lost ∈ pkt.content, ∀ seq < lost, seq ∉ pkt.content → received seq)

variable {used : Nat} {pkt : IcPkt Nat}

theorem AckOk.mono {recv recv' used'} (ok : AckOk recv used pkt)
    (more : ∀ seq, recv seq → recv' seq) (le : used ≤ used') :
    AckOk recv' used' pkt := by
  cases ok with
  | capacity nak stop kind upTo extra =>
    exact .capacity nak stop kind (fun seq le => more seq (upTo seq le)) (Nat.le_trans extra le)
  | duplicate nak notCapacity kind single upTo =>
    exact .duplicate nak notCapacity kind (more _ single) fun seq le => more seq (upTo seq le)
  | disorder nak notCapacity notDuplicate kind single ord between =>
    exact .disorder nak notCapacity notDuplicate kind (more _ single) ord
      fun lost mem seq lt notIn => more seq (between lost mem seq lt notIn)

/-- One function of the sender, on the way through its loops. -/
structure SenderStep (queueDepth : Nat) (prepared : List (IcPkt α)) (received : Nat → Prop)
    (conn conn' : SenderConn α) : Prop where
  ok : SenderOk queueDepth prepared received conn'
  role : SameRole conn conn'
  consumedSeq : conn'.consumedSeq = conn.consumedSeq

section

variable {depth : Nat} {prep : List (IcPkt α)} {recv : Nat → Prop}
  {conn conn' conn'' : SenderConn α}

theorem SenderStep.refl (ok : SenderOk depth prep recv conn) :
    SenderStep depth prep recv conn conn := ⟨ok, .refl conn, rfl⟩

theorem SenderStep.trans (first : SenderStep depth prep recv conn conn')
    (snd : SenderStep depth prep recv conn' conn'') :
    SenderStep depth prep recv conn conn'' :=
  ⟨snd.ok, first.role.trans snd.role, snd.consumedSeq.trans first.consumedSeq⟩

theorem dropWhile_lt_cons {bound num : Nat} {lost more : List Nat}
    (rest : lost.dropWhile (fun other => decide (other < bound)) = num :: more) :
    ∃ pre, lost = pre ++ num :: more ∧ (∀ other ∈ pre, other < bound) ∧ bound ≤ num := by
  refine ⟨lost.takeWhile (· < bound), ?_, fun other mem => ?_, ?_⟩
  · rw [← rest, takeWhile_append_dropWhile]
  · simpa using all_eq_true.mp all_takeWhile other mem
  · have ne : lost.dropWhile (fun other => decide (other < bound)) ≠ [] := by simp [rest]
    simpa [rest] using head_dropWhile_not _ ne

section

variable (ok : SenderOk depth prep recv conn)
include ok

theorem SenderOk.mono {recv'} (more : ∀ seq, recv seq → recv' seq) :
    SenderOk depth prep recv' conn :=
  { ok with retained := fun pkt mem notYet => ok.retained pkt mem fun old =>
      notYet (more _ old) }

theorem sendOnce_step {pkt} (known : IsStatusQuery pkt ∨ pkt ∈ prep.take conn.sentSeq) :
    SenderStep depth prep recv conn (conn.sendOnce pkt) := by
  refine ⟨{ ok with wire := ?_ }, ⟨rfl, rfl⟩, rfl⟩
  exact forall_mem_append.mpr ⟨ok.wire, forall_mem_singleton.mpr known⟩

theorem SenderOk.next {buf rest} (queue : conn.sndQueue = buf :: rest) :
    prep[conn.sentSeq]? = some buf ∧ prep.drop (conn.sentSeq + 1) = rest ∧
      buf.seq = conn.sentSeq + 1 := by
  have dropEq := ok.sndQueue.symm.trans queue
  have place : prep[conn.sentSeq]? = some buf := by
    have first := congrArg head? dropEq
    rwa [head?_drop, head?_cons] at first
  refine ⟨place, ?_, ok.numbered _ _ place⟩
  rw [← tail_drop, dropEq, tail_cons]

theorem sendLoop_step (fcMethod) (congested : Nat → Bool) {queue} (cur : conn.sndQueue = queue) :
    SenderStep depth prep recv conn (sendLoop fcMethod congested queue conn) := by
  induction queue generalizing conn with
  | nil => exact .refl ok
  | cons buf rest ih =>
    rw [sendLoop]
    split
    · exact .refl ok
    rename_i credit
    split
    · exact .refl ok
    split
    · exact .refl ok
    -- The packet goes from the send queue to the unack queue and on the wire.
    obtain ⟨place, dropEq, seqEq⟩ := ok.next cur
    have lt : conn.sentSeq < prep.length := (List.getElem?_eq_some_iff.mp place).1
    have takeEq : prep.take buf.seq = prep.take conn.sentSeq ++ [buf] := by
      rw [seqEq, take_add_one, place, toList_some]
    have sentOk : SenderOk depth prep recv { ({ conn with
            sndQueue := rest
            capacity := conn.capacity - 1
            unackQueue := conn.unackQueue ++ [buf] } : SenderConn α).sendOnce buf with
          sentSeq := buf.seq } := by
      constructor
      · exact ok.numbered
      · exact ok.nextSeq
      · exact seqEq ▸ lt
      · exact seqEq ▸ dropEq.symm
      · simp only [takeEq]
        exact ok.unackQueue.append (.refl _)
      · intro pkt mem
        simp only [sendOnce, takeEq, mem_append] at mem ⊢
        rcases mem with old | new
        · exact (ok.wire pkt old).imp_right .inl
        · exact .inr (.inr new)
      · have := ok.credit
        simp only [sendOnce]
        omega
      · intro pkt mem notYet
        simp only [sendOnce, takeEq, mem_append] at mem ⊢
        exact mem.imp_left fun old => ok.retained pkt old notYet
    exact (⟨sentOk, ⟨rfl, rfl⟩, rfl⟩ : SenderStep _ _ _ conn _).trans (ih sentOk rfl)

theorem sendBuffers_step (fcMethod) (congested : Nat → Bool) :
    SenderStep depth prep recv conn (conn.sendBuffers fcMethod congested) :=
  sendLoop_step ok fcMethod congested rfl

theorem handleAckedPacket_step {buf} (isReceived : recv buf.seq) :
    SenderStep depth prep recv conn (conn.handleAckedPacket buf) := by
  refine ⟨{ ok with unackQueue := ?_, retained := ?_ }, ⟨rfl, rfl⟩, rfl⟩
  · exact eraseP_sublist.trans ok.unackQueue
  · intro pkt mem notYet
    have other : pkt.seq ≠ buf.seq := fun same => notYet (same ▸ isReceived)
    have := ok.retained pkt mem notYet
    simp only [handleAckedPacket]
    rwa [mem_eraseP_of_neg (by simpa using other)]

variable {seq : Nat}

theorem ackUpTo_step (queue) (upTo : ∀ other ≤ seq, recv other) :
    SenderStep depth prep recv conn (ackUpTo seq queue conn).1 := by
  induction queue generalizing conn with
  | nil => exact .refl ok
  | cons buf rest ih =>
    rw [ackUpTo]
    split
    · have acked := handleAckedPacket_step ok (upTo buf.seq ‹_›)
      exact acked.trans (ih acked.ok)
    · exact .refl ok

theorem ackSingle_step (queue) (single : recv seq) :
    SenderStep depth prep recv conn (ackSingle seq queue conn).1 := by
  induction queue with
  | nil => exact .refl ok
  | cons buf rest ih =>
    rw [ackSingle]
    split
    · split
      · exact handleAckedPacket_step ok (‹buf.seq = seq› ▸ single)
      · exact ih
    · exact .refl ok

theorem handleAckForDuplicatePkt_step (single : recv pkt.seq)
    (upTo : ∀ seq ≤ pkt.extraSeq, recv seq) :
    SenderStep depth prep recv conn (conn.handleAckForDuplicatePkt pkt).1 := by
  rw [handleAckForDuplicatePkt]
  split
  · exact .refl ok
  · have continuous := ackUpTo_step ok conn.unackQueue upTo
    exact continuous.trans (ackSingle_step continuous.ok _ single)

/-- The loop over the unack queue and the lost numbers. Between the packets that
are still to come and the numbers that are left, what is not lost is received. -/
theorem disorderLoop_step {queue : List (IcPkt α)} {lost : List Nat}
    (known : ∀ buf ∈ queue, buf ∈ prep.take conn.sentSeq)
    (queueOrdered : queue.Pairwise fun first snd => first.seq < snd.seq)
    (lostOrdered : lost.Pairwise (· < ·)) (single : recv seq)
    (between : ∀ buf ∈ queue, ∀ num ∈ lost, buf.seq < num → buf.seq ∉ lost → recv buf.seq) :
    SenderStep depth prep recv conn (disorderLoop seq queue lost conn).1 := by
  induction queue generalizing conn lost with
  | nil => exact .refl ok
  | cons buf rest ih =>
    obtain ⟨later, restOrdered⟩ := pairwise_cons.mp queueOrdered
    rw [disorderLoop]
    split
    · exact .refl ok
    split
    · exact handleAckedPacket_step ok (‹buf.seq = seq› ▸ single)
    split
    · exact .refl ok
    rename_i num more left
    obtain ⟨pre, rfl, passed, _⟩ := dropWhile_lt_cons left
    obtain ⟨-, leftOrdered, -⟩ := pairwise_append.mp lostOrdered
    obtain ⟨ahead, moreOrdered⟩ := pairwise_cons.mp leftOrdered
    -- No later buffer has one of the numbers that were passed over.
    have notBefore : ∀ other ∈ rest, other.seq ∉ pre := fun other mem inBefore => by
      have isLater := later other mem
      have := passed _ inBefore
      omega
    split
    · rename_i isLost
      have resent := sendOnce_step ok (.inr (known buf mem_cons_self))
      refine resent.trans (ih resent.ok
        (fun other mem => known other (.tail _ mem)) restOrdered moreOrdered ?_)
      intro other mem target inMore lt notMore
      refine between other (.tail _ mem) target (mem_append_right _ (.tail _ inMore)) lt ?_
      have isLater := later other mem
      simp only [mem_append, mem_cons, not_or]
      exact ⟨notBefore other mem, by omega, notMore⟩
    · rename_i notLost
      have isReceived : recv buf.seq := by
        refine between buf mem_cons_self num (by simp) (by omega) ?_
        simp only [mem_append, mem_cons, not_or]
        refine ⟨fun inBefore => ?_, notLost, fun inMore => ?_⟩
        · exact Nat.lt_irrefl _ (passed _ inBefore)
        · have := ahead _ inMore
          omega
      have acked := handleAckedPacket_step ok isReceived
      refine acked.trans (ih acked.ok
        (fun other mem => known other (.tail _ mem)) restOrdered leftOrdered ?_)
      intro other mem target inLeft lt notLeft
      refine between other (.tail _ mem) target (mem_append_right _ inLeft) lt ?_
      exact fun inLost => (mem_append.mp inLost).elim (notBefore other mem) notLeft

theorem handleAckForDisorderPkt_step (single : recv pkt.seq) (ord : pkt.content.Pairwise (· < ·))
    (between : ∀ lost ∈ pkt.content, ∀ seq < lost, seq ∉ pkt.content → recv seq) :
    SenderStep depth prep recv conn (conn.handleAckForDisorderPkt pkt).1 := by
  have queueOrdered := (ok.numbered.pairwise_lt.sublist (take_sublist _ _)).sublist ok.unackQueue
  rw [handleAckForDisorderPkt]
  split
  · exact ⟨{ ok with }, ⟨rfl, rfl⟩, rfl⟩
  have countedOk : SenderOk depth prep recv { conn with times := conn.times + 1 } := { ok with }
  have counted : SenderStep depth prep recv conn
      { conn with times := conn.times + 1 } := ⟨countedOk, ⟨rfl, rfl⟩, rfl⟩
  simp only
  split
  · exact counted
  · exact counted.trans (disorderLoop_step countedOk
      (fun buf mem => ok.unackQueue.subset mem) queueOrdered ord single
      fun buf _ num mem lt notIn => between num mem buf.seq lt notIn)

theorem handlePlainAck_step (noStop : pkt.flags.stop = false) (upTo : ∀ seq ≤ pkt.seq, recv seq) :
    SenderStep depth prep recv conn (conn.handlePlainAck pkt).1 := by
  rw [handlePlainAck]
  split
  · exact .refl ok
  simp only [noStop, Bool.false_and, Bool.false_eq_true, if_false]
  split
  · exact .refl ok
  split
  · exact ackUpTo_step ok _ upTo
  · exact .refl ok

/-- A message that tells the truth keeps the sender's state; only the number of
consumed packets may grow with it, up to what the message says. -/
theorem handleAck_ok (bound : conn.consumedSeq ≤ used) (ackOk : AckOk recv used pkt) :
    SenderOk depth prep recv (conn.handleAck pkt).1 ∧
      SameRole conn (conn.handleAck pkt).1 ∧ (conn.handleAck pkt).1.consumedSeq ≤ used := by
  have asStep {conn' : SenderConn α} (step : SenderStep depth prep recv conn conn') :
      SenderOk depth prep recv conn' ∧ SameRole conn conn' ∧
        conn'.consumedSeq ≤ used := ⟨step.ok, step.role, step.consumedSeq ▸ bound⟩
  cases ackOk with
  | capacity nak stop kind upTo extra =>
    rw [handleAck, if_neg (by simp [nak]), if_pos kind]
    split
    · rename_i more
      have := ok.credit
      have grownOk : SenderOk depth prep recv { conn with
          capacity := conn.capacity + (pkt.extraSeq - conn.consumedSeq)
          consumedSeq := pkt.extraSeq } := by
        refine { ok with credit := ?_ }
        simp only
        omega
      have step := handlePlainAck_step grownOk stop upTo
      exact ⟨step.ok, ⟨step.role.flags, step.role.stopRequested⟩, step.consumedSeq.trans_le extra⟩
    · exact asStep (handlePlainAck_step ok stop upTo)
  | duplicate nak notCapacity kind single upTo =>
    rw [handleAck, if_neg (by simp [nak]), if_neg (by simp [notCapacity]), if_pos kind]
    exact asStep (handleAckForDuplicatePkt_step ok single upTo)
  | disorder nak notCapacity notDuplicate kind single ord between =>
    rw [handleAck, if_neg (by simp [nak]), if_neg (by simp [notCapacity]),
      if_neg (by simp [notDuplicate]), if_pos kind]
    exact asStep (handleAckForDisorderPkt_step ok single ord between)

end

theorem handleAcks_ok (fcMethod : FcMethod) (congested : Nat → Bool) {pkts : List (IcPkt Nat)}
    (shouldSendBuffers : Bool) (ok : SenderOk depth prep recv conn)
    (bound : conn.consumedSeq ≤ used) (acksOk : ∀ pkt ∈ pkts, AckOk recv used pkt) :
    let conn' := handleAcks fcMethod congested pkts shouldSendBuffers conn
    SenderOk depth prep recv conn' ∧ SameRole conn conn' ∧ conn'.consumedSeq ≤ used := by
  induction pkts generalizing conn shouldSendBuffers with
  | nil => exact ⟨ok, .refl conn, bound⟩
  | cons pkt rest ih =>
    obtain ⟨handledOk, handledRole, handledBound⟩ :=
      handleAck_ok ok bound (acksOk pkt mem_cons_self)
    have restOk (pkt) (mem : pkt ∈ rest) : AckOk recv used pkt := acksOk pkt (.tail _ mem)
    simp only [handleAcks]
    split
    · have sent := sendBuffers_step handledOk fcMethod congested
      obtain ⟨finalOk, finalRole, finalBound⟩ := ih
        (shouldSendBuffers || (conn.handleAck pkt).2) sent.ok
        (sent.consumedSeq.trans_le handledBound) restOk
      exact ⟨finalOk, (handledRole.trans sent.role).trans finalRole, finalBound⟩
    · obtain ⟨finalOk, finalRole, finalBound⟩ := ih
        (shouldSendBuffers || (conn.handleAck pkt).2) handledOk handledBound restOk
      exact ⟨finalOk, handledRole.trans finalRole, finalBound⟩

theorem prepareXmit_ok (cid eos) (ok : SenderOk depth prep recv conn) :
    SenderOk depth (prep ++ [conn.nextPacket cid eos]) recv (conn.prepareXmit cid eos) := by
  have takeEq : (prep ++ [conn.nextPacket cid eos]).take conn.sentSeq =
      prep.take conn.sentSeq := take_append_of_le_length ok.sent
  constructor
  · exact ok.numbered.append ok.nextSeq
  · simp only [prepareXmit, length_append, length_singleton, ok.nextSeq]
  · simp only [length_append]
    exact le_add_right_of_le ok.sent
  · simp only [prepareXmit, ok.sndQueue, drop_append_of_le_length ok.sent]
  · simp only [prepareXmit, takeEq]
    exact ok.unackQueue
  · simp only [prepareXmit, takeEq]
    exact ok.wire
  · exact ok.credit
  · simp only [prepareXmit, takeEq]
    exact ok.retained

end

theorem setup_senderOk (depth) (recv : Nat → Prop) :
    SenderOk depth ([] : List (IcPkt α)) recv (.setup depth) where
  numbered _ _ place := nomatch place
  nextSeq := rfl
  sent := Nat.le_refl 0
  sndQueue := rfl
  unackQueue := .refl []
  wire _ mem := nomatch mem
  credit := rfl
  retained _ mem := nomatch mem

end Greengage.Interconnect
