import Mathlib.Algebra.Group.Action.Defs
import Mathlib.Algebra.Order.BigOperators.Group.List
import Mathlib.Data.List.Induction
import Mathlib.Tactic.Ring
import Greengage.Foundations.Transition

/-!
Contract: flow control of one logical connection between two proxies.

Owns: the model of the sending client (its output buffer, its count of packets without an
acknowledgement, pause and resume) and of the receiving client (the writes to its backend and the
acknowledgements), the invariant over all runs, and for which packets of the backend the sender is
never left paused.

Does not own: closing. Neither side sends BYE, and no write fails. The transport is a queue in
each direction, and only the lengths of the packets matter. The packets of the other direction
have counters of their own.

## The two counts

The sender counts the packets of its backend before they are merged, the receiver counts and
acknowledges the merged ones. What the buffer has merged or still holds is therefore never
acknowledged, and the sender's count keeps it for good.
-/

namespace Greengage.Proxy

open Option List Foundations

/-- `IC_PROXY_TRESHOLD_UNACK_PACKET_PAUSE` -/
def pauseThreshold : Nat := 100

/-- `IC_PROXY_TRESHOLD_UNACK_PACKET_RESUME` -/
def resumeThreshold : Nat := 30

/-- `IC_PROXY_ACK_INTERVAL` -/
def ackInterval : Nat := 10

/-- `sizeof(ICProxyPkt)` -/
def pktHeaderSize : Nat := 36

/-- `PACKET_HEADER_SIZE`, of a packet from the backend. -/
def packetHeaderSize : Nat := 4

/-- `Gp_max_packet_size`. The size of a buffer fits into its 16 bits. -/
structure Limits where
  gpMaxPacketSize : Nat
  fits : gpMaxPacketSize + pktHeaderSize < 2 ^ 16

/-- `IC_PROXY_MAX_PKT_SIZE` -/
def Limits.maxPktSize (limits : Limits) : Nat := limits.gpMaxPacketSize + pktHeaderSize

structure Packet (limits : Limits) where
  size : Nat
  header_le : packetHeaderSize ≤ size
  size_le : size ≤ limits.gpMaxPacketSize
  deriving DecidableEq

def Limits.readCapacity (limits : Limits) : Nat := 1 + (limits.maxPktSize - 1) / packetHeaderSize

/-! ### The connection -/

/-- `ic_proxy_obuf_push`: the packet that is passed on, if any, and the length of the buffer
afterwards. The data of a packet always fits into an empty buffer. -/
def obufPush (limits : Limits) (len size : Nat) : Option Nat × Nat :=
  if size = 0 ∨ limits.maxPktSize < size + len then
    if len = pktHeaderSize then (none, len + size) else (some len, pktHeaderSize + size)
  else (none, len + size)

structure Connection (limits : Limits) where
  /-- What the backend of the sender has still to send. -/
  backend : List (Packet limits)
  unackSendPkt : Int
  paused : Bool
  /-- The length of the buffer, with the header. -/
  obuf : Nat
  /-- Data packets that are routed and not delivered. -/
  network : List Nat
  /-- Data packets that are being written to the receiving backend. -/
  unconsumed : Nat
  unackRecvPkt : Nat
  /-- Acknowledgements that are not delivered. -/
  acks : Nat
  /-- The packets that the sender has read, and the numbers of data packets routed and written.
  No step reads these. -/
  accepted : List (Packet limits)
  routed : Nat
  written : Nat

variable {limits : Limits}

def Connection.start (packets : List (Packet limits)) : Connection limits :=
  ⟨packets, 0, false, pktHeaderSize, [], 0, 0, 0, [], 0, 0⟩

/-- `ic_proxy_client_maybe_pause` -/
def Connection.maybePause (connection : Connection limits) : Connection limits :=
  if pauseThreshold ≤ connection.unackSendPkt ∧ !connection.paused then
    { connection with paused := true }
  else connection

/-- `ic_proxy_client_maybe_resume` -/
def Connection.maybeResume (connection : Connection limits) : Connection limits :=
  if connection.unackSendPkt ≤ resumeThreshold ∧ connection.paused then
    { connection with paused := false }
  else connection

/-- `ic_proxy_client_maybe_send_ack_message` -/
def Connection.maybeSendAckMessage (connection : Connection limits) : Connection limits :=
  if ackInterval ≤ connection.unackRecvPkt then
    { connection with
      unackRecvPkt := connection.unackRecvPkt - ackInterval, acks := connection.acks + 1 }
  else connection

def Connection.push (connection : Connection limits) (packet : Packet limits) : Connection limits :=
  let pushed := obufPush limits connection.obuf packet.size
  { connection with
    obuf := pushed.2
    network := connection.network ++ pushed.1.toList
    accepted := connection.accepted ++ [packet]
    routed := connection.routed + pushed.1.toList.length }

/-- `ic_proxy_client_on_c2p_data_pkt` -/
def Connection.onC2pDataPkt (connection : Connection limits) (packet : Packet limits) :
    Connection limits :=
  ({ connection with unackSendPkt := connection.unackSendPkt + 1 }.maybePause).push packet

/-- `ic_proxy_client_on_c2p_data`: a read of at most the size of a buffer that completes some
packets. Of the first one only the last byte need be in it. -/
def Connection.onC2pData (connection : Connection limits) (count : Nat) :
    Option (Connection limits) :=
  let group := connection.backend.take count
  if connection.paused = false ∧ 0 < count ∧ count ≤ connection.backend.length ∧
      ((group.drop 1).map Packet.size).sum < limits.maxPktSize then
    some (group.foldl Connection.onC2pDataPkt
      { connection with backend := connection.backend.drop count })
  else none

/-- `ic_proxy_client_on_p2c_data`, for data: the write to the backend is started. -/
def Connection.onP2cData (connection : Connection limits) : Option (Connection limits) :=
  match connection.network with
  | [] => none
  | _ :: rest =>
    some { connection with network := rest, unconsumed := connection.unconsumed + 1 }

/-- `ic_proxy_client_on_sent_p2c_data` -/
def Connection.onSentP2cData (connection : Connection limits) : Option (Connection limits) :=
  if 0 < connection.unconsumed then
    some { connection with
      unconsumed := connection.unconsumed - 1
      unackRecvPkt := connection.unackRecvPkt + 1
      written := connection.written + 1 }.maybeSendAckMessage
  else none

/-- `ic_proxy_client_on_p2c_message`, for an acknowledgement. -/
def Connection.onAck (connection : Connection limits) : Option (Connection limits) :=
  if 0 < connection.acks then
    some { connection with
      acks := connection.acks - 1
      unackSendPkt := connection.unackSendPkt - ackInterval }.maybeResume
  else none

inductive Event where
  | read (count : Nat)
  | deliver
  | written
  | ack
  deriving DecidableEq

def step (connection : Connection limits) : Event → Option (Connection limits)
  | .read count => connection.onC2pData count
  | .deliver => connection.onP2cData
  | .written => connection.onSentP2cData
  | .ack => connection.onAck

/-- All data packets are written and all acknowledgements delivered. -/
structure Connection.Settled (connection : Connection limits) : Prop where
  delivered : connection.network = []
  consumed : connection.unconsumed = 0
  acknowledged : connection.acks = 0

def Connection.Stranded (connection : Connection limits) : Prop :=
  connection.paused = true

def NeverStrands (packets : List (Packet limits)) : Prop :=
  ∀ connection, Reachable step (.start packets) connection → connection.Settled →
    ¬connection.Stranded

def pushed (packets : List (Packet limits)) : Nat × Nat :=
  packets.foldl (fun (routed, len) packet =>
    (routed + (obufPush limits len packet.size).1.toList.length,
      (obufPush limits len packet.size).2)) (0, pktHeaderSize)

def routedOf (packets : List (Packet limits)) : Nat := (pushed packets).1

theorem pushed_concat (pkts : List (Packet limits)) (packet) : pushed (pkts ++ [packet]) =
      ((pushed pkts).1 + (obufPush limits (pushed pkts).2 packet.size).1.toList.length,
        (obufPush limits (pushed pkts).2 packet.size).2) := by
  rw [pushed, foldl_append]
  rfl

theorem routedOf_concat_le (pkts : List (Packet limits)) (packet) :
    routedOf pkts ≤ routedOf (pkts ++ [packet]) ∧
      routedOf (pkts ++ [packet]) ≤ routedOf pkts + 1 := by
  have atMostOne : ∀ option : Option Nat, option.toList.length ≤ 1 := by
    intro option
    cases option <;> simp
  have := atMostOne (obufPush limits (pushed pkts).2 packet.size).1
  simp only [routedOf, pushed_concat]
  omega

theorem routedOf_le_length (pkts : List (Packet limits)) : routedOf pkts ≤ pkts.length := by
  induction pkts using reverseRecOn with
  | nil => exact Nat.zero_le _
  | append_singleton pkts packet ih =>
    have := (routedOf_concat_le pkts packet).2
    rw [length_append, length_singleton]
    omega

/-! ### The invariant -/

/-- The counters, and that the sender was paused after enough packets. -/
structure Inv (packets : List (Packet limits)) (connection : Connection limits) : Prop where
  input : connection.accepted ++ connection.backend = packets
  buffer : (connection.routed, connection.obuf) = pushed connection.accepted
  onTheWay : connection.routed =
    connection.network.length + connection.unconsumed + connection.written
  received : connection.unackRecvPkt = connection.written % ackInterval
  sentAcks : connection.acks ≤ connection.written / ackInterval
  unacked : connection.unackSendPkt = connection.accepted.length -
    ackInterval * (connection.written / ackInterval) + ackInterval * connection.acks
  running : connection.paused = false → connection.unackSendPkt < pauseThreshold
  pausedAbove : connection.paused = true → resumeThreshold < connection.unackSendPkt ∧
    connection.unackSendPkt < pauseThreshold + limits.readCapacity
  pausedAfter : connection.paused = true → pauseThreshold ≤ connection.accepted.length

variable {packets pkts : List (Packet limits)} {conn : Connection limits}

open Connection

section

variable {after : Connection limits}

theorem inv_start (pkts : List (Packet limits)) : Inv pkts (.start pkts) := by
  constructor <;> simp [start, pushed, pauseThreshold]

/-- In the middle of a read that began in a state without pause. -/
structure Reading (before : Connection limits) (done : List (Packet limits))
    (connection : Connection limits) : Prop where
  accepted : connection.accepted = before.accepted ++ done
  backend : connection.backend = before.backend
  unackSendPkt : connection.unackSendPkt = before.unackSendPkt + done.length
  paused : connection.paused = true ↔ (pauseThreshold : Int) ≤ before.unackSendPkt + done.length
  buffer : (connection.routed, connection.obuf) = pushed connection.accepted
  onTheWay : connection.routed =
    connection.network.length + connection.unconsumed + connection.written
  receiver : connection.unconsumed = before.unconsumed ∧
    connection.unackRecvPkt = before.unackRecvPkt ∧ connection.acks = before.acks ∧
      connection.written = before.written

variable {before pre : Connection limits} {done : List (Packet limits)}

theorem Reading.packet (reading : Reading pre done conn) (packet) :
    Reading pre (done ++ [packet]) (conn.onC2pDataPkt packet) := by
  have paused : (conn.onC2pDataPkt packet).paused = true ↔
      conn.paused = true ∨ (pauseThreshold : Int) ≤ conn.unackSendPkt + 1 := by
    unfold onC2pDataPkt maybePause push
    split_ifs with reached
    · simp [reached.1]
    · cases isPaused : conn.paused <;> simp_all
  have rest : (conn.onC2pDataPkt packet).accepted = conn.accepted ++ [packet] ∧
      (conn.onC2pDataPkt packet).backend = conn.backend ∧
      (conn.onC2pDataPkt packet).unackSendPkt = conn.unackSendPkt + 1 ∧
      (conn.onC2pDataPkt packet).obuf = (obufPush limits conn.obuf packet.size).2 ∧
      (conn.onC2pDataPkt packet).routed = conn.routed +
        (obufPush limits conn.obuf packet.size).1.toList.length ∧
      (conn.onC2pDataPkt packet).network = conn.network ++
        (obufPush limits conn.obuf packet.size).1.toList ∧
      (conn.onC2pDataPkt packet).unconsumed = conn.unconsumed ∧
      (conn.onC2pDataPkt packet).unackRecvPkt = conn.unackRecvPkt ∧
      (conn.onC2pDataPkt packet).acks = conn.acks ∧
      (conn.onC2pDataPkt packet).written = conn.written := by
    unfold onC2pDataPkt maybePause push
    split_ifs <;> simp
  obtain ⟨acc, backend, unack, obuf, routed, network, unconsumed, recv, acks, written⟩ := rest
  obtain ⟨sameUnconsumed, sameRecv, sameAcks, sameWritten⟩ := reading.receiver
  have buffer := reading.buffer
  constructor
  · rw [acc, reading.accepted, append_assoc]
  · rw [backend, reading.backend]
  · rw [unack, reading.unackSendPkt, length_append, length_singleton]
    omega
  · rw [paused, reading.paused, reading.unackSendPkt, length_append, length_singleton]
    omega
  · rw [acc, pushed_concat, routed, obuf, ← buffer]
  · rw [routed, network, unconsumed, written, length_append, reading.onTheWay]
    omega
  · exact ⟨unconsumed.trans sameUnconsumed, recv.trans sameRecv, acks.trans sameAcks,
      written.trans sameWritten⟩

theorem Reading.foldl (rest) (reading : Reading pre done conn) :
    Reading pre (done ++ rest) (rest.foldl onC2pDataPkt conn) := by
  induction rest generalizing done conn with
  | nil => simpa using reading
  | cons packet rest ih =>
    have later := ih (reading.packet packet)
    rwa [append_assoc, singleton_append] at later

theorem length_le_readCapacity {group : List (Packet limits)} (ne : 0 < group.length)
    (bytes : ((group.drop 1).map Packet.size).sum < limits.maxPktSize) :
    group.length ≤ limits.readCapacity := by
  have each : (group.drop 1).length * packetHeaderSize ≤ ((group.drop 1).map Packet.size).sum := by
    have := card_nsmul_le_sum ((group.drop 1).map Packet.size) packetHeaderSize (by
      intro size mem
      obtain ⟨packet, -, rfl⟩ := mem_map.mp mem
      exact packet.header_le)
    rwa [length_map, smul_eq_mul] at this
  rw [length_drop] at each
  have divided : group.length - 1 ≤ (limits.maxPktSize - 1) / packetHeaderSize := by
    rw [Nat.le_div_iff_mul_le (by decide)]
    omega
  unfold Limits.readCapacity
  omega

section

variable (inv : Inv pkts conn)
include inv

theorem reading_of_onC2pData {count} (taken : conn.onC2pData count = some after) :
    conn.paused = false ∧ 0 < count ∧ count ≤ conn.backend.length ∧
      (((conn.backend.take count).drop 1).map Packet.size).sum < limits.maxPktSize ∧
      Reading { conn with backend := conn.backend.drop count } (conn.backend.take count) after := by
  obtain ⟨⟨running, pos, le, bytes⟩, rfl⟩ := guard_eq_some taken
  refine ⟨running, pos, le, bytes, ?_⟩
  have start : Reading { conn with backend := conn.backend.drop count } []
      { conn with backend := conn.backend.drop count } := by
    have below := inv.running running
    refine ⟨by simp, rfl, by simp, ?_, inv.buffer, inv.onTheWay, rfl, rfl, rfl, rfl⟩
    simpa [running] using below
  simpa using start.foldl (conn.backend.take count)

theorem inv_read {count : Nat} (taken : conn.onC2pData count = some after) : Inv pkts after := by
  obtain ⟨running, _, le, bytes, reading⟩ := reading_of_onC2pData inv taken
  obtain ⟨acc, backend, unack, paused, buffer, onTheWay, unconsumed, recv, acks, written⟩ :=
    reading
  dsimp only at acc backend unack paused unconsumed recv acks written
  have := inv.running running
  have unacked := inv.unacked
  have sentAcks := inv.sentAcks
  have len : (conn.backend.take count).length = count := by simpa using le
  have := length_le_readCapacity (by omega) bytes
  constructor
  · rw [acc, backend, append_assoc, take_append_drop, inv.input]
  · exact buffer
  · exact onTheWay
  · rw [recv, written, inv.received]
  · rw [acks, written]
    exact sentAcks
  · rw [unack, acc, length_append, len, written, acks, unacked]
    omega
  · intro stillRunning
    rw [← Bool.not_eq_true, paused] at stillRunning
    omega
  · intro isPaused
    have reached := paused.mp isPaused
    unfold pauseThreshold resumeThreshold at *
    omega
  · intro isPaused
    have reached := paused.mp isPaused
    rw [acc, length_append, len]
    unfold ackInterval at *
    omega

theorem inv_deliver (taken : conn.onP2cData = some after) : Inv pkts after := by
  unfold onP2cData at taken
  split at taken
  · cases taken
  · rename_i first rest isNetwork
    cases taken
    have onTheWay := inv.onTheWay
    rw [isNetwork, length_cons] at onTheWay
    exact { inv with onTheWay := by dsimp only; omega }

theorem inv_written (taken : conn.onSentP2cData = some after) : Inv pkts after := by
  have onTheWay := inv.onTheWay
  have := inv.received
  have sentAcks := inv.sentAcks
  have unacked := inv.unacked
  unfold onSentP2cData maybeSendAckMessage at taken
  obtain ⟨_, rfl⟩ := guard_eq_some taken
  dsimp only
  unfold ackInterval at *
  split_ifs
  all_goals exact { inv with
    onTheWay := by dsimp only; omega
    received := by dsimp only [ackInterval]; omega
    sentAcks := by dsimp only [ackInterval]; omega
    unacked := by dsimp only [ackInterval]; omega }

theorem inv_ack (taken : conn.onAck = some after) : Inv pkts after := by
  have sentAcks := inv.sentAcks
  have unacked := inv.unacked
  have running := inv.running
  have pausedAbove := inv.pausedAbove
  unfold onAck maybeResume at taken
  obtain ⟨_, rfl⟩ := guard_eq_some taken
  dsimp only
  unfold resumeThreshold pauseThreshold ackInterval at *
  split_ifs with low
  · exact { inv with
      sentAcks := by dsimp only [ackInterval]; omega
      unacked := by dsimp only [ackInterval]; omega
      running := by dsimp only [pauseThreshold]; omega
      pausedAbove isPaused := by cases isPaused
      pausedAfter isPaused := by cases isPaused }
  · exact { inv with
      sentAcks := by dsimp only [ackInterval]; omega
      unacked := by dsimp only [ackInterval]; omega
      running isRunning := by
        have := running isRunning
        dsimp only [pauseThreshold]
        omega
      pausedAbove isPaused := by
        have := pausedAbove isPaused
        have above : ¬conn.unackSendPkt - 10 ≤ 30 := fun le => low ⟨le, isPaused⟩
        dsimp only [resumeThreshold, pauseThreshold]
        omega }

end

theorem inv_of_reachable (reached : Reachable step (.start pkts) conn) : Inv pkts conn := by
  apply reached.invariant (inv_start pkts)
  intro _ event _ inv taken
  cases event with
  | read count => exact inv_read inv taken
  | deliver => exact inv_deliver inv taken
  | written => exact inv_written inv taken
  | ack => exact inv_ack inv taken

end

/-! ### When the sender is never stranded -/

/-- Wherever the sender can be paused, the data packets that were passed on are enough for the
acknowledgements to bring its count down again. -/
def KeepsUp (packets : List (Packet limits)) : Prop :=
  ∀ count, pauseThreshold ≤ count → count ≤ packets.length →
    count ≤ resumeThreshold + ackInterval * (routedOf (packets.take count) / ackInterval)

section

theorem neverStrands_of_keepsUp (keepsUp : KeepsUp pkts) : NeverStrands pkts := by
  intro conn reached settled stranded
  have inv := inv_of_reachable reached
  have late := inv.pausedAfter stranded
  obtain ⟨_, -⟩ := inv.pausedAbove stranded
  have isPrefix : pkts.take conn.accepted.length = conn.accepted := by
    rw [← inv.input, take_left]
  have len : conn.accepted.length ≤ pkts.length := by
    rw [← inv.input, length_append]
    omega
  have := keepsUp conn.accepted.length late len
  have routed : routedOf (pkts.take conn.accepted.length) = conn.routed := by
    rw [isPrefix, routedOf, ← inv.buffer]
  have onTheWay := inv.onTheWay
  have unacked := inv.unacked
  rw [settled.delivered, settled.consumed, length_nil] at onTheWay
  rw [settled.acknowledged] at unacked
  unfold resumeThreshold ackInterval at *
  omega

/-- A state with the same sender, and all data packets written. -/
structure Drained (connection after : Connection limits) : Prop where
  delivered : after.network = []
  consumed : after.unconsumed = 0
  accepted : after.accepted = connection.accepted
  backend : after.backend = connection.backend
  unackSendPkt : after.unackSendPkt = connection.unackSendPkt
  paused : after.paused = connection.paused

section

variable (reached : Reachable step (.start pkts) conn)
include reached

theorem exists_written (pending : 0 < conn.unconsumed) :
    ∃ after, Reachable step (.start pkts) after ∧
      after.unconsumed + 1 = conn.unconsumed ∧ after.network = conn.network ∧
      after.accepted = conn.accepted ∧ after.backend = conn.backend ∧
      after.unackSendPkt = conn.unackSendPkt ∧ after.paused = conn.paused := by
  refine ⟨_, reached.next .written (if_pos pending), ?_⟩
  unfold maybeSendAckMessage
  split_ifs <;> simp <;> omega

theorem exists_delivered (pending : conn.network ≠ []) :
    ∃ after, Reachable step (.start pkts) after ∧ after.unconsumed = conn.unconsumed + 1 ∧
      after.network.length + 1 = conn.network.length ∧
      after.accepted = conn.accepted ∧ after.backend = conn.backend ∧
      after.unackSendPkt = conn.unackSendPkt ∧ after.paused = conn.paused := by
  obtain ⟨_, rest, isNetwork⟩ := exists_cons_of_ne_nil pending
  have taken : step conn .deliver = some { conn with
      network := rest, unconsumed := conn.unconsumed + 1 } := by
    simp only [step, onP2cData, isNetwork]
  exact ⟨_, reached.next .deliver taken, rfl, by simp [isNetwork], rfl, rfl, rfl, rfl⟩

theorem exists_drained : ∃ after, Reachable step (.start pkts) after ∧ Drained conn after := by
  induction work : 2 * conn.network.length + conn.unconsumed using Nat.strong_induction_on
    generalizing conn with
  | _ work ih =>
    by_cases used : conn.unconsumed = 0
    · by_cases delivered : conn.network = []
      · exact ⟨conn, reached, delivered, used, rfl, rfl, rfl, rfl⟩
      · obtain ⟨next, reachedNext, unconsumed, network, acc, backend, unack, paused⟩ :=
          exists_delivered reached delivered
        obtain ⟨after, reachedAfter, drained⟩ := ih _ (by omega) reachedNext rfl
        exact ⟨after, reachedAfter, drained.delivered, drained.consumed,
          drained.accepted.trans acc, drained.backend.trans backend,
          drained.unackSendPkt.trans unack, drained.paused.trans paused⟩
    · obtain ⟨next, reachedNext, unconsumed, network, acc, backend, unack, paused⟩ :=
        exists_written reached (pos_of_ne_zero used)
      obtain ⟨after, reachedAfter, drained⟩ := ih _ (by rw [network]; omega) reachedNext rfl
      exact ⟨after, reachedAfter, drained.delivered, drained.consumed,
        drained.accepted.trans acc, drained.backend.trans backend,
        drained.unackSendPkt.trans unack, drained.paused.trans paused⟩

theorem exists_ack (pending : 0 < conn.acks) :
    ∃ after, Reachable step (.start pkts) after ∧ after.acks + 1 = conn.acks ∧
      after.network = conn.network ∧ after.unconsumed = conn.unconsumed ∧
      after.accepted = conn.accepted ∧ after.backend = conn.backend ∧
      after.unackSendPkt = conn.unackSendPkt - ackInterval ∧
      (after.paused = true ↔
        conn.paused = true ∧ (resumeThreshold : Int) < after.unackSendPkt) := by
  refine ⟨_, reached.next .ack (if_pos pending), ?_⟩
  unfold maybeResume
  split_ifs with low
  · simp only [true_and, false_iff, not_and, not_lt]
    exact ⟨by omega, fun _ => low.1⟩
  · cases isPaused : conn.paused <;> simp_all <;> omega

/-- With the acknowledgements that are on the way the count stays above the threshold, so the
sender stays paused. -/
theorem exists_settled (delivered : conn.network = []) (used : conn.unconsumed = 0)
    (paused : conn.paused) (above : resumeThreshold < conn.unackSendPkt - ackInterval * conn.acks) :
    ∃ after, Reachable step (.start pkts) after ∧ after.Settled ∧ after.Stranded := by
  induction pending : conn.acks generalizing conn with
  | zero => exact ⟨conn, reached, ⟨delivered, used, pending⟩, paused⟩
  | succ rest ih =>
    obtain ⟨next, reachedNext, acks, network, unconsumed, -, -, _, stillPaused⟩ :=
      exists_ack reached (by omega)
    have isRest : next.acks = rest := by omega
    unfold ackInterval resumeThreshold at *
    apply ih reachedNext (network.trans delivered) (unconsumed.trans used)
      (stillPaused.mpr ⟨paused, by omega⟩) (by omega) isRest

theorem exists_read (running : conn.paused = false) (count) (pos : 0 < count)
    (le : count ≤ conn.backend.length)
    (bytes : (((conn.backend.take count).drop 1).map Packet.size).sum < limits.maxPktSize) :
    ∃ after, Reachable step (.start pkts) after ∧
      after.accepted = conn.accepted ++ conn.backend.take count ∧
      after.unackSendPkt = conn.unackSendPkt + count ∧
      (after.paused = true ↔ (pauseThreshold : Int) ≤ conn.unackSendPkt + count) := by
  have taken : step conn (.read count) = some _ :=
    if_pos ⟨running, pos, le, bytes⟩
  obtain ⟨-, -, -, -, reading⟩ := reading_of_onC2pData (inv_of_reachable reached) taken
  have len : (conn.backend.take count).length = count := by simpa using le
  have unack := reading.unackSendPkt
  have paused := reading.paused
  rw [len] at unack paused
  exact ⟨_, reached.next (.read count) taken, reading.accepted, unack, paused⟩

end

/-- The number of acknowledgements that the slow run has taken: the last moment at which the
sender is not paused. -/
def slowAcks (count : Nat) : Nat := (count - 90) / 10

/-- The slow run, up to a packet before which the sender keeps up. -/
structure Slow (packets : List (Packet limits)) (count : Nat) (connection : Connection limits) :
    Prop where
  reached : Reachable step (.start packets) connection
  accepted : connection.accepted = packets.take count
  running : connection.paused = false
  drained : connection.network = [] ∧ connection.unconsumed = 0
  unackSendPkt : connection.unackSendPkt = count - 10 * slowAcks count

variable {count : Nat}

theorem Slow.backend (slow : Slow pkts count conn) : conn.backend = pkts.drop count := by
  have input := (inv_of_reachable slow.reached).input
  rw [slow.accepted] at input
  exact append_cancel_left (input.trans (take_append_drop count pkts).symm)

theorem Slow.acks (slow : Slow pkts count conn) (le : count ≤ pkts.length) :
    conn.acks + slowAcks count = routedOf (pkts.take count) / ackInterval := by
  have inv := inv_of_reachable slow.reached
  have unacked := inv.unacked
  have onTheWay := inv.onTheWay
  have routed : routedOf (pkts.take count) = conn.routed := by
    rw [← slow.accepted, routedOf, ← inv.buffer]
  rw [slow.unackSendPkt, slow.accepted, length_take_of_le le] at unacked
  rw [slow.drained.1, slow.drained.2, length_nil] at onTheWay
  unfold ackInterval at *
  omega

theorem Slow.next (slow : Slow pkts count conn) (lt : count < pkts.length)
    (keptUp : ackInterval ∣ count + 1 → pauseThreshold ≤ count + 1 → count + 1 ≤
      resumeThreshold + ackInterval * (routedOf (pkts.take (count + 1)) / ackInterval)) :
    ∃ after, Slow pkts (count + 1) after := by
  have ready : ∃ mid, Reachable step (.start pkts) mid ∧
      mid.accepted = pkts.take count ∧ mid.backend = pkts.drop count ∧
      mid.paused = false ∧ mid.unackSendPkt + 1 = (count + 1 : Nat) - 10 * slowAcks (count + 1) := by
    by_cases full : slowAcks (count + 1) = slowAcks count
    · exact ⟨conn, slow.reached, slow.accepted, slow.backend, slow.running, by
        rw [slow.unackSendPkt, full]
        omega⟩
    · have acks := slow.acks lt.le
      have monotone := routedOf_concat_le (pkts.take count) pkts[count]
      rw [take_append_getElem lt] at monotone
      have available : 0 < conn.acks := by
        unfold slowAcks ackInterval pauseThreshold resumeThreshold at *
        omega
      obtain ⟨mid, reached, -, -, -, acc, backend, unack, paused⟩ :=
        exists_ack slow.reached available
      refine ⟨mid, reached, acc.trans slow.accepted, backend.trans slow.backend, ?_, ?_⟩
      · rw [← Bool.not_eq_true, paused, slow.running]
        simp
      · rw [unack, slow.unackSendPkt]
        unfold slowAcks ackInterval at *
        omega
  obtain ⟨mid, reached, acc, backend, running, unack⟩ := ready
  obtain ⟨_, reachedRead, acceptedRead, unackRead, pausedRead⟩ :=
    exists_read reached running 1 one_pos (by rw [backend, length_drop]; omega) (by
      simp [Limits.maxPktSize, pktHeaderSize])
  obtain ⟨after, reachedAfter, drained⟩ := exists_drained reachedRead
  refine ⟨after, reachedAfter, ?_, ?_, ⟨drained.delivered, drained.consumed⟩, ?_⟩
  · rw [drained.accepted, acceptedRead, acc, backend, ← take_add]
  · rw [drained.paused, ← Bool.not_eq_true, pausedRead]
    unfold slowAcks pauseThreshold at *
    omega
  · rw [drained.unackSendPkt, unackRead]
    exact unack

theorem exists_slow (pkts : List (Packet limits)) (count : Nat) (le : count ≤ pkts.length)
    (keptUp : ∀ pre ≤ count, ackInterval ∣ pre → pauseThreshold ≤ pre → pre ≤
      resumeThreshold + ackInterval * (routedOf (pkts.take pre) / ackInterval)) :
    ∃ conn, Slow pkts count conn := by
  induction count with
  | zero => exact ⟨.start pkts, .start, by simp [start], rfl, ⟨rfl, rfl⟩, rfl⟩
  | succ count ih =>
    obtain ⟨conn, slow⟩ := ih (by omega) fun pre le => keptUp pre (by omega)
    exact slow.next (by omega) (keptUp (count + 1) le_rfl)

/-- One packet more than the sender needs to be paused fits into the same read. -/
theorem sum_size_lt {group : List (Packet limits)} (few : group.length ≤ 1) :
    (group.map Packet.size).sum < limits.maxPktSize := by
  match group with
  | [] => simp [Limits.maxPktSize, pktHeaderSize]
  | [packet] =>
    have := packet.size_le
    simp only [map_singleton, sum_singleton, Limits.maxPktSize, pktHeaderSize]
    omega

theorem keepsUp_of_neverStrands (never : NeverStrands pkts) : KeepsUp pkts := by
  intro count
  induction count using Nat.strong_induction_on with
  | _ count ih =>
    intro late le
    by_contra behind
    -- Between multiples of the interval the bound cannot be passed for the first time.
    have ⟨pre, atPause, upTo, after⟩ : ∃ pre, pauseThreshold ≤ pre ∧ pre ≤ count ∧
        count ≤ pre + 1 ∧ ackInterval ∣ pre := by
      rcases eq_or_lt_of_le late with first | later
      · exact ⟨count, late, le_rfl, by omega, first ▸ by decide⟩
      · refine ⟨count - 1, by omega, by omega, by omega, ?_⟩
        have kept := ih (count - 1) (by omega) (by omega) (by omega)
        have monotone := (routedOf_concat_le (pkts.take (count - 1)) pkts[count - 1]).1
        rw [take_append_getElem, Nat.sub_add_cancel (by omega)] at monotone
        unfold resumeThreshold ackInterval pauseThreshold at *
        omega
    have pos : 0 < pre := by
      unfold pauseThreshold at atPause
      omega
    obtain ⟨conn, slow⟩ := exists_slow pkts (pre - 1) (by omega) fun old _ _ lateEarlier =>
      ih old (by omega) lateEarlier (by omega)
    obtain ⟨_, reachedRead, acceptedRead, _, pausedRead⟩ :=
      exists_read slow.reached slow.running (count - (pre - 1)) (by omega)
        (by rw [slow.backend, length_drop]; omega)
        (sum_size_lt (by rw [length_drop, length_take]; omega))
    obtain ⟨after, reachedAfter, drained⟩ := exists_drained reachedRead
    have inv := inv_of_reachable reachedAfter
    have acc : after.accepted = pkts.take count := by
      rw [drained.accepted, acceptedRead, slow.accepted, slow.backend, ← take_add]
      congr 1
      omega
    have routed : routedOf (pkts.take count) = after.routed := by
      rw [← acc, routedOf, ← inv.buffer]
    have onTheWay := inv.onTheWay
    have unacked := inv.unacked
    rw [acc, length_take_of_le le] at unacked
    have paused : after.paused := by
      rw [drained.paused, pausedRead, slow.unackSendPkt]
      unfold slowAcks ackInterval pauseThreshold at *
      omega
    obtain ⟨final, reachedFinal, settled, stranded⟩ :=
      exists_settled reachedAfter drained.delivered drained.consumed paused (by
        unfold ackInterval resumeThreshold at *
        omega)
    exact never final reachedFinal settled stranded

end

/-- The sender is never stranded exactly if it keeps up, and always the data packets that are
routed and not written are fewer than the pause threshold and what one read can deliver. -/
theorem neverStrands_iff_keepsUp (packets : List (Packet limits)) :
    (NeverStrands packets ↔ KeepsUp packets) ∧
      ∀ connection, Reachable step (.start packets) connection →
        connection.routed < connection.written + (pauseThreshold + limits.readCapacity) := by
  refine ⟨⟨keepsUp_of_neverStrands, neverStrands_of_keepsUp⟩, fun connection reached => ?_⟩
  have inv := inv_of_reachable reached
  have unacked := inv.unacked
  have routed : connection.routed ≤ connection.accepted.length := by
    have atMost := routedOf_le_length connection.accepted
    rwa [routedOf, ← inv.buffer] at atMost
  have bound : connection.unackSendPkt < pauseThreshold + limits.readCapacity := by
    cases isPaused : connection.paused with
    | false => exact (inv.running isPaused).trans_le (by omega)
    | true => exact (inv.pausedAbove isPaused).2
  unfold ackInterval at unacked
  omega

/-- The default of `gp_max_packet_size`. -/
def defaultLimits : Limits := ⟨8192, by decide⟩

def emptyPacket : Packet defaultLimits := ⟨4, by decide, by decide⟩

/-- A hundred small packets are merged into one that is not even routed, and pause the sender. -/
theorem neverStrands_fails : ¬NeverStrands (List.replicate 100 emptyPacket) := by
  intro never
  have run : (([.read 100] : List Event).foldlM step
      (start (replicate 100 emptyPacket))).map (fun connection =>
        (connection.network, connection.unconsumed, connection.acks, connection.paused)) =
      some ([], 0, 0, true) := by decide +kernel
  obtain ⟨connection, reached, view⟩ := Reachable.exists_of_run _ run
  simp only [Prod.mk.injEq] at view
  obtain ⟨network, unconsumed, acks, paused⟩ := view
  exact never connection reached ⟨network, unconsumed, acks⟩ paused

end Greengage.Proxy
