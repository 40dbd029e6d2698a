import Mathlib.Logic.Function.Basic

/-!
Contract: one connection of the UDP interconnect, `ic_udpifc.c`.

Owns: the functions of the sender (`prepareXmit`, `sendBuffers`, `handleAcks`
with the handling of plain, duplicate and disorder messages) and of the receiver
(`handleDataPacket`, `handleDisorderPacket`, `putRxBufferAndSendAck`).

Does not own: the header fields that identify a connection, round trip times,
the ring of expiration times and statistics other than the number of dropped
packets. What is handed to the socket is kept in a list, `wire` or `acks`.
Sequence numbers are natural numbers, so a connection is followed as long as it
has fewer than 2^32 packets.
-/

namespace Greengage.Interconnect

universe u

/-- The bits `UDPIC_FLAGS_...`. -/
structure IcFlags where
  receiverToSender : Bool
  ack : Bool
  stop : Bool
  eos : Bool
  nak : Bool
  disorder : Bool
  duplicate : Bool
  capacity : Bool
deriving DecidableEq

def IcFlags.none : IcFlags := ⟨false, false, false, false, false, false, false, false⟩

/-- A packet: the header fields of `icpkthdr` and what is behind the header. -/
structure IcPkt (α : Type u) where
  flags : IcFlags
  seq : Nat
  extraSeq : Nat
  content : List α
deriving DecidableEq

/-- `Gp_interconnect_fc_method`. -/
inductive FcMethod
  | capacity
  | loss
deriving DecidableEq

/-- The fields of a `MotionConn` that the sender uses, and the two static
variables of `handleAckForDisorderPkt`. -/
structure SenderConn (α : Type u) where
  nextSeq : Nat
  flags : IcFlags
  capacity : Nat
  sentSeq : Nat
  receivedAckSeq : Nat
  consumedSeq : Nat
  sndQueue : List (IcPkt α)
  unackQueue : List (IcPkt α)
  started : Bool
  stillActive : Bool
  stopRequested : Bool
  times : Nat
  lastSeq : Nat
  wire : List (IcPkt α)
deriving DecidableEq

/-- The fields of a `MotionConn` that the receiver uses. -/
structure ReceiverConn (α : Type u) where
  seq : Nat
  extraSeq : Nat
  flags : IcFlags
  pktQ : Nat → Option (IcPkt α)
  pktQCapacity : Nat
  pktQSize : Nat
  pktQHead : Nat
  pktQTail : Nat
  stillActive : Bool
  stopRequested : Bool
  statCountDropped : Nat
  acks : List (IcPkt Nat)

variable {α : Type u}

/-! ### Sender -/

namespace SenderConn

/-- `setupOutgoingUDPConnection` and `startOutgoingUDPConnections`. -/
def setup (queueDepth : Nat) : SenderConn α where
  nextSeq := 1
  flags := .none
  capacity := queueDepth
  sentSeq := 0
  receivedAckSeq := 0
  consumedSeq := 0
  sndQueue := []
  unackQueue := []
  started := false
  stillActive := true
  stopRequested := false
  times := 0
  lastSeq := 0
  wire := []

/-- The packet that `prepareXmit` makes. With `eos` it is the last packet, of
`SendEosUDPIFC`. -/
def nextPacket (conn : SenderConn α) (content : List α) (eos : Bool) : IcPkt α where
  flags := { conn.flags with eos := conn.flags.eos || eos }
  seq := conn.nextSeq
  extraSeq := 0
  content := content

/-- `prepareXmit`, and the packet at the end of the send queue. -/
def prepareXmit (conn : SenderConn α) (content : List α) (eos : Bool) : SenderConn α :=
  { conn with
    flags := (conn.nextPacket content eos).flags
    nextSeq := conn.nextSeq + 1
    sndQueue := conn.sndQueue ++ [conn.nextPacket content eos] }

def sendOnce (conn : SenderConn α) (buf : IcPkt α) : SenderConn α :=
  { conn with wire := conn.wire ++ [buf] }

/-- The loop of `sendBuffers` over the send queue. Whether the shared congestion
window is used up depends on other connections too; `congested` says it at each
point of the loop. -/
def sendLoop (fcMethod : FcMethod) (congested : Nat → Bool) :
    List (IcPkt α) → SenderConn α → SenderConn α
  | [], conn => conn
  | buf :: rest, conn =>
    if conn.capacity = 0 then conn
    else if fcMethod = .loss ∧ 0 < conn.unackQueue.length ∧ congested conn.sentSeq = true then
      conn
    else if conn.started = false ∧ 1 ≤ conn.unackQueue.length then conn
    else
      let conn := { conn with
        sndQueue := rest
        capacity := conn.capacity - 1
        unackQueue := conn.unackQueue ++ [buf] }
      sendLoop fcMethod congested rest { conn.sendOnce buf with sentSeq := buf.seq }

def sendBuffers (conn : SenderConn α) (fcMethod : FcMethod) (congested : Nat → Bool) :
    SenderConn α :=
  sendLoop fcMethod congested conn.sndQueue conn

/-- The buffer leaves the unack queue; within a connection it is known by its
sequence number. -/
def handleAckedPacket (conn : SenderConn α) (buf : IcPkt α) : SenderConn α :=
  let bufIsHead := conn.unackQueue.head?.any fun first => first.seq == buf.seq
  { conn with
    unackQueue := conn.unackQueue.eraseP fun other => other.seq == buf.seq
    receivedAckSeq := if bufIsHead then buf.seq else conn.receivedAckSeq
    started := conn.started || buf.seq == 1 }

/-- The loop that removes all buffers up to `seq` from the head of the queue. -/
def ackUpTo (seq : Nat) : List (IcPkt α) → SenderConn α → SenderConn α × Bool
  | [], conn => (conn, false)
  | buf :: rest, conn =>
    if buf.seq ≤ seq then ((ackUpTo seq rest (conn.handleAckedPacket buf)).1, true)
    else (conn, false)

/-- The loop that removes the single buffer `seq`. -/
def ackSingle (seq : Nat) : List (IcPkt α) → SenderConn α → SenderConn α × Bool
  | [], conn => (conn, false)
  | buf :: rest, conn =>
    if buf.seq ≤ seq then
      if buf.seq = seq then (conn.handleAckedPacket buf, true) else ackSingle seq rest conn
    else (conn, false)

def handleAckForDuplicatePkt (conn : SenderConn α) (pkt : IcPkt Nat) : SenderConn α × Bool :=
  if pkt.seq ≤ pkt.extraSeq then (conn, false)
  else
    let (conn, continuous) := ackUpTo pkt.extraSeq conn.unackQueue conn
    let (conn, single) := ackSingle pkt.seq conn.unackQueue conn
    (conn, continuous || single)

/-- The loop of `handleAckForDisorderPkt` over the unack queue and the lost
sequence numbers. Lost numbers below that of the buffer are passed over: a
message before this one has already removed their packets. -/
def disorderLoop (seq : Nat) : List (IcPkt α) → List Nat → SenderConn α → SenderConn α × Bool
  | [], _, conn => (conn, false)
  | buf :: rest, lost, conn =>
    if seq < buf.seq ∨ lost = [] then (conn, false)
    else if buf.seq = seq then (conn.handleAckedPacket buf, true)
    else
      match lost.dropWhile fun lostSeq => lostSeq < buf.seq with
      | [] => (conn, false)
      | lostSeq :: more =>
        if buf.seq = lostSeq then disorderLoop seq rest more (conn.sendOnce buf)
        else ((disorderLoop seq rest (lostSeq :: more) (conn.handleAckedPacket buf)).1, true)

/-- Only the third of three messages in a row with the same `extraSeq`, of any
connection of the process, is acted on. -/
def handleAckForDisorderPkt (conn : SenderConn α) (pkt : IcPkt Nat) : SenderConn α × Bool :=
  if pkt.extraSeq ≠ conn.lastSeq then ({ conn with lastSeq := pkt.extraSeq, times := 0 }, false)
  else
    let conn := { conn with times := conn.times + 1 }
    if conn.times ≠ 2 then (conn, false)
    else disorderLoop pkt.seq conn.unackQueue pkt.content conn

/-- A plain ack, after the capacity was looked at. -/
def handlePlainAck (conn : SenderConn α) (pkt : IcPkt Nat) : SenderConn α × Bool :=
  if pkt.seq < conn.receivedAckSeq then (conn, false)
  else
    let conn := if pkt.flags.stop && !conn.stopRequested && conn.stillActive then
        { conn with stopRequested := true, flags := { conn.flags with stop := true } }
      else conn
    if pkt.seq = conn.receivedAckSeq then (conn, false)
    else if pkt.flags.ack then ackUpTo pkt.seq conn.unackQueue conn
    else (conn, false)

/-- One message of the loop of `handleAcks`, up to the call of `sendBuffers`. The
second component says whether buffers should be sent. -/
def handleAck (conn : SenderConn α) (pkt : IcPkt Nat) : SenderConn α × Bool :=
  if pkt.flags.nak then (conn, false)
  else if pkt.flags.capacity then
    if conn.consumedSeq < pkt.extraSeq then
      let conn := { conn with
        capacity := conn.capacity + (pkt.extraSeq - conn.consumedSeq)
        consumedSeq := pkt.extraSeq }
      ((conn.handlePlainAck pkt).1, true)
    else conn.handlePlainAck pkt
  else if pkt.flags.duplicate then conn.handleAckForDuplicatePkt pkt
  else if pkt.flags.disorder then conn.handleAckForDisorderPkt pkt
  else conn.handlePlainAck pkt

/-- `handleAcks` for the messages that are there. `shouldSendBuffers` is not
reset between them; a message with `UDPIC_FLAGS_NAK` is passed over. -/
def handleAcks (fcMethod : FcMethod) (congested : Nat → Bool) :
    List (IcPkt Nat) → Bool → SenderConn α → SenderConn α
  | [], _, conn => conn
  | pkt :: rest, shouldSendBuffers, conn =>
    let (conn, changed) := conn.handleAck pkt
    let shouldSendBuffers := shouldSendBuffers || changed
    let conn := if shouldSendBuffers && !pkt.flags.nak then
        conn.sendBuffers fcMethod congested
      else conn
    handleAcks fcMethod congested rest shouldSendBuffers conn

def sendStatusQueryMessage (conn : SenderConn α) : SenderConn α :=
  conn.sendOnce ⟨{ IcFlags.none with capacity := true }, conn.nextSeq - 1, 0, []⟩

end SenderConn

/-! ### Receiver -/

def maxSeqsInDisorderAck : Nat := 4

namespace ReceiverConn

/-- The connection as `SetupUDPIFCInterconnect` leaves it. -/
def setup (queueDepth : Nat) : ReceiverConn α where
  seq := 1
  extraSeq := 0
  flags := { IcFlags.none with receiverToSender := true }
  pktQ := fun _ => none
  pktQCapacity := queueDepth
  pktQSize := 0
  pktQHead := 0
  pktQTail := 0
  stillActive := true
  stopRequested := false
  statCountDropped := 0
  acks := []

def sendAck (conn : ReceiverConn α) (flags : IcFlags) (seq extraSeq : Nat) : ReceiverConn α :=
  { conn with acks := conn.acks ++ [⟨flags, seq, extraSeq, []⟩] }

/-- `UDPIC_FLAGS_ACK | UDPIC_FLAGS_CAPACITY | conn->conn_info.flags`. -/
def ackFlags (conn : ReceiverConn α) : IcFlags := { conn.flags with ack := true, capacity := true }

/-- The loop of `handleDisorderPacket`: the sequence numbers of the empty places
from `start` to `pos`, at most `count`. -/
def lostSeqs (conn : ReceiverConn α) (pos : Nat) : Nat → Nat → Nat → Nat → List Nat
  | 0, _, _, _ => []
  | fuel + 1, start, tailSeq, count =>
    if start ≠ pos ∧ 0 < count then
      let next := (start + 1) % conn.pktQCapacity
      if conn.pktQ start = none then
        tailSeq :: lostSeqs conn pos fuel next (tailSeq + 1) (count - 1)
      else lostSeqs conn pos fuel next (tailSeq + 1) count
    else []

/-- A round through the queue passes every place, so that the loop needs no
more steps. -/
def handleDisorderPacket (conn : ReceiverConn α) (pos tailSeq : Nat) (pkt : IcPkt α) :
    ReceiverConn α :=
  let lost := conn.lostSeqs pos conn.pktQCapacity conn.pktQTail tailSeq maxSeqsInDisorderAck
  { conn with
    acks := conn.acks ++ [⟨{ conn.flags with disorder := true }, pkt.seq, conn.seq - 1, lost⟩] }

/-- The loop that moves the queue tail over the packets that are there. The size
bounds the number of steps. -/
def moveTail : Nat → ReceiverConn α → ReceiverConn α
  | 0, conn => conn
  | fuel + 1, conn =>
    if (conn.pktQ conn.pktQTail).isSome ∧ conn.pktQSize < conn.pktQCapacity then
      moveTail fuel { conn with
        pktQSize := conn.pktQSize + 1
        pktQTail := (conn.pktQTail + 1) % conn.pktQCapacity
        seq := conn.seq + 1 }
    else conn

/-- The packet is at its position: move the tail and ack, or report what is
missing before it. -/
def storePacket (conn : ReceiverConn α) (pkt : IcPkt α) : ReceiverConn α :=
  let pos := (pkt.seq - 1) % conn.pktQCapacity
  let headSeq := conn.seq - conn.pktQSize
  let conn := { conn with pktQ := Function.update conn.pktQ pos (some pkt) }
  if pos = conn.pktQTail then
    let conn := moveTail conn.pktQCapacity conn
    let last := conn.pktQ ((conn.pktQTail + conn.pktQCapacity - 1) % conn.pktQCapacity)
    let conn := if last.any fun pkt => pkt.flags.eos then
        { conn with flags := { conn.flags with eos := true } }
      else conn
    conn.sendAck conn.ackFlags (conn.seq - 1) conn.extraSeq
  else conn.handleDisorderPacket pos (headSeq + conn.pktQSize) pkt

def handleStopped (conn : ReceiverConn α) (pkt : IcPkt α) : ReceiverConn α :=
  let conn := { conn with
    flags := { conn.flags with eos := conn.flags.eos || pkt.flags.eos }
    seq := max conn.seq pkt.seq }
  let conn := conn.sendAck { conn.ackFlags with stop := true } pkt.seq pkt.seq
  { conn with stillActive := conn.stillActive && !pkt.flags.eos }

def handleDataPacket (conn : ReceiverConn α) (pkt : IcPkt α) : ReceiverConn α :=
  if pkt.content = [] ∧ pkt.flags.capacity = true then
    conn.sendAck conn.ackFlags (conn.seq - 1)
      (if conn.stopRequested then conn.seq - 1 else conn.extraSeq)
  else if conn.stopRequested = false ∧ pkt.flags.stop = true then conn
  else if conn.stopRequested = true ∧ conn.stillActive = true then conn.handleStopped pkt
  else if pkt.seq < conn.seq then conn.sendAck conn.ackFlags (conn.seq - 1) conn.extraSeq
  else if conn.stillActive = false then
    let conn := { conn with seq := max conn.seq pkt.seq }
    conn.sendAck { conn.ackFlags with stop := true } pkt.seq pkt.seq
  else if conn.pktQSize = conn.pktQCapacity ∨
      conn.pktQCapacity ≤ pkt.seq - (conn.seq - conn.pktQSize) then
    { conn with statCountDropped := conn.statCountDropped + 1 }
  else if conn.pktQ ((pkt.seq - 1) % conn.pktQCapacity) = none then conn.storePacket pkt
  else conn.sendAck { conn.flags with duplicate := true } pkt.seq (conn.seq - 1)

/-- The packet at the head goes to the reader. An empty head is a fatal error. -/
def putRxBufferAndSendAck (conn : ReceiverConn α) : Option (ReceiverConn α × IcPkt α) :=
  (conn.pktQ conn.pktQHead).map fun buf =>
    let conn := { conn with
      pktQ := Function.update conn.pktQ conn.pktQHead none
      pktQHead := (conn.pktQHead + 1) % conn.pktQCapacity
      pktQSize := conn.pktQSize - 1
      extraSeq := buf.seq }
    if buf.seq % 2 = 0 ∨ conn.pktQCapacity = 1 then
      (conn.sendAck conn.ackFlags (conn.seq - 1) buf.seq, buf)
    else (conn, buf)

/-- `markUDPConnInactiveIFC`. -/
def markInactive (conn : ReceiverConn α) : ReceiverConn α := { conn with stillActive := false }

end ReceiverConn

end Greengage.Interconnect
