import Greengage.Foundations.Sections
import Greengage.Proxy.FlowControl

/-!
Contract: the clients of one key in a registry.

Does not own: flow control and the packets to the peer. All packets have the key, so none of them
is out of date or in the future, and the packets of a loopback connection arrive in the order of
their queue. A BYE that is sent, like an acknowledgement, is a message that is on its way for some
time. Writes do not fail.
-/

namespace Greengage.Proxy

open Foundations

variable {α : Type}

/-- A packet from the peer: DATA, or the BYE that ends the stream of an incarnation. -/
abbrev Pkt (α : Type) := Item α

@[match_pattern]
abbrev Pkt.data (content : α) : Pkt α := .value content

@[match_pattern]
abbrev Pkt.bye : Pkt α := .close

structure Client (α : Type) where
  incarnation : Nat
  c2pShutting : Bool
  c2pShutted : Bool
  p2cShutting : Bool
  p2cShutted : Bool
  /-- The contents that are being written to the backend. -/
  unconsumed : List α
  /-- The messages that are being sent: the BYE, and acknowledgements. -/
  byes : Nat
  acks : Nat
  unackRecvPkt : Nat
  pkts : List (Pkt α)
  deriving DecidableEq

/-- `ic_proxy_client_new` -/
def Client.new (incarnation : Nat) : Client α :=
  ⟨incarnation, false, false, false, false, [], 0, 0, 0, []⟩

/-- `sending`: the writes and the messages. -/
def Client.sending (client : Client α) : Nat :=
  client.unconsumed.length + client.byes + client.acks

/-- The entry of the key in the table of clients. A client may have a successor. -/
inductive Entry (α : Type) where
  | empty
  | placeholder (pkts : List (Pkt α))
  | client (client : Client α) (successor : Option Nat)
  deriving DecidableEq

/-- The table of clients, as far as the key is concerned. -/
structure Registry (α : Type) where
  entry : Entry α
  /-- The number of local incarnations so far. -/
  hellos : Nat
  /-- An error was raised. -/
  failed : Bool
  /-- The packets that arrived, that a client has taken, the contents that a backend has got, and
  the backends that saw the end of their stream. No step reads these. -/
  arrived : List (Pkt α)
  taken : List (Nat × Pkt α)
  written : List (Nat × α)
  ended : List Nat
  deriving DecidableEq

def Registry.start : Registry α := ⟨.empty, 0, false, [], [], [], []⟩

/-- `ic_proxy_client_on_p2c_data` for a client that is not shutting down in this direction: DATA
is written, and BYE begins the shutdown. -/
def Client.take (client : Client α) : Pkt α → Client α
  | .data content => { client with unconsumed := client.unconsumed ++ [content] }
  | .bye => { client with p2cShutting := true }

/-- `ic_proxy_client_handle_p2c_cache`: the client, and what it has taken. -/
def Client.handleCache (client : Client α) : List (Pkt α) → Client α × List (Pkt α)
  | [] => ({ client with pkts := [] }, [])
  | pkt :: rest =>
    if client.p2cShutting then ({ client with pkts := pkt :: rest }, [])
    else
      let handled := (client.take pkt).handleCache rest
      (handled.1, pkt :: handled.2)

def Registry.register (registry : Registry α) (incarnation : Nat) (pkts : List (Pkt α)) :
    Registry α :=
  let handled := (Client.new incarnation).handleCache pkts
  { registry with
    entry := .client handled.1 none
    taken := registry.taken ++ handled.2.map (incarnation, ·) }

/-- `ic_proxy_client_close` with `ic_proxy_client_unregister`: what is left goes to the
successor, or to a placeholder. -/
def Registry.close (registry : Registry α) (client : Client α) : Option Nat → Registry α
  | some successor => registry.register successor client.pkts
  | none =>
    if client.pkts = [] then { registry with entry := .empty }
    else { registry with entry := .placeholder client.pkts }

/-- `ic_proxy_client_maybe_close` -/
def Registry.maybeClose (registry : Registry α) (client : Client α) (successor : Option Nat) :
    Registry α :=
  if client.sending = 0 ∧ client.c2pShutted ∧ client.p2cShutted then
    registry.close client successor
  else { registry with entry := .client client successor }

/-- `ic_proxy_router_route` to a local client. A BYE for a client that is already shutting down
is freed. -/
def Registry.route (registry : Registry α) (pkt : Pkt α) : Registry α :=
  match registry.entry with
  | .empty => { registry with entry := .placeholder [pkt], arrived := registry.arrived ++ [pkt] }
  | .placeholder pkts =>
    { registry with entry := .placeholder (pkts ++ [pkt]), arrived := registry.arrived ++ [pkt] }
  | .client client successor =>
    if client.p2cShutting then
      match pkt with
      | .data _ =>
        { registry with
          entry := .client { client with pkts := client.pkts ++ [pkt] } successor
          arrived := registry.arrived ++ [pkt] }
      | .bye =>
        { registry with arrived := registry.arrived ++ [pkt] }.maybeClose client successor
    else
      { registry with
        entry := .client (client.take pkt) successor
        arrived := registry.arrived ++ [pkt]
        taken := registry.taken ++ [(client.incarnation, pkt)] }

/-! ### Registration and shutdown -/

/-- `ic_proxy_client_on_sent_hello_ack` with `ic_proxy_client_register` -/
def Registry.hello (registry : Registry α) : Registry α :=
  let next := { registry with hellos := registry.hellos + 1 }
  match registry.entry with
  | .empty => next.register registry.hellos []
  | .placeholder pkts => next.register registry.hellos pkts
  | .client client none => { next with entry := .client client (some registry.hellos) }
  | .client _ (some _) => { next with failed := true }

/-- `ic_proxy_client_shutdown_c2p` of a registered client. -/
def Registry.shutdownC2p (registry : Registry α) (client : Client α) (successor : Option Nat) :
    Registry α :=
  if client.c2pShutting then registry.maybeClose client successor
  else { registry with
    entry := .client { client with c2pShutting := true, byes := client.byes + 1 } successor }

/-- `ic_proxy_client_on_sent_c2p_bye` -/
def Registry.onSentC2pBye (registry : Registry α) (client : Client α) (successor : Option Nat) :
    Registry α :=
  registry.maybeClose { client with byes := client.byes - 1, c2pShutted := true } successor

/-- `ic_proxy_client_on_sent_c2p_resume`, after an acknowledgement. -/
def Registry.onSentC2pResume (registry : Registry α) (client : Client α) (successor : Option Nat) :
    Registry α :=
  registry.maybeClose { client with acks := client.acks - 1 } successor

/-- `ic_proxy_client_on_shutdown_p2c`, when all writes are done: the backend sees the end. -/
def Registry.onShutdownP2c (registry : Registry α) (client : Client α) (successor : Option Nat) :
    Registry α :=
  { registry with ended := registry.ended ++ [client.incarnation] }.maybeClose
    { client with p2cShutted := true } successor

/-- `ic_proxy_client_on_sent_p2c_data` with `ic_proxy_client_maybe_send_ack_message`, for the
first of the contents being written. -/
def Registry.onSentP2cData (registry : Registry α) (client : Client α) (successor : Option Nat)
    (content : α) (rest : List α) : Registry α :=
  let unackRecvPkt := client.unackRecvPkt + 1
  let after :=
    if ackInterval ≤ unackRecvPkt then
      { client with
        unconsumed := rest, unackRecvPkt := unackRecvPkt - ackInterval, acks := client.acks + 1 }
    else { client with unconsumed := rest, unackRecvPkt := unackRecvPkt }
  { registry with
    entry := .client after successor
    written := registry.written ++ [(client.incarnation, content)] }

/-- What happens in the registry. -/
inductive ClientEvent (α : Type) where
  | arrive (pkt : Pkt α)
  | hello
  | shutdownC2p
  | sentBye
  | sentAck
  | sentData
  | shutP2c
  deriving DecidableEq

/-- The event of the registered client. -/
def Registry.clientStep (registry : Registry α) (client : Client α) (successor : Option Nat) :
    ClientEvent α → Option (Registry α)
  | .shutdownC2p => some (registry.shutdownC2p client successor)
  | .sentBye => if 0 < client.byes then some (registry.onSentC2pBye client successor) else none
  | .sentAck => if 0 < client.acks then some (registry.onSentC2pResume client successor) else none
  | .sentData =>
    match client.unconsumed with
    | [] => none
    | content :: rest => some (registry.onSentP2cData client successor content rest)
  | .shutP2c =>
    if client.p2cShutting ∧ !client.p2cShutted ∧ client.unconsumed = [] then
      some (registry.onShutdownP2c client successor)
    else none
  | _ => none

def Registry.step (registry : Registry α) (event : ClientEvent α) : Option (Registry α) :=
  if registry.failed then none
  else
    match event, registry.entry with
    | .arrive pkt, _ => some (registry.route pkt)
    | .hello, _ => some registry.hello
    | event, .client client successor => registry.clientStep client successor event
    | _, _ => none

/-- A BYE for a client that is shutting down already, or an incarnation for which the client has
a successor already. -/
def Registry.Loses (registry : Registry α) (event : ClientEvent α) : Prop :=
  match event, registry.entry with
  | .arrive .bye, .client client _ => client.p2cShutting = true
  | .hello, .client _ (some _) => True
  | _, _ => False

def LossFree : Registry α → List (ClientEvent α) → Prop
  | _, [] => True
  | registry, event :: rest =>
    ¬registry.Loses event ∧ ∀ after, registry.step event = some after → LossFree after rest

def Entry.cached : Entry α → List (Pkt α)
  | .empty => []
  | .placeholder pkts => pkts
  | .client current _ => current.pkts

end Greengage.Proxy
