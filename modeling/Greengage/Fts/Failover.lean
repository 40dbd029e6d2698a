import Greengage.Fts.Prober

/-!
Contract: the prober and the segments that it talks to.

Owns: the message handlers on the segments, one access to shared state at a time, and what
happens between them: the wal senders change, a requested reload takes effect, a signaled
promotion ends. A handler has its own process, which notes at its start whether the segment
is a mirror, and goes on when the prober has closed the connection.

Does not own: a handler that fails, which is one that takes no further step, and the
failed primary that is rebuilt as a mirror.
-/

namespace Greengage.Fts

/-- How far a handler has got with its message. `enabling` is before
`SetSyncStandbysDefined` in a probe, `reporting` before `GetMirrorStatus` after
`UnsetSyncStandbysDefined`. -/
inductive HandlerPhase
  | received
  | enabling (response : Response)
  | reporting
  | responding (response : Response)
  | answered (response : Response)
deriving DecidableEq

/-- A message that a segment has received and what has become of it. -/
structure Request where
  type : MessageType
  phase : HandlerPhase
deriving DecidableEq

/-- The next step of a handler: the segment and the phase after it. -/
def Request.advance (request : Request) (segment : Segment) (amMirror retryNeeded : Bool) :
    Option (Segment × HandlerPhase) :=
  match request.phase, request.type with
  | .received, .probe =>
    let (response, enable) := segment.handleProbe amMirror retryNeeded
    some (segment, if enable then .enabling response else .responding response)
  | .received, .syncrepOff => some (segment.unsetSyncStandbysDefined, .reporting)
  | .received, .promote =>
    let (segment, response) := segment.handlePromote amMirror
    some (segment, .responding response)
  | .enabling response, _ => some (segment.setSyncStandbysDefined, .responding response)
  | .reporting, _ => some (segment, .responding (segment.getMirrorStatus retryNeeded).1)
  | .responding response, _ => some (segment, .answered response)
  | .answered _, _ => none

/-- The prober, the segments by their dbid, and the processes that handle messages, by the
connection and the dbid: the message that has come, and what the process has noted at its
start. -/
structure Cluster where
  prober : Prober
  segments : Nat → Segment
  requests : Nat → Nat → Option Request
  amMirror : Nat → Nat → Option Bool

def Cluster.start (catalog : List SegmentConfig) (segments : Nat → Segment) : Cluster where
  prober := .start catalog
  segments
  requests _ _ := none
  amMirror _ _ := none

inductive ClusterEvent
  | prober (event : ProberEvent)
  | startup (connection dbid : Nat)
  | handle (connection dbid : Nat) (retryNeeded : Bool)
  | receive
  | walSenders (dbid : Nat) (walsnds : List WalSnd)
  | reload (dbid : Nat)
  | promoted (dbid : Nat)

def Prober.sentSince (after before : Prober) : List Message :=
  after.sent.take (after.sent.length - before.sent.length)

namespace Cluster

def deliver (cluster : Cluster) (messages : List Message) (connection dbid : Nat) :
    Option Request :=
  match messages.find? fun message =>
      message.connection == connection && message.dbid == dbid with
  | some message => some { type := message.type, phase := .received }
  | none => cluster.requests connection dbid

def update (cluster : Cluster) (dbid : Nat) (segment : Segment) : Cluster :=
  { cluster with segments := Function.update cluster.segments dbid segment }

def proberStep (retries : Nat) (cluster : Cluster) (event : ProberEvent) : Option Cluster := do
  let prober ← cluster.prober.step retries event
  return { cluster with
    prober, requests := cluster.deliver (prober.sentSince cluster.prober) }

/-- The next state of the cluster, if the event is possible. -/
def step (retries : Nat) (cluster : Cluster) : ClusterEvent → Option Cluster
  | .prober (.answer _ _) => none
  | .prober event => cluster.proberStep retries event
  | .startup connection dbid =>
    if connection < cluster.prober.steps ∧ cluster.amMirror connection dbid = none then
      some { cluster with
        amMirror := fun connection' dbid' =>
          if connection' = connection ∧ dbid' = dbid then
            some (cluster.segments dbid).isRoleMirror
          else cluster.amMirror connection' dbid' }
    else none
  | .handle connection dbid retryNeeded => do
      let request ← cluster.requests connection dbid
      let amMirror ← cluster.amMirror connection dbid
      let (segment, phase) ← request.advance (cluster.segments dbid) amMirror retryNeeded
      return { cluster.update dbid segment with
        requests := fun connection' dbid' =>
          if connection' = connection ∧ dbid' = dbid then some { request with phase }
          else cluster.requests connection' dbid' }
  | .receive => do
      -- The response that has come over the connection of the pair whose turn it is.
      let (_, info) ← cluster.prober.current
      let conn ← info.conn
      let request ← cluster.requests conn.number info.primary.dbid
      match request.phase with
      | .answered response =>
        let prober ← cluster.prober.visit retries (.receive (.response response))
        return { cluster with prober }
      | _ => none
  | .walSenders dbid walsnds =>
    some (cluster.update dbid { cluster.segments dbid with walsnds })
  | .reload dbid =>
    if (cluster.segments dbid).reloadRequested then
      some (cluster.update dbid (cluster.segments dbid).reload)
    else none
  | .promoted dbid =>
    if (cluster.segments dbid).promoteSignaled then
      some (cluster.update dbid
        { cluster.segments dbid with
          isRoleMirror := false, inArchiveRecovery := false, promoteSignaled := false })
    else none

def isOpen (cluster : Cluster) (connection dbid : Nat) : Bool :=
  cluster.prober.cycle.any fun cycle => cycle.infos.any fun info =>
    info.conn.any (·.number == connection) && info.primary.dbid == dbid

/-- A handler takes a step only while the prober still waits for it and no reload is pending
on its segment. -/
def prompt (cluster : Cluster) : ClusterEvent → Bool
  | .handle connection dbid _ =>
    cluster.isOpen connection dbid && !(cluster.segments dbid).reloadRequested
  | _ => true

def promptStep (retries : Nat) (cluster : Cluster) (event : ClusterEvent) : Option Cluster :=
  if cluster.prompt event then cluster.step retries event else none

end Cluster

end Greengage.Fts
