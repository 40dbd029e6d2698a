import Greengage.Fts.Messages
import Mathlib.Data.List.Dedup

/-!
Contract: a probe cycle of the fault tolerance service, `ftsprobe.c`.

Owns: the states of a primary and mirror pair during a cycle, the six functions that the
main loop calls one after another, each of them for one pair at a time, and the updates of
`gp_segment_configuration`. Connecting, polling, sending, receiving and the clock are
outcomes that a step is given, so is the moment when the prober stops.

Does not own: the history table with the set of failed contents and the timeout counter,
which nothing else reads, and the rows of the coordinator, which are not probed.
-/

namespace Greengage.Fts

/-- `FtsMessageState`: `.segment .probe` is `FTS_PROBE_SEGMENT`, `.retryWait .syncrepOff` is
`FTS_SYNCREP_OFF_RETRY_WAIT` and so on. -/
inductive MessageState
  | segment (type : MessageType)
  | retryWait (type : MessageType)
  | success (type : MessageType)
  | failed (type : MessageType)
  | responseProcessed
deriving DecidableEq

inductive PMRestartState
  | notInRestart
  | inResetting
  | inRecoveryMakingProgress
  | inRecoveryNotMakingProgress
deriving DecidableEq

/-- The places where the prober raises an error about its own state. -/
inductive FtsError
  | noNextSuccessState (state : MessageState)
  | noNextFailedState (state : MessageState)
  | invalidInternalState (state : MessageState)
  | cannotFindDbid (dbid : Nat)
deriving DecidableEq

inductive Role
  | primary
  | mirror
deriving DecidableEq

/-- A row of `gp_segment_configuration`: `alive` is the status `u`, `inSync` the mode
`s`. -/
structure SegmentConfig where
  dbid : Nat
  segindex : Nat
  role : Role
  alive : Bool
  inSync : Bool
deriving DecidableEq

structure FtsResult where
  isPrimaryAlive : Bool
  isMirrorAlive : Bool
  isInSync : Bool
  isSyncRepEnabled : Bool
  isRoleMirror : Bool
  retryRequested : Bool
deriving DecidableEq

/-- The result after `memset`. -/
def FtsResult.zero : FtsResult where
  isPrimaryAlive := false
  isMirrorAlive := false
  isInSync := false
  isSyncRepEnabled := false
  isRoleMirror := false
  retryRequested := false

inductive ConnStatus
  | ok
  | bad
  | pending
deriving DecidableEq

/-- A libpq connection. `idle` is the status `PGASYNC_IDLE`; the number tells connections
apart. -/
structure Connection where
  number : Nat
  status : ConnStatus
  idle : Bool
deriving DecidableEq

structure PollEvents where
  pollin : Bool
  pollout : Bool
deriving DecidableEq

/-- What `poll` reports: `hangup` is `POLLHUP` or `POLLERR`, `other` any other bit that was
not asked for. -/
structure PollRevents where
  pollin : Bool
  pollout : Bool
  hangup : Bool
  other : Bool
deriving DecidableEq

def PollEvents.none : PollEvents := ⟨false, false⟩

def PollRevents.none : PollRevents := ⟨false, false, false, false⟩

/-- `fts_segment_info`. The two configurations are those of the beginning of the cycle. -/
structure SegmentInfo where
  primary : SegmentConfig
  mirror : SegmentConfig
  result : FtsResult
  state : MessageState
  pollEvents : PollEvents
  pollRevents : PollRevents
  conn : Option Connection
  retryCount : Nat
  xlogrecptr : Nat
  restartState : PMRestartState
deriving DecidableEq

structure Message where
  connection : Nat
  type : MessageType
  dbid : Nat
  segindex : Nat
deriving DecidableEq

def nextSuccessState : MessageState → Except FtsError MessageState
  | .segment type => .ok (.success type)
  | state => .error (.noNextSuccessState state)

def nextFailedState : MessageState → Except FtsError MessageState
  | .segment type => .ok (.failed type)
  | .failed type => .ok (.failed type)
  | .retryWait type => .ok (.failed type)
  | state => .error (.noNextFailedState state)

/-- `IsFtsMessageStateSuccess`. -/
def MessageState.isSuccess : MessageState → Bool
  | .success _ => true
  | _ => false

/-- `IsFtsMessageStateFailed`. -/
def MessageState.isFailed : MessageState → Bool
  | .failed _ => true
  | _ => false

/-- What the error message of a connection says about a restart. -/
inductive RestartMessage
  | nothing
  | inRecovery (replayed : Option Nat)
  | inReset
deriving DecidableEq

inductive ConnectPoll
  | ok
  | reading
  | writing
  | failed (message : RestartMessage)
deriving DecidableEq

inductive ReceiveOutcome
  | failed
  | busy
  | response (response : Response)
deriving DecidableEq

/-- How a call to the outside ends, for each of the six functions. -/
inductive Outcome
  | connect (started : Bool) (poll : ConnectPoll)
  | poll (revents : PollRevents) (timedOut : Bool)
  | send (sent : Bool)
  | receive (outcome : ReceiveOutcome)
  | retry (waited : Bool)
  | response
deriving DecidableEq

namespace SegmentInfo

def fail (info : SegmentInfo) : Except FtsError SegmentInfo := do
  let state ← nextFailedState info.state
  return { info with state }

/-- `checkIfFailedDueToNormalRestart`. A recovery message without a position is only
logged. -/
def checkIfFailedDueToNormalRestart (info : SegmentInfo) : RestartMessage → SegmentInfo
  | .nothing => info
  | .inRecovery none => info
  | .inRecovery (some replayed) =>
    if replayed ≤ info.xlogrecptr then
      { info with restartState := .inRecoveryNotMakingProgress }
    else
      { info with restartState := .inRecoveryMakingProgress, xlogrecptr := replayed }
  | .inReset => { info with restartState := .inResetting }

/-- The connection is established: `PQstatus` is `CONNECTION_OK`. -/
def connected (info : SegmentInfo) : Bool :=
  info.conn.any (·.status == .ok)

/-- `ftsConnectStart` with the transition to a failed state, over a connection with a new
number. -/
def ftsConnectStart (info : SegmentInfo) (number : Nat) (started : Bool) :
    Except FtsError SegmentInfo :=
  if started then
    .ok { info with
      conn := some ⟨number, .pending, true⟩
      pollEvents := { info.pollEvents with pollout := true } }
  else { info with conn := some ⟨number, .bad, true⟩ }.fail

/-- The result of `PQconnectPoll`. -/
def ftsConnectPoll (info : SegmentInfo) (conn : Connection) :
    ConnectPoll → Except FtsError SegmentInfo
  | .ok => .ok { info with
      conn := some { conn with status := .ok }, pollEvents := ⟨false, true⟩ }
  | .reading => .ok { info with pollEvents := { info.pollEvents with pollin := true } }
  | .writing => .ok { info with pollEvents := { info.pollEvents with pollout := true } }
  | .failed message => do
      let info ← { info with conn := some { conn with status := .bad } }.fail
      return info.checkIfFailedDueToNormalRestart message

/-- The body of `ftsConnect`. -/
def ftsConnect (info : SegmentInfo) (number : Nat) (started : Bool) (poll : ConnectPoll) :
    Except FtsError SegmentInfo :=
  if info.connected then .ok info
  else
    match info.state with
    | .segment _ =>
      let info := { info with restartState := .notInRestart }
      match info.conn with
      | none => info.ftsConnectStart number started
      | some conn =>
        if info.pollRevents.pollout || info.pollRevents.pollin then
          info.ftsConnectPoll conn poll
        else .ok info
    | _ => .ok info

def ftsCheckTimeout (info : SegmentInfo) (timedOut : Bool) : Except FtsError SegmentInfo :=
  if !info.state.isSuccess && timedOut then info.fail else .ok info

/-- What `ftsPoll` makes of the events that `poll` has reported. -/
def ftsPollReady (info : SegmentInfo) : Except FtsError SegmentInfo :=
  if (info.pollRevents.pollin && info.pollEvents.pollin) ||
      (info.pollRevents.pollout && info.pollEvents.pollout) then
    .ok { info with pollEvents := .none }
  else if info.pollRevents.hangup then info.fail
  else if info.pollRevents != .none then info.fail
  else .ok info

/-- The body of `ftsPoll`: `poll` reports reading and writing only as far as they were asked
for. -/
def ftsPoll (info : SegmentInfo) (revents : PollRevents) (timedOut : Bool) :
    Except FtsError SegmentInfo :=
  if info.pollEvents.pollin || info.pollEvents.pollout then do
    let info ← { info with
      pollRevents := { revents with
        pollin := revents.pollin && info.pollEvents.pollin
        pollout := revents.pollout && info.pollEvents.pollout } }.ftsPollReady
    info.ftsCheckTimeout timedOut
  else .ok info

/-- The body of `ftsSend`, with the message that was sent. -/
def ftsSend (info : SegmentInfo) (sent : Bool) : Except FtsError (SegmentInfo × List Message) :=
  match info.state, info.conn with
  | .segment type, some conn =>
    if conn.status != .ok || !conn.idle || !info.pollRevents.pollout then .ok (info, [])
    else if sent then
      .ok ({ info with
          conn := some { conn with idle := false }, pollEvents := ⟨true, false⟩ },
        [{ connection := conn.number
           type
           dbid := info.primary.dbid
           segindex := info.primary.segindex }])
    else do
      let info ← info.fail
      return (info, [])
  | _, _ => .ok (info, [])

def probeRecordResponse (info : SegmentInfo) (response : Response) : SegmentInfo :=
  { info with
    result :=
      { isPrimaryAlive := true
        isMirrorAlive := response.isMirrorUp
        isInSync := response.isInSync
        isSyncRepEnabled := response.isSyncRepEnabled
        isRoleMirror := response.isRoleMirror
        retryRequested := response.requestRetry } }

/-- The body of `ftsReceive`. -/
def ftsReceive (info : SegmentInfo) (outcome : ReceiveOutcome) : Except FtsError SegmentInfo :=
  match info.state with
  | .segment _ =>
    if !info.connected || !info.pollRevents.pollin then .ok info
    else
      match outcome with
      | .failed => info.fail
      | .busy => .ok info
      | .response response => do
          let state ← nextSuccessState info.state
          return { info.probeRecordResponse response with state }
  | _ => .ok info

def retryForFtsFailed (info : SegmentInfo) (retries : Nat) : SegmentInfo :=
  if info.retryCount = retries then info
  else
    { info with
      retryCount := info.retryCount + 1
      state :=
        match info.state with
        | .success .probe => .retryWait .probe
        | .failed .probe => .retryWait .probe
        | .failed .syncrepOff => .retryWait .syncrepOff
        | _ => .retryWait .promote
      conn := none
      pollEvents := .none
      pollRevents := .none
      result := .zero }

/-- The body of `processRetry`. -/
def processRetry (info : SegmentInfo) (retries : Nat) (hasMirrors waited : Bool) :
    SegmentInfo :=
  match info.state with
  | .success .probe =>
    if info.result.retryRequested && hasMirrors && info.mirror.alive then
      info.retryForFtsFailed retries
    else info
  | .failed _ => info.retryForFtsFailed retries
  | .retryWait type => if waited then { info with state := .segment type } else info
  | _ => info

/-- The end of the body of `processResponse`: the connection is closed and the result is
reset for the next message. -/
def reset (info : SegmentInfo) : SegmentInfo :=
  { info with
    result := .zero, conn := none, pollEvents := .none, pollRevents := .none, retryCount := 0 }

end SegmentInfo

def SegmentConfig.updated (dbid : Nat) (role : Role) (isSegmentAlive isInSync : Bool)
    (row : SegmentConfig) : SegmentConfig :=
  if row.dbid = dbid then { row with role, alive := isSegmentAlive, inSync := isInSync } else row

def probeWalRepUpdateConfig (catalog : List SegmentConfig) (dbid : Nat) (role : Role)
    (isSegmentAlive isInSync : Bool) : Except FtsError (List SegmentConfig) :=
  if catalog.any (·.dbid == dbid) then
    .ok (catalog.map (.updated dbid role isSegmentAlive isInSync))
  else .error (.cannotFindDbid dbid)

/-- `updateConfiguration`: one transaction that writes the rows that have changed. -/
def updateConfiguration (catalog : List SegmentConfig) (primary mirror : SegmentConfig)
    (newPrimaryRole newMirrorRole : Role) (isInSync isPrimaryAlive isMirrorAlive : Bool) :
    Except FtsError (List SegmentConfig) := do
  let modeChanged := isInSync != primary.inSync
  let updatePrimary := isPrimaryAlive != primary.alive || modeChanged
  let updateMirror := isMirrorAlive != mirror.alive || modeChanged
  let catalog ←
    if updatePrimary then
      probeWalRepUpdateConfig catalog primary.dbid newPrimaryRole isPrimaryAlive isInSync
    else .ok catalog
  if updateMirror then
    probeWalRepUpdateConfig catalog mirror.dbid newMirrorRole isMirrorAlive isInSync
  else .ok catalog

namespace SegmentInfo

/-- `FTS_PROBE_SUCCESS` in `processResponse`. -/
def processProbeSuccess (info : SegmentInfo) (catalog : List SegmentConfig)
    (hasMirrors isMirrorAlive isInSync : Bool) :
    Except FtsError (List SegmentConfig × SegmentInfo) := do
  let update :=
    updateConfiguration catalog info.primary info.mirror .primary .mirror isInSync
      info.result.isPrimaryAlive isMirrorAlive
  if !hasMirrors then return (catalog, { info with state := .responseProcessed })
  else if info.result.isSyncRepEnabled && !isMirrorAlive then
    if info.result.retryRequested then
      return (catalog, { info with state := .responseProcessed })
    else
      -- The mirror is recorded as down before commits are unblocked.
      let catalog ← update
      return (catalog, { info with state := .segment .syncrepOff })
  else if info.result.isRoleMirror then
    return (catalog, { info with state := .segment .promote })
  else
    let catalog ← update
    return (catalog, { info with state := .responseProcessed })

/-- `FTS_PROBE_FAILED` in `processResponse`. -/
def processProbeFailed (info : SegmentInfo) (catalog : List SegmentConfig)
    (hasMirrors isMirrorAlive isInSync : Bool) :
    Except FtsError (List SegmentConfig × SegmentInfo) := do
  if info.restartState = .inResetting ∨ info.restartState = .inRecoveryMakingProgress then
    return (catalog, { info with state := .responseProcessed })
  else if hasMirrors && info.mirror.inSync then
    -- The roles are exchanged in the catalog before the mirror is promoted.
    let catalog ← updateConfiguration catalog info.primary info.mirror .mirror .primary isInSync
        info.result.isPrimaryAlive isMirrorAlive
    return (catalog,
      { info with
        state := .segment .promote, primary := info.mirror, mirror := info.primary })
  else return (catalog, { info with state := .responseProcessed })

/-- The body of `processResponse`. -/
def processResponse (info : SegmentInfo) (catalog : List SegmentConfig) (hasMirrors : Bool) :
    Except FtsError (List SegmentConfig × SegmentInfo) :=
  if !(info.state.isSuccess || info.state.isFailed) then .ok (catalog, info)
  else do
    let isPrimaryAlive := info.result.isPrimaryAlive
    let isMirrorAlive :=
      if isPrimaryAlive then info.result.isMirrorAlive else hasMirrors && info.mirror.alive
    let isInSync := isPrimaryAlive && info.result.isInSync
    let (catalog, info) ←
      match info.state with
      | .success .probe => info.processProbeSuccess catalog hasMirrors isMirrorAlive isInSync
      | .failed .probe => info.processProbeFailed catalog hasMirrors isMirrorAlive isInSync
      | .success .syncrepOff | .failed .syncrepOff | .success .promote | .failed .promote =>
        .ok (catalog, { info with state := .responseProcessed })
      | state => .error (.invalidInternalState state)
    return (catalog, info.reset)

end SegmentInfo

/-- The functions that the main loop calls, in their order. -/
inductive LoopStep
  | connect
  | poll
  | send
  | receive
  | retry
  | response
deriving DecidableEq

/-- A probe cycle: `fts_context`, the function that is running and the pair it is at. -/
structure Cycle where
  infos : List SegmentInfo
  hasMirrors : Bool
  step : LoopStep
  index : Nat
deriving DecidableEq

/-- The prober and the committed catalog. `sent` and `raised` keep what has happened, the
latest first; `steps` counts the bodies that were run. -/
structure Prober where
  catalog : List SegmentConfig
  cycle : Option Cycle
  sent : List Message
  raised : List FtsError
  steps : Nat
deriving DecidableEq

def Prober.start (catalog : List SegmentConfig) : Prober where
  catalog
  cycle := none
  sent := []
  raised := []
  steps := 0

def ftsGetPeerSegment (catalog : List SegmentConfig) (content dbid : Nat) : Option SegmentConfig :=
  catalog.find? fun row => row.segindex == content && row.dbid != dbid

/-- A pair at the beginning of a cycle. -/
def SegmentInfo.init (primary mirror : SegmentConfig) : SegmentInfo where
  primary
  mirror
  result := .zero
  state := .segment .probe
  pollEvents := .none
  pollRevents := .none
  conn := none
  retryCount := 0
  xlogrecptr := 0
  restartState := .notInRestart

/-- The pair of a row, if there is one to probe. A cluster without mirrors probes its
primaries with themselves in the place of the mirror, which nothing then looks at. -/
def initPair (catalog : List SegmentConfig) (hasMirrors : Bool) (primary : SegmentConfig) :
    Option SegmentInfo :=
  if primary.role = .primary then
    match ftsGetPeerSegment catalog primary.segindex primary.dbid with
    | some mirror => some (.init primary mirror)
    | none => if hasMirrors then none else some (.init primary primary)
  else none

def ftsWalRepInitProbeContext (catalog : List SegmentConfig) : Cycle :=
  let hasMirrors := catalog.length != (catalog.map (·.segindex)).dedup.length
  { infos := catalog.filterMap (initPair catalog hasMirrors)
    hasMirrors
    step := .connect
    index := 0 }

def Cycle.allDone (cycle : Cycle) : Bool :=
  cycle.infos.all (·.state == .responseProcessed)

def Cycle.loop (cycle : Cycle) : Option Cycle :=
  if cycle.allDone then none else some { cycle with step := .connect, index := 0 }

def Cycle.advance (cycle : Cycle) : Option Cycle :=
  match cycle.step with
  | .connect => some { cycle with step := .poll, index := 0 }
  | .poll => some { cycle with step := .send, index := 0 }
  | .send => some { cycle with step := .receive, index := 0 }
  | .receive => some { cycle with step := .retry, index := 0 }
  | .retry => some { cycle with step := .response, index := 0 }
  | .response => cycle.loop

/-- The catalog, the pair and the messages after the body of a loop. -/
structure Visited where
  catalog : List SegmentConfig
  info : SegmentInfo
  sent : List Message
deriving DecidableEq

/-- The body of a loop for one pair; an outcome of another function is not possible. -/
def SegmentInfo.visit (info : SegmentInfo) (retries number : Nat)
    (catalog : List SegmentConfig) (hasMirrors : Bool) :
    LoopStep → Outcome → Option (Except FtsError Visited)
  | .connect, .connect started poll =>
    some (info.ftsConnect number started poll |>.map fun info => ⟨catalog, info, []⟩)
  | .poll, .poll revents timedOut =>
    some (info.ftsPoll revents timedOut |>.map fun info => ⟨catalog, info, []⟩)
  | .send, .send sent =>
    some (info.ftsSend sent |>.map fun (info, sent) => ⟨catalog, info, sent⟩)
  | .receive, .receive outcome =>
    some (info.ftsReceive outcome |>.map fun info => ⟨catalog, info, []⟩)
  | .retry, .retry waited =>
    some (.ok ⟨catalog, info.processRetry retries hasMirrors waited, []⟩)
  | .response, .response =>
    some (info.processResponse catalog hasMirrors |>.map fun (catalog, info) =>
      ⟨catalog, info, []⟩)
  | _, _ => none

namespace Prober

def current (prober : Prober) : Option (Cycle × SegmentInfo) := do
  let cycle ← prober.cycle
  let info ← cycle.infos[cycle.index]?
  return (cycle, info)

/-- The body of the running loop for the pair whose turn it is. An error ends the
process. -/
def visit (prober : Prober) (retries : Nat) (outcome : Outcome) : Option Prober := do
  let (cycle, info) ← prober.current
  let visited ← info.visit retries prober.steps prober.catalog cycle.hasMirrors cycle.step outcome
  match visited with
  | .error error =>
    return { prober with cycle := none, raised := error :: prober.raised }
  | .ok visited =>
    return { prober with
      catalog := visited.catalog
      cycle := some { cycle with
        infos := cycle.infos.set cycle.index visited.info, index := cycle.index + 1 }
      sent := visited.sent ++ prober.sent
      steps := prober.steps + 1 }

end Prober

/-- What happens to the prober. In `answer` the pair whose turn it is receives the response
of a segment, in whatever state that segment is. -/
inductive ProberEvent
  | begin
  | visit (outcome : Outcome)
  | answer (segment : Segment) (retryNeeded : Bool)
  | advance
  | inactive
  | stop
deriving DecidableEq

def MessageState.awaited : MessageState → Option MessageType
  | .segment type => some type
  | _ => none

/-- The next state of the prober, if the event is possible. -/
def Prober.step (retries : Nat) (prober : Prober) : ProberEvent → Option Prober
  | .begin =>
    if prober.cycle.isNone then
      some { prober with cycle := (ftsWalRepInitProbeContext prober.catalog).loop }
    else none
  | .visit (.receive (.response _)) => none
  | .visit outcome => prober.visit retries outcome
  | .answer segment retryNeeded => do
      let (_, info) ← prober.current
      let type ← info.state.awaited
      prober.visit retries (.receive (.response (segment.answer retryNeeded type)))
  | .advance => do
      let cycle ← prober.cycle
      if cycle.infos.length ≤ cycle.index then
        return { prober with cycle := cycle.advance }
      else none
  | .inactive => do
      -- The loop of `processResponse` also ends when the service becomes inactive.
      let cycle ← prober.cycle
      if cycle.step = .response then return { prober with cycle := cycle.loop } else none
  | .stop => some { prober with cycle := none }

end Greengage.Fts
