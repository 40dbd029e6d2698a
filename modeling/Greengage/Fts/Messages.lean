/-!
Contract: the FTS messages of the coordinator and what a segment answers to them,
`ftsmessagehandler.c` and `gp_replication.c`.

Owns: the mirror status that a segment reports, the switches of synchronous replication
and the three message handlers. `GetMirrorStatus` reads the wal senders and the flag under
one lock; what a handler does later is a function of its own, since a reload may come in
between.

Does not own: the disk check of a probe (a handler that fails sends no answer), the clock
of the grace period (whether a retry is needed is an input) and the replication slot that
a promotion creates.
-/

namespace Greengage.Fts

/-- The types of message: `FTS_MSG_PROBE`, `FTS_MSG_SYNCREP_OFF` and `FTS_MSG_PROMOTE`. -/
inductive MessageType
  | probe
  | syncrepOff
  | promote
deriving DecidableEq

inductive WalSndState
  | startup
  | backup
  | catchup
  | streaming
  | stopping
deriving DecidableEq

/-- The part of a `WalSnd` that the mirror status is made of. A `write` position of 0 is
`InvalidXLogRecPtr`. -/
structure WalSnd where
  isForGpWalreceiver : Bool
  pid : Nat
  state : WalSndState
  write : Nat
  caughtupWithinRange : Bool
deriving DecidableEq

/-- `FtsResponse`. -/
structure Response where
  isMirrorUp : Bool
  isInSync : Bool
  isSyncRepEnabled : Bool
  isRoleMirror : Bool
  requestRetry : Bool
deriving DecidableEq

def Response.initial : Response where
  isMirrorUp := false
  isInSync := false
  isSyncRepEnabled := false
  isRoleMirror := false
  requestRetry := false

/-- A running segment. `synchronousStandbyNames` is the setting in `gp_replication.conf`,
`syncStandbysDefined` the flag in shared memory that commits look at;
`inArchiveRecovery` is the condition under which a promotion is not ignored. -/
structure Segment where
  isRoleMirror : Bool
  inArchiveRecovery : Bool
  walsnds : List WalSnd
  syncStandbysDefined : Bool
  synchronousStandbyNames : String
  reloadRequested : Bool
  promoteSignaled : Bool
deriving DecidableEq

def WalSnd.isMirrorUp (walsender : WalSnd) : Bool :=
  walsender.pid != 0 &&
    ((walsender.state == .catchup && walsender.write != 0) || walsender.state == .streaming)

/-- What `GetMirrorStatus` finds out about a mirror that is up: ready for synchronous
replication. -/
def WalSnd.readyForSyncrep (walsender : WalSnd) : Bool :=
  walsender.isMirrorUp && (walsender.state == .streaming ||
      (walsender.state == .catchup && walsender.caughtupWithinRange))

namespace Segment

/-- `GetMirrorStatus`: the response and `ready_for_syncrep`. -/
def getMirrorStatus (segment : Segment) (retryNeeded : Bool) : Response × Bool :=
  -- The loop stops at the first wal sender of the mirror.
  let walsender := segment.walsnds.find? (·.isForGpWalreceiver)
  let isMirrorUp := walsender.any (·.isMirrorUp)
  ({ isMirrorUp
     isInSync := walsender.any fun walsender =>
       walsender.isMirrorUp && walsender.state == .streaming
     isSyncRepEnabled := segment.syncStandbysDefined
     isRoleMirror := false
     requestRetry := !isMirrorUp && retryNeeded },
    walsender.any (·.readyForSyncrep))

/-- `SetSyncStandbysDefined`: the setting is written at once, the flag changes with the
reload that is requested. -/
def setSyncStandbysDefined (segment : Segment) : Segment :=
  if segment.syncStandbysDefined then segment
  else { segment with synchronousStandbyNames := "*", reloadRequested := true }

def unsetSyncStandbysDefined (segment : Segment) : Segment :=
  if segment.syncStandbysDefined then
    { segment with synchronousStandbyNames := "", reloadRequested := true }
  else segment

/-- A reload in the checkpointer: `SyncRepUpdateSyncStandbysDefined`. -/
def reload (segment : Segment) : Segment :=
  { segment with
    syncStandbysDefined := segment.synchronousStandbyNames != "", reloadRequested := false }

/-- The first part of `HandleFtsWalRepProbe`: the response, and whether synchronous
replication has to be switched on before it is sent. -/
def handleProbe (segment : Segment) (amMirror retryNeeded : Bool) : Response × Bool :=
  if amMirror then ({ Response.initial with isRoleMirror := true }, false)
  else
    let (response, readyForSyncrep) := segment.getMirrorStatus retryNeeded
    if !response.isSyncRepEnabled && readyForSyncrep then
      ({ response with isSyncRepEnabled := true }, true)
    else (response, false)

/-- `HandleFtsWalRepPromote`. -/
def handlePromote (segment : Segment) (amMirror : Bool) : Segment × Response :=
  (if segment.inArchiveRecovery then
      { segment.unsetSyncStandbysDefined with promoteSignaled := true }
    else segment,
    { Response.initial with isRoleMirror := amMirror })

def answer (segment : Segment) (retryNeeded : Bool) : MessageType → Response
  | .probe => (segment.handleProbe segment.isRoleMirror retryNeeded).1
  | .syncrepOff => (segment.unsetSyncStandbysDefined.getMirrorStatus retryNeeded).1
  | .promote => (segment.handlePromote segment.isRoleMirror).2

end Segment

structure Response.Sound (response : Response) : Prop where
  up_of_inSync : response.isInSync → response.isMirrorUp
  down_of_retry : response.requestRetry → ¬response.isMirrorUp
  bare_of_mirror : response.isRoleMirror →
    ¬response.isMirrorUp ∧ ¬response.isInSync ∧ ¬response.isSyncRepEnabled

namespace Segment

variable (seg : Segment) (amMirror retry : Bool)

theorem getMirrorStatus_inSync (inSync : (seg.getMirrorStatus retry).1.isInSync) :
    (seg.getMirrorStatus retry).1.isMirrorUp ∧ (seg.getMirrorStatus retry).2 := by
  simp only [getMirrorStatus] at inSync ⊢
  cases found : seg.walsnds.find? (·.isForGpWalreceiver) with
  | none => simp [found] at inSync
  | some walsender =>
    simp only [found, Option.any_some, Bool.and_eq_true] at inSync ⊢
    exact ⟨inSync.1, by simp [WalSnd.readyForSyncrep, inSync]⟩

theorem getMirrorStatus_sound : (seg.getMirrorStatus retry).1.Sound where
  up_of_inSync inSync := (seg.getMirrorStatus_inSync retry inSync).1
  down_of_retry := by simp +contextual [getMirrorStatus]
  bare_of_mirror := by simp [getMirrorStatus]

theorem handleProbe_sound : (seg.handleProbe amMirror retry).1.Sound := by
  have sound := seg.getMirrorStatus_sound retry
  have noMirror : (seg.getMirrorStatus retry).1.isRoleMirror = false := rfl
  cases amMirror with
  | true => exact ⟨nofun, nofun, fun _ => ⟨nofun, nofun, nofun⟩⟩
  | false =>
    simp only [handleProbe, Bool.false_eq_true, ↓reduceIte]
    split
    · exact { sound with bare_of_mirror := by simp [noMirror] }
    · exact sound

theorem handlePromote_sound : (seg.handlePromote amMirror).2.Sound :=
  ⟨nofun, nofun, fun _ => ⟨nofun, nofun, nofun⟩⟩

theorem answer_sound (type) : (seg.answer retry type).Sound := by
  cases type with
  | probe => exact seg.handleProbe_sound seg.isRoleMirror retry
  | syncrepOff => exact seg.unsetSyncStandbysDefined.getMirrorStatus_sound retry
  | promote => exact seg.handlePromote_sound seg.isRoleMirror

end Segment

end Greengage.Fts
