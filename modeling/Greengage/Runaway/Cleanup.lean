import Greengage.Foundations.Transition
import Mathlib.Data.Finset.Card

/-!
Contract: runaway detection and cleanup on a segment, `redzone_handler.c`,
`runaway_cleaner.c`, `idle_tracker.c` and `session_state.c`.

Owns: the flagging of a session, the cleanup of its processes, activation, deactivation and
the session entries. Every access to shared memory is a step of its own, except for what is
done under the spin lock of a session by a process that holds no other lock.

Does not own: the memory accounting (how much memory the sessions use is an input of the
detector), whether a query may be canceled (an input of the cleaner) and the figures that
are only reported.
-/

namespace Greengage.Runaway

inductive RunawayStatus
  | notRunaway
  | primary
  | secondary
deriving DecidableEq

def cleanupCountdownBeforeRunaway : Int := -1

/-- The part of a `SessionState` that the cleanup is about. -/
structure Session where
  runawayStatus : RunawayStatus
  cleanupCountdown : Int
  activeProcessCount : Int
  pinCount : Int
  spinLock : Bool
deriving DecidableEq

def Session.free : Session where
  runawayStatus := .notRunaway
  cleanupCountdown := cleanupCountdownBeforeRunaway
  activeProcessCount := 0
  pinCount := 0
  spinLock := false

/-- What a process does next. From `claimed` to `counted` it is the detector, from `starting`
to `begun` it runs `RunawayCleaner_StartCleanup`, from `finishing` to `releasing`
`RunawayCleaner_RunawayCleanupDoneForProcess`. -/
inductive Phase
  | calm
  | claimed
  | scanning
  | announced (session : Nat) (status : RunawayStatus)
  | versioned (session : Nat) (status : RunawayStatus)
  | counted (session : Nat) (status : RunawayStatus)
  | starting
  | checked
  | compared
  | between
  | decided
  | begun
  | finishing (ignoredCleanup : Bool)
  | decrementing
  | exchanging
  | clearing
  | releasing
deriving DecidableEq

/-- The variables of a process. `attached` says that it has a session entry. -/
structure Process where
  attached : Bool
  session : Nat
  isProcessActive : Bool
  activationVersion : Nat
  deactivationVersion : Nat
  beginCleanupRunawayVersion : Nat
  endCleanupRunawayVersion : Nat
  phase : Phase
deriving DecidableEq

/-- A process before it has a session; the versions are those of the postmaster. -/
def Process.fresh : Process where
  attached := false
  session := 0
  isProcessActive := false
  activationVersion := 1
  deactivationVersion := 1
  beginCleanupRunawayVersion := 0
  endCleanupRunawayVersion := 0
  phase := .calm

/-- A segment. `members`, `started` and `finished` keep, by the version of the event, the
processes that were active when a session was flagged, those that have started and those
that have finished their cleanup. -/
structure Segment where
  currentVersion : Nat
  latestRunawayVersion : Nat
  isRunawayDetector : Bool
  sessionStateLock : Bool
  sessions : Nat → Session
  processes : Nat → Process
  members : List (Nat × Nat)
  started : List (Nat × Nat)
  finished : List (Nat × Nat)

/-- A segment after the initialization of its shared memory. -/
def Segment.start : Segment where
  currentVersion := 1
  latestRunawayVersion := 0
  isRunawayDetector := false
  sessionStateLock := false
  sessions _ := .free
  processes _ := .fresh
  members := []
  started := []
  finished := []

/-- What the detector reads of a session in its walk over the used entries. -/
structure Scanned where
  session : Nat
  sessionVmem : Int
  active : Bool
deriving DecidableEq

structure Walk where
  maxVmem : Int
  maxActiveVmem : Int
  maxVmemSession : Option Nat
  maxActiveVmemSession : Option Nat
deriving DecidableEq

/-- The body of the walk in `RedZoneHandler_FlagTopConsumer`. -/
def Walk.visit (walk : Walk) (scanned : Scanned) : Walk :=
  if walk.maxActiveVmem < scanned.sessionVmem then
    let walk :=
      if walk.maxVmem < scanned.sessionVmem then
        { walk with maxVmemSession := some scanned.session, maxVmem := scanned.sessionVmem }
      else walk
    if scanned.active then
      { walk with
        maxActiveVmemSession := some scanned.session, maxActiveVmem := scanned.sessionVmem }
    else walk
  else walk

def topConsumer (scan : List Scanned) : Option (Nat × RunawayStatus) :=
  let walk := scan.foldl Walk.visit ⟨0, 0, none, none⟩
  walk.maxActiveVmemSession.map fun session =>
    (session, if walk.maxActiveVmemSession = walk.maxVmemSession then .primary else .secondary)

namespace Segment

def setProcess (segment : Segment) (number : Nat) (process : Process) : Segment :=
  { segment with processes := Function.update segment.processes number process }

def setSession (segment : Segment) (number : Nat) (session : Session) : Segment :=
  { segment with sessions := Function.update segment.sessions number session }

def goto (segment : Segment) (number : Nat) (phase : Phase) : Segment :=
  segment.setProcess number { segment.processes number with phase }

/-- `IdleTracker_ActivateProcess`, then the given phase. -/
def activateProcess (segment : Segment) (number : Nat) (phase : Phase) : Option Segment :=
  let process := segment.processes number
  let session := segment.sessions process.session
  if session.spinLock then none
  else
    some ((segment.setSession process.session
        { session with activeProcessCount := session.activeProcessCount + 1 }).setProcess number
      { process with
        isProcessActive := true, activationVersion := segment.currentVersion, phase })

/-- `IdleTracker_DeactivateProcess` up to the call of `RunawayCleaner_StartCleanup`. -/
def deactivateProcess (segment : Segment) (number : Nat) : Option Segment :=
  let process := segment.processes number
  let session := segment.sessions process.session
  if session.spinLock then none
  else
    some ((segment.setSession process.session
        { session with activeProcessCount := session.activeProcessCount - 1 }).setProcess number
      { process with
        isProcessActive := false
        deactivationVersion := segment.currentVersion
        phase := .starting })

/-- `RunawayCleaner_RunawayCleanupDoneForProcess` up to the first access to the session. -/
def cleanupDoneForProcess (segment : Segment) (number : Nat) (ignoredCleanup : Bool) : Segment :=
  let process := segment.processes number
  if process.beginCleanupRunawayVersion ≠ segment.latestRunawayVersion ∨
      process.endCleanupRunawayVersion = process.beginCleanupRunawayVersion then
    segment.goto number .calm
  else
    segment.setProcess number
      { process with
        endCleanupRunawayVersion := process.beginCleanupRunawayVersion
        phase := .finishing ignoredCleanup }

def giveUp (segment : Segment) (number : Nat) : Segment :=
  { segment.goto number .calm with isRunawayDetector := false, sessionStateLock := false }

def activeProcesses (segment : Segment) (maxBackends session : Nat) : List Nat :=
  (List.range maxBackends).filter fun number =>
    (segment.processes number).attached && (segment.processes number).isProcessActive &&
      (segment.processes number).session == session

/-- The detector has its choice: it takes the spin lock of the session and looks again. -/
def flag (segment : Segment) (maxBackends number session : Nat) (status : RunawayStatus) :
    Segment :=
  let entry := segment.sessions session
  if 0 < entry.activeProcessCount then
    let version := segment.currentVersion + 1
    { (segment.setSession session { entry with spinLock := true }).goto number
        (.announced session status) with
      latestRunawayVersion := version
      members := (segment.activeProcesses maxBackends session).map (version, ·) ++ segment.members }
  else segment.giveUp number

/-- The next step of a process inside an operation. -/
def proceed (segment : Segment) (maxBackends number : Nat) (scan : List Scanned)
    (cancel : Bool) : Option Segment :=
  let process := segment.processes number
  let session := segment.sessions process.session
  match process.phase with
  | .calm => none
  | .claimed => some { segment.goto number .scanning with sessionStateLock := true }
  | .scanning =>
    if scan.all fun scanned => 0 < (segment.sessions scanned.session).pinCount then
      match topConsumer scan with
      | some (session, status) => some (segment.flag maxBackends number session status)
      | none => some (segment.giveUp number)
    else none
  | .announced session status =>
    some { segment.goto number (.versioned session status) with
      currentVersion := segment.currentVersion + 2 }
  | .versioned session status =>
    let entry := segment.sessions session
    some ((segment.setSession session
      { entry with cleanupCountdown := entry.activeProcessCount }).goto number
        (.counted session status))
  | .counted session status =>
    let entry := segment.sessions session
    some { (segment.setSession session
      { entry with runawayStatus := status, spinLock := false }).goto number .calm with
        sessionStateLock := false }
  -- `RunawayCleaner_ShouldStartRunawayCleanup` reads the shared variables one by one.
  | .starting =>
    some (segment.goto number (if session.runawayStatus ≠ .notRunaway then .checked else .calm))
  | .checked =>
    some (segment.goto number
      (if process.beginCleanupRunawayVersion ≠ segment.latestRunawayVersion then .compared
        else .calm))
  | .compared =>
    some (segment.goto number (if process.isProcessActive then
        if process.activationVersion < segment.latestRunawayVersion then .decided else .calm
      else if segment.latestRunawayVersion < process.deactivationVersion then .between
      else .calm))
  | .between =>
    some (segment.goto number
      (if process.activationVersion < segment.latestRunawayVersion then .decided else .calm))
  | .decided =>
    some { segment.setProcess number
        { process with
          beginCleanupRunawayVersion := segment.latestRunawayVersion, phase := .begun } with
      started := (segment.latestRunawayVersion, number) :: segment.started }
  | .begun =>
    -- An error leaves the cleanup in progress.
    some (if cancel then segment.goto number .calm
      else segment.cleanupDoneForProcess number true)
  | .finishing ignoredCleanup =>
    if !process.isProcessActive && !ignoredCleanup then
      segment.activateProcess number .decrementing
    else some (segment.goto number .decrementing)
  | .decrementing =>
    some { (segment.setSession process.session
        { session with cleanupCountdown := session.cleanupCountdown - 1 }).goto number
          .exchanging with
      finished := (process.endCleanupRunawayVersion, number) :: segment.finished }
  | .exchanging =>
    some (if session.cleanupCountdown = 0 then
        (segment.setSession process.session
          { session with cleanupCountdown := cleanupCountdownBeforeRunaway }).goto number .clearing
      else segment.goto number .calm)
  | .clearing =>
    some (if session.runawayStatus ≠ .notRunaway then
        (segment.setSession process.session
          { session with runawayStatus := .notRunaway }).goto number .releasing
      else segment.goto number .calm)
  | .releasing => some { segment.goto number .calm with isRunawayDetector := false }

/-- `SessionState_Acquire` for a new process: an entry that no other process has is reset. -/
def join (segment : Segment) (number session : Nat) : Segment :=
  let entry := segment.sessions session
  let entry := if entry.pinCount = 0 then Session.free else entry
  (segment.setSession session { entry with pinCount := entry.pinCount + 1 }).setProcess number
    { Process.fresh with attached := true, session }

/-- `SessionState_Release`: the last process of a session resets its entry. -/
def exit (segment : Segment) (number : Nat) : Segment :=
  let process := segment.processes number
  let entry := segment.sessions process.session
  let left := (segment.setSession process.session
    { entry with pinCount := entry.pinCount - 1 }).setProcess number Process.fresh
  if entry.pinCount - 1 = 0 then
    { left.setSession process.session Session.free with
      isRunawayDetector :=
        if entry.runawayStatus ≠ .notRunaway then false else segment.isRunawayDetector }
  else left

end Segment

inductive Event
  | join (process session : Nat)
  | exit (process : Nat)
  | activate (process : Nat)
  | deactivate (process : Nat)
  | startCleanup (process : Nat)
  | cleanupDone (process : Nat)
  | detect (process : Nat)
  | proceed (process : Nat) (scan : List Scanned) (cancel : Bool)
deriving DecidableEq

def Event.process : Event → Nat
  | .join process _ | .exit process | .activate process | .deactivate process
  | .startCleanup process | .cleanupDone process | .detect process | .proceed process _ _ =>
    process

namespace Segment

def isCalm (segment : Segment) (number : Nat) : Bool :=
  (segment.processes number).attached && (segment.processes number).phase == .calm

/-- An event of a process. A process exits only when it is idle and its own cleanup is not in
progress; an entry is acquired or released only while the detector does not hold the lock on
the entries. -/
def act (segment : Segment) (maxBackends : Nat) : Event → Option Segment
  | .join number session =>
    if !(segment.processes number).attached && !segment.sessionStateLock then
      some (segment.join number session)
    else none
  | .exit number =>
    let process := segment.processes number
    if segment.isCalm number && !process.isProcessActive &&
        process.beginCleanupRunawayVersion == process.endCleanupRunawayVersion &&
        !segment.sessionStateLock then
      some (segment.exit number)
    else none
  | .activate number =>
    if segment.isCalm number && !(segment.processes number).isProcessActive then
      segment.activateProcess number .calm
    else none
  | .deactivate number =>
    if segment.isCalm number && (segment.processes number).isProcessActive then
      segment.deactivateProcess number
    else none
  | .startCleanup number =>
    if segment.isCalm number then some (segment.goto number .starting) else none
  | .cleanupDone number =>
    if segment.isCalm number then some (segment.cleanupDoneForProcess number false) else none
  | .detect number =>
    if segment.isCalm number then
      -- The compare-and-exchange at the start of `RedZoneHandler_FlagTopConsumer`.
      if segment.isRunawayDetector then some segment
      else some { segment.goto number .claimed with isRunawayDetector := true }
    else none
  | .proceed number scan cancel => segment.proceed maxBackends number scan cancel

def step (maxBackends : Nat) (segment : Segment) (event : Event) : Option Segment :=
  if event.process < maxBackends then segment.act maxBackends event else none

end Segment

/-- The process has read that its session is flagged and has not yet noted the version of the
event. -/
def Phase.checking : Phase → Bool
  | .checked | .compared | .between | .decided => true
  | _ => false

def Phase.detecting : Phase → Bool
  | .claimed | .scanning | .announced _ _ | .versioned _ _ | .counted _ _ => true
  | _ => false

def Phase.resetting : Phase → Bool
  | .clearing | .releasing => true
  | _ => false

namespace Segment

/-- No new event is announced while a process is inside the check whether it has to clean
up. -/
def settled (maxBackends : Nat) (segment : Segment) (event : Event) : Bool :=
  (segment.act maxBackends event).all (·.latestRunawayVersion == segment.latestRunawayVersion) ||
    (List.range maxBackends).all fun number => !(segment.processes number).phase.checking

def settledStep (maxBackends : Nat) (segment : Segment) (event : Event) : Option Segment :=
  if segment.settled maxBackends event then segment.step maxBackends event else none

/-- The processes that were active when the last session was flagged and have not finished
their cleanup for that event. -/
def owing (segment : Segment) (maxBackends : Nat) : Finset Nat :=
  (Finset.range maxBackends).filter fun number =>
    (segment.latestRunawayVersion, number) ∈ segment.members ∧
      (segment.latestRunawayVersion, number) ∉ segment.finished

def Flagged (segment : Segment) (session : Nat) : Prop :=
  (segment.sessions session).runawayStatus ≠ .notRunaway

instance (segment : Segment) (session : Nat) : Decidable (segment.Flagged session) :=
  inferInstanceAs (Decidable (_ ≠ _))

end Segment

end Greengage.Runaway
