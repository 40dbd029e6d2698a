import Greengage.Foundations.Transition
import Mathlib.Algebra.Group.Nat.Defs

/-!
Contract: the generator of distributed transaction ids and its log, `bumpGxid` and
`currentDtxActivate` of `cdbtm.c` and the parts of `xlog.c` that know the generator.

Owns: the critical sections of allocation, bumping and checkpointing as single steps
that other processes come between, the flushing of the log, crashes, and the start of
the server from the control file.

Does not own: sessions, since an allocation does not depend on who makes it, and
other log records. A position in the log is a number of records. Where the source
raises a PANIC there is no step but a crash. Gxids are natural numbers, since the
generator stops before they need more than 64 bits.
-/

namespace Greengage.Dtm

def lastDistributedTransactionId : Nat := 2 ^ 64 - 1

/-- The variables of `ShmemVariableCache` that `shmGxidGenLock` protects. -/
structure GxidGenerator where
  nextGxid : Nat
  gxidCount : Nat
deriving DecidableEq

namespace GxidGenerator

/-- The critical section of `currentDtxActivate`. -/
def allocate (gen : GxidGenerator) : Option (Nat × GxidGenerator) :=
  if 0 < gen.gxidCount then
    some (gen.nextGxid, { nextGxid := gen.nextGxid + 1, gxidCount := gen.gxidCount - 1 })
  else none

/-- The last critical section of `bumpGxid`. The count has 32 bits. -/
def prefetch (gen : GxidGenerator) (gpGxidPrefetchNum : Nat) : GxidGenerator :=
  { gen with gxidCount := (gen.gxidCount + gpGxidPrefetchNum) % 2 ^ 32 }

/-- `nextLimit` of `bumpGxid`. -/
def nextLimit (gen : GxidGenerator) (gpGxidPrefetchNum : Nat) : Nat :=
  gen.nextGxid + (gen.gxidCount + gpGxidPrefetchNum) % 2 ^ 32

end GxidGenerator

def gxidPretchThreshold (gpGxidPrefetchNum : Nat) : Nat := gpGxidPrefetchNum / 2

structure CheckPoint where
  redo : Nat
  nextGxid : Nat
deriving DecidableEq

inductive XlogRecord
  | nextGxid (limit : Nat)
  | checkpointOnline (checkPoint : CheckPoint)
  | checkpointShutdown (checkPoint : CheckPoint)
deriving DecidableEq

/-- `xlog_redo`. The counter of an online checkpoint is ignored. -/
def xlogRedo (gen : GxidGenerator) : XlogRecord → GxidGenerator
  | .nextGxid limit => { nextGxid := limit, gxidCount := 0 }
  | .checkpointOnline _ => gen
  | .checkpointShutdown checkPoint => { gen with nextGxid := checkPoint.nextGxid }

/-- Recovery in `StartupXLOG`: from the values in the checkpoint through the records from
its redo position on. -/
def recover (checkPoint : CheckPoint) (records : List XlogRecord) : GxidGenerator :=
  (records.drop checkPoint.redo).foldl xlogRedo { nextGxid := checkPoint.nextGxid, gxidCount := 0 }

/-- The limit in the last `XLOG_NEXTGXID` record. -/
def lastLimit : List XlogRecord → Option Nat
  | [] => none
  | record :: later =>
    match lastLimit later, record with
    | some limit, _ => some limit
    | none, .nextGxid limit => some limit
    | none, _ => none

/-! ## The coordinator -/

/-- Where the holder of `GxidBumpLock` is in `bumpGxid`. -/
inductive BumpPhase
  | locked
  | checked
  | computed (nextLimit : Nat)
  | logged (nextLimit : Nat) (position : Nat)
deriving DecidableEq

inductive CheckPointKind
  | online
  | shutdown
  | endOfRecovery
deriving DecidableEq

/-- Where `CreateCheckPoint` is: the redo position is known, the generator has been read,
or the record is in the log. -/
inductive CheckPointPhase
  | started
  | read (nextGxid : Nat)
  | inserted (nextGxid : Nat) (position : Nat)
deriving DecidableEq

structure CheckPointing where
  kind : CheckPointKind
  redo : Nat
  phase : CheckPointPhase
deriving DecidableEq

/-- No server process, the startup process alone, the running server, and the server
after all backends have gone. -/
inductive Mode
  | down
  | recovering
  | production
  | shuttingDown
deriving DecidableEq

/-- The coordinator. `shutdowned`, `control` and the first `flushed` records of `wal` are
on disk, `handedOut` is a record of the past. -/
structure Coordinator where
  mode : Mode
  gpGxidPrefetchNum : Nat
  gen : GxidGenerator
  bump : Option BumpPhase
  checkPointing : Option CheckPointing
  wal : List XlogRecord
  flushed : Nat
  control : CheckPoint
  shutdowned : Bool
  handedOut : List Nat
deriving DecidableEq

inductive Event
  | allocate
  | bumpLock
  | bumpCheck
  | bumpCompute
  | bumpLog
  | bumpExtend
  | flush (upTo : Nat)
  | checkPointStart (kind : CheckPointKind)
  | checkPointRead
  | checkPointInsert
  | checkPointFinish
  | openServer
  | shutDown
  | crash
  | startUp (gpGxidPrefetchNum : Nat)
deriving DecidableEq

/-- After `BootStrapXLOG`: a shutdown checkpoint with the first gxid. -/
def Coordinator.initial (first : Nat) : Coordinator where
  mode := .down
  gpGxidPrefetchNum := 0
  gen := { nextGxid := first, gxidCount := 0 }
  bump := none
  checkPointing := none
  wal := [.checkpointShutdown { redo := 0, nextGxid := first }]
  flushed := 1
  control := { redo := 0, nextGxid := first }
  shutdowned := true
  handedOut := []

namespace Coordinator

/-- The modes in which a kind of checkpoint is made. Recovery ends with a checkpoint when
there was something to recover from. -/
def mayCheckPoint (state : Coordinator) : CheckPointKind → Bool
  | .online => state.mode = .production
  | .shutdown => state.mode = .shuttingDown
  | .endOfRecovery => state.mode = .recovering && !state.shutdowned

def checkPointValue (state : Coordinator) : CheckPointKind → Nat
  | .online => state.gen.nextGxid + state.gen.gxidCount
  | _ => state.gen.nextGxid

def checkPointRecord (kind : CheckPointKind) (checkPoint : CheckPoint) : XlogRecord :=
  match kind with
  | .online => .checkpointOnline checkPoint
  | _ => .checkpointShutdown checkPoint

def allocate (state : Coordinator) : Option Coordinator :=
  if state.mode = .production then
    state.gen.allocate.map fun (gxid, gen) =>
      { state with gen, handedOut := state.handedOut ++ [gxid] }
  else none

def bumpLock (state : Coordinator) : Option Coordinator :=
  if state.mode = .production ∧ state.bump = none then some { state with bump := some .locked }
  else none

def bumpCheck (state : Coordinator) : Option Coordinator :=
  if state.bump = some .locked then
    some { state with
      bump :=
        if gxidPretchThreshold state.gpGxidPrefetchNum < state.gen.gxidCount then none
        else some .checked }
  else none

def bumpCompute (state : Coordinator) : Option Coordinator :=
  let limit := state.gen.nextLimit state.gpGxidPrefetchNum
  if state.bump = some .checked ∧
      limit < lastDistributedTransactionId - state.gpGxidPrefetchNum then
    some { state with bump := some (.computed limit) }
  else none

/-- `XLogPutNextGxid` up to the flush. -/
def bumpLog (state : Coordinator) : Option Coordinator :=
  match state.bump with
  | some (.computed limit) =>
    some { state with
      wal := state.wal ++ [.nextGxid limit]
      bump := some (.logged limit state.wal.length) }
  | _ => none

def bumpExtend (state : Coordinator) : Option Coordinator :=
  match state.bump with
  | some (.logged _ position) =>
    -- `XLogPutNextGxid` returns when its record is flushed
    if position < state.flushed then
      some { state with gen := state.gen.prefetch state.gpGxidPrefetchNum, bump := none }
    else none
  | _ => none

def flush (state : Coordinator) (upTo : Nat) : Option Coordinator :=
  if state.mode ≠ .down ∧ state.flushed ≤ upTo ∧ upTo ≤ state.wal.length then
    some { state with flushed := upTo }
  else none

def checkPointStart (state : Coordinator) (kind : CheckPointKind) : Option Coordinator :=
  if state.checkPointing = none ∧ state.mayCheckPoint kind then
    some { state with checkPointing := some ⟨kind, state.wal.length, .started⟩ }
  else none

def checkPointRead (state : Coordinator) : Option Coordinator :=
  match state.checkPointing with
  | some ⟨kind, redo, .started⟩ =>
    -- with `GxidBumpLock` in shared mode
    if state.bump = none then
      some { state with
        checkPointing := some ⟨kind, redo, .read (state.checkPointValue kind)⟩ }
    else none
  | _ => none

def checkPointInsert (state : Coordinator) : Option Coordinator :=
  match state.checkPointing with
  | some ⟨kind, redo, .read nextGxid⟩ =>
    -- other records after the redo position are a PANIC in a shutdown checkpoint
    if kind = .online ∨ redo = state.wal.length then
      some { state with
        wal := state.wal ++ [checkPointRecord kind ⟨redo, nextGxid⟩]
        checkPointing := some ⟨kind, redo, .inserted nextGxid state.wal.length⟩ }
    else none
  | _ => none

/-- The record of the checkpoint is flushed, and the control file is updated. -/
def checkPointFinish (state : Coordinator) : Option Coordinator :=
  match state.checkPointing with
  | some ⟨kind, redo, .inserted nextGxid position⟩ =>
    if position < state.flushed then
      some { state with
        control := ⟨redo, nextGxid⟩
        checkPointing := none
        shutdowned := if kind = .online then state.shutdowned else true
        mode := if kind = .shutdown then .down else state.mode }
    else none
  | _ => none

def openServer (state : Coordinator) : Option Coordinator :=
  if state.mode = .recovering ∧ state.checkPointing = none then
    some { state with mode := .production, shutdowned := false }
  else none

def shutDown (state : Coordinator) : Option Coordinator :=
  if state.mode = .production ∧ state.bump = none ∧ state.checkPointing = none then
    some { state with mode := .shuttingDown }
  else none

def crash (state : Coordinator) : Coordinator :=
  { state with mode := .down, bump := none, checkPointing := none }

/-- `StartupXLOG`, with the value of the configuration parameter within its limits. -/
def startUp (state : Coordinator) (gpGxidPrefetchNum : Nat) : Option Coordinator :=
  let records := state.wal.take state.flushed
  if state.mode = .down ∧ 512 ≤ gpGxidPrefetchNum ∧ gpGxidPrefetchNum < 2 ^ 31 then
    some { state with
      mode := .recovering
      gpGxidPrefetchNum
      wal := records
      gen :=
        if state.shutdowned then { nextGxid := state.control.nextGxid, gxidCount := 0 }
        else recover state.control records }
  else none

def step (state : Coordinator) : Event → Option Coordinator
  | .allocate => state.allocate
  | .bumpLock => state.bumpLock
  | .bumpCheck => state.bumpCheck
  | .bumpCompute => state.bumpCompute
  | .bumpLog => state.bumpLog
  | .bumpExtend => state.bumpExtend
  | .flush upTo => state.flush upTo
  | .checkPointStart kind => state.checkPointStart kind
  | .checkPointRead => state.checkPointRead
  | .checkPointInsert => state.checkPointInsert
  | .checkPointFinish => state.checkPointFinish
  | .openServer => state.openServer
  | .shutDown => state.shutDown
  | .crash => some state.crash
  | .startUp gpGxidPrefetchNum => state.startUp gpGxidPrefetchNum

end Coordinator

end Greengage.Dtm
