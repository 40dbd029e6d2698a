import Greengage.Dtm.GxidLog

/-!
Contract: distributed snapshots, `CreateDistributedSnapshot` and `ProcArrayEndGxact` of
`procarray.c` with the allocation of gxids of `cdbtm.c`.

Owns: the shared state of the coordinator as `StartupXLOG` leaves it, and the steps of
any number of sessions. A snapshot reads the slots of the other sessions one by one,
and everything that does not need `ProcArrayLock` in exclusive mode comes between.

Does not own: the fields `includeInCkpt` and `sessionId` of a slot, and the logging of
gxids: `prefetch` is what `bumpGxid` does to the generator.
-/

namespace Greengage.Dtm

open Function

def invalidDistributedTransactionId : Nat := 0

/-- The slot of a session in `allTmGxact`. -/
structure TmGxact where
  gxid : Nat
  xminDistributedSnapshot : Nat
deriving DecidableEq

def TmGxact.idle : TmGxact where
  gxid := invalidDistributedTransactionId
  xminDistributedSnapshot := invalidDistributedTransactionId

structure DistributedSnapshot where
  xminAllDistributedSnapshots : Nat
  distribSnapshotId : Nat
  xmin : Nat
  xmax : Nat
  inProgressXidArray : List Nat
deriving DecidableEq

def DistributedSnapshot.finished (ds : DistributedSnapshot) (gxid : Nat) : Prop :=
  gxid < ds.xmin ∨ gxid < ds.xmax ∧ gxid ∉ ds.inProgressXidArray

instance (ds : DistributedSnapshot) (gxid : Nat) : Decidable (ds.finished gxid) :=
  inferInstanceAs (Decidable (_ ∨ _))

/-- A session in the loop of `CreateDistributedSnapshot`. `slots` are the sessions whose
slots are still to be read, `dxidRead` says that the first of them has been read up to
`xminDistributedSnapshot`. What `nextGxid` was when the gxid of a slot was read is noted
in `reads`, which the source does not have. -/
structure Scan where
  slots : List Nat
  dxidRead : Bool
  globalXminDistributedSnapshots : Nat
  xmin : Nat
  xmax : Nat
  inProgressXidArray : List Nat
  reads : List (Nat × Nat)
deriving DecidableEq

/-- The read of `xminDistributedSnapshot` of a slot. -/
def Scan.readDxid (scan : Scan) (dxid : Nat) : Scan :=
  { scan with
    dxidRead := true
    globalXminDistributedSnapshots :=
      if dxid ≠ invalidDistributedTransactionId ∧ dxid < scan.globalXminDistributedSnapshots then
        dxid
      else scan.globalXminDistributedSnapshots }

/-- The read of `gxid` of the slot of session `slot`, and the rest of the round. -/
def Scan.readGxid (scan : Scan) (me slot nextGxid gxid : Nat) : Scan :=
  let moved :=
    { scan with
      slots := scan.slots.tail, dxidRead := false, reads := scan.reads ++ [(slot, nextGxid)] }
  if gxid = invalidDistributedTransactionId ∨ scan.xmax ≤ gxid then moved
  else
    { moved with
      xmin := if gxid < scan.xmin then gxid else scan.xmin
      inProgressXidArray :=
        if slot = me then scan.inProgressXidArray else scan.inProgressXidArray ++ [gxid] }

/-- A finished snapshot, with the reads of its scan and the gxids that had ended. -/
structure Taken where
  session : Nat
  ds : DistributedSnapshot
  reads : List (Nat × Nat)
  ended : List Nat
deriving DecidableEq

/-- The shared state. `handedOut`, `ended` and `snapshots` are a record of the past. -/
structure Dispatcher where
  procArray : List Nat
  gen : GxidGenerator
  latestCompletedGxid : Nat
  numCommittedGxacts : Nat
  nextSnapshotId : Nat
  allTmGxact : Nat → TmGxact
  scans : Nat → Option Scan
  handedOut : List (Nat × Nat)
  ended : List Nat
  snapshots : List Taken

namespace Dispatcher

/-- After `StartupXLOG`, with the value that it gives to `latestCompletedGxid`. -/
def start (procArray : List Nat) (nextGxid numCommittedGxacts : Nat) : Dispatcher where
  procArray := procArray
  gen := { nextGxid, gxidCount := 0 }
  latestCompletedGxid := nextGxid
  numCommittedGxacts := numCommittedGxacts
  nextSnapshotId := 0
  allTmGxact := fun _ => .idle
  scans := fun _ => none
  handedOut := []
  ended := []
  snapshots := []

/-- `ProcArrayLock` is not held in shared mode. -/
def unlocked (state : Dispatcher) : Bool :=
  state.procArray.all fun session => (state.scans session).isNone

/-- The critical section of `currentDtxActivate`, for a session that has no distributed
transaction. -/
def currentDtxActivate (state : Dispatcher) (session : Nat) : Option Dispatcher :=
  if session ∈ state.procArray ∧ state.scans session = none ∧
      (state.allTmGxact session).gxid = invalidDistributedTransactionId then
    state.gen.allocate.map fun (gxid, gen) =>
      { state with
        gen
        allTmGxact := update state.allTmGxact session
          { state.allTmGxact session with gxid }
        handedOut := state.handedOut ++ [(session, gxid)] }
  else none

def procArrayEndGxact (state : Dispatcher) (session : Nat) : Option Dispatcher :=
  let gxid := (state.allTmGxact session).gxid
  if session ∈ state.procArray ∧ state.unlocked then
    some { state with
      allTmGxact := update state.allTmGxact session .idle
      latestCompletedGxid :=
        if gxid ≠ invalidDistributedTransactionId ∧ state.latestCompletedGxid < gxid then gxid
        else state.latestCompletedGxid
      ended := if gxid ≠ invalidDistributedTransactionId then state.ended ++ [gxid] else state.ended }
  else none

/-- `CreateDistributedSnapshot` up to its loop. -/
def snapshotBegin (state : Dispatcher) (session : Nat) : Option Dispatcher :=
  if session ∈ state.procArray ∧ state.scans session = none ∧ state.numCommittedGxacts = 0 then
    let xmax := state.latestCompletedGxid + 1
    some { state with
      scans := update state.scans session (some {
        slots := state.procArray
        dxidRead := false
        globalXminDistributedSnapshots := xmax
        xmin := xmax
        xmax := xmax
        inProgressXidArray := []
        reads := [] }) }
  else none

def snapshotRead (state : Dispatcher) (session : Nat) : Option Dispatcher :=
  match state.scans session with
  | some scan =>
    match scan.slots with
    | [] => none
    | slot :: _ =>
      let after :=
        if scan.dxidRead then
          scan.readGxid session slot state.gen.nextGxid (state.allTmGxact slot).gxid
        else scan.readDxid (state.allTmGxact slot).xminDistributedSnapshot
      some { state with scans := update state.scans session (some after) }
  | none => none

/-- `CreateDistributedSnapshot` from the end of its loop on. -/
def snapshotEnd (state : Dispatcher) (session : Nat) : Option Dispatcher :=
  match state.scans session with
  | some scan =>
    if scan.slots = [] then
      let snapshotId := (state.nextSnapshotId + 1) % 2 ^ 32
      let slot := state.allTmGxact session
      let ds : DistributedSnapshot :=
        { xminAllDistributedSnapshots :=
            if scan.xmin < scan.globalXminDistributedSnapshots then scan.xmin
            else scan.globalXminDistributedSnapshots
          distribSnapshotId := snapshotId
          xmin := scan.xmin
          xmax := scan.xmax
          inProgressXidArray := scan.inProgressXidArray }
      some { state with
        nextSnapshotId := snapshotId
        allTmGxact := update state.allTmGxact session
          { slot with
            xminDistributedSnapshot :=
              if slot.xminDistributedSnapshot = invalidDistributedTransactionId then scan.xmin
              else slot.xminDistributedSnapshot }
        scans := update state.scans session none
        snapshots := state.snapshots ++
          [{ session, ds, reads := scan.reads, ended := state.ended }] }
    else none
  | none => none

end Dispatcher

inductive DispatcherEvent
  | currentDtxActivate (session : Nat)
  | prefetch (gpGxidPrefetchNum : Nat)
  | procArrayEndGxact (session : Nat)
  | recoverTM
  | snapshotBegin (session : Nat)
  | snapshotRead (session : Nat)
  | snapshotEnd (session : Nat)
deriving DecidableEq

def Dispatcher.step (state : Dispatcher) : DispatcherEvent → Option Dispatcher
  | .currentDtxActivate session => state.currentDtxActivate session
  | .prefetch gpGxidPrefetchNum =>
    some { state with gen := state.gen.prefetch gpGxidPrefetchNum }
  | .procArrayEndGxact session => state.procArrayEndGxact session
  | .recoverTM => some { state with numCommittedGxacts := 0 }
  | .snapshotBegin session => state.snapshotBegin session
  | .snapshotRead session => state.snapshotRead session
  | .snapshotEnd session => state.snapshotEnd session

end Greengage.Dtm
