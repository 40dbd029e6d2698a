import Greengage.Foundations.Transition
import Mathlib.Algebra.Group.Int.Defs
import Mathlib.Algebra.Group.Nat.Defs
import Mathlib.Data.Finset.Basic

/-!
Contract: the memory quota accounting of a segment, `vmem_tracker.c`.

Owns: the operations on the counters of a process and the two shared counters. Every
atomic addition and subtraction is a step of its own, and so is what a process does to
its own variables after the last of them.

Does not own: the maximum of the tracked chunks, the detection of runaway sessions (which
ends a reservation before it has changed anything, or does not matter to it) and resource
groups: the tracker is activated when it is initialized. All processes have the role
`GP_ROLE_EXECUTE`.
-/

namespace Greengage.Vmem

open Function

/-- The value of an `int32` after an operation with the exact result `value`. -/
def int32 (value : Int) : Int := value.bmod (2 ^ 32)

def int64 (value : Int) : Int := value.bmod (2 ^ 64)

/-- The parameters of a segment, and the session of every process. A per-query limit of 0
is none. -/
structure Config where
  chunkSizeInBits : Nat
  vmemChunksQuota : Int
  maxChunksPerQuery : Int
  processes : Finset Nat
  session : Nat → Nat
  quota_range : 0 ≤ vmemChunksQuota ∧ vmemChunksQuota < 2 ^ 31
  perQuery_range : 0 ≤ maxChunksPerQuery ∧ maxChunksPerQuery < 2 ^ 31

/-- `BYTES_TO_CHUNKS`, as the value of an `int32`. -/
def Config.bytesToChunks (config : Config) (bytes : Int) : Int :=
  int32 (bytes / 2 ^ config.chunkSizeInBits)

def Config.chunksToBytes (config : Config) (chunks : Int) : Int :=
  int64 (chunks * 2 ^ config.chunkSizeInBits)

/-- Where a process is: the next access to a shared counter, or what follows the last one.
`undo` is what a failed reservation takes back from `trackedBytes`. -/
inductive Phase
  | idle
  | addSession (numChunks undo : Int)
  | revertQuery (numChunks undo : Int)
  | addSegment (numChunks undo : Int) (waiverUsed : Bool)
  | revertSession (numChunks undo : Int)
  | revertSegment (numChunks undo : Int)
  | own (numChunks : Int) (waiverUsed : Bool)
  | subSegment (reduction : Int) (all : Bool)
  | subSession (reduction : Int) (all : Bool)
  | subTracked (reduction : Int) (all : Bool)
  | startupSession
  | startupSegment
  | unregisterSegment
  | unregisterSession
  | unregisterTracked
deriving DecidableEq

structure Process where
  vmemTrackerInited : Bool
  trackedVmemChunks : Int
  trackedBytes : Int
  startupBytes : Int
  startupChunks : Int
  waivedChunks : Int
  critSectionCount : Nat
  phase : Phase
deriving DecidableEq

namespace Process

/-- A process before `VmemTracker_Init`. -/
def fresh : Process where
  vmemTrackerInited := false
  trackedVmemChunks := 0
  trackedBytes := 0
  startupBytes := 0
  startupChunks := 0
  waivedChunks := 0
  critSectionCount := 0
  phase := .idle

/-- `VmemTracker_ReserveVmem` up to the first access to a shared counter. -/
def reserveVmem (process : Process) (config : Config) (newlyRequestedBytes : Nat) : Process :=
  if process.vmemTrackerInited then
    let trackedBytes := int64 (process.trackedBytes + newlyRequestedBytes)
    let newszChunk := config.bytesToChunks trackedBytes
    if process.trackedVmemChunks < newszChunk then
      { process with
        trackedBytes
        phase := .addSession (int32 (newszChunk - process.trackedVmemChunks)) newlyRequestedBytes }
    else { process with trackedBytes }
  else process

/-- `VmemTracker_ReleaseVmem` up to the first access to a shared counter. -/
def releaseVmem (process : Process) (config : Config) (toBeFreedRequested : Nat) : Process :=
  if process.vmemTrackerInited then
    let toBeFreed := min (int64 (process.trackedBytes - process.startupBytes)) toBeFreedRequested
    if toBeFreed = 0 then process
    else
      let trackedBytes := int64 (process.trackedBytes - toBeFreed)
      let newszChunk := config.bytesToChunks trackedBytes
      if newszChunk < process.trackedVmemChunks then
        { process with
          trackedBytes
          phase := .subSegment (int32 (process.trackedVmemChunks - newszChunk)) false }
      else { process with trackedBytes }
  else process

/-- `VmemTracker_RegisterStartupMemory` up to the first access to a shared counter. -/
def registerStartupMemory (process : Process) (config : Config) (bytes : Nat) : Process :=
  let startupChunks := config.bytesToChunks (int64 (bytes + 2 ^ config.chunkSizeInBits - 1))
  let startupBytes := config.chunksToBytes startupChunks
  { process with
    startupChunks
    startupBytes
    trackedBytes := int64 (process.trackedBytes + startupBytes)
    trackedVmemChunks := int32 (process.trackedVmemChunks + startupChunks)
    phase := .startupSession }

/-- `VmemTracker_Shutdown` up to the first access to a shared counter. -/
def shutdown (process : Process) : Process :=
  { process with
    vmemTrackerInited := false, phase := .subSegment process.trackedVmemChunks true }

/-- `VmemTracker_RequestWaiver`. -/
def requestWaiver (process : Process) (config : Config) (waiverBytes : Nat) : Process :=
  let chunks := config.bytesToChunks waiverBytes
  let chunks := if config.chunksToBytes chunks < waiverBytes then int32 (chunks + 1) else chunks
  { process with waivedChunks := max chunks process.waivedChunks }

def enforced (process : Process) (limit total : Int) : Bool :=
  limit < total ∧ process.critSectionCount = 0

def failed (process : Process) (undo : Int) : Process :=
  { process with trackedBytes := int64 (process.trackedBytes - undo), phase := .idle }

/-- The next step of a process inside an operation: the segment's counter, the counter of
its session and the process after it. -/
def proceed (process : Process) (config : Config) (segmentVmemChunks sessionVmem : Int) :
    Int × Int × Process :=
  match process.phase with
  | .idle => (segmentVmemChunks, sessionVmem, process)
  | .addSession numChunks undo =>
    let total := int32 (sessionVmem + numChunks)
    let limit := config.maxChunksPerQuery
    let phase :=
      if limit ≠ 0 ∧ process.enforced limit total then
        if int32 (limit + process.waivedChunks) < total then .revertQuery numChunks undo
        else .addSegment numChunks undo true
      else .addSegment numChunks undo false
    (segmentVmemChunks, total, { process with phase })
  | .revertQuery numChunks undo =>
    (segmentVmemChunks, int32 (sessionVmem - numChunks), process.failed undo)
  | .addSegment numChunks undo waiverUsed =>
    let newVmem := int32 (segmentVmemChunks + numChunks)
    let limit := config.vmemChunksQuota
    let phase :=
      if process.enforced limit newVmem then
        if int32 (limit + process.waivedChunks) < newVmem then .revertSession numChunks undo
        else .own numChunks true
      else .own numChunks waiverUsed
    (newVmem, sessionVmem, { process with phase })
  | .revertSession numChunks undo =>
    (segmentVmemChunks, int32 (sessionVmem - numChunks),
      { process with phase := .revertSegment numChunks undo })
  | .revertSegment numChunks undo =>
    (int32 (segmentVmemChunks - numChunks), sessionVmem, process.failed undo)
  | .own numChunks waiverUsed =>
    (segmentVmemChunks, sessionVmem,
      { process with
        trackedVmemChunks := int32 (process.trackedVmemChunks + numChunks)
        waivedChunks :=
          if 0 < process.waivedChunks ∧ !waiverUsed then 0 else process.waivedChunks
        phase := .idle })
  | .subSegment reduction all =>
    (int32 (segmentVmemChunks - reduction), sessionVmem,
      { process with phase := .subSession reduction all })
  | .subSession reduction all =>
    (segmentVmemChunks, int32 (sessionVmem - reduction),
      { process with phase := .subTracked reduction all })
  | .subTracked reduction all =>
    (segmentVmemChunks, sessionVmem,
      { process with
        trackedVmemChunks := int32 (process.trackedVmemChunks - reduction)
        trackedBytes := if all then 0 else process.trackedBytes
        phase := .idle })
  | .startupSession =>
    (segmentVmemChunks, int32 (sessionVmem + process.startupChunks),
      { process with phase := .startupSegment })
  | .startupSegment =>
    -- a reservation of no chunks follows, for its checks
    (int32 (segmentVmemChunks + process.startupChunks), sessionVmem,
      { process with phase := .addSession 0 0 })
  | .unregisterSegment =>
    (int32 (segmentVmemChunks - process.startupChunks), sessionVmem,
      { process with phase := .unregisterSession })
  | .unregisterSession =>
    (segmentVmemChunks, int32 (sessionVmem - process.startupChunks),
      { process with phase := .unregisterTracked })
  | .unregisterTracked =>
    (segmentVmemChunks, sessionVmem,
      { process with
        trackedBytes := int64 (process.trackedBytes - process.startupBytes)
        trackedVmemChunks := int32 (process.trackedVmemChunks - process.startupChunks)
        startupBytes := 0
        startupChunks := 0
        phase := .idle })

end Process

/-- The shared counters and the processes. `exempted` records that a process has used a
waiver, a critical section or startup memory. -/
structure Segment where
  segmentVmemChunks : Int
  sessionVmem : Nat → Int
  process : Nat → Process
  exempted : Bool

namespace Segment

def start : Segment where
  segmentVmemChunks := 0
  sessionVmem := fun _ => 0
  process := fun _ => .fresh
  exempted := false

end Segment

/-- What process `id` does. With `init` a new process takes the place of one that has ended. -/
inductive Action
  | init
  | reserveVmem (bytes : Nat)
  | releaseVmem (bytes : Nat)
  | registerStartupMemory (bytes : Nat)
  | unregisterStartupMemory
  | shutdown
  | requestWaiver (bytes : Nat)
  | resetWaiver
  | startCritSection
  | endCritSection
  | proceed
deriving DecidableEq

namespace Segment

def setProcess (state : Segment) (id : Nat) (process : Process) : Segment :=
  { state with process := update state.process id process }

def exempt (state : Segment) : Segment := { state with exempted := true }

/-- A process that is not inside an operation. -/
def begin (state : Segment) (config : Config) (id : Nat) : Action → Option Segment
  | .init =>
    if (state.process id).vmemTrackerInited then none
    else some (state.setProcess id { Process.fresh with vmemTrackerInited := true })
  | .reserveVmem bytes =>
    some (state.setProcess id ((state.process id).reserveVmem config bytes))
  | .releaseVmem bytes =>
    some (state.setProcess id ((state.process id).releaseVmem config bytes))
  | .registerStartupMemory bytes =>
    if (state.process id).vmemTrackerInited then
      some (state.setProcess id ((state.process id).registerStartupMemory config bytes)).exempt
    else none
  | .unregisterStartupMemory =>
    if (state.process id).vmemTrackerInited then
      some (state.setProcess id { state.process id with phase := .unregisterSegment })
    else none
  | .shutdown =>
    if (state.process id).vmemTrackerInited then
      some (state.setProcess id (state.process id).shutdown)
    else none
  | .requestWaiver bytes =>
    some (state.setProcess id ((state.process id).requestWaiver config bytes)).exempt
  | .resetWaiver => some (state.setProcess id { state.process id with waivedChunks := 0 })
  | .startCritSection =>
    some (state.setProcess id { state.process id with
      critSectionCount := (state.process id).critSectionCount + 1 }).exempt
  | .endCritSection =>
    some (state.setProcess id { state.process id with
      critSectionCount := (state.process id).critSectionCount - 1 })
  | .proceed => none

/-- A process begins an operation, or gets on in one. -/
def step (config : Config) (state : Segment) : Nat × Action → Option Segment
  | (id, action) =>
    let process := state.process id
    let session := config.session id
    if id ∉ config.processes then none
    else if process.phase ≠ .idle then
      if action = .proceed then
        let (segmentVmemChunks, sessionVmem, after) :=
          process.proceed config state.segmentVmemChunks (state.sessionVmem session)
        some { state with
          segmentVmemChunks
          sessionVmem := update state.sessionVmem session sessionVmem
          process := update state.process id after }
      else none
    else state.begin config id action

end Segment

end Greengage.Vmem
