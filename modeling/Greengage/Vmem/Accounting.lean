import Greengage.Foundations.SharedCounter
import Greengage.Vmem.Tracker

/-!
Contract: the counters of the vmem tracker are exact, and the limits hold.

The results are for runs in which no counter leaves the range of its type.
-/

namespace Greengage.Vmem

open Foundations

theorem int32_eq {value} (lower : 0 ≤ value) (upper : value < 2 ^ 31) : int32 value = value := by
  apply Int.bmod_eq_of_le <;> omega

theorem int64_eq {value} (lower : 0 ≤ value) (upper : value < 2 ^ 63) : int64 value = value := by
  apply Int.bmod_eq_of_le <;> omega

theorem Config.bytesToChunks_eq (cfg : Config) {bytes} (lower : 0 ≤ bytes)
    (upper : bytes / 2 ^ cfg.chunkSizeInBits < 2 ^ 31) :
    cfg.bytesToChunks bytes = bytes / 2 ^ cfg.chunkSizeInBits :=
  int32_eq (Int.ediv_nonneg lower (by positivity)) upper

def Config.chunksFor (config : Config) (bytes : Nat) : Int :=
  (bytes + 2 ^ config.chunkSizeInBits - 1) / 2 ^ config.chunkSizeInBits

namespace Process

def reserveFits (process : Process) (config : Config) (bytes : Nat) : Bool :=
  process.trackedBytes + bytes < 2 ^ 63 ∧
    (process.trackedBytes + bytes) / 2 ^ config.chunkSizeInBits < 2 ^ 31

def registerFits (process : Process) (config : Config) (bytes : Nat) : Bool :=
  bytes + 2 ^ config.chunkSizeInBits - 1 < (2 ^ 63 : Int) ∧
    process.trackedBytes + config.chunksFor bytes * 2 ^ config.chunkSizeInBits < 2 ^ 63 ∧
    process.trackedVmemChunks + config.chunksFor bytes < 2 ^ 31

def proceedFits (process : Process) (segmentVmemChunks sessionVmem : Int) : Bool :=
  match process.phase with
  | .addSession numChunks _ => sessionVmem + numChunks < 2 ^ 31
  | .addSegment numChunks _ _ => segmentVmemChunks + numChunks < 2 ^ 31
  | .startupSession => sessionVmem + process.startupChunks < 2 ^ 31
  | .startupSegment => segmentVmemChunks + process.startupChunks < 2 ^ 31
  | _ => true

end Process

def fits (config : Config) (state : Segment) : Nat × Action → Bool
  | (id, .reserveVmem bytes) => (state.process id).reserveFits config bytes
  | (id, .registerStartupMemory bytes) => (state.process id).registerFits config bytes
  | (id, .proceed) => (state.process id).proceedFits state.segmentVmemChunks
      (state.sessionVmem (config.session id))
  | _ => true

def fittingStep (config : Config) (state : Segment) (event : Nat × Action) : Option Segment :=
  if fits config state event then state.step config event else none

namespace Process

/-- A process whose next step of a reservation adds to a shared counter. -/
def adds (process : Process) : Bool :=
  match process.phase with
  | .addSession _ _ | .addSegment _ _ _ => true
  | _ => false

/-- A process that tracks chunks it has taken from a shared counter. -/
def releasing (process : Process) : Bool :=
  match process.phase with
  | .subSession _ _ | .subTracked _ _ => true
  | _ => false

end Process

/-- No process reserves chunks while another one is inside a release. -/
def orderly (config : Config) (state : Segment) (event : Nat × Action) : Bool :=
  !(state.process event.1).adds ||
    decide (∀ other ∈ config.processes, (state.process other).releasing = false)

def orderlyStep (config : Config) (state : Segment) (event : Nat × Action) : Option Segment :=
  if orderly config state event then fittingStep config state event else none

namespace Process

def segmentShare (process : Process) : Int :=
  match process.phase with
  | .revertSession numChunks _ | .revertSegment numChunks _ | .own numChunks _ =>
    process.trackedVmemChunks + numChunks
  | .subSession reduction _ | .subTracked reduction _ => process.trackedVmemChunks - reduction
  | .startupSession | .startupSegment | .unregisterSession | .unregisterTracked =>
    process.trackedVmemChunks - process.startupChunks
  | _ => process.trackedVmemChunks

def sessionShare (process : Process) : Int :=
  match process.phase with
  | .revertQuery numChunks _ | .addSegment numChunks _ _ | .revertSession numChunks _
  | .own numChunks _ => process.trackedVmemChunks + numChunks
  | .subTracked reduction _ => process.trackedVmemChunks - reduction
  | .startupSession | .unregisterTracked => process.trackedVmemChunks - process.startupChunks
  | _ => process.trackedVmemChunks

def segmentGrant (process : Process) : Int :=
  match process.phase with
  | .revertSession _ _ | .revertSegment _ _ => process.trackedVmemChunks
  | _ => process.segmentShare

def sessionGrant (process : Process) : Int :=
  match process.phase with
  | .revertQuery _ _ => process.trackedVmemChunks
  | _ => process.sessionShare

/-- The chunks that a process tracks, and those it has been granted. A release takes them
from the shared counters first. -/
def segmentHeld (process : Process) : Int :=
  match process.phase with
  | .own numChunks _ => process.trackedVmemChunks + numChunks
  | _ => process.trackedVmemChunks

def sessionHeld (process : Process) : Int :=
  match process.phase with
  | .addSegment numChunks _ _ | .own numChunks _ => process.trackedVmemChunks + numChunks
  | _ => process.trackedVmemChunks

/-! ## Processes -/

/-- The chunks of `trackedBytes`. -/
def byteChunks (process : Process) (config : Config) : Int :=
  process.trackedBytes / 2 ^ config.chunkSizeInBits

/-- With the chunks it reserves, a process has those of its bytes. -/
structure Granted (process : Process) (config : Config) (numChunks : Int) : Prop where
  live : process.vmemTrackerInited = true
  numChunks_nonneg : 0 ≤ numChunks
  startup_le : process.startupBytes ≤ process.trackedBytes
  after : process.trackedVmemChunks + numChunks = process.byteChunks config
  after_lt : process.byteChunks config < 2 ^ 31

structure Reserving (process : Process) (config : Config) (numChunks undo : Int) : Prop
    extends process.Granted config numChunks where
  undo_nonneg : 0 ≤ undo
  undo_le : process.startupBytes + undo ≤ process.trackedBytes
  before : process.trackedVmemChunks = (process.trackedBytes - undo) / 2 ^ config.chunkSizeInBits

structure Releasing (process : Process) (config : Config) (reduction : Int) (all : Bool) :
    Prop where
  live : process.vmemTrackerInited = !all
  reduction_nonneg : 0 ≤ reduction
  reduction_le : reduction ≤ process.trackedVmemChunks
  everything : all = true → reduction = process.trackedVmemChunks
  startup_le : all = false → process.startupBytes ≤ process.trackedBytes
  after : all = false → process.trackedVmemChunks - reduction = process.byteChunks config

structure Settled (process : Process) (config : Config) : Prop where
  live : process.vmemTrackerInited = true
  startup_le : process.startupBytes ≤ process.trackedBytes
  chunks : process.trackedVmemChunks = process.byteChunks config

/-- What holds of a process at the place it has come to. -/
def PhaseOk (process : Process) (config : Config) : Prop :=
  match process.phase with
  | .idle => process.Settled config ∨
      process.vmemTrackerInited = false ∧ process.trackedVmemChunks = 0 ∧ process.trackedBytes = 0
  | .addSession numChunks undo | .revertQuery numChunks undo | .addSegment numChunks undo _
  | .revertSession numChunks undo | .revertSegment numChunks undo =>
    process.Reserving config numChunks undo
  | .own numChunks _ => process.Granted config numChunks
  | .subSegment reduction all | .subSession reduction all | .subTracked reduction all =>
    process.Releasing config reduction all
  | _ => process.Settled config

structure ProcessOk (process : Process) (config : Config) : Prop where
  chunks_nonneg : 0 ≤ process.trackedVmemChunks
  chunks_lt : process.trackedVmemChunks < 2 ^ 31
  bytes_nonneg : 0 ≤ process.trackedBytes
  bytes_lt : process.trackedBytes < 2 ^ 63
  startup_nonneg : 0 ≤ process.startupChunks
  startup : process.startupBytes = process.startupChunks * 2 ^ config.chunkSizeInBits
  phase : process.PhaseOk config

/-- What one step of a process does to the counters it can change. -/
structure Moved (config : Config) (process after : Process)
    (segment session segmentAfter sessionAfter : Int) : Prop where
  ok : after.ProcessOk config
  segment : segmentAfter + process.segmentShare = segment + after.segmentShare
  session : sessionAfter + process.sessionShare = session + after.sessionShare
  segment_lt : segmentAfter < 2 ^ 31
  session_lt : sessionAfter < 2 ^ 31

section

variable {proc : Process} {cfg : Config} {segment seg session sess : Int}

theorem Settled.startupChunks_le (settled : proc.Settled cfg)
    (ok : proc.ProcessOk cfg) : proc.startupChunks ≤ proc.trackedVmemChunks := by
  rw [settled.chunks, byteChunks]
  apply Int.le_ediv_of_mul_le (by positivity)
  rw [← ok.startup]
  exact settled.startup_le

section

variable (ok : proc.ProcessOk cfg)
include ok

theorem ProcessOk.startupBytes_nonneg : 0 ≤ proc.startupBytes := by
  rw [ok.startup]
  exact mul_nonneg ok.startup_nonneg (by positivity)

variable {numChunks : Int}

theorem ProcessOk.failed {undo} (reserving : proc.Reserving cfg numChunks undo) :
    (proc.failed undo).ProcessOk cfg := by
  have := ok.startupBytes_nonneg
  have undone : int64 (proc.trackedBytes - undo) = proc.trackedBytes - undo := by
    apply int64_eq
    · linarith [reserving.undo_le]
    · linarith [reserving.undo_nonneg, ok.bytes_lt]
  refine ⟨ok.chunks_nonneg, ok.chunks_lt, ?_, ?_, ok.startup_nonneg, ok.startup, .inl ?_⟩
  · simp only [Process.failed]
    linarith [reserving.undo_le]
  · simp only [Process.failed]
    linarith [reserving.undo_nonneg, ok.bytes_lt]
  · refine ⟨reserving.live, ?_, ?_⟩
    · simp only [Process.failed]
      linarith [reserving.undo_le]
    · simp only [Process.failed, undone]
      exact reserving.before

theorem ProcessOk.int32_own (granted : proc.Granted cfg numChunks) :
    int32 (proc.trackedVmemChunks + numChunks) = proc.trackedVmemChunks + numChunks :=
  int32_eq (add_nonneg ok.chunks_nonneg granted.numChunks_nonneg)
    (granted.after ▸ granted.after_lt)

variable {reduction : Int}

theorem ProcessOk.int32_released {all} (releasing : proc.Releasing cfg reduction all) :
    int32 (proc.trackedVmemChunks - reduction) = proc.trackedVmemChunks - reduction := by
  apply int32_eq
  · linarith [releasing.reduction_le]
  · linarith [releasing.reduction_nonneg, ok.chunks_lt]

theorem ProcessOk.int32_unregistered (settled : proc.Settled cfg) :
    int32 (proc.trackedVmemChunks - proc.startupChunks) =
      proc.trackedVmemChunks - proc.startupChunks := by
  apply int32_eq
  · linarith [settled.startupChunks_le ok]
  · linarith [ok.startup_nonneg, ok.chunks_lt]

theorem ProcessOk.owned (granted : proc.Granted cfg numChunks) (waivedChunks) : { proc with
      trackedVmemChunks := proc.trackedVmemChunks + numChunks, waivedChunks
      phase := .idle }.ProcessOk cfg :=
  { ok with
    chunks_nonneg := add_nonneg ok.chunks_nonneg granted.numChunks_nonneg
    chunks_lt := granted.after ▸ granted.after_lt
    phase := .inl ⟨granted.live, granted.startup_le, granted.after⟩ }

theorem ProcessOk.released {all} (releasing : proc.Releasing cfg reduction all) : { proc with
      trackedVmemChunks := proc.trackedVmemChunks - reduction
      trackedBytes := if all then 0 else proc.trackedBytes
      phase := .idle }.ProcessOk cfg := by
  have := releasing.reduction_le
  have := ok.chunks_lt
  have := releasing.reduction_nonneg
  cases all with
  | true =>
    have everything := releasing.everything rfl
    refine ⟨?_, ?_, le_refl 0, by norm_num, ok.startup_nonneg, ok.startup,
      .inr ⟨releasing.live, ?_, rfl⟩⟩ <;>
      dsimp only <;> omega
  | false =>
    refine ⟨?_, ?_, ok.bytes_nonneg, ok.bytes_lt, ok.startup_nonneg, ok.startup,
      .inl ⟨releasing.live, releasing.startup_le rfl, releasing.after rfl⟩⟩ <;>
      dsimp only <;> omega

theorem ProcessOk.unregistered (settled : proc.Settled cfg) : { proc with
      trackedBytes := proc.trackedBytes - proc.startupBytes
      trackedVmemChunks := proc.trackedVmemChunks - proc.startupChunks
      startupBytes := 0
      startupChunks := 0
      phase := .idle }.ProcessOk cfg := by
  have := ok.startup_nonneg
  have := settled.startupChunks_le ok
  have := ok.startupBytes_nonneg
  have := settled.startup_le
  have := ok.bytes_lt
  have := ok.chunks_lt
  refine ⟨?_, ?_, ?_, ?_, le_refl 0, by simp, .inl ⟨settled.live, ?_, ?_⟩⟩ <;> dsimp only
  case refine_6 =>
    rw [byteChunks, ok.startup, settled.chunks, byteChunks,
      Int.sub_mul_ediv_right _ _ (by positivity)]
  all_goals omega

theorem ProcessOk.at {phase} (phaseOk : { proc with phase }.PhaseOk cfg) :
    { proc with phase }.ProcessOk cfg :=
  { ok with phase := phaseOk }

end

theorem Reserving.at {numChunks undo} (reserving : proc.Reserving cfg numChunks undo)
    (phase) : { proc with phase }.Reserving cfg numChunks undo :=
  { reserving with }

theorem Releasing.at {reduction all} (releasing : proc.Releasing cfg reduction all) (phase) :
    { proc with phase }.Releasing cfg reduction all :=
  { releasing with }

theorem Settled.at (settled : proc.Settled cfg) (phase) : { proc with phase }.Settled cfg :=
  { settled with }

section

variable (ok : proc.ProcessOk cfg)
include ok

theorem Settled.reserving (settled : proc.Settled cfg) (phase) :
    { proc with phase }.Reserving cfg 0 0 where
  live := settled.live
  numChunks_nonneg := le_refl 0
  startup_le := settled.startup_le
  after := by simpa [byteChunks] using settled.chunks
  after_lt := settled.chunks ▸ ok.chunks_lt
  undo_nonneg := le_refl 0
  undo_le := by simpa using settled.startup_le
  before := by simpa [byteChunks] using settled.chunks

theorem ProcessOk.shares : 0 ≤ proc.segmentShare ∧ proc.segmentGrant ≤ proc.segmentShare ∧
      0 ≤ proc.sessionShare ∧ proc.sessionGrant ≤ proc.sessionShare := by
  have := ok.chunks_nonneg
  have phaseOk := ok.phase
  cases phase : proc.phase <;> simp only [segmentGrant, segmentShare, sessionGrant, sessionShare,
    phase, PhaseOk] at phaseOk ⊢
  case revertQuery | addSegment | revertSession | revertSegment | own =>
    have := phaseOk.numChunks_nonneg
    omega
  case subSession | subTracked =>
    have := phaseOk.reduction_le
    omega
  case startupSession | startupSegment | unregisterSession | unregisterTracked =>
    have := phaseOk.startupChunks_le ok
    omega
  all_goals omega

set_option linter.unnecessarySeqFocus false in
theorem proceed_moved (segment_le : proc.segmentShare ≤ seg) (segment_lt : seg < 2 ^ 31)
    (session_le : proc.sessionShare ≤ sess) (session_lt : sess < 2 ^ 31)
    (fits : proc.proceedFits seg sess) :
    Moved cfg proc (proc.proceed cfg seg sess).2.2 seg sess
      (proc.proceed cfg seg sess).1 (proc.proceed cfg seg sess).2.1 := by
  have := ok.chunks_nonneg
  have := ok.startup_nonneg
  have phaseOk := ok.phase
  cases phase : proc.phase <;>
    simp only [segmentShare, sessionShare, proceedFits, PhaseOk, proceed, phase,
      decide_eq_true_eq] at segment_le session_le fits phaseOk ⊢
  case idle => exact ⟨ok, rfl, rfl, segment_lt, session_lt⟩
  case' addSession | revertQuery | addSegment | revertSession | revertSegment =>
    have := phaseOk.numChunks_nonneg
  case' subSegment | subSession =>
    have := phaseOk.reduction_le
    have := phaseOk.reduction_nonneg
  case' unregisterSegment | unregisterSession => have := phaseOk.startupChunks_le ok
  case' addSession =>
    rw [int32_eq (by omega) fits]
    split_ifs
    all_goals refine ⟨ok.at (phaseOk.at _), ?_, ?_, segment_lt, fits⟩
  case' addSegment =>
    rw [int32_eq (by omega) fits]
    split_ifs
    on_goal 1 => refine ⟨ok.at (phaseOk.at _), ?_, ?_, fits, session_lt⟩
    on_goal 3 => refine ⟨ok.at { phaseOk.toGranted with }, ?_, ?_, fits, session_lt⟩
    on_goal 5 => refine ⟨ok.at { phaseOk.toGranted with }, ?_, ?_, fits, session_lt⟩
  case' revertQuery | revertSegment =>
    rw [int32_eq (by omega) (by omega)]
    refine ⟨ok.failed phaseOk, ?_, ?_, by omega, by omega⟩
  case' revertSession | subSegment | subSession | startupSession | unregisterSegment |
      unregisterSession =>
    rw [int32_eq (by omega) (by omega)]
    refine ⟨ok.at (phaseOk.at _), ?_, ?_, by omega, by omega⟩
  case' startupSegment =>
    rw [int32_eq (by omega) fits]
    refine ⟨ok.at (phaseOk.reserving ok _), ?_, ?_, by omega, session_lt⟩
  case' own =>
    rw [ok.int32_own phaseOk]
    refine ⟨ok.owned phaseOk _, ?_, ?_, segment_lt, session_lt⟩
  case' subTracked =>
    rw [ok.int32_released phaseOk]
    refine ⟨ok.released phaseOk, ?_, ?_, segment_lt, session_lt⟩
  case' unregisterTracked =>
    have := ok.startupBytes_nonneg
    have := phaseOk.startup_le
    have := ok.bytes_lt
    rw [ok.int32_unregistered phaseOk, int64_eq (by omega) (by omega)]
    refine ⟨ok.unregistered phaseOk, ?_, ?_, segment_lt, session_lt⟩
  all_goals simp only [segmentShare, sessionShare, failed, phase] <;> omega

end

/-! ### The beginning of an operation -/

section

variable (ok : proc.ProcessOk cfg) (idle : proc.phase = .idle)
include ok idle

theorem ProcessOk.settled (live : proc.vmemTrackerInited) : proc.Settled cfg := by
  have phaseOk := ok.phase
  simp only [PhaseOk, idle, live, Bool.true_eq_false, false_and, or_false] at phaseOk
  exact phaseOk

theorem ProcessOk.ended (ended : proc.vmemTrackerInited = false) : proc.trackedVmemChunks = 0 := by
  have phaseOk := ok.phase
  simp only [PhaseOk, idle] at phaseOk
  rcases phaseOk with settled | ⟨-, noChunks, -⟩
  · exact absurd settled.live (by simp [ended])
  · exact noChunks

variable (segment_lt : seg < 2 ^ 31) (session_lt : sess < 2 ^ 31)
include segment_lt session_lt

theorem reserveVmem_moved {bytes} (fits : proc.reserveFits cfg bytes) :
    Moved cfg proc (proc.reserveVmem cfg bytes) seg sess seg sess := by
  simp only [reserveFits, decide_eq_true_eq] at fits
  obtain ⟨bytesFit, chunksFit⟩ := fits
  have := ok.bytes_nonneg
  rw [reserveVmem]
  split_ifs with live
  · have settled := ok.settled idle live
    have more : proc.trackedVmemChunks ≤ (proc.trackedBytes + bytes) / 2 ^ cfg.chunkSizeInBits := by
      rw [settled.chunks, byteChunks]
      exact Int.ediv_le_ediv (by positivity) (by omega)
    have := ok.chunks_nonneg
    have := settled.startup_le
    simp only [int64_eq (by omega) bytesFit, cfg.bytesToChunks_eq (by omega) chunksFit]
    split_ifs with grows
    · rw [int32_eq (by omega) (by omega)]
      refine ⟨⟨ok.chunks_nonneg, ok.chunks_lt, ?_, bytesFit, ok.startup_nonneg, ok.startup,
        ⟨⟨live, by omega, ?_, ?_, chunksFit⟩, by omega, ?_, ?_⟩⟩, ?_, ?_,
        segment_lt, session_lt⟩ <;>
        simp only [byteChunks, segmentShare, sessionShare, idle]
      case refine_5 => rw [settled.chunks, byteChunks, Int.add_sub_cancel]
      all_goals omega
    · refine ⟨⟨ok.chunks_nonneg, ok.chunks_lt, ?_, bytesFit, ok.startup_nonneg, ok.startup, ?_⟩,
        ?_, ?_, segment_lt, session_lt⟩ <;>
        simp only [segmentShare, sessionShare, idle]
      · omega
      · refine .inl ⟨live, ?_, ?_⟩ <;> simp only [byteChunks] <;> omega
  · exact ⟨ok, rfl, rfl, segment_lt, session_lt⟩

theorem releaseVmem_moved (bytes : Nat) :
    Moved cfg proc (proc.releaseVmem cfg bytes) seg sess seg sess := by
  have same : Moved cfg proc proc seg sess seg sess :=
    ⟨ok, rfl, rfl, segment_lt, session_lt⟩
  rw [releaseVmem]
  split
  · have live : proc.vmemTrackerInited := by assumption
    have settled := ok.settled idle live
    have := ok.startupBytes_nonneg
    have := settled.startup_le
    have := ok.bytes_lt
    have chunksLt := ok.chunks_lt
    simp only [int64_eq (show 0 ≤ proc.trackedBytes - proc.startupBytes by omega) (by omega)]
    obtain ⟨freed, freedDef⟩ := @exists_eq Int (min (proc.trackedBytes - proc.startupBytes) bytes)
    rw [← freedDef]
    split
    · exact same
    · have less : (proc.trackedBytes - freed) / 2 ^ cfg.chunkSizeInBits ≤
          proc.trackedVmemChunks := by
        rw [settled.chunks, byteChunks]
        exact Int.ediv_le_ediv (by positivity) (by omega)
      have chunksNonneg : 0 ≤ (proc.trackedBytes - freed) / 2 ^ cfg.chunkSizeInBits :=
        Int.ediv_nonneg (by omega) (by positivity)
      simp only [int64_eq (show 0 ≤ proc.trackedBytes - freed by omega) (by omega),
        cfg.bytesToChunks_eq (show 0 ≤ proc.trackedBytes - freed by omega) (by omega)]
      split_ifs
      · rw [int32_eq (by omega) (by omega)]
        refine ⟨⟨ok.chunks_nonneg, chunksLt, ?_, ?_, ok.startup_nonneg, ok.startup,
          ⟨live, by omega, ?_, nofun, fun _ => ?_, fun _ => ?_⟩⟩, ?_, ?_,
          segment_lt, session_lt⟩ <;>
          simp only [byteChunks, segmentShare, sessionShare, idle] <;> omega
      · refine ⟨⟨ok.chunks_nonneg, chunksLt, ?_, ?_, ok.startup_nonneg, ok.startup, ?_⟩,
          ?_, ?_, segment_lt, session_lt⟩ <;>
          simp only [segmentShare, sessionShare, idle]
        · omega
        · omega
        · refine .inl ⟨live, ?_, ?_⟩ <;> simp only [byteChunks] <;> omega
  · exact same

theorem registerStartupMemory_moved (live : proc.vmemTrackerInited) {bytes}
    (fits : proc.registerFits cfg bytes) :
    Moved cfg proc (proc.registerStartupMemory cfg bytes) seg sess seg sess := by
  simp only [registerFits, decide_eq_true_eq] at fits
  obtain ⟨alignedFit, bytesFit, chunksFit⟩ := fits
  have settled := ok.settled idle live
  have := ok.chunks_nonneg
  have := ok.bytes_nonneg
  have sizePos : (0 : Int) < 2 ^ cfg.chunkSizeInBits := by positivity
  have startupNonneg : 0 ≤ cfg.chunksFor bytes := Int.ediv_nonneg (by omega) (by omega)
  have startupBytesNonneg : 0 ≤ cfg.chunksFor bytes * 2 ^ cfg.chunkSizeInBits :=
    mul_nonneg startupNonneg (by omega)
  have aligned : cfg.bytesToChunks (int64 (bytes + 2 ^ cfg.chunkSizeInBits - 1)) =
      cfg.chunksFor bytes := by
    rw [int64_eq (by omega) alignedFit]
    exact cfg.bytesToChunks_eq (by omega) (by rw [← Config.chunksFor]; omega)
  simp only [registerStartupMemory, aligned, Config.chunksToBytes]
  rw [int64_eq startupBytesNonneg (by omega), int64_eq (by omega) bytesFit,
    int32_eq (by omega) chunksFit]
  refine ⟨⟨?_, chunksFit, ?_, bytesFit, startupNonneg, rfl, ⟨live, ?_, ?_⟩⟩, ?_, ?_,
    segment_lt, session_lt⟩ <;>
    simp only [segmentShare, sessionShare, idle]
  case refine_4 =>
    rw [settled.chunks, byteChunks, byteChunks, Int.add_mul_ediv_right _ _ (by omega)]
  all_goals omega

theorem shutdown_moved : Moved cfg proc proc.shutdown seg sess seg sess := by
  have releasing : proc.shutdown.Releasing cfg proc.trackedVmemChunks true :=
    ⟨rfl, ok.chunks_nonneg, le_refl proc.trackedVmemChunks, fun _ => rfl, nofun, nofun⟩
  refine ⟨{ ok with phase := releasing }, ?_, ?_, segment_lt, session_lt⟩ <;>
    simp only [segmentShare, sessionShare, shutdown, idle]

theorem init_moved (ended : proc.vmemTrackerInited = false) :
    Moved cfg proc { fresh with vmemTrackerInited := true } seg sess seg sess := by
  refine ⟨⟨le_refl _, by decide, le_refl _, by decide, le_refl _, by simp [fresh],
    .inl ⟨rfl, le_refl _, by simp [byteChunks, fresh]⟩⟩, ?_, ?_, segment_lt, session_lt⟩ <;>
    simp only [segmentShare, sessionShare, idle, ok.ended idle ended, fresh]

theorem unregister_moved (live : proc.vmemTrackerInited) :
    Moved cfg proc { proc with phase := .unregisterSegment } seg sess seg sess := by
  refine ⟨ok.at ((ok.settled idle live).at _), ?_, ?_, segment_lt, session_lt⟩ <;>
    simp only [segmentShare, sessionShare, idle]

theorem exemption_moved (waivedChunks critSectionCount) :
    Moved cfg proc { proc with waivedChunks, critSectionCount } seg sess seg sess := by
  have phaseOk := ok.phase
  simp only [PhaseOk, idle] at phaseOk
  refine ⟨{ ok with phase := ?_ }, rfl, rfl, segment_lt, session_lt⟩
  simp only [idle]
  exact phaseOk.imp_left fun settled => { settled with }

end

/-! ### Limits -/

/-- Neither a waiver nor a critical section nor startup memory. -/
structure Unexempted (process : Process) : Prop where
  waivedChunks : process.waivedChunks = 0
  critSectionCount : process.critSectionCount = 0
  startupChunks : process.startupChunks = 0

theorem held_le_share (ok : proc.ProcessOk cfg) (unexempted : proc.Unexempted)
    (kept : proc.releasing = false) :
    proc.segmentHeld ≤ proc.segmentShare ∧ proc.sessionHeld ≤ proc.sessionShare := by
  have startup := unexempted.startupChunks
  have phaseOk := ok.phase
  cases phase : proc.phase <;> simp only [segmentHeld, segmentShare, sessionHeld, sessionShare,
    releasing, PhaseOk, phase] at kept phaseOk ⊢
  case revertQuery | revertSession | revertSegment =>
    have := phaseOk.numChunks_nonneg
    omega
  case subSession | subTracked => cases kept
  all_goals omega

/-- A process has nothing more, or sees its addition within the limit. -/
structure Allowed (config : Config) (segment session : Process → Int) (process after : Process)
    (segmentAfter sessionAfter : Int) : Prop where
  segment_le : segment after ≤ segment process ∨
    process.adds ∧ segmentAfter ≤ config.vmemChunksQuota
  session_le : session after ≤ session process ∨
    process.adds ∧ (config.maxChunksPerQuery ≠ 0 → sessionAfter ≤ config.maxChunksPerQuery)

theorem proceed_kept (adds : proc.adds) : (proc.proceed cfg seg sess).2.2.releasing = false := by
  cases phase : proc.phase <;> simp only [Process.adds, phase, Bool.false_eq_true] at adds <;>
    simp only [proceed, phase, releasing] <;> split_ifs <;> rfl

theorem tracked_le_segmentHeld (ok : proc.ProcessOk cfg) :
    proc.trackedVmemChunks ≤ proc.segmentHeld := by
  have phaseOk := ok.phase
  cases phase : proc.phase <;> simp only [segmentHeld, PhaseOk, phase] at phaseOk ⊢
  case own => exact le_add_of_nonneg_right phaseOk.numChunks_nonneg
  all_goals rfl

theorem tracked_le_sessionHeld (ok : proc.ProcessOk cfg) :
    proc.trackedVmemChunks ≤ proc.sessionHeld := by
  have phaseOk := ok.phase
  cases phase : proc.phase <;> simp only [sessionHeld, PhaseOk, phase] at phaseOk ⊢
  case own | addSegment => exact le_add_of_nonneg_right phaseOk.numChunks_nonneg
  all_goals rfl

theorem proceed_unexempted (unexempted : proc.Unexempted) :
    (proc.proceed cfg seg sess).2.2.Unexempted := by
  obtain ⟨waived, crit, startup⟩ := unexempted
  cases phase : proc.phase <;> simp only [proceed, phase]
  case own => exact ⟨by simp [waived], crit, startup⟩
  case unregisterTracked => exact ⟨waived, crit, rfl⟩
  all_goals exact ⟨waived, crit, startup⟩

section

variable (ok : proc.ProcessOk cfg) (unexempted : proc.Unexempted)
include ok unexempted

theorem proceed_allowed :
    Allowed cfg segmentGrant sessionGrant proc (proc.proceed cfg seg sess).2.2
      (proc.proceed cfg seg sess).1 (proc.proceed cfg seg sess).2.1 ∧
    Allowed cfg segmentHeld sessionHeld proc (proc.proceed cfg seg sess).2.2
      (proc.proceed cfg seg sess).1 (proc.proceed cfg seg sess).2.1 := by
  have startup := unexempted.startupChunks
  have quota := int32_eq cfg.quota_range.1 cfg.quota_range.2
  have perQuery := int32_eq cfg.perQuery_range.1 cfg.perQuery_range.2
  have phaseOk := ok.phase
  cases phase : proc.phase <;> simp only [PhaseOk, phase] at phaseOk
  case' own => have := ok.int32_own phaseOk
  case' subTracked => have := ok.int32_released phaseOk
  case' unregisterTracked => have := int32_eq ok.chunks_nonneg ok.chunks_lt
  case' revertSession | addSegment => have := phaseOk.numChunks_nonneg
  case' subSegment | subSession | subTracked => have := phaseOk.reduction_nonneg
  all_goals
    refine ⟨⟨?_, ?_⟩, ⟨?_, ?_⟩⟩ <;>
      simp only [proceed, phase, failed, enforced, unexempted.waivedChunks,
        unexempted.critSectionCount, startup, add_zero, sub_zero, and_true,
        decide_eq_true_eq] <;>
      (try split_ifs) <;>
      simp only [segmentGrant, segmentShare, segmentHeld, sessionGrant, sessionShare, sessionHeld,
        adds, phase, true_and, Bool.false_eq_true, false_and, or_false] <;> omega

end

/-- An operation has been begun at the most: the chunks of the process are what they were. -/
structure Begun (process after : Process) : Prop where
  chunks : after.trackedVmemChunks = process.trackedVmemChunks
  unexempted : process.Unexempted → after.Unexempted
  phase : after.phase = .idle ∨ (∃ numChunks undo, after.phase = .addSession numChunks undo) ∨
    (∃ reduction all, after.phase = .subSegment reduction all) ∨ after.phase = .unregisterSegment

theorem Begun.allowed {after} (begun : Begun proc after) (idle : proc.phase = .idle) :
    Allowed cfg segmentGrant sessionGrant proc after seg sess ∧
      Allowed cfg segmentHeld sessionHeld proc after seg sess := by
  refine ⟨⟨.inl (le_of_eq ?_), .inl (le_of_eq ?_)⟩, ⟨.inl (le_of_eq ?_), .inl (le_of_eq ?_)⟩⟩ <;>
    rcases begun.phase with phase | ⟨_, _, phase⟩ | ⟨_, _, phase⟩ | phase <;>
    simp only [segmentGrant, segmentShare, segmentHeld, sessionGrant, sessionShare, sessionHeld,
      idle, phase, begun.chunks]

theorem reserveVmem_begun (idle : proc.phase = .idle) (bytes) :
    Begun proc (proc.reserveVmem cfg bytes) := by
  simp only [reserveVmem]
  split_ifs
  · exact ⟨rfl, fun unexempted => { unexempted with }, .inr (.inl ⟨_, _, rfl⟩)⟩
  · exact ⟨rfl, fun unexempted => { unexempted with }, .inl idle⟩
  · exact ⟨rfl, id, .inl idle⟩

theorem releaseVmem_begun (idle : proc.phase = .idle) (bytes) :
    Begun proc (proc.releaseVmem cfg bytes) := by
  simp only [releaseVmem]
  split_ifs
  · exact ⟨rfl, id, .inl idle⟩
  · exact ⟨rfl, fun unexempted => { unexempted with }, .inr (.inr (.inl ⟨_, _, rfl⟩))⟩
  · exact ⟨rfl, fun unexempted => { unexempted with }, .inl idle⟩
  · exact ⟨rfl, id, .inl idle⟩

end

end Process

end Greengage.Vmem
