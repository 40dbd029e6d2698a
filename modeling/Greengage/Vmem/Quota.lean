import Greengage.Vmem.Accounting

/-!
Contract: the shared counters of the vmem tracker over whole runs.
-/

namespace Greengage.Vmem

open Option Function Foundations Process Segment Finset

namespace Config

def members (config : Config) (session : Nat) : Finset Nat :=
  config.processes.filter (config.session · = session)

end Config

/-- The limits, over what the processes have of the segment and of their session. -/
structure LimitsOk (config : Config) (segment session : Process → Int) (state : Segment) :
    Prop where
  unexempted : ∀ id, (state.process id).Unexempted
  segment_le : ∑ id ∈ config.processes, segment (state.process id) ≤ config.vmemChunksQuota
  session_le : config.maxChunksPerQuery ≠ 0 → ∀ sess,
    ∑ id ∈ config.members sess, session (state.process id) ≤ config.maxChunksPerQuery

structure SegmentOk (config : Config) (state : Segment) : Prop where
  process : ∀ id, (state.process id).ProcessOk config
  segment : state.segmentVmemChunks = ∑ id ∈ config.processes, (state.process id).segmentShare
  session : ∀ session, state.sessionVmem session =
    ∑ id ∈ config.members session, (state.process id).sessionShare
  segment_lt : state.segmentVmemChunks < 2 ^ 31
  session_lt : ∀ session, state.sessionVmem session < 2 ^ 31

/-- The counters are exact, and the limits hold as long as no process is exempted. -/
structure Bounded (config : Config) (segment session : Process → Int) (state : Segment) :
    Prop where
  ok : SegmentOk config state
  limits : state.exempted = false → LimitsOk config segment session state

variable {config cfg : Config} {state after : Segment} {id : Nat}

/-- The state after a step of process `id`. -/
def Segment.moved (state : Segment) (config : Config) (id : Nat) (process : Process)
    (segmentVmemChunks sessionVmem : Int) (exempted : Bool) : Segment where
  segmentVmemChunks
  sessionVmem := update state.sessionVmem (config.session id) sessionVmem
  process := update state.process id process
  exempted

theorem segmentOk_start : SegmentOk cfg .start := by
  have fresh : Process.fresh.ProcessOk cfg :=
    ⟨le_refl _, by decide, le_refl _, by decide, le_refl _, by simp [Process.fresh],
      .inr ⟨rfl, rfl, rfl⟩⟩
  refine ⟨fun _ => fresh, ?_, fun _ => ?_, by decide, fun _ => ?_⟩
  · simp [start, Process.fresh, segmentShare]
  · simp [start, Process.fresh, sessionShare]
  · simp [start]

theorem limitsOk_start {segment session : Process → Int} (segment_zero : segment .fresh = 0)
    (session_zero : session .fresh = 0) : LimitsOk cfg segment session .start := by
  refine ⟨fun _ => ⟨rfl, rfl, rfl⟩, ?_, fun _ _ => ?_⟩
  · simpa [start, segment_zero] using cfg.quota_range.1
  · simpa [start, session_zero] using cfg.perQuery_range.1

/-! ## One step -/

/-- What a step of process `id` can do. -/
inductive Stepped (config : Config) (state : Segment) (id : Nat) : Segment → Prop
  | intro {process : Process} {segment session : Int} {exempted : Bool}
      (moved : Moved config (state.process id) process state.segmentVmemChunks
        (state.sessionVmem (config.session id)) segment session)
      (kept : (state.process id).adds → process.releasing = false)
      (allowed : exempted = false → state.exempted = false ∧ ((state.process id).Unexempted →
        process.Unexempted ∧
        Allowed config segmentGrant sessionGrant (state.process id) process segment session ∧
        Allowed config segmentHeld sessionHeld (state.process id) process segment session)) :
      Stepped config state id (state.moved config id process segment session exempted)

section

variable {proc : Process} {seg sess : Int} {exempted : Bool}

/-- A process of another session is not counted in this one. -/
theorem sum_members_update {share : Process → Int} {other} (different : other ≠ cfg.session id) :
    ∑ member ∈ cfg.members other, share (update state.process id proc member) =
      ∑ member ∈ cfg.members other, share (state.process member) :=
  sum_update_of_notMem (fun counted => different (mem_filter.mp counted).2.symm) proc

variable (mem : id ∈ cfg.processes)
include mem

theorem mem_members : id ∈ cfg.members (cfg.session id) := mem_filter.mpr ⟨mem, rfl⟩

theorem SegmentOk.moved (ok : SegmentOk cfg state)
    (moved : Moved cfg (state.process id) proc state.segmentVmemChunks
      (state.sessionVmem (cfg.session id)) seg sess) :
    SegmentOk cfg (state.moved cfg id proc seg sess exempted) := by
  refine ⟨(forall_update_iff _ fun _ => (ProcessOk · cfg)).mpr
      ⟨moved.ok, fun other _ => ok.process other⟩, ?_, fun other => ?_, moved.segment_lt,
    (forall_update_iff _ fun _ => (· < 2 ^ 31)).mpr
      ⟨moved.session_lt, fun other _ => ok.session_lt other⟩⟩
  · have shares := @sum_update_add _ _ _ _ state.process _ segmentShare mem proc
    simp only [Segment.moved]
    linarith [moved.segment, ok.segment]
  · rcases eq_or_ne other (cfg.session id) with rfl | different
    · have shares := @sum_update_add _ _ _ _ state.process _ sessionShare (mem_members mem) proc
      simp only [Segment.moved, update_self]
      linarith [moved.session, ok.session (cfg.session id)]
    · simp only [Segment.moved]
      rw [update_of_ne different, sum_members_update different]
      exact ok.session other

theorem LimitsOk.moved {segment session : Process → Int}
    (limits : LimitsOk cfg segment session state) (unexempted : proc.Unexempted)
    (allowed : Allowed cfg segment session (state.process id) proc seg sess)
    (after : SegmentOk cfg (state.moved cfg id proc seg sess exempted))
    (covered : (state.process id).adds → ∀ other ∈ cfg.processes,
      segment (update state.process id proc other) ≤
        (update state.process id proc other).segmentShare ∧
      session (update state.process id proc other) ≤
        (update state.process id proc other).sessionShare) :
    LimitsOk cfg segment session (state.moved cfg id proc seg sess exempted) := by
  refine ⟨(forall_update_iff _ fun _ => Unexempted).mpr
    ⟨unexempted, fun other _ => limits.unexempted other⟩, ?_, fun limited other => ?_⟩
  · refine @sum_grant_le _ _ _ _ _ _ segmentShare _ _ _ mem limits.segment_le
      (allowed.segment_le.imp_right fun adds => ?_)
    exact ⟨fun other among => (covered adds.1 other among).1, after.segment ▸ adds.2⟩
  · rcases eq_or_ne other (cfg.session id) with rfl | different
    · have total := after.session (cfg.session id)
      simp only [Segment.moved, update_self] at total
      refine @sum_grant_le _ _ _ _ _ _ sessionShare _ _ _ (mem_members mem)
        (limits.session_le limited _) (allowed.session_le.imp_right fun adds => ?_)
      exact ⟨fun other among => (covered adds.1 other (mem_filter.mp among).1).2,
        total ▸ adds.2 limited⟩
    · simp only [Segment.moved]
      rw [sum_members_update different]
      exact limits.session_le limited other

variable (ok : SegmentOk cfg state)
include ok

theorem SegmentOk.proceed (fits : (state.process id).proceedFits state.segmentVmemChunks
      (state.sessionVmem (cfg.session id))) :
    Stepped cfg state id (state.moved cfg id ((state.process id).proceed cfg
        state.segmentVmemChunks (state.sessionVmem (cfg.session id))).2.2
      ((state.process id).proceed cfg state.segmentVmemChunks
        (state.sessionVmem (cfg.session id))).1
      ((state.process id).proceed cfg state.segmentVmemChunks
        (state.sessionVmem (cfg.session id))).2.1 state.exempted) := by
  have segmentLe : (state.process id).segmentShare ≤ state.segmentVmemChunks := by
    rw [ok.segment]
    exact share_le_sum (fun other => (ok.process other).shares.1) mem
  have sessionLe : (state.process id).sessionShare ≤ state.sessionVmem (cfg.session id) := by
    rw [ok.session]
    exact share_le_sum (fun other => (ok.process other).shares.2.2.1) (mem_members mem)
  exact ⟨proceed_moved (ok.process id) segmentLe ok.segment_lt sessionLe (ok.session_lt _) fits,
    proceed_kept, fun unexempted => ⟨unexempted, fun own =>
      ⟨proceed_unexempted own, proceed_allowed (ok.process id) own⟩⟩⟩

omit mem

theorem SegmentOk.begin {action} (idle : (state.process id).phase = .idle)
    (fits : fits cfg state (id, action) = true)
    (taken : state.begin cfg id action = some after) : Stepped cfg state id after := by
  have processOk := ok.process id
  have lt := ok.segment_lt
  have sessionLt := ok.session_lt (cfg.session id)
  have stepped : ∀ {proc exempted}, Moved cfg (state.process id) proc state.segmentVmemChunks
      (state.sessionVmem (cfg.session id)) state.segmentVmemChunks
      (state.sessionVmem (cfg.session id)) →
      (exempted = false → state.exempted = false ∧ Begun (state.process id) proc) →
      Stepped cfg state id { state.setProcess id proc with exempted } := by
    intro proc exempted moved begun
    have same : { state.setProcess id proc with exempted } = state.moved cfg id proc
        state.segmentVmemChunks (state.sessionVmem (cfg.session id)) exempted := by
      simp only [Segment.moved, Segment.setProcess, update_eq_self]
    rw [same]
    refine ⟨moved, by simp [adds, idle], fun unexempted => ?_⟩
    obtain ⟨pre, begun⟩ := begun unexempted
    exact ⟨pre, fun own => ⟨begun.unexempted own, begun.allowed idle⟩⟩
  cases action <;>
    simp only [Segment.begin, ite_none_left_eq_some, ite_none_right_eq_some,
      some.injEq, reduceCtorEq] at taken
  case init =>
    obtain ⟨ended, rfl⟩ := taken
    have ended := Bool.eq_false_of_not_eq_true ended
    refine stepped (init_moved processOk idle lt sessionLt ended)
      (⟨·, ?_, fun _ => ⟨rfl, rfl, rfl⟩, .inl rfl⟩)
    exact (processOk.ended idle ended).symm
  case reserveVmem bytes =>
    subst taken
    exact stepped (reserveVmem_moved processOk idle lt sessionLt fits)
      (⟨·, reserveVmem_begun idle bytes⟩)
  case releaseVmem bytes =>
    subst taken
    exact stepped (releaseVmem_moved processOk idle lt sessionLt bytes)
      (⟨·, releaseVmem_begun idle bytes⟩)
  case registerStartupMemory bytes =>
    obtain ⟨live, rfl⟩ := taken
    exact stepped (registerStartupMemory_moved processOk idle lt sessionLt live fits) (by simp)
  case unregisterStartupMemory =>
    obtain ⟨live, rfl⟩ := taken
    exact stepped (unregister_moved processOk idle lt sessionLt live)
      (⟨·, rfl, fun unexempted => { unexempted with }, .inr (.inr (.inr rfl))⟩)
  case shutdown =>
    obtain ⟨-, rfl⟩ := taken
    exact stepped (shutdown_moved processOk idle lt sessionLt)
      (⟨·, rfl, fun unexempted => { unexempted with }, .inr (.inr (.inl ⟨_, _, rfl⟩))⟩)
  case requestWaiver | startCritSection =>
    subst taken
    exact stepped (exemption_moved processOk idle lt sessionLt _ _) (by simp)
  case resetWaiver =>
    subst taken
    exact stepped (exemption_moved processOk idle lt sessionLt _ _)
      (⟨·, rfl, fun unexempted => { unexempted with waivedChunks := rfl }, .inl idle⟩)
  case endCritSection =>
    subst taken
    refine stepped (exemption_moved processOk idle lt sessionLt _ _)
      (⟨·, rfl, fun unexempted => { unexempted with critSectionCount := ?_ }, .inl idle⟩)
    simp [unexempted.critSectionCount]

end

section

variable {event : Nat × Action} (ok : SegmentOk cfg state)
  (taken : fittingStep cfg state event = some after)
include ok taken

theorem SegmentOk.stepped : event.1 ∈ cfg.processes ∧ Stepped cfg state event.1 after := by
  obtain ⟨id, _⟩ := event
  simp only [fittingStep, ite_none_right_eq_some] at taken
  obtain ⟨fits, taken⟩ := taken
  simp only [Segment.step, ite_none_left_eq_some, not_not] at taken
  obtain ⟨mem, taken⟩ := taken
  refine ⟨mem, ?_⟩
  by_cases idle : (state.process id).phase = .idle
  · rw [if_neg (not_not.mpr idle)] at taken
    exact ok.begin idle fits taken
  · rw [if_pos idle, ite_none_right_eq_some] at taken
    obtain ⟨rfl, taken⟩ := taken
    exact some.inj taken ▸ ok.proceed mem fits

theorem SegmentOk.step : SegmentOk cfg after := by
  obtain ⟨mem, ⟨moved, -, -⟩⟩ := ok.stepped taken
  exact ok.moved mem moved

/-- What is granted is in the counters, so it stays within the limits. -/
theorem SegmentOk.step_granted
    (limits : state.exempted = false → LimitsOk cfg segmentGrant sessionGrant state)
    (unexempted : after.exempted = false) : LimitsOk cfg segmentGrant sessionGrant after := by
  have ok' := ok.step taken
  obtain ⟨mem, ⟨-, -, allowed⟩⟩ := ok.stepped taken
  obtain ⟨pre, allowed⟩ := allowed unexempted
  obtain ⟨own, granted, -⟩ := allowed ((limits pre).unexempted _)
  refine (limits pre).moved mem own granted ok' fun _ other _ => ?_
  exact ⟨(ok'.process other).shares.2.1, (ok'.process other).shares.2.2.2⟩

/-- What is held is in the counters where no process is inside a release. -/
theorem SegmentOk.step_held
    (limits : state.exempted = false → LimitsOk cfg segmentHeld sessionHeld state)
    (orderly : orderly cfg state event)
    (unexempted : after.exempted = false) : LimitsOk cfg segmentHeld sessionHeld after := by
  have ok' := ok.step taken
  obtain ⟨mem, ⟨-, kept, allowed⟩⟩ := ok.stepped taken
  obtain ⟨pre, allowed⟩ := allowed unexempted
  obtain ⟨own, -, held⟩ := allowed ((limits pre).unexempted _)
  refine (limits pre).moved mem own held ok' fun adds other among => ?_
  rw [Greengage.Vmem.orderly, adds, Bool.not_true, Bool.false_or, decide_eq_true_eq] at orderly
  refine held_le_share (ok'.process other) ?_ ?_
  · exact (forall_update_iff _ fun _ => Unexempted).mpr
      ⟨own, fun other _ => (limits pre).unexempted other⟩ other
  · rcases eq_or_ne other event.1 with rfl | different
    · rw [update_self]
      exact kept adds
    · rw [update_of_ne different]
      exact orderly other among

end

/-! ## Between operations -/

def Segment.Quiet (state : Segment) (config : Config) : Prop :=
  ∀ id ∈ config.processes, (state.process id).phase = .idle

def Segment.live (state : Segment) (processes : Finset Nat) : Finset Nat :=
  processes.filter fun id => (state.process id).vmemTrackerInited = true

def Segment.trackedSum (state : Segment) (processes : Finset Nat) : Int :=
  ∑ id ∈ state.live processes, (state.process id).trackedVmemChunks

/-- The tracked chunks of the segment and of every session are within the limits. -/
def Segment.WithinLimits (state : Segment) (config : Config) : Prop :=
  state.trackedSum config.processes ≤ config.vmemChunksQuota ∧ (config.maxChunksPerQuery ≠ 0 →
    ∀ session, state.trackedSum (config.members session) ≤ config.maxChunksPerQuery)

theorem SegmentOk.sum_eq_trackedSum (ok : SegmentOk cfg state) (quiet : state.Quiet cfg)
    {processes : Finset Nat} (among : processes ⊆ cfg.processes) {share : Process → Int}
    (settled : ∀ proc : Process, proc.phase = .idle → share proc = proc.trackedVmemChunks) :
    ∑ id ∈ processes, share (state.process id) = state.trackedSum processes := by
  rw [trackedSum, live, sum_filter]
  refine sum_congr rfl fun id mem => ?_
  have idle := quiet id (among mem)
  rw [settled _ idle]
  split_ifs with live
  · rfl
  · exact (ok.process id).ended idle (Bool.eq_false_of_not_eq_true live)

theorem members_subset (sess) : cfg.members sess ⊆ cfg.processes :=
  filter_subset _ _

section

variable (ok : SegmentOk cfg state) (quiet : state.Quiet cfg)
include ok quiet

theorem SegmentOk.counters : state.segmentVmemChunks = state.trackedSum cfg.processes ∧
      ∀ sess, state.sessionVmem sess = state.trackedSum (cfg.members sess) := by
  constructor
  · rw [ok.segment]
    refine ok.sum_eq_trackedSum quiet (refl _) fun proc idle => ?_
    simp only [segmentShare, idle]
  · intro sess
    rw [ok.session sess]
    refine ok.sum_eq_trackedSum quiet (members_subset sess) fun proc idle => ?_
    simp only [sessionShare, idle]

theorem SegmentOk.bytes (mem : id ∈ cfg.processes) : (state.process id).trackedVmemChunks =
      (state.process id).trackedBytes / 2 ^ cfg.chunkSizeInBits := by
  have phaseOk := (ok.process id).phase
  simp only [PhaseOk, quiet id mem] at phaseOk
  rcases phaseOk with settled | ⟨-, noChunks, noBytes⟩
  · exact settled.chunks
  · rw [noChunks, noBytes, Int.zero_ediv]

theorem SegmentOk.withinLimits (limits : LimitsOk cfg segmentGrant sessionGrant state) :
    state.WithinLimits cfg := by
  constructor
  · rw [← ok.sum_eq_trackedSum quiet (refl _) fun proc idle => ?_]
    · exact limits.segment_le
    · simp only [segmentGrant, segmentShare, idle]
  · intro limited sess
    rw [← ok.sum_eq_trackedSum quiet (members_subset sess) fun proc idle => ?_]
    · exact limits.session_le limited sess
    · simp only [sessionGrant, sessionShare, idle]

end

/-- The processes that track chunks hold them. -/
theorem SegmentOk.trackedSum_le (ok : SegmentOk cfg state) {held : Process → Int}
    (covers : ∀ proc : Process, proc.ProcessOk cfg → proc.trackedVmemChunks ≤ held proc)
    (processes : Finset Nat) :
    state.trackedSum processes ≤ ∑ id ∈ processes, held (state.process id) := by
  rw [trackedSum, live, sum_filter]
  refine sum_le_sum fun id _ => ?_
  have := (ok.process id).chunks_nonneg
  have := covers _ (ok.process id)
  split_ifs <;> omega

/-- In every interleaving in which no counter leaves the range of its type the shared
counters are exact, and without waivers, critical sections and startup memory the limits
hold, whenever no process is inside an operation. The limits hold at every point if no
process adds to a counter while another one is inside a release. -/
theorem reachable_quota (config : Config) (state : Segment) :
    (Reachable (fittingStep config) .start state → state.Quiet config →
      state.segmentVmemChunks = state.trackedSum config.processes ∧
      (∀ session, state.sessionVmem session = state.trackedSum (config.members session)) ∧
      (∀ id ∈ config.processes, (state.process id).trackedVmemChunks =
        (state.process id).trackedBytes / 2 ^ config.chunkSizeInBits) ∧
      (state.exempted = false → state.WithinLimits config)) ∧
    (Reachable (orderlyStep config) .start state →
      state.exempted = false → state.WithinLimits config) := by
  constructor
  · intro reached quiet
    have ⟨ok, limits⟩ : Bounded config segmentGrant sessionGrant state :=
      reached.invariant ⟨segmentOk_start, fun _ => limitsOk_start rfl rfl⟩
        fun _ _ _ pre taken => ⟨pre.ok.step taken, pre.ok.step_granted taken pre.limits⟩
    exact ⟨(ok.counters quiet).1, (ok.counters quiet).2, fun _ mem => ok.bytes quiet mem,
      fun unexempted => ok.withinLimits quiet (limits unexempted)⟩
  · intro reached unexempted
    have ⟨ok, limits⟩ : Bounded config segmentHeld sessionHeld state :=
      reached.invariant ⟨segmentOk_start, fun _ => limitsOk_start rfl rfl⟩ fun _ _ _ pre taken => by
        obtain ⟨orderly, taken⟩ := ite_none_right_eq_some.mp taken
        exact ⟨pre.ok.step taken, pre.ok.step_held taken pre.limits orderly⟩
    have limits := limits unexempted
    exact ⟨(ok.trackedSum_le (fun _ => tracked_le_segmentHeld) _).trans limits.segment_le,
      fun limited sess => (ok.trackedSum_le (fun _ => tracked_le_sessionHeld) _).trans
        (limits.session_le limited sess)⟩

def sampleConfig : Config where
  chunkSizeInBits := 20
  vmemChunksQuota := 4
  maxChunksPerQuery := 3
  processes := {0, 1, 2}
  session := fun id => id / 2
  quota_range := by decide
  perQuery_range := by decide

/-- The steps of process `id` in an operation, one after another. -/
def operation (id : Nat) (action : Action) (steps : Nat) : List (Nat × Action) :=
  (id, action) :: List.replicate steps (id, .proceed)

def observe (state : Segment) : Bool × Int × List (Int × Int × Phase) :=
  (state.exempted, state.segmentVmemChunks, [0, 1, 2].map fun id =>
    ((state.process id).trackedVmemChunks, (state.process id).trackedBytes,
      (state.process id).phase))

/-- Two processes of a session reserve memory at the same time, the third one fails at the
limit of the segment and reserves less. -/
def interleavedEvents : List (Nat × Action) :=
  [(0, .init), (1, .init), (2, .init), (0, .reserveVmem (2 ^ 21)), (1, .reserveVmem (2 ^ 20)),
    (0, .proceed), (1, .proceed), (1, .proceed), (0, .proceed), (0, .proceed), (1, .proceed)] ++
  operation 2 (.reserveVmem (2 ^ 21)) 4 ++ operation 2 (.reserveVmem (2 ^ 20 + 5)) 3 ++
  operation 0 (.releaseVmem (2 ^ 20)) 3

theorem reachable_quota_interleaved :
    (∃ state, Reachable (fittingStep sampleConfig) .start state ∧
      observe state = (false, 3, [(1, 2 ^ 20, .idle), (1, 2 ^ 20, .idle), (1, 2 ^ 20 + 5, .idle)]) ∧
      state.segmentVmemChunks = state.trackedSum sampleConfig.processes) ∧
    ∃ state, Reachable (orderlyStep sampleConfig) .start state ∧
      observe state = (false, 3, [(2, 2 ^ 20, .subTracked 1 false), (1, 2 ^ 20, .idle),
        (1, 2 ^ 20 + 5, .idle)]) ∧ state.WithinLimits sampleConfig := by
  constructor
  · have run : (interleavedEvents.foldlM (fittingStep sampleConfig) .start).map observe =
        some (false, 3, [(1, 2 ^ 20, .idle), (1, 2 ^ 20, .idle), (1, 2 ^ 20 + 5, .idle)]) := by
      decide +kernel
    obtain ⟨state, reach, seen⟩ := Reachable.exists_of_run _ run
    have fields := seen
    simp only [observe, List.map_cons, List.map_nil, Prod.mk.injEq, List.cons.injEq,
      and_true] at fields
    obtain ⟨-, -, ⟨-, -, idle₀⟩, ⟨-, -, idle₁⟩, -, -, idle₂⟩ := fields
    have quiet : state.Quiet sampleConfig := by
      simp [Quiet, sampleConfig, idle₀, idle₁, idle₂]
    exact ⟨state, reach, seen, ((reachable_quota sampleConfig state).1 reach quiet).1⟩
  · have run : (interleavedEvents.dropLast.foldlM (orderlyStep sampleConfig) .start).map observe =
        some (false, 3, [(2, 2 ^ 20, .subTracked 1 false), (1, 2 ^ 20, .idle),
          (1, 2 ^ 20 + 5, .idle)]) := by decide +kernel
    obtain ⟨state, reach, seen⟩ := Reachable.exists_of_run _ run
    exact ⟨state, reach, seen, (reachable_quota sampleConfig state).2 reach (congrArg (·.1) seen)⟩

/-- What goes wrong without the condition, and inside a release. A request of 2 ^ 52 bytes is
granted without a chunk, since its 2 ^ 32 chunks are 0 as an `int32`. A request of
2 ^ 31 - 1 chunks is granted when one chunk is in use, since the new totals are negative.
A process that has given back a chunk to the counters has not yet subtracted it from
`trackedVmemChunks` when another one is granted it. -/
theorem quota_exceeded : (∃ state, Reachable (Segment.step sampleConfig) .start state ∧
      observe state = (false, 0, [(0, 2 ^ 52, .idle), (0, 0, .idle), (0, 0, .idle)])) ∧
    (∃ state, Reachable (Segment.step sampleConfig) .start state ∧
      observe state = (false, -2 ^ 31, [(1, 2 ^ 20, .idle),
        (2 ^ 31 - 1, (2 ^ 31 - 1) * 2 ^ 20, .idle), (0, 0, .idle)])) ∧
    (∃ state, Reachable (Segment.step sampleConfig) .start state ∧
      observe state = (false, 4, [(3, 2 ^ 21, .subTracked 1 false), (0, 0, .idle),
        (2, 2 ^ 21, .idle)])) := by
  refine ⟨Reachable.exists_of_run ((0, .init) :: operation 0 (.reserveVmem (2 ^ 52)) 0) ?_,
    Reachable.exists_of_run ((0, .init) :: operation 0 (.reserveVmem (2 ^ 20)) 3 ++
      (1, .init) :: operation 1 (.reserveVmem ((2 ^ 31 - 1) * 2 ^ 20)) 3) ?_,
    Reachable.exists_of_run ((0, .init) :: operation 0 (.reserveVmem (3 * 2 ^ 20)) 3 ++
      operation 0 (.releaseVmem (2 ^ 20)) 2 ++
      (2, .init) :: operation 2 (.reserveVmem (2 ^ 21)) 3) ?_⟩
  -- the chunks are truncated, they overflow, or they are taken back after their bytes
  all_goals decide +kernel

end Greengage.Vmem
