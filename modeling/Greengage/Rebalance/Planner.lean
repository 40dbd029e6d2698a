import Greengage.Rebalance.Greedy
import Mathlib.Algebra.Order.Ring.Unbundled.Rat
import Mathlib.Data.List.SplitBy

/-!
Contract: the plan of a rebalance, `Planner.form_moves` with its `PortAllocator` in
`planner.py`.

Owns: the encoding of the cluster for the solver, the moves that a solution asks for, the
ports they get, the detection of swaps and of one-way conflicts, the detour of a swap through
an intermediate host, and the order of the moves.

Does not own: the solution itself, and the space on the hosts. The answers of the port checks,
the outcome of the resource estimation and the scores of the intermediate hosts are inputs.
An address is a function of the host name and is left out.
-/

namespace Greengage.Rebalance

open Function

inductive Role
  | primary
  | mirror
deriving DecidableEq

/-- A row of `gp_segment_configuration`. -/
structure Segment (segments : Nat) where
  dbid : Nat
  content : Fin segments
  role : Role
  preferredRole : Role
  hostname : String
  datadir : String
  port : Nat
deriving DecidableEq

def Segment.isSegmentMirror {segments : Nat} (seg : Segment segments) : Bool :=
  seg.preferredRole = .mirror

inductive HostStatus
  | active
  | new
  | decommissioned
deriving DecidableEq

def HostStatus.value : HostStatus → Nat
  | .active => 1
  | .new => 2
  | .decommissioned => 3

structure Host where
  hostname : String
  status : HostStatus
deriving DecidableEq

structure LogicalMove (segments : Nat) where
  seg : Segment segments
  srcHost : Host
  dstHost : Host
  targetDatadir : String
  targetPort : Nat
deriving DecidableEq

/-- What the planner raises. -/
inductive PlanError
  | validation (message : String)
  | planning (message : String)
deriving DecidableEq

/-! ### Ports -/

/-- `PortAllocator`. The base ports of a host are those of its primaries and of its mirrors;
`checks` counts the commands that have asked a host for a free port. -/
structure PortAllocator where
  existingPorts : String → List Nat
  plannedPorts : String → List Nat
  basePorts : String → Option Nat × Option Nat
  checks : Nat

/-- What the hosts answer: whether ports are verified at all, and the answer to each
`PortIsAvailable` command, `none` when the command fails. -/
structure PortChecks where
  verifyPorts : Bool
  answer : Nat → Option Bool

namespace PortAllocator

def addExisting (allocator : PortAllocator) (hostname : String) (port : Nat) : PortAllocator :=
  { allocator with
    existingPorts := update allocator.existingPorts hostname
      (port :: allocator.existingPorts hostname) }

def addPlanned (allocator : PortAllocator) (hostname : String) (port : Nat) : PortAllocator :=
  { allocator with
    plannedPorts := update allocator.plannedPorts hostname
      (port :: allocator.plannedPorts hostname) }

def setBase (allocator : PortAllocator) (hostname : String) (isMirror : Bool) (port : Nat) :
    PortAllocator :=
  let (primaryBase, mirrorBase) := allocator.basePorts hostname
  { allocator with
    basePorts := update allocator.basePorts hostname
      (if isMirror then (primaryBase, some port) else (some port, mirrorBase)) }

def baseOf (allocator : PortAllocator) (hostname : String) (isMirror : Bool) : Option Nat :=
  if isMirror then (allocator.basePorts hostname).2 else (allocator.basePorts hostname).1

def isPortAvailable (allocator : PortAllocator) (hostname : String) (port : Nat) : Bool :=
  port ∉ allocator.existingPorts hostname ∧ port ∉ allocator.plannedPorts hostname

variable (env : PortChecks)

def checkPortOnHost (allocator : PortAllocator) (host : Host) (port : Nat) :
    Except PlanError (Bool × PortAllocator) :=
  if env.verifyPorts then
    match env.answer allocator.checks with
    | none => .error (.planning s!"Failed to verify port {port} on {host.hostname}")
    | some free => .ok (free, { allocator with checks := allocator.checks + 1 })
  else .ok (true, allocator)

/-- The loop of `_find_verified_port`; a port that turns out to be in use is remembered. -/
def findVerifiedPort (host : Host) (startPort : Nat) :
    Nat → Nat → PortAllocator → Except PlanError (Nat × PortAllocator)
  | 0, _, _ => .error (.planning
      s!"Cannot find available port on host {host.hostname} after 1000 attempts starting from {startPort}")
  | attempts + 1, candidatePort, allocator =>
    if allocator.isPortAvailable host.hostname candidatePort then do
      let (free, allocator) ← checkPortOnHost env allocator host candidatePort
      if free then return (candidatePort, allocator)
      else
        findVerifiedPort host startPort attempts (candidatePort + 1)
          (allocator.addExisting host.hostname candidatePort)
    else findVerifiedPort host startPort attempts (candidatePort + 1) allocator

def maxAttempts : Nat := 1000

def findNextAvailablePort (allocator : PortAllocator) (host : Host) (preferredPort : Nat)
    (isMirror : Bool) : Except PlanError (Nat × PortAllocator) := do
  let basePort := (allocator.baseOf host.hostname isMirror).getD preferredPort
  let allocator :=
    if (allocator.baseOf host.hostname isMirror).isNone then
      allocator.setBase host.hostname isMirror basePort
    else allocator
  let (candidatePort, allocator) ← findVerifiedPort env host basePort maxAttempts basePort allocator
  return (candidatePort, allocator.addPlanned host.hostname candidatePort)

def verifyAndAllocatePort (allocator : PortAllocator) (host : Host) (preferredPort : Nat) :
    Except PlanError (Nat × PortAllocator) :=
  if allocator.isPortAvailable host.hostname preferredPort then do
    let (free, allocator) ← checkPortOnHost env allocator host preferredPort
    if free then return (preferredPort, allocator)
    else
      findVerifiedPort env host (preferredPort + 1) maxAttempts (preferredPort + 1)
        (allocator.addExisting host.hostname preferredPort)
  else findVerifiedPort env host (preferredPort + 1) maxAttempts (preferredPort + 1) allocator

/-- `_allocate_port_new_host`: the first segment of a role sets the base port. -/
def allocatePortNewHost (allocator : PortAllocator) (host : Host) (currentPort : Nat)
    (isMirror : Bool) : Except PlanError (Nat × PortAllocator) :=
  if (allocator.baseOf host.hostname isMirror).isNone then do
    let (port, allocator) ← verifyAndAllocatePort env allocator host currentPort
    return (port, (allocator.setBase host.hostname isMirror port).addPlanned host.hostname port)
  else findNextAvailablePort env allocator host currentPort isMirror

/-- `_allocate_port_existing_host`: the segment keeps its port if it is free there. -/
def allocatePortExistingHost (allocator : PortAllocator) (host : Host) (currentPort : Nat)
    (isMirror : Bool) : Except PlanError (Nat × PortAllocator) :=
  if allocator.isPortAvailable host.hostname currentPort then do
    let (free, allocator) ← checkPortOnHost env allocator host currentPort
    if free then return (currentPort, allocator.addPlanned host.hostname currentPort)
    else findNextAvailablePort env allocator host currentPort isMirror
  else findNextAvailablePort env allocator host currentPort isMirror

def allocatePort (allocator : PortAllocator) (host : Host) (currentPort : Nat)
    (isMirror : Bool) : Except PlanError (Nat × PortAllocator) :=
  if host.status = .new then allocatePortNewHost env allocator host currentPort isMirror
  else allocatePortExistingHost env allocator host currentPort isMirror

end PortAllocator

/-- The cluster as the planner sees it, `virtual_gparray`, with the hosts and the options.
Every host of a segment is one of the hosts, and the name of a host occurs once. -/
structure Planner (segments : Nat) where
  db : Fin segments → Role → Segment segments
  targetHosts : List Host
  hostSetChanged : Bool
  strategy : Strategy
  skipResourceEstimation : Bool
  inplaceSwapRoles : Bool
  /-- `_get_datadir_for_segment` -/
  datadirForSegment : Host → Fin segments → Bool → String
  content_db : ∀ content role, (db content role).content = content
  preferredRole_db : ∀ content role, (db content role).preferredRole = role
  dbid_injective : ∀ content role content' role',
    (db content role).dbid = (db content' role').dbid → content = content' ∧ role = role'
  hostnames_nodup : (targetHosts.map Host.hostname).Nodup
  hostname_mem : ∀ content role, (db content role).hostname ∈ targetHosts.map Host.hostname

/-- What the planner learns from outside: the answers about ports, the failure of the resource
estimation if there is one, and for a content the score of a host as an intermediate stop,
`none` when it lacks the space. -/
structure Surroundings (segments : Nat) where
  answer : Nat → Option Bool
  resourceError : Option String
  score : Fin segments → Host → Option ℚ

variable {segments : Nat}

namespace Planner

variable (planner : Planner segments)

/-- `getSegDbList` -/
def segDbList : List (Segment segments) :=
  (List.finRange segments).flatMap fun content =>
    [planner.db content .primary, planner.db content .mirror]

def sortedHosts : List Host :=
  planner.targetHosts.insertionSort fun host other => host.status.value ≤ other.status.value

def targetCount : Nat :=
  planner.targetHosts.countP fun host => host.status ≠ .decommissioned

theorem hostname_mem_sortedHosts (cid role) : ∃ host ∈ planner.sortedHosts,
      decide (host.hostname = (planner.db cid role).hostname) = true := by
  obtain ⟨host, mem, same⟩ := List.mem_map.mp (planner.hostname_mem cid role)
  exact ⟨host, (List.mem_insertionSort _).mpr mem, decide_eq_true same⟩

/-- The host number of a segment, by `host_mapping`. -/
def hostId (content : Fin segments) (role : Role) : Fin planner.sortedHosts.length :=
  ⟨planner.sortedHosts.findIdx fun host => host.hostname = (planner.db content role).hostname,
    List.findIdx_lt_length_of_exists (planner.hostname_mem_sortedHosts content role)⟩

def encodeConfiguration : SolverConfig segments planner.targetCount planner.sortedHosts.length where
  initialPrimaryMapping content := planner.hostId content .primary
  initialMirrorMapping content := planner.hostId content .mirror
  strategy := planner.strategy

theorem targetCount_le : planner.targetCount ≤ planner.sortedHosts.length := by
  rw [sortedHosts, List.length_insertionSort]
  exact List.countP_le_length

def finalHostId (solution : Placement segments planner.targetCount) (content : Fin segments)
    (role : Role) : Fin planner.sortedHosts.length :=
  match role with
  | .primary => (solution.primary content).castLE planner.targetCount_le
  | .mirror => (solution.mirror content).castLE planner.targetCount_le

def idToHost (id : Fin planner.sortedHosts.length) : Host :=
  planner.sortedHosts.get id

/-- `_initialize_from_array` -/
def portAllocator : PortAllocator where
  existingPorts hostname :=
    (planner.segDbList.filter fun seg => seg.hostname = hostname).map Segment.port
  plannedPorts _ := []
  basePorts hostname :=
    let ports (isMirror : Bool) := (planner.segDbList.filter fun seg =>
      seg.hostname = hostname ∧ seg.isSegmentMirror = isMirror).map Segment.port
    ((ports false).min?, (ports true).min?)
  checks := 0

variable (env : Surroundings segments)

def portChecks : PortChecks where
  verifyPorts := !planner.skipResourceEstimation
  answer := env.answer

/-- The variables of the planning: the allocator and the moves so far. -/
structure Planning (segments : Nat) where
  allocator : PortAllocator
  moves : List (LogicalMove segments)

/-- The body of the loop over the segments. -/
def planSegment (solution : Placement segments planner.targetCount) (state : Planning segments)
    (seg : Segment segments) : Except PlanError (Planning segments) :=
  let role := if seg.isSegmentMirror then Role.mirror else Role.primary
  let hostId := planner.hostId seg.content role
  let finalHostId := planner.finalHostId solution seg.content role
  if hostId ≠ finalHostId then do
    let sourceHost := planner.idToHost hostId
    let targetHost := planner.idToHost finalHostId
    let targetDatadir := planner.datadirForSegment targetHost seg.content seg.isSegmentMirror
    let (targetPort, allocator) ← state.allocator.allocatePort (planner.portChecks env)
      targetHost seg.port seg.isSegmentMirror
    return ⟨allocator, state.moves ++ [⟨seg, sourceHost, targetHost, targetDatadir, targetPort⟩]⟩
  else return state

def planSegments (solution : Placement segments planner.targetCount) :
    Except PlanError (Planning segments) :=
  planner.segDbList.foldlM (planner.planSegment env solution) ⟨planner.portAllocator, []⟩

end Planner

/-- The keys of `moves_by_content`, in the order of their first move. -/
def movedContents (moves : List (LogicalMove segments)) : List (Fin segments) :=
  (moves.map fun move => move.seg.content).reverse.dedup.reverse

/-- The entry of `moves_by_content`: the last move of a content in a role. -/
def moveOf (moves : List (LogicalMove segments)) (content : Fin segments) (isMirror : Bool) :
    Option (LogicalMove segments) :=
  moves.reverse.find? fun move =>
    move.seg.content = content ∧ move.seg.isSegmentMirror = isMirror

def movedPairs (moves : List (LogicalMove segments)) :
    List (LogicalMove segments × LogicalMove segments) :=
  (movedContents moves).filterMap fun content => do
    let primMove ← moveOf moves content false
    let mirMove ← moveOf moves content true
    return (primMove, mirMove)

def detectSwapPairs (moves : List (LogicalMove segments)) :
    List (LogicalMove segments × LogicalMove segments) :=
  (movedPairs moves).filter fun (primMove, mirMove) =>
    primMove.seg.hostname = mirMove.dstHost.hostname ∧
      primMove.dstHost.hostname = mirMove.seg.hostname

def dbidsOf (pairs : List (LogicalMove segments × LogicalMove segments)) : List Nat :=
  pairs.flatMap fun (primMove, mirMove) => [primMove.seg.dbid, mirMove.seg.dbid]

def detectConflictPairs (moves : List (LogicalMove segments)) (swapDbids : List Nat) :
    List (LogicalMove segments × LogicalMove segments) :=
  (movedPairs (moves.filter fun move => move.seg.dbid ∉ swapDbids)).filter
    fun (primMove, mirMove) => mirMove.dstHost.hostname = primMove.seg.hostname

def groupPlainMoves (moves : List (LogicalMove segments)) : List (LogicalMove segments) :=
  (moves.filter fun move => move.seg.isSegmentMirror) ++
    moves.filter fun move => !move.seg.isSegmentMirror

def groupSwapMoves (allMoves : List (LogicalMove segments)) (swapDbids : List Nat)
    (phase1 phase2 phase3 : List (LogicalMove segments)) : List (LogicalMove segments) :=
  let nonSwap := allMoves.filter fun move => move.seg.dbid ∉ swapDbids
  (nonSwap.filter fun move => move.seg.isSegmentMirror) ++ phase1 ++
    (nonSwap.filter fun move => !move.seg.isSegmentMirror) ++ phase2 ++ phase3

def groupConflictMoves (moves : List (LogicalMove segments))
    (conflictPairs : List (LogicalMove segments × LogicalMove segments)) :
    List (LogicalMove segments) :=
  let conflictMirrorDbids := conflictPairs.map fun (_, mirMove) => mirMove.seg.dbid
  (moves.filter fun move => move.seg.isSegmentMirror ∧ move.seg.dbid ∉ conflictMirrorDbids) ++
    (moves.filter fun move => !move.seg.isSegmentMirror) ++
    (moves.filter fun move => move.seg.isSegmentMirror ∧ move.seg.dbid ∈ conflictMirrorDbids)

namespace Planner

variable (planner : Planner segments) (env : Surroundings segments)

/-- `select_intermediate_host`: the best of the hosts in use that neither segment goes to. -/
def selectIntermediateHost (primaryMove mirrorMove : LogicalMove segments) :
    Except PlanError Host :=
  let content := primaryMove.seg.content
  let excludedHosts := [primaryMove.dstHost.hostname, mirrorMove.dstHost.hostname]
  let candidates := planner.targetHosts.filter fun host =>
    host.status ∈ [HostStatus.active, .new] ∧ host.hostname ∉ excludedHosts
  if candidates.isEmpty then .error (.planning
    s!"No intermediate host available for swap of content {content}. Need at least 3 hosts to perform swaps safely. Or you may allow primary-mirror coexistence by --inplace-swap-roles.")
  else
    let scoredCandidates := candidates.filter fun host => (env.score content host).isSome
    match scoredCandidates.argmax fun host => (env.score content host).getD 0 with
    | none => .error (.planning
        s!"No suitable intermediate host found for swap of content {content}. Need at least 3 hosts with sufficient space to perform swaps safely.")
    | some host => .ok host

structure Phases (segments : Nat) where
  allocator : PortAllocator
  phase1 : List (LogicalMove segments)
  phase2 : List (LogicalMove segments)
  phase3 : List (LogicalMove segments)

/-- `decompose_swap`, with the three moves added to the phases. -/
def decomposeSwap (phases : Phases segments) (primaryMove mirrorMove : LogicalMove segments)
    (intermediateHost : Host) : Except PlanError (Phases segments) := do
  let content := primaryMove.seg.content
  let intermediateDatadir := planner.datadirForSegment intermediateHost content true
  let (intermediatePort, allocator) ← phases.allocator.allocatePort (planner.portChecks env)
    intermediateHost mirrorMove.seg.port true
  let (finalPort, allocator) ← allocator.allocatePort (planner.portChecks env)
    mirrorMove.dstHost mirrorMove.seg.port true
  let intermediateSeg := { mirrorMove.seg with
    hostname := intermediateHost.hostname
    datadir := intermediateDatadir
    port := intermediatePort }
  return {
    allocator := allocator
    phase1 := phases.phase1 ++
      [⟨mirrorMove.seg, mirrorMove.srcHost, intermediateHost, intermediateDatadir, intermediatePort⟩]
    phase2 := phases.phase2 ++ [primaryMove]
    phase3 := phases.phase3 ++
      [⟨intermediateSeg, intermediateHost, mirrorMove.dstHost, mirrorMove.targetDatadir, finalPort⟩] }

/-- The body of the loop of `decompose_swap_pairs`. -/
def decomposeSwapPair (phases : Phases segments)
    (pair : LogicalMove segments × LogicalMove segments) : Except PlanError (Phases segments) :=
  let attempt := do
    let intermediateHost ← planner.selectIntermediateHost env pair.1 pair.2
    planner.decomposeSwap env phases pair.1 pair.2 intermediateHost
  match attempt with
  | .ok phases => .ok phases
  | .error (.planning message) | .error (.validation message) => .error (.planning
      s!"Failed to plan swap for content {pair.1.seg.content}: {message}")

def decomposeSwapPairs (allocator : PortAllocator)
    (pairs : List (LogicalMove segments × LogicalMove segments)) :
    Except PlanError (Phases segments) :=
  pairs.foldlM (planner.decomposeSwapPair env) ⟨allocator, [], [], []⟩

/-- The checks at the beginning of `form_moves`. -/
def validate : Except PlanError Unit :=
  if ∃ content, (planner.db content .primary).role ≠ .primary ∧
      (planner.db content .mirror).role ≠ .mirror then
    .error (.validation "Current role does not match preferred role for several segments.")
  else if planner.targetCount < 2 then
    .error (.validation "Cannot perform rebalance at 1 host")
  else if segments % planner.targetCount ≠ 0 then
    .error (.validation
      s!"Cannot evenly distribute {segments} segments across {planner.targetCount} hosts.")
  else if planner.strategy = .spread ∧ planner.targetCount - 1 < segments / planner.targetCount then
    .error (.validation
      "Cannot provide spread mirroring. Specify other mirroring strategy via -m option")
  else .ok ()

/-- `already_balanced`: on each host that has some, there are as many primaries and mirrors as
there should be. -/
def alreadyBalanced (load : Nat) : Bool :=
  (List.finRange segments).all fun content =>
    (planner.db content .mirror).hostname ≠ (planner.db content .primary).hostname &&
    [Role.primary, .mirror].all fun role =>
      (List.finRange segments).countP (fun other =>
        (planner.db other role).hostname = (planner.db content role).hostname) = load

/-- The moves in order, once they are known. -/
def orderMoves (planned : Planning segments) : Except PlanError (List (LogicalMove segments)) :=
  let swapPairs := if planner.inplaceSwapRoles then [] else detectSwapPairs planned.moves
  let conflictPairs := if planner.inplaceSwapRoles then []
    else detectConflictPairs planned.moves (dbidsOf swapPairs)
  if swapPairs ≠ [] then do
    let phases ← planner.decomposeSwapPairs env planned.allocator (swapPairs ++ conflictPairs)
    return groupSwapMoves planned.moves (dbidsOf (swapPairs ++ conflictPairs))
      phases.phase1 phases.phase2 phases.phase3
  else if conflictPairs ≠ [] then return groupConflictMoves planned.moves conflictPairs
  else return groupPlainMoves planned.moves

/-- `form_moves` for the solution that the solver has found; `none` when nothing has to be
moved. -/
def formMoves (solution : Placement segments planner.targetCount) :
    Except PlanError (Option (List (LogicalMove segments))) := do
  planner.validate
  if !planner.hostSetChanged && planner.alreadyBalanced (segments / planner.targetCount) then
    return none
  let planned ← planner.planSegments env solution
  if planned.moves = [] then return none
  match planner.skipResourceEstimation, env.resourceError with
  | false, some message => .error (.planning s!"Resource validation failed: {message}")
  | _, _ => return some (← planner.orderMoves env planned)

end Planner

/-- Where the segments are: the host name and the port of each. -/
abbrev Locations (segments : Nat) := Fin segments → Role → String × Nat

def LogicalMove.role (move : LogicalMove segments) : Role :=
  if move.seg.isSegmentMirror then .mirror else .primary

def LogicalMove.target (move : LogicalMove segments) : String × Nat :=
  (move.dstHost.hostname, move.targetPort)

def carryOut (locations : Locations segments) (move : LogicalMove segments) : Locations segments :=
  update locations move.seg.content (update (locations move.seg.content) move.role move.target)

def batches (moves : List (LogicalMove segments)) : List (List (LogicalMove segments)) :=
  moves.splitBy fun move next => move.seg.role = next.seg.role

/-- An order in which the moves of a plan can be carried out: the batches one after another, the
moves of a batch in any order. -/
def Admissible (moves order : List (LogicalMove segments)) : Prop :=
  ∃ permuted, List.Forall₂ List.Perm (batches moves) permuted ∧ order = permuted.flatten

def Planner.locations (planner : Planner segments) : Locations segments :=
  fun content role => ((planner.db content role).hostname, (planner.db content role).port)

end Greengage.Rebalance
