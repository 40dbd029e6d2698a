import Greengage.Foundations.Loads
import Mathlib.Algebra.BigOperators.Fin

/-!
Contract: the greedy construction of a balanced placement, `GreedySolver` in `solver.py`.

Owns: the configuration and its checks, the balancing of the primaries, the two strategies
for the mirrors with their fallbacks, the cost and the final validation. A segment or host
number is an element of `Fin`, so every index of the source is in range by its type; the
entry `-1` of a mapping is `none`, and its use as a host is an error of its own.

Does not own: the search that improves the placement.
-/

namespace Greengage.Rebalance

open Function

/-- Loads are compared by the order that can be evaluated. -/
scoped instance (priority := 2000) intPreorder : Preorder Int := Int.instLinearOrder.toPreorder

inductive Strategy
  | grouped
  | spread
deriving DecidableEq

/-- What a solver raises. -/
inductive SolverError
  | valueError (message : String)
  | keyError
  | assertionError
  | unassigned
deriving DecidableEq

/-- `SolverConfig`; the numbers of segments, of target hosts and of initial hosts are the
parameters of the type. -/
structure SolverConfig (segments hosts initialHosts : Nat) where
  initialPrimaryMapping : Fin segments → Fin initialHosts
  initialMirrorMapping : Fin segments → Fin initialHosts
  strategy : Strategy

/-- A `Solution`. -/
structure Placement (segments hosts : Nat) where
  primary : Fin segments → Fin hosts
  mirror : Fin segments → Fin hosts

variable {segments hosts initialHosts : Nat}

/-- A mapping without entries `-1`. -/
def complete (mapping : Fin segments → Option (Fin hosts)) :
    Except SolverError (Fin segments → Fin hosts) :=
  if full : ∀ seg, (mapping seg).isSome = true then
    .ok fun seg => (mapping seg).get (full seg)
  else .error .unassigned

def groupOf (primary : Fin segments → Fin hosts) (host : Fin hosts) : List (Fin segments) :=
  (List.finRange segments).filter fun seg => primary seg = host

/-- The keys of `groups`, in the order in which the segments mention them first. -/
def groupHosts (primary : Fin segments → Fin hosts) : List (Fin hosts) :=
  ((List.finRange segments).map primary).reverse.dedup.reverse

namespace SolverConfig

variable (config : SolverConfig segments hosts initialHosts)

def targetPrimaryLoad (_config : SolverConfig segments hosts initialHosts) : Nat :=
  segments / hosts

/-- The checks of `GreedySolver.__init__`. -/
def init : Except SolverError Unit :=
  if hosts < 2 then .error (.valueError "Cannot balance to single host")
  else if segments % hosts ≠ 0 then
    .error (.valueError s!"Cannot evenly distribute {segments}segments across {hosts} hosts")
  else if config.strategy = .spread ∧ hosts - 1 < config.targetPrimaryLoad then
    .error (.valueError "Cannot follow spread mirroring strategy")
  else .ok ()

def isDecomissioned (_config : SolverConfig segments hosts initialHosts)
    (host : Fin initialHosts) : Bool :=
  hosts ≤ host.val

def onTarget (_config : SolverConfig segments hosts initialHosts) (host : Fin initialHosts) :
    Option (Fin hosts) :=
  if inside : host.val < hosts then some ⟨host.val, inside⟩ else none

def initialLoad (host : Fin initialHosts) : Nat :=
  if config.isDecomissioned host then 0
  else (List.finRange segments).countP fun seg => config.initialPrimaryMapping seg = host

def mustMove (seg : Fin segments) : Bool :=
  config.isDecomissioned (config.initialPrimaryMapping seg) ||
    decide (config.targetPrimaryLoad < config.initialLoad (config.initialPrimaryMapping seg))

def Before (seg other : Fin segments) : Prop :=
  config.mustMove seg = true ∧ config.mustMove other = false ∨
    config.mustMove seg = config.mustMove other ∧
      config.initialLoad (config.initialPrimaryMapping other) ≤
        config.initialLoad (config.initialPrimaryMapping seg)

instance : DecidableRel config.Before := fun _ _ =>
  inferInstanceAs (Decidable (_ ∧ _ ∨ _ ∧ _))

def segmentOrder : List (Fin segments) :=
  (List.finRange segments).insertionSort config.Before

structure Balancing (segments hosts : Nat) where
  primaryMapping : Fin segments → Option (Fin hosts)
  currentLoad : Fin hosts → Nat
  deficit : Fin hosts → Int

def startBalancing : Balancing segments hosts where
  primaryMapping _ := none
  currentLoad _ := 0
  deficit host :=
    if inside : host.val < initialHosts then
      (config.targetPrimaryLoad : Int) - config.initialLoad ⟨host.val, inside⟩
    else config.targetPrimaryLoad

/-- The host for a segment: its original one while there is room, else the one with the
largest deficit. -/
def primaryHost (state : Balancing segments hosts) (seg : Fin segments) : Option (Fin hosts) :=
  match config.onTarget (config.initialPrimaryMapping seg) with
  | some host =>
    if state.currentLoad host < config.targetPrimaryLoad then some host
    else (List.finRange hosts).argmax state.deficit
  | none => (List.finRange hosts).argmax state.deficit

def placePrimary (state : Balancing segments hosts) (seg : Fin segments) :
    Except SolverError (Balancing segments hosts) :=
  match config.primaryHost state seg with
  | none => .error (.valueError "max() arg is an empty sequence")
  | some host => .ok
      { primaryMapping := update state.primaryMapping seg (some host)
        currentLoad := update state.currentLoad host (state.currentLoad host + 1)
        deficit := update state.deficit host (state.deficit host - 1) }

def balancePrimaries : Except SolverError (Fin segments → Option (Fin hosts)) :=
  (config.segmentOrder.foldlM config.placePrimary config.startBalancing).map
    Balancing.primaryMapping

/-! ### Phase 2: mirrors, grouped -/

/-- `preferences[p_host][m_host]`. -/
def mirrorUses (primary : Fin segments → Fin hosts) (pHost mHost : Fin hosts) : Nat :=
  (groupOf primary pHost).countP fun seg =>
    config.onTarget (config.initialMirrorMapping seg) = some mHost ∧ mHost ≠ pHost

def strongestUse (primary : Fin segments → Fin hosts) (pHost : Fin hosts) : Nat :=
  ((List.finRange hosts).map (config.mirrorUses primary pHost)).foldl max 0

def sortedPHosts (primary : Fin segments → Fin hosts) : List (Fin hosts) :=
  (groupHosts primary).insertionSort fun pHost other =>
    config.strongestUse primary other ≤ config.strongestUse primary pHost

/-- The variables of the loop over the groups. The dictionary `phost_to_mhost` is the list of
its keys, in the order of insertion, with its values. -/
structure Grouping (segments hosts : Nat) where
  mirrorMapping : Fin segments → Option (Fin hosts)
  mirrorLoad : Fin hosts → Int
  assigned : List (Fin hosts)
  mirrorOf : Fin hosts → Option (Fin hosts)

def startGrouping : Grouping segments hosts where
  mirrorMapping _ := none
  mirrorLoad _ := 0
  assigned := []
  mirrorOf _ := none

section

variable (primary : Fin segments → Fin hosts) (state : Grouping segments hosts)

def fits (mHost : Fin hosts) (groupSize : Nat) : Bool :=
  state.mirrorLoad mHost + groupSize ≤ config.targetPrimaryLoad

def contention (pHost mHost : Fin hosts) : Nat :=
  (((groupHosts primary).filter fun other => other ≠ pHost ∧ other ∉ state.assigned).map
    fun other => config.mirrorUses primary other mHost).sum

/-- The most used original mirror host with room. -/
def usedMirrorHost (pHost : Fin hosts) : Option (Fin hosts) :=
  (((List.finRange hosts).filter fun mHost =>
      0 < config.mirrorUses primary pHost mHost ∧
        config.fits state mHost (groupOf primary pHost).length).insertionSort
    fun mHost other =>
      [-(config.mirrorUses primary pHost mHost : Int), config.contention primary state pHost mHost,
        state.mirrorLoad mHost, (mHost.val : Int)] ≤
      [-(config.mirrorUses primary pHost other : Int), config.contention primary state pHost other,
        state.mirrorLoad other, (other.val : Int)]).head?

def leastLoadedHost (pHost : Fin hosts) : Option (Fin hosts) :=
  (((List.finRange hosts).filter fun mHost =>
      mHost ≠ pHost ∧ config.fits state mHost (groupOf primary pHost).length).insertionSort
    fun mHost other =>
      [(config.contention primary state pHost mHost : Int), state.mirrorLoad mHost,
        (mHost.val : Int)] ≤
      [(config.contention primary state pHost other : Int), state.mirrorLoad other,
        (other.val : Int)]).head?

/-- The other group is moved to an alternative mirror host, away from its current one. -/
def moveGroup (other currentMirrorHost alternative : Fin hosts) : Grouping segments hosts :=
  let otherSize : Int := (groupOf primary other).length
  let removed := update state.mirrorLoad currentMirrorHost
    (state.mirrorLoad currentMirrorHost - otherSize)
  { state with
    mirrorMapping := fun seg =>
      if primary seg = other then some alternative else state.mirrorMapping seg
    mirrorLoad := update removed alternative (removed alternative + otherSize)
    mirrorOf := update state.mirrorOf other (some alternative) }

/-- `_swap_to_resolve_deadlock`: the freed mirror host, with the variables after the move. -/
def swapToResolveDeadlock (blocked : Fin hosts) : Option (Fin hosts × Grouping segments hosts) :=
  state.assigned.findSome? fun other =>
    if other = blocked then none
    else
      (state.mirrorOf other).bind fun currentMirrorHost =>
        let otherSize := (groupOf primary other).length
        ((List.finRange hosts).find? fun mHost =>
            mHost ≠ other ∧ config.fits state mHost otherSize).bind fun alternative =>
          if (config.targetPrimaryLoad : Int) <
              state.mirrorLoad currentMirrorHost - otherSize + (groupOf primary blocked).length then
            none
          else
            some (currentMirrorHost, moveGroup primary state other currentMirrorHost alternative)

def selectGroupMirror (pHost : Fin hosts) : Option (Fin hosts × Grouping segments hosts) :=
  match config.usedMirrorHost primary state pHost with
  | some mHost => some (mHost, state)
  | none =>
    match config.leastLoadedHost primary state pHost with
    | some mHost => some (mHost, state)
    | none => config.swapToResolveDeadlock primary state pHost

def assignGroup (pHost mHost : Fin hosts) : Grouping segments hosts where
  mirrorMapping seg := if primary seg = pHost then some mHost else state.mirrorMapping seg
  mirrorLoad := update state.mirrorLoad mHost
    (state.mirrorLoad mHost + (groupOf primary pHost).length)
  assigned := state.assigned ++ [pHost]
  mirrorOf := update state.mirrorOf pHost (some mHost)

end

def fillNaiveGrouped (primary : Fin segments → Fin hosts) (seg : Fin segments) :
    Option (Fin hosts) :=
  some ⟨((primary seg).val + 1) % hosts, Nat.mod_lt _ (primary seg).pos⟩

/-- The loop of `_assign_mirrors_grouped`. -/
def assignMirrorsGrouped (primary : Fin segments → Fin hosts) :
    List (Fin hosts) → Grouping segments hosts → Fin segments → Option (Fin hosts)
  | [], state => state.mirrorMapping
  | pHost :: rest, state =>
    match config.selectGroupMirror primary state pHost with
    | none => fillNaiveGrouped primary
    | some (mHost, state) =>
      assignMirrorsGrouped primary rest (assignGroup primary state pHost mHost)

/-! ### Phase 2: mirrors, spread -/

structure Spreading (segments hosts : Nat) where
  mirrorMapping : Fin segments → Option (Fin hosts)
  mirrorLoad : Fin hosts → Int
  usedInGroup : Fin hosts → Finset (Fin hosts)

def startSpreading : Spreading segments hosts where
  mirrorMapping _ := none
  mirrorLoad _ := 0
  usedInGroup _ := ∅

section

variable (primary : Fin segments → Fin hosts) (state : Spreading segments hosts)

def assignMirror (seg : Fin segments) (mHost : Fin hosts) : Spreading segments hosts where
  mirrorMapping := update state.mirrorMapping seg (some mHost)
  mirrorLoad := update state.mirrorLoad mHost (state.mirrorLoad mHost + 1)
  usedInGroup := update state.usedInGroup (primary seg)
    (insert mHost (state.usedInGroup (primary seg)))

def isAvailable (seg : Fin segments) (mHost : Fin hosts) : Bool :=
  mHost ≠ primary seg ∧ mHost ∉ state.usedInGroup (primary seg) ∧
    state.mirrorLoad mHost < config.targetPrimaryLoad

def originalMirror (seg : Fin segments) : Option (Fin hosts) :=
  (config.onTarget (config.initialMirrorMapping seg)).filter (config.isAvailable primary state seg)

/-- A segment whose mirror is moved away, from where and to where. -/
structure Relocation (segments hosts : Nat) where
  seg : Fin segments
  candidateHost : Fin hosts
  destHost : Fin hosts

/-- The loops of `_resolve_spread_deadlock_for_segment`. -/
def findRelocation (seg : Fin segments) : Option (Relocation segments hosts) :=
  let hostsWithCapacity := (List.finRange hosts).filter fun mHost =>
    state.mirrorLoad mHost < config.targetPrimaryLoad
  let candidateHosts := (List.finRange hosts).filter fun mHost =>
    mHost ≠ primary seg ∧ mHost ∉ state.usedInGroup (primary seg)
  candidateHosts.findSome? fun candidateHost =>
    (List.finRange segments).findSome? fun otherSeg =>
      if state.mirrorMapping otherSeg = some candidateHost then
        (hostsWithCapacity.find? fun destHost =>
          destHost ≠ primary otherSeg ∧ destHost ∉ state.usedInGroup (primary otherSeg)).map
            fun destHost => ⟨otherSeg, candidateHost, destHost⟩
      else none

/-- The other segment is moved. -/
def relocate (relocation : Relocation segments hosts) :
    Except SolverError (Spreading segments hosts) :=
  let otherPHost := primary relocation.seg
  if relocation.candidateHost ∈ state.usedInGroup otherPHost then
    let removed := update state.mirrorLoad relocation.candidateHost
      (state.mirrorLoad relocation.candidateHost - 1)
    .ok
      { mirrorMapping := update state.mirrorMapping relocation.seg (some relocation.destHost)
        mirrorLoad := update removed relocation.destHost (removed relocation.destHost + 1)
        usedInGroup := update state.usedInGroup otherPHost (insert relocation.destHost
            ((state.usedInGroup otherPHost).erase relocation.candidateHost)) }
  else .error .keyError

end

def fillNaiveSpread (primary : Fin segments → Fin hosts) (seg : Fin segments) :
    Option (Fin hosts) :=
  let localIdx := (List.finRange segments).countP fun other =>
    other < seg ∧ primary other = primary seg
  let mirrorHost := ((primary seg).val + 1 + localIdx) % hosts
  let mirrorHost :=
    if mirrorHost = (primary seg).val then (mirrorHost + 1) % hosts else mirrorHost
  some ⟨mirrorHost % hosts, Nat.mod_lt _ (primary seg).pos⟩

/-- The first phase of `_assign_mirrors_spread`, with the segments that are left over. -/
def keepOriginals (primary : Fin segments → Fin hosts) :
    Spreading segments hosts × List (Fin segments) :=
  (List.finRange segments).foldl (fun (state, unassigned) seg =>
    match config.originalMirror primary state seg with
    | some mHost => (assignMirror primary state seg mHost, unassigned)
    | none => (state, unassigned ++ [seg])) (startSpreading, [])

/-- The second phase of `_assign_mirrors_spread`. -/
def assignRest (primary : Fin segments → Fin hosts) :
    List (Fin segments) → Spreading segments hosts →
      Except SolverError (Fin segments → Option (Fin hosts))
  | [], state => .ok state.mirrorMapping
  | seg :: rest, state =>
    match ((List.finRange hosts).filter (config.isAvailable primary state seg)).argmin
        state.mirrorLoad with
    | some mHost => assignRest primary rest (assignMirror primary state seg mHost)
    | none =>
      match config.findRelocation primary state seg with
      | none => .ok (fillNaiveSpread primary)
      | some relocation =>
        (relocate primary state relocation).bind fun state =>
          assignRest primary rest (assignMirror primary state seg relocation.candidateHost)

def assignMirrorHosts (primary : Fin segments → Fin hosts) :
    Except SolverError (Fin segments → Option (Fin hosts)) :=
  match config.strategy with
  | .grouped =>
    .ok (config.assignMirrorsGrouped primary (config.sortedPHosts primary) startGrouping)
  | .spread =>
    let kept := config.keepOriginals primary
    config.assignRest primary kept.2 kept.1

def calculateCost (placement : Placement segments hosts) : Nat :=
  ∑ seg, ((if (placement.primary seg).val ≠ (config.initialPrimaryMapping seg).val then 1 else 0) +
    (if (placement.mirror seg).val ≠ (config.initialMirrorMapping seg).val then 1 else 0))

def validateSolution (placement : Placement segments hosts) : Bool :=
  (List.finRange segments).all (fun seg => placement.primary seg ≠ placement.mirror seg) &&
  (List.finRange hosts).all (fun host =>
    (groupOf placement.primary host).length + (groupOf placement.mirror host).length =
      config.targetPrimaryLoad * 2) &&
  (List.finRange hosts).all (fun host =>
    let mirrorHosts := (groupOf placement.primary host).map placement.mirror
    mirrorHosts.length < 2 ||
      match config.strategy with
      | .grouped => mirrorHosts.toFinset.card ≤ 1
      | .spread => mirrorHosts.toFinset.card = mirrorHosts.length)

def checked (placement : Placement segments hosts) (cost : Nat) :
    Except SolverError (Placement segments hosts × Nat) :=
  if config.validateSolution placement then .ok (placement, cost) else .error .assertionError

/-- `GreedySolver.solve`. -/
def greedySolve : Except SolverError (Placement segments hosts × Nat) := do
  let primary ← complete (← config.balancePrimaries)
  let mirror ← complete (← config.assignMirrorHosts primary)
  config.checked ⟨primary, mirror⟩ (config.calculateCost ⟨primary, mirror⟩)

end SolverConfig

end Greengage.Rebalance
