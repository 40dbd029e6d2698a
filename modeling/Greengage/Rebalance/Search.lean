import Greengage.Rebalance.Greedy
import Mathlib.Data.Rat.Floor

/-!
Contract: the large neighbourhood search, `LNS` in `solver.py`.

Owns: the destroy operators, the repair operators and the loop of the search. What is drawn at
random, the order in which a set is walked and the number of rounds that the time limit allows
are inputs.

Does not own: how likely an outcome is. The weights of `rng.choices` are all positive, so the
badness of a group only makes it more likely.
-/

namespace Greengage.Rebalance

open Function

variable {segments hosts initialHosts : Nat}

def draw {α : Type*} (picks : Nat → Nat) : Nat → List α → List α
  | 0, _ => []
  | count + 1, items =>
    match items[picks count % items.length]? with
    | none => []
    | some item => item :: draw picks count (items.eraseIdx (picks count % items.length))

def shuffle {α : Type*} (picks : Nat → Nat) (items : List α) : List α :=
  draw picks items.length items

inductive DestroyMethod
  | groupDestroy
  | badSegments
  | shawRemoval
  | randomSegments
deriving DecidableEq

inductive RepairMethod
  | greedyRepair
  | constraintRepair
  | regretRepair
deriving DecidableEq

/-- What is drawn at random in a round. `setOrder` is the order in which a set is walked, by the
place at which that is done. -/
structure Choice (segments : Nat) where
  fraction : ℚ
  destroyMethod : Nat
  repairMethod : Nat
  destroyPicks : Nat → Nat
  seedSeg : Fin segments
  repairPicks : Nat → Nat
  setOrder : List Nat → Nat → Nat
  coin : Bool

/-- The fraction is drawn between `destroy_fraction_lo` and `destroy_fraction_hi`. -/
def Choice.Possible (choice : Choice segments) : Prop :=
  15 / 100 ≤ choice.fraction ∧ choice.fraction ≤ 25 / 100

/-- The variables of a repair. `primary_to_mirror` and `primary_to_used_mirrors` are both kept;
each strategy reads one of them. -/
structure Repairing (segments hosts : Nat) where
  primaryMapping : Fin segments → Option (Fin hosts)
  mirrorMapping : Fin segments → Option (Fin hosts)
  primaryCapacity : Fin hosts → Int
  mirrorCapacity : Fin hosts → Int
  primaryToMirror : Fin hosts → Option (Fin hosts)
  primaryToUsedMirrors : Fin hosts → Finset (Fin hosts)

structure Offer (hosts : Nat) where
  cost : Nat
  pHost : Fin hosts
  mHost : Fin hosts
deriving DecidableEq

def Offer.Le (offer other : Offer hosts) : Prop :=
  [offer.cost, offer.pHost.val, offer.mHost.val] ≤ [other.cost, other.pHost.val, other.mHost.val]

instance : DecidableRel (@Offer.Le hosts) := fun _ _ => inferInstanceAs (Decidable (_ ≤ _))

namespace SolverConfig

variable (config : SolverConfig segments hosts initialHosts)

/-! ### Destroy operators -/

/-- `n_destroy`. -/
def destroyCount (segments : Nat) (fraction : ℚ) : Nat :=
  max 1 (Int.toNat ⌊(segments : ℚ) * fraction⌋)

section

variable (placement : Placement segments hosts) (choice : Choice segments)

def destroyRandom : Except SolverError (Finset (Fin segments)) :=
  let nDestroy := destroyCount segments choice.fraction
  match config.strategy with
  | .spread =>
    .ok ((shuffle choice.destroyPicks (groupHosts placement.primary)).foldl (fun destroyed pHost =>
        if nDestroy ≤ destroyed.card then destroyed
        else destroyed ∪ (groupOf placement.primary pHost).toFinset) ∅)
  | .grouped =>
    if segments < nDestroy then
      .error (.valueError "Sample larger than population or is negative")
    else .ok (draw choice.destroyPicks nDestroy (List.finRange segments)).toFinset

/-- The loop of `_select_groups_by_badness`, with the attempts that are left. -/
def selectGroups (nDestroy : Nat) :
    Nat → List (Fin hosts) → Finset (Fin segments) → Finset (Fin segments)
  | 0, _, destroyed => destroyed
  | attempts + 1, available, destroyed =>
    if destroyed.card < nDestroy then
      match available[choice.destroyPicks attempts % available.length]? with
      | none => destroyed
      | some pHost => selectGroups nDestroy attempts (available.erase pHost)
          (destroyed ∪ (groupOf placement.primary pHost).toFinset)
    else destroyed

def destroyPrimaryGroups : Finset (Fin segments) :=
  selectGroups placement choice (destroyCount segments choice.fraction) 20
    (groupHosts placement.primary) ∅

def badness (seg : Fin segments) : Nat :=
  (if (placement.primary seg).val ≠ (config.initialPrimaryMapping seg).val then 1 else 0) +
    (if (placement.mirror seg).val ≠ (config.initialMirrorMapping seg).val then 1 else 0)

def destroyBadSegments : Except SolverError (Finset (Fin segments)) :=
  let nDestroy := destroyCount segments choice.fraction
  let badSegments := (List.finRange segments).filter fun seg => 0 < config.badness placement seg
  if badSegments = [] then config.destroyRandom placement choice
  else
    let worst := ((badSegments.insertionSort fun seg other =>
      [config.badness placement other, other.val] ≤ [config.badness placement seg, seg.val]).take
        nDestroy).toFinset
    -- Related segments are added until there are enough.
    let seeds := shuffle (choice.setOrder []) ((List.finRange segments).filter (· ∈ worst))
    .ok (seeds.foldl (fun destroyed seedSeg =>
      (List.finRange segments).foldl (fun destroyed seg =>
        if seg ∈ destroyed ∨ nDestroy ≤ destroyed.card then destroyed
        else if placement.primary seg = placement.primary seedSeg ∨
            placement.mirror seg = placement.mirror seedSeg then insert seg destroyed
        else destroyed) destroyed) worst)

def shawRemoval : Finset (Fin segments) :=
  let nDestroy := destroyCount segments choice.fraction
  let score seg :=
    (if placement.primary seg = placement.primary choice.seedSeg then 2 else 0) +
      (if placement.mirror seg = placement.mirror choice.seedSeg then 1 else 0)
  let relatedness := ((List.finRange segments).filter (· ≠ choice.seedSeg)).insertionSort
    fun seg other => [score other, other.val] ≤ [score seg, seg.val]
  insert choice.seedSeg (relatedness.take (nDestroy - 1)).toFinset

/-- `_d_methods`. -/
def destroyMethods : List DestroyMethod :=
  match config.strategy with
  | .grouped => [.groupDestroy, .badSegments, .shawRemoval, .randomSegments]
  | .spread => [.badSegments, .shawRemoval, .randomSegments]

/-- `_apply_destroy` with a method that is drawn at random. -/
def applyDestroy : Except SolverError (Finset (Fin segments)) :=
  match config.destroyMethods[choice.destroyMethod % config.destroyMethods.length]? with
  | some .groupDestroy => .ok (destroyPrimaryGroups placement choice)
  | some .badSegments => config.destroyBadSegments placement choice
  | some .shawRemoval => .ok (shawRemoval placement choice)
  | _ => config.destroyRandom placement choice

end

/-! ### Repair operators -/

/-- The mappings without the destroyed segments, with capacities and caches. -/
def startRepairing (placement : Placement segments hosts) (destroyed : Finset (Fin segments)) :
    Repairing segments hosts :=
  let kept := (List.finRange segments).filter (· ∉ destroyed)
  { primaryMapping := fun seg => if seg ∈ destroyed then none else some (placement.primary seg)
    mirrorMapping := fun seg => if seg ∈ destroyed then none else some (placement.mirror seg)
    primaryCapacity := fun host =>
      (config.targetPrimaryLoad : Int) - kept.countP fun seg => placement.primary seg = host
    mirrorCapacity := fun host =>
      (config.targetPrimaryLoad : Int) - kept.countP fun seg => placement.mirror seg = host
    primaryToMirror := fun host =>
      (kept.filter fun seg => placement.primary seg = host).getLast?.map placement.mirror
    primaryToUsedMirrors := fun host =>
      ((kept.filter fun seg => placement.primary seg = host).map placement.mirror).toFinset }

def getValidMirrors (state : Repairing segments hosts) (pHost : Fin hosts) : List (Fin hosts) :=
  match config.strategy with
  | .grouped =>
    match state.primaryToMirror pHost with
    | some existing => if 0 < state.mirrorCapacity existing then [existing] else []
    | none => (List.finRange hosts).filter fun mHost =>
      mHost ≠ pHost ∧ 0 < state.mirrorCapacity mHost
  | .spread => (List.finRange hosts).filter fun mHost =>
    mHost ≠ pHost ∧ mHost ∉ state.primaryToUsedMirrors pHost ∧ 0 < state.mirrorCapacity mHost

/-- The valid pairs of hosts for a segment, in the order in which they are tried. -/
def offers (state : Repairing segments hosts) (setOrder : List Nat → Nat → Nat)
    (seg : Fin segments) : List (Offer hosts) :=
  ((List.finRange hosts).filter fun pHost => 0 < state.primaryCapacity pHost).flatMap fun pHost =>
    (shuffle (setOrder [seg.val, pHost.val]) (config.getValidMirrors state pHost)).map fun mHost =>
      { cost :=
          (if pHost.val = (config.initialPrimaryMapping seg).val then 0 else 1) +
            (if mHost.val = (config.initialMirrorMapping seg).val then 0 else 1)
        pHost
        mHost }

/-- A segment is assigned. -/
def assignOffer (state : Repairing segments hosts) (seg : Fin segments) (offer : Offer hosts) :
    Repairing segments hosts :=
  { primaryMapping := update state.primaryMapping seg (some offer.pHost)
    mirrorMapping := update state.mirrorMapping seg (some offer.mHost)
    primaryCapacity := update state.primaryCapacity offer.pHost
      (state.primaryCapacity offer.pHost - 1)
    mirrorCapacity := update state.mirrorCapacity offer.mHost (state.mirrorCapacity offer.mHost - 1)
    primaryToMirror :=
      if state.primaryToMirror offer.pHost = none then
        update state.primaryToMirror offer.pHost (some offer.mHost)
      else state.primaryToMirror
    primaryToUsedMirrors := update state.primaryToUsedMirrors offer.pHost
      (insert offer.mHost (state.primaryToUsedMirrors offer.pHost)) }

/-- `repair_greedy`: the first of the cheapest pairs; the early exit of the source is at a pair
of cost 0, which no later one beats. -/
def repairGreedy (setOrder : List Nat → Nat → Nat) (state : Repairing segments hosts)
    (destroyedList : List (Fin segments)) : Repairing segments hosts :=
  destroyedList.foldl (fun state seg =>
    match (config.offers state setOrder seg).argmin Offer.cost with
    | some offer => assignOffer state seg offer
    | none => state) state

/-- A segment with its pairs of hosts, the best one first. -/
structure Candidate (segments hosts : Nat) where
  seg : Fin segments
  options : List (Offer hosts)

def candidates (state : Repairing segments hosts) (setOrder : List Nat → Nat → Nat)
    (unassigned : List (Fin segments)) : List (Candidate segments hosts) :=
  unassigned.map fun seg => ⟨seg, (config.offers state setOrder seg).insertionSort Offer.Le⟩

/-- The sort of `repair_most_constrained`: fewest options first, then the cheapest; a segment
without options comes last. -/
def Candidate.isBefore (candidate other : Candidate segments hosts) : Bool :=
  match candidate.options, other.options with
  | _, [] => true
  | [], _ :: _ => false
  | best :: rest, otherBest :: otherRest =>
    decide ([rest.length, best.cost] ≤ [otherRest.length, otherBest.cost])

/-- The loop of `repair_most_constrained`; every round takes one segment out. -/
def repairMostConstrained (setOrder : List Nat → Nat → Nat) :
    Nat → List (Fin segments) → Repairing segments hosts → Repairing segments hosts
  | 0, _, state => state
  | rounds + 1, unassigned, state =>
    match ((config.candidates state (setOrder ∘ (rounds :: ·))
        (shuffle (setOrder [rounds]) unassigned)).insertionSort
          fun candidate other => candidate.isBefore other).head? with
    | none => state
    | some candidate => repairMostConstrained setOrder rounds (unassigned.erase candidate.seg)
        (match candidate.options with
        | [] => state
        | offer :: _ => assignOffer state candidate.seg offer)

def Candidate.regret (candidate : Candidate segments hosts) : WithBot (WithTop Nat) :=
  match candidate.options with
  | [] => ⊥
  | [_] => some ⊤
  | best :: second :: _ => ((second.cost - best.cost : Nat) : WithTop Nat)

/-- The loop of `repair_regret`; it stops when no segment has an option. -/
def repairRegret (setOrder : List Nat → Nat → Nat) :
    Nat → List (Fin segments) → Repairing segments hosts → Repairing segments hosts
  | 0, _, state => state
  | rounds + 1, unassigned, state =>
    match (config.candidates state (setOrder ∘ (rounds :: ·)) unassigned).argmax
        Candidate.regret with
    | none => state
    | some candidate =>
      match candidate.options with
      | [] => state
      | offer :: _ => repairRegret setOrder rounds (unassigned.erase candidate.seg)
          (assignOffer state candidate.seg offer)

def repairMethods : List RepairMethod := [.greedyRepair, .constraintRepair, .regretRepair]

/-- `_apply_repair` with a method that is drawn at random. -/
def applyRepair (placement : Placement segments hosts) (choice : Choice segments)
    (destroyed : Finset (Fin segments)) : Repairing segments hosts :=
  let state := config.startRepairing placement destroyed
  let unassigned := shuffle choice.repairPicks ((List.finRange segments).filter (· ∈ destroyed))
  match repairMethods[choice.repairMethod % repairMethods.length]? with
  | some .constraintRepair =>
    config.repairMostConstrained choice.setOrder unassigned.length unassigned state
  | some .regretRepair =>
    config.repairRegret choice.setOrder unassigned.length unassigned state
  | _ => config.repairGreedy choice.setOrder state unassigned

/-- The variables of the search: the current placement and the best one, with their costs. -/
structure Searching (segments hosts : Nat) where
  current : Placement segments hosts
  cost : Nat
  best : Placement segments hosts
  bestCost : Nat

/-- A round of the search. -/
def round (state : Searching segments hosts) (choice : Choice segments) :
    Except SolverError (Searching segments hosts) := do
  let destroyed ← config.applyDestroy state.current choice
  let repaired := config.applyRepair state.current choice destroyed
  match complete repaired.primaryMapping, complete repaired.mirrorMapping with
  | .ok primary, .ok mirror =>
    let placement : Placement segments hosts := ⟨primary, mirror⟩
    let newCost := config.calculateCost placement
    if newCost < state.cost ∨ newCost = state.cost ∧ choice.coin = true then
      if newCost < state.bestCost then .ok ⟨placement, newCost, placement, newCost⟩
      else .ok { state with current := placement, cost := newCost }
    else .ok state
  -- The repair could not assign every segment.
  | _, _ => .ok state

/-- `LNS.solve`, with the rounds until the time limit or the last iteration. -/
def lnsSolve (choices : List (Choice segments)) :
    Except SolverError (Placement segments hosts × Nat) := do
  let (greedy, _) ← config.greedySolve
  let cost := config.calculateCost greedy
  let final ← choices.foldlM config.round ⟨greedy, cost, greedy, cost⟩
  config.checked final.best final.bestCost

end SolverConfig

end Greengage.Rebalance
