import Mathlib.Data.Rat.Floor
import Mathlib.Data.Fintype.Basic
import Greengage.Foundations.Transition

/-!
Contract: the counters of a resource queue.

Owns: the check and the update of the limits, the requests of query and utility
portals, the release, the wake-up pass over the wait queue, the cancellation of
a wait, the self-deadlock check, and for which ignore-cost limits the counters
stay equal to what the holders of the queue lock are charged.

Does not own: lock partitions, statistics, changes of the thresholds. A step is what
a backend does while it has `ResQueueLock` and the lock partition.
-/

namespace Greengage.ResQueue

open Function List Foundations

/-! ### Limits -/

inductive Limit
  | count
  | cost
  | memory
  deriving DecidableEq

instance : Fintype Limit := ⟨{.count, .cost, .memory}, by rintro (_ | _ | _) <;> simp⟩

/-- `INVALID_RES_LIMIT_THRESHOLD`: there is no limit. -/
def invalidThreshold : ℚ := -1

/-- A queue with the thresholds that `CREATE RESOURCE QUEUE` lets through. -/
structure ResQueueData where
  threshold : Limit → ℚ
  overcommit : Bool
  ignorecostlimit : ℚ
  valid : ∀ limit, threshold limit = invalidThreshold ∨ 0 < threshold limit

/-- `ResPortalIncrement`: what a portal charges to its queue. -/
structure ResPortalIncrement where
  pid : Nat
  portalId : Nat
  increments : Limit → ℚ

inductive Status
  | ok
  | found
  | error
  deriving DecidableEq

section

variable (queue : ResQueueData) (current increments : Limit → ℚ) (limit : Limit)

/-- `over_limit` for one limit. A queue with overcommit lets a cost pass that is alone. -/
def OverLimit : Prop :=
  queue.threshold limit ≠ invalidThreshold ∧
    queue.threshold limit < current limit + increments limit ∧
    (limit = .cost → queue.overcommit = true → 1 / 10 < current limit)

def WillOvercommit : Prop :=
  queue.threshold .cost ≠ invalidThreshold ∧ queue.threshold .cost < increments .cost

instance : Decidable (OverLimit queue current increments limit) := by
  unfold OverLimit
  infer_instance

instance : Decidable (WillOvercommit queue increments) := by
  unfold WillOvercommit
  infer_instance

/-- `ResLockCheckLimit` for an increment. -/
def resLockCheckLimit : Status :=
  if WillOvercommit queue increments ∧ queue.overcommit = false then .error
  else if ∃ limit, OverLimit queue current increments limit then .found
  else .ok

/-- `ResLockUpdateLimit` rounds up in both directions. -/
def resLockUpdateLimit (increment : Bool) : ℚ :=
  max (⌈current limit + if increment then increments limit else -1 * increments limit⌉ : ℚ) 0

end

/-- What some portals are charged together. -/
def totals (portals : List ResPortalIncrement) (limit : Limit) : ℚ :=
  (portals.map (·.increments limit)).sum

/-- `ResCheckSelfDeadLock`: the portals of a backend do not fit into the queue. -/
def Overcommitted (queue : ResQueueData) (own : List ResPortalIncrement) (limit : Limit) : Prop :=
  queue.threshold limit ≠ invalidThreshold ∧ queue.threshold limit < totals own limit

instance (queue : ResQueueData) (own : List ResPortalIncrement) (limit : Limit) :
    Decidable (Overcommitted queue own limit) := by
  unfold Overcommitted
  infer_instance

def resCheckSelfDeadLock (queue : ResQueueData) (own : List ResPortalIncrement) : Bool :=
  decide (∃ limit, Overcommitted queue own limit) &&
    !(queue.overcommit && own.length == 1 && !decide (Overcommitted queue own .count))

/-! ### The lock of the queue -/

/-- The lock object, the locks of the backends and the increment hash: the increments of the
portals that have the lock, and in the order of the wait queue those of the others. -/
structure State where
  current : Limit → ℚ
  nRequested : Nat
  nGranted : Nat
  nLocks : Nat → Nat
  held : List ResPortalIncrement
  waitProcs : List ResPortalIncrement
  /-- History: the portals that got the lock, each with those that had it. -/
  admitted : List (ResPortalIncrement × List ResPortalIncrement)

def initial : State := ⟨fun _ => 0, 0, 0, fun _ => 0, [], [], []⟩

namespace State

variable (state : State) (queue : ResQueueData) (portal : ResPortalIncrement)

/-- `ResGrantLock` and `ResLockUpdateLimit`. -/
def grant : State :=
  { state with
    current := (resLockUpdateLimit state.current portal.increments · true)
    nGranted := state.nGranted + 1
    nLocks := update state.nLocks portal.pid (state.nLocks portal.pid + 1)
    held := portal :: state.held }

/-- A grant after a successful check. -/
def letIn : State :=
  { state.grant portal with admitted := (portal, state.held) :: state.admitted }

def isFor (pid portalId : Nat) (portal : ResPortalIncrement) : Bool :=
  portal.pid == pid && portal.portalId == portalId

/-- `ResUnGrantLock` and `ResLockUpdateLimit`, with the removal of the increment. -/
def unGrant : State :=
  { state with
    current := (resLockUpdateLimit state.current portal.increments · false)
    nRequested := state.nRequested - 1
    nGranted := state.nGranted - 1
    nLocks := update state.nLocks portal.pid (state.nLocks portal.pid - 1)
    held := state.held.eraseP (isFor portal.pid portal.portalId) }

/-- One round of `ResProcLockRemoveSelfAndWakeup`. -/
def wakeStep (me : Nat) (state : State) (proc : ResPortalIncrement) : State :=
  if proc.pid = me then state
  else if resLockCheckLimit queue state.current proc.increments = .ok then state.letIn proc
  else { state with waitProcs := state.waitProcs ++ [proc] }

/-- `ResProcLockRemoveSelfAndWakeup`. -/
def wakeup (me : Nat) : State :=
  state.waitProcs.foldl (wakeStep queue me) { state with waitProcs := [] }

/-- `ResLockAcquire`, up to the sleep. A portal that would block its own backend is granted
the lock, for the clean-up after the error. -/
def resLockAcquire : State :=
  let requested := { state with nRequested := state.nRequested + 1 }
  let own := (portal :: (state.held ++ state.waitProcs)).filter (·.pid = portal.pid)
  if portal.increments .cost < queue.ignorecostlimit then state
  else match resLockCheckLimit queue state.current portal.increments with
    | .error => state
    | .ok => requested.letIn portal
    | .found =>
      if resCheckSelfDeadLock queue own then
        if requested.nGranted < requested.nRequested then requested.grant portal else requested
      else { requested with waitProcs := state.waitProcs ++ [portal] }

def resLockRelease (pid portalId : Nat) : State :=
  if state.nLocks pid = 0 then state
  else match (state.held ++ state.waitProcs).find? (isFor pid portalId) with
    | none => state.wakeup queue pid
    | some portal => (state.unGrant portal).wakeup queue pid

def resRemoveFromWaitQueue (pid : Nat) : State :=
  { state with
    nRequested := state.nRequested - 1
    waitProcs := state.waitProcs.eraseP (·.pid = pid) }.wakeup queue pid

def Asleep (pid : Nat) : Prop := ∃ proc ∈ state.waitProcs, proc.pid = pid

instance (pid : Nat) : Decidable (state.Asleep pid) := by
  unfold Asleep
  infer_instance

/-- A backend that is awake asks for the lock, for a portal with an id of its own. -/
def request : Option State :=
  if state.Asleep portal.pid ∨
      (state.held ++ state.waitProcs).any (isFor portal.pid portal.portalId) then none
  else some (state.resLockAcquire queue portal)

end State

/-- The increments in `ResLockPortal`. -/
def portalIncrements (totalCost : ℚ≥0) (queryMem : Nat) : Limit → ℚ
  | .count => 1
  | .cost => ⌈(totalCost : ℚ)⌉
  | .memory => queryMem

/-- The increments in `ResLockUtilityPortal`. -/
def utilityIncrements (ignoreCostLimit : ℚ) : Limit → ℚ
  | .count => 1
  | .cost => ignoreCostLimit
  | .memory => 0

inductive Event
  | resLockPortal (pid portalId : Nat) (totalCost : ℚ≥0) (queryMem : Nat)
  | resLockUtilityPortal (pid portalId : Nat) (ignoreCostLimit : ℚ)
  | resLockRelease (pid portalId : Nat)
  | resLockWaitCancel (pid : Nat)

/-- The utility portals are locked with one of some ignore-cost limits. -/
def Event.Passes (limits : Set ℚ) : Event → Prop
  | .resLockUtilityPortal _ _ ignoreCostLimit => ignoreCostLimit ∈ limits
  | _ => True

/-- A backend in the wait queue sleeps until it is woken up or its wait is cancelled. A wait that
is cancelled after the wake-up is a release. -/
def step (queue : ResQueueData) (limits : Set ℚ) (state : State) :
    { event : Event // event.Passes limits } → Option State
  | ⟨.resLockPortal pid portalId totalCost queryMem, _⟩ =>
    state.request queue ⟨pid, portalId, portalIncrements totalCost queryMem⟩
  | ⟨.resLockUtilityPortal pid portalId ignoreCostLimit, _⟩ =>
    state.request queue ⟨pid, portalId, utilityIncrements ignoreCostLimit⟩
  | ⟨.resLockRelease pid portalId, _⟩ =>
    if state.Asleep pid then none else some (state.resLockRelease queue pid portalId)
  | ⟨.resLockWaitCancel pid, _⟩ =>
    if state.Asleep pid then some (state.resRemoveFromWaitQueue queue pid) else none

/-- A portal fits into the queue beside others, or its cost is alone in a queue with overcommit. -/
def Fits (queue : ResQueueData) (others : List ResPortalIncrement) (portal : ResPortalIncrement) :
    Prop :=
  ∀ limit, queue.threshold limit = invalidThreshold ∨
    totals others limit + portal.increments limit ≤ queue.threshold limit ∨
    (limit = .cost ∧ queue.overcommit = true ∧ totals others limit = 0)

structure Accounted (queue : ResQueueData) (state : State) : Prop where
  charged : ∀ limit, state.current limit = totals state.held limit
  admitted : ∀ entry ∈ state.admitted, Fits queue entry.2 entry.1
  asleep : ∀ proc ∈ state.waitProcs, resLockCheckLimit queue state.current proc.increments ≠ .ok

/-- Every run of the queue keeps its accounts. -/
def KeepsAccounts (queue : ResQueueData) (limits : Set ℚ) : Prop :=
  ∀ state, Reachable (step queue limits) initial state → Accounted queue state

def Whole (amount : ℚ) : Prop := ∃ number : Nat, amount = number

/-- A utility portal with this ignore-cost limit charges a whole amount, is ignored, or is
refused. -/
def Chargeable (queue : ResQueueData) (ignoreCostLimit : ℚ) : Prop :=
  Whole ignoreCostLimit ∨ ignoreCostLimit < queue.ignorecostlimit ∨
    (queue.overcommit = false ∧ WillOvercommit queue (utilityIncrements ignoreCostLimit))

/-- Some requests are counted that neither have the lock nor wait for it. -/
structure QueueOk (queue : ResQueueData) (pending : List ResPortalIncrement) (state : State) : Prop
    extends Accounted queue state where
  whole : ∀ portal ∈ state.held ++ (state.waitProcs ++ pending), ∀ limit,
    Whole (portal.increments limit)
  nGranted : state.nGranted = state.held.length
  nRequested : state.nRequested = state.held.length + (state.waitProcs ++ pending).length
  nLocks : ∀ pid, state.nLocks pid = state.held.countP (·.pid = pid)
  once : ((state.waitProcs ++ pending).map (·.pid)).Nodup

variable {queue : ResQueueData} {limits : Set ℚ} {state after : State}
  {portal proc : ResPortalIncrement} {pending portals : List ResPortalIncrement}
  {current later increments : Limit → ℚ} {amount other : ℚ} {me pid portalId : Nat}

theorem roundUp_eq_iff : max (⌈amount⌉ : ℚ) 0 = amount ↔ Whole amount := by
  constructor
  · intro same
    have nonneg : 0 ≤ amount := same ▸ le_max_right _ _
    rw [max_eq_left (by exact_mod_cast Int.ceil_nonneg nonneg)] at same
    obtain ⟨num, isNumber⟩ := Int.eq_ofNat_of_zero_le (Int.ceil_nonneg nonneg)
    exact ⟨num, by rw [← same, isNumber]; rfl⟩
  · rintro ⟨num, rfl⟩
    simp

theorem Whole.nonneg (whole : Whole amount) : 0 ≤ amount := by
  obtain ⟨num, rfl⟩ := whole
  exact Nat.cast_nonneg num

theorem Whole.add (first : Whole amount) (snd : Whole other) : Whole (amount + other) := by
  obtain ⟨left, rfl⟩ := first
  obtain ⟨right, rfl⟩ := snd
  exact ⟨left + right, by push_cast; rfl⟩

theorem whole_portalIncrements (totalCost : ℚ≥0) (queryMem limit) :
    Whole (portalIncrements totalCost queryMem limit) := by
  cases limit with
  | count => exact ⟨1, by simp [portalIncrements]⟩
  | cost =>
    obtain ⟨num, isNumber⟩ := Int.eq_ofNat_of_zero_le (Int.ceil_nonneg totalCost.coe_nonneg)
    exact ⟨num, by simp [portalIncrements, isNumber]⟩
  | memory => exact ⟨queryMem, rfl⟩

@[simp]
theorem totals_cons (limit) :
    totals (portal :: portals) limit = portal.increments limit + totals portals limit := by
  simp [totals]

theorem whole_totals (limit) (whole : ∀ portal ∈ portals, Whole (portal.increments limit)) :
    Whole (totals portals limit) := by
  induction portals with
  | nil => exact ⟨0, by simp [totals]⟩
  | cons portal rest ih =>
    exact (whole portal (by simp)).add (ih fun other mem => whole other (by simp [mem]))

theorem totals_eq_of_perm {rest} (perm : portals.Perm rest) (limit) :
    totals portals limit = totals rest limit :=
  (perm.map _).sum_eq

theorem perm_eraseP {test} (found : portals.find? test = some portal) :
    portals.Perm (portal :: portals.eraseP test) := by
  induction portals with
  | nil => cases found
  | cons first rest ih =>
    by_cases hit : test first = true
    · rw [find?_cons_of_pos hit] at found
      cases found
      rw [eraseP_cons_of_pos hit]
    · rw [find?_cons_of_neg hit] at found
      rw [eraseP_cons_of_neg hit]
      exact ((ih found).cons first).trans (.swap _ _ _)

theorem resLockCheckLimit_eq_ok_iff : resLockCheckLimit queue current increments = .ok ↔
      ¬(WillOvercommit queue increments ∧ queue.overcommit = false) ∧
        ∀ limit, ¬OverLimit queue current increments limit := by
  unfold resLockCheckLimit
  split_ifs with refused exceeded
  · simp [refused]
  · simpa [refused] using exceeded
  · simpa [refused] using exceeded

theorem not_ok_of_le (grown : ∀ limit, current limit ≤ later limit)
    (notOk : resLockCheckLimit queue current increments ≠ .ok) :
    resLockCheckLimit queue later increments ≠ .ok := by
  intro isOk
  rw [resLockCheckLimit_eq_ok_iff] at isOk
  refine notOk (resLockCheckLimit_eq_ok_iff.mpr ⟨isOk.1, fun limit exceeded => isOk.2 limit ?_⟩)
  obtain ⟨limited, _, alone⟩ := exceeded
  have := grown limit
  exact ⟨limited, by linarith, fun isCost overcommit => by linarith [alone isCost overcommit]⟩

theorem QueueOk.fits (ok : QueueOk queue pending state)
    (isOk : resLockCheckLimit queue state.current portal.increments = .ok) :
    Fits queue state.held portal := by
  intro limit
  by_contra misfit
  simp only [not_or, not_le, not_and] at misfit
  obtain ⟨limited, more, charged⟩ := misfit
  refine (resLockCheckLimit_eq_ok_iff.mp isOk).2 limit ⟨limited, ok.charged limit ▸ more, ?_⟩
  intro isCost overcommit
  -- A whole amount that is not zero is more than a tenth.
  obtain ⟨num, isNumber⟩ := whole_totals limit fun other mem =>
    ok.whole other (mem_append_left _ mem) limit
  have nonzero := charged isCost overcommit
  rw [ok.charged limit, isNumber]
  have : (1 : ℚ) ≤ num := by
    rw [isNumber] at nonzero
    exact_mod_cast Nat.one_le_iff_ne_zero.mpr (by exact_mod_cast nonzero)
  linarith

namespace QueueOk

section

variable (ok : QueueOk queue (portal :: pending) state)
include ok

theorem grant : QueueOk queue pending (state.grant portal) := by
  have wholePortal := ok.whole portal (by simp)
  have added : ∀ limit,
      (state.grant portal).current limit = portal.increments limit + totals state.held limit := by
    intro limit
    have whole := (whole_totals limit fun other mem =>
      ok.whole other (mem_append_left _ mem) limit).add (wholePortal limit)
    rw [add_comm]
    simpa [State.grant, resLockUpdateLimit, ok.charged limit] using roundUp_eq_iff.mpr whole
  constructor
  case toAccounted =>
    refine ⟨fun limit => ?_, ok.admitted, fun proc waits => not_ok_of_le (fun limit => ?_)
      (ok.asleep proc waits)⟩
    · rw [added, State.grant, totals_cons]
    · rw [added, ok.charged limit]
      linarith [(wholePortal limit).nonneg]
  case whole =>
    intro other mem
    refine ok.whole other ?_
    simp only [State.grant, mem_append, mem_cons] at mem ⊢
    tauto
  case nGranted => simp [State.grant, ok.nGranted]
  case nRequested =>
    have := ok.nRequested
    simp only [State.grant, length_append, length_cons] at this ⊢
    omega
  case nLocks =>
    intro pid
    by_cases own : pid = portal.pid
    · subst own
      simp [State.grant, ok.nLocks]
    · simp [State.grant, ok.nLocks, update_of_ne own, Ne.symm own]
  case once =>
    refine ok.once.sublist (Sublist.map _ ?_)
    exact (sublist_cons_self _ _).append_left _

theorem letIn (isOk : resLockCheckLimit queue state.current portal.increments = .ok) :
    QueueOk queue pending (state.letIn portal) := by
  refine { ok.grant with admitted := fun entry mem => ?_ }
  rcases mem_cons.mp mem with rfl | before
  · exact ok.fits isOk
  · exact ok.admitted entry before

theorem enqueue (notOk : resLockCheckLimit queue state.current portal.increments ≠ .ok) :
    QueueOk queue pending { state with waitProcs := state.waitProcs ++ [portal] } := by
  refine { ok with asleep := ?_, whole := ?_, nRequested := ?_, once := ?_ }
  · exact forall_mem_append.mpr ⟨ok.asleep, forall_mem_singleton.mpr notOk⟩
  · simpa using ok.whole
  · simpa using ok.nRequested
  · simpa using ok.once

end

theorem wakeStep (ok : QueueOk queue (proc :: pending) state) (other : proc.pid ≠ me) :
    QueueOk queue pending (state.wakeStep queue me proc) := by
  unfold State.wakeStep
  rw [if_neg other]
  split_ifs with isOk
  · exact ok.letIn isOk
  · exact ok.enqueue isOk

theorem foldl_wakeStep (ok : QueueOk queue pending state)
    (others : ∀ proc ∈ pending, proc.pid ≠ me) :
    QueueOk queue [] (pending.foldl (State.wakeStep queue me) state) := by
  induction pending generalizing state with
  | nil => exact ok
  | cons proc rest ih =>
    exact ih (ok.wakeStep (others proc (by simp))) fun other mem => others other (by simp [mem])

theorem wakeup (ok : QueueOk queue state.waitProcs { state with waitProcs := [] })
    (awake : ¬state.Asleep me) : QueueOk queue [] (state.wakeup queue me) :=
  ok.foldl_wakeStep fun proc waits isMe => awake ⟨proc, waits, isMe⟩

section

variable (ok : QueueOk queue [] state)
include ok

theorem pass : QueueOk queue state.waitProcs { state with waitProcs := [] } :=
  { ok with
    asleep := nofun
    whole := by simpa using ok.whole
    nRequested := by simpa using ok.nRequested
    once := by simpa using ok.once }

end

/-! ### Releases and cancellations -/

section

variable (ok : QueueOk queue [] state)
include ok

theorem unGrant (found : state.held.find? (State.isFor portal.pid portal.portalId) = some portal) :
    QueueOk queue state.waitProcs { state.unGrant portal with waitProcs := [] } := by
  have perm := perm_eraseP found
  have len := perm.length_eq
  have whole (other) (isLeft : other ∈ state.held.eraseP (State.isFor portal.pid portal.portalId)) : ∀ limit,
      Whole (other.increments limit) := ok.whole other (mem_append_left _ (mem_of_mem_eraseP isLeft))
  constructor
  case toAccounted =>
    refine ⟨fun limit => ?_, ok.admitted, nofun⟩
    have taken := totals_eq_of_perm perm limit
    have left := roundUp_eq_iff.mpr
      (whole_totals limit fun other isLeft => whole other isLeft limit)
    simpa [State.unGrant, resLockUpdateLimit, ok.charged limit, taken] using left
  case whole =>
    exact forall_mem_append.mpr ⟨whole, fun other waits =>
      ok.whole other (by simpa using .inr waits)⟩
  case nGranted =>
    have := ok.nGranted
    simp only [State.unGrant, length_cons] at len ⊢
    omega
  case nRequested =>
    have := ok.nRequested
    simp only [State.unGrant, length_cons, append_nil, nil_append] at len this ⊢
    omega
  case nLocks =>
    intro pid
    have counts := perm.countP_eq (·.pid = pid)
    rw [countP_cons, ← ok.nLocks] at counts
    by_cases own : pid = portal.pid
    · subst own
      simp [State.unGrant, counts]
    · simp only [Ne.symm own, decide_false, Bool.false_eq_true, if_false, add_zero] at counts
      simp [State.unGrant, update_of_ne own, counts]
  case once => simpa using ok.once

theorem resLockRelease (awake : ¬state.Asleep pid) :
    QueueOk queue [] (state.resLockRelease queue pid portalId) := by
  unfold State.resLockRelease
  split_ifs
  · exact ok
  · have notWaiting : state.waitProcs.find? (State.isFor pid portalId) = none := by
      rw [find?_eq_none]
      intro proc waits isFor
      exact awake ⟨proc, waits, by simp_all [State.isFor]⟩
    rw [find?_append, notWaiting, Option.or_none]
    cases found : state.held.find? (State.isFor pid portalId) with
    | none => exact ok.pass.wakeup awake
    | some portal =>
      have hit := find?_some found
      simp only [State.isFor, Bool.and_eq_true, beq_iff_eq] at hit
      obtain ⟨rfl, rfl⟩ := hit
      exact (ok.unGrant found).wakeup awake

theorem resRemoveFromWaitQueue (asleep : state.Asleep pid) :
    QueueOk queue [] (state.resRemoveFromWaitQueue queue pid) := by
  obtain ⟨proc, waits, isPid⟩ := asleep
  obtain ⟨own, found⟩ := Option.isSome_iff_exists.mp
    (find?_isSome (p := (·.pid = pid)) |>.mpr ⟨proc, waits, by simpa using isPid⟩)
  have perm := perm_eraseP found
  have ownPid : own.pid = pid := by simpa using find?_some found
  have once := ok.once
  rw [append_nil, (perm.map _).nodup_iff, map_cons, nodup_cons] at once
  refine wakeup ⟨⟨ok.charged, ok.admitted, nofun⟩, ?_, ok.nGranted, ?_, ok.nLocks, once.2⟩ ?_
  · intro other mem
    refine ok.whole other ?_
    simp only [nil_append, append_nil, mem_append] at mem ⊢
    exact mem.imp_right mem_of_mem_eraseP
  · have := ok.nRequested
    have len := perm.length_eq
    simp only [append_nil, nil_append, length_cons] at this len ⊢
    omega
  · rintro ⟨other, isOther, same⟩
    exact once.1 (mem_map.mpr ⟨other, isOther, same.trans ownPid.symm⟩)

theorem resLockAcquire (awake : ¬state.Asleep portal.pid)
    (whole : ∀ limit, Whole (portal.increments limit)) :
    QueueOk queue [] (state.resLockAcquire queue portal) := by
  have requested : QueueOk queue [portal] { state with nRequested := state.nRequested + 1 } := by
    refine { ok with whole := ?_, nRequested := ?_, once := ?_ }
    · intro other mem
      rcases mem_append.mp mem with isHeld | isOther
      · exact ok.whole other (mem_append_left _ isHeld)
      · rcases mem_append.mp isOther with waits | isPortal
        · exact ok.whole other (by simp [waits])
        · rwa [mem_singleton.mp isPortal]
    · have := ok.nRequested
      simp only [append_nil, length_append, length_singleton] at this ⊢
      omega
    · have once := ok.once
      simp only [append_nil, map_append, map_singleton] at once ⊢
      refine once.append (nodup_singleton _) (disjoint_singleton.mpr fun isPid => ?_)
      obtain ⟨proc, waits, same⟩ := mem_map.mp isPid
      exact awake ⟨proc, waits, same⟩
  unfold State.resLockAcquire
  dsimp only
  by_cases small : portal.increments .cost < queue.ignorecostlimit
  · rwa [if_pos small]
  · rw [if_neg small]
    split
    case h_1 => exact ok
    case h_2 isOk => exact requested.letIn isOk
    case h_3 isFound =>
      have := ok.nGranted
      have counted := requested.nRequested
      simp only [length_append, length_singleton] at counted
      split_ifs
      · exact requested.grant
      · omega
      · exact requested.enqueue (by simp [isFound])

end

end QueueOk

/-! ### All runs -/

theorem resLockAcquire_eq_self (chargeable : Chargeable queue amount) (odd : ¬Whole amount) :
    state.resLockAcquire queue ⟨pid, portalId, utilityIncrements amount⟩ = state := by
  unfold State.resLockAcquire
  rcases chargeable.resolve_left odd with small | ⟨strict, ge⟩
  · exact if_pos small
  · simp [resLockCheckLimit, ge, strict]

theorem QueueOk.of_request
    (kept : ¬state.Asleep portal.pid → QueueOk queue [] (state.resLockAcquire queue portal))
    (taken : state.request queue portal = some after) : QueueOk queue [] after := by
  unfold State.request at taken
  split_ifs at taken with refused
  exact Option.some.inj taken ▸ kept (not_or.mp refused).1

theorem QueueOk.step (chargeable : ∀ amount ∈ limits, Chargeable queue amount)
    (ok : QueueOk queue [] state) {event : { event : Event // event.Passes limits }}
    (taken : step queue limits state event = some after) : QueueOk queue [] after := by
  obtain ⟨event, passes⟩ := event
  cases event with
  | resLockPortal pid portalId totalCost queryMem =>
    exact .of_request (fun awake => ok.resLockAcquire awake (whole_portalIncrements _ _)) taken
  | resLockUtilityPortal pid portalId ignoreCostLimit =>
    refine .of_request (fun awake => ?_) taken
    by_cases whole : Whole ignoreCostLimit
    · refine ok.resLockAcquire awake fun limit => ?_
      cases limit with
      | count => exact ⟨1, by simp [utilityIncrements]⟩
      | cost => exact whole
      | memory => exact ⟨0, by simp [utilityIncrements]⟩
    · rwa [resLockAcquire_eq_self (chargeable _ passes) whole]
  | resLockRelease pid portalId =>
    simp only [ResQueue.step, Option.ite_none_left_eq_some, Option.some.injEq] at taken
    exact taken.2 ▸ ok.resLockRelease taken.1
  | resLockWaitCancel pid =>
    simp only [ResQueue.step, Option.ite_none_right_eq_some, Option.some.injEq] at taken
    exact taken.2 ▸ ok.resRemoveFromWaitQueue taken.1

theorem queueOk_initial : QueueOk queue [] initial where
  charged _ := by simp [initial, totals]
  admitted := nofun
  asleep := nofun
  whole := nofun
  nGranted := rfl
  nRequested := rfl
  nLocks _ := rfl
  once := by simp [initial]

theorem held_first (counted : ¬amount < queue.ignorecostlimit)
    (notRefused : ¬(queue.overcommit = false ∧ WillOvercommit queue (utilityIncrements amount))) :
    ∃ after, initial.request queue ⟨0, 0, utilityIncrements amount⟩ = some after ∧
      after.held = [⟨0, 0, utilityIncrements amount⟩] ∧
      after.current .cost = max (⌈amount⌉ : ℚ) 0 := by
  refine ⟨_, if_neg (by simp [State.Asleep, initial]), ?_⟩
  unfold State.resLockAcquire
  rw [if_neg (by exact counted)]
  split
  case h_1 isError =>
    unfold resLockCheckLimit at isError
    split_ifs at isError with refused
    exact absurd ⟨refused.2, refused.1⟩ notRefused
  case h_2 => simp [State.letIn, State.grant, initial, resLockUpdateLimit, utilityIncrements]
  case h_3 isFound =>
    -- Only the number of portals can be too large, and then the backend blocks itself.
    have tooMany : Overcommitted queue [⟨0, 0, utilityIncrements amount⟩] .count := by
      unfold resLockCheckLimit at isFound
      split_ifs at isFound with _ exceeded
      obtain ⟨limit, limited, more, alone⟩ := exceeded
      cases limit with
      | count => exact ⟨limited, by simpa [totals, initial] using more⟩
      | cost =>
        refine absurd ⟨?_, limited, by simpa [initial] using more⟩ notRefused
        by_contra overcommit
        have := alone rfl (by simpa using overcommit)
        norm_num [initial] at this
      | memory =>
        have := (queue.valid .memory).resolve_left limited
        simp only [initial, utilityIncrements, add_zero] at more
        linarith
    have deadlock : resCheckSelfDeadLock queue [⟨0, 0, utilityIncrements amount⟩] = true := by
      have some : ∃ limit, Overcommitted queue [⟨0, 0, utilityIncrements amount⟩] limit :=
        ⟨_, tooMany⟩
      simp [resCheckSelfDeadLock, some, tooMany]
    simp [initial, deadlock, State.grant, resLockUpdateLimit, utilityIncrements]

/-- The counters are what the holders are charged, no portal gets the lock without room for it,
and no waiting request would be granted, if and only if no utility portal gets the lock for an
amount that is not whole. -/
theorem keepsAccounts_iff_chargeable (queue : ResQueueData) (limits : Set ℚ) :
    KeepsAccounts queue limits ↔ ∀ amount ∈ limits, Chargeable queue amount := by
  constructor
  · intro keeps amount passed
    by_contra notChargeable
    obtain ⟨odd, rest⟩ := not_or.mp notChargeable
    obtain ⟨counted, notRefused⟩ := not_or.mp rest
    obtain ⟨after, taken, held, current⟩ := held_first counted notRefused
    have charged :=
      (keeps after (.next ⟨.resLockUtilityPortal 0 0 amount, passed⟩ .start taken)).charged .cost
    rw [held, current] at charged
    exact odd (roundUp_eq_iff.mp (by simpa [totals, utilityIncrements] using charged))
  · intro chargeable _ reached
    exact (reached.invariant queueOk_initial fun _ _ _ ok taken =>
      ok.step chargeable taken).toAccounted

/-- One active statement, and statements of a cost below one half are ignored. -/
def halfLimit : ResQueueData where
  threshold
    | .count => 1
    | _ => invalidThreshold
  overcommit := false
  ignorecostlimit := 1 / 2
  valid
    | .count => .inr (by norm_num)
    | .cost => .inl rfl
    | .memory => .inl rfl

/-- A utility statement in such a queue leaves its cost behind. -/
theorem keepsAccounts_fails :
    ∃ state, Reachable (step halfLimit {halfLimit.ignorecostlimit}) initial state ∧
      state.held = [] ∧ state.current .cost = 1 := by
  have run : ([⟨.resLockUtilityPortal 0 0 (1 / 2), rfl⟩, ⟨.resLockRelease 0 0, trivial⟩].foldlM
      (step halfLimit {halfLimit.ignorecostlimit}) initial).map
        (fun state => (state.held.length, state.current .cost)) = some (0, 1) := by
    decide +kernel
  obtain ⟨state, reach, viewed⟩ := Reachable.exists_of_run _ run
  simp only [Prod.mk.injEq, length_eq_zero_iff] at viewed
  exact ⟨state, reach, viewed⟩

end Greengage.ResQueue
