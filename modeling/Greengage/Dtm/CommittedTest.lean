import Greengage.Dtm.Snapshot
import Mathlib.Data.BitVec

/-!
Contract: `DistributedSnapshotWithLocalMapping_CommittedTest` of `cdbdistributedsnapshot.c`.

Does not own: changes of the distributed log between the calls.
-/

namespace Greengage.Dtm

open List DistributedSnapshot

abbrev TransactionId := BitVec 32

namespace TransactionId

def invalid : TransactionId := 0

/-- The xids from `FirstNormalTransactionId` on. -/
def isNormal (xid : TransactionId) : Bool := 3 ≤ xid

def precedes (id1 id2 : TransactionId) : Bool :=
  if !isNormal id1 || !isNormal id2 then id1 < id2 else (id1 - id2).toInt < 0

def follows (id1 id2 : TransactionId) : Bool :=
  if !isNormal id1 || !isNormal id2 then id2 < id1 else 0 < (id1 - id2).toInt

end TransactionId

structure DistributedLog where
  oldestXmin : TransactionId
  distribXid : TransactionId → Nat
  -- otherwise `DistributedLog_CommittedCheck` ends in a panic
  initialized : oldestXmin ≠ .invalid

def DistributedLog.committedCheck (log : DistributedLog) (localXid : TransactionId) : Option Nat :=
  if localXid.precedes log.oldestXmin then none
  else if log.distribXid localXid ≠ invalidDistributedTransactionId then
    some (log.distribXid localXid)
  else none

structure LocalDistribXactCacheEntry where
  localXid : TransactionId
  distribXid : Nat

/-- The entries, with the least recently used one last. -/
abbrev LocalDistribXactCache := List LocalDistribXactCacheEntry

/-- The snapshot with the first `currentLocalXidsCount` entries of `inProgressMappedLocalXids`. -/
structure LocalMapping where
  ds : DistributedSnapshot
  minCachedLocalXid : TransactionId
  maxCachedLocalXid : TransactionId
  inProgressMappedLocalXids : List TransactionId

inductive DistributedSnapshotCommitted where
  | inProgress
  | visible
  | ignore
  | unknown
deriving DecidableEq

/-! ### The test -/

section

-- `maxCache` is `gp_max_local_distributed_cache`
variable (maxCache : Nat) (log : DistributedLog) (localXid : TransactionId)

namespace LocalDistribXactCache

variable (cache : LocalDistribXactCache)

def committedFind : Option Nat × LocalDistribXactCache :=
  if maxCache = 0 then (none, cache)
  else
    match cache.find? (·.localXid == localXid) with
    | some entry => (some entry.distribXid, entry :: cache.eraseP (·.localXid == localXid))
    | none => (none, cache)

/-- `LocalDistribXactCache_AddCommitted`; `none` is its error. -/
def addCommitted (distribXid : Nat) : Option LocalDistribXactCache :=
  if maxCache = 0 then some cache
  else
    let cache := if cache.length ≥ maxCache then cache.dropLast else cache
    if cache.any (·.localXid == localXid) then none else some (⟨localXid, distribXid⟩ :: cache)

/-- The distributed xid from the cache or from the log. -/
def lookup : Option (Option Nat × LocalDistribXactCache) :=
  match cache.committedFind maxCache localXid with
  | (some distribXid, cache) => some (some distribXid, cache)
  | (none, cache) =>
    match log.committedCheck localXid with
    | some distribXid =>
      (cache.addCommitted maxCache localXid distribXid).map (some distribXid, ·)
    | none => some (none, cache)

end LocalDistribXactCache

/-- The loop over `inProgressXidArray`. -/
def isInProgress (distribXid : Nat) : List Nat → Bool
  | [] => false
  | xid :: rest =>
    if distribXid = xid then true
    else if distribXid < xid then false
    else isInProgress distribXid rest

namespace LocalMapping

def start (ds : DistributedSnapshot) : LocalMapping := ⟨ds, .invalid, .invalid, []⟩

variable (dslm : LocalMapping)

/-- The local xid is found among those noted in the snapshot. -/
def findsLocalXid : Bool :=
  0 < dslm.inProgressMappedLocalXids.length &&
    (localXid == dslm.minCachedLocalXid || localXid == dslm.maxCachedLocalXid ||
      localXid.follows dslm.minCachedLocalXid && localXid.precedes dslm.maxCachedLocalXid &&
        dslm.inProgressMappedLocalXids.contains localXid)

def noteLocalXid : LocalMapping :=
  if dslm.inProgressMappedLocalXids.length < dslm.ds.inProgressXidArray.length then
    { dslm with
      inProgressMappedLocalXids := dslm.inProgressMappedLocalXids ++ [localXid]
      minCachedLocalXid :=
        if dslm.minCachedLocalXid = .invalid || localXid.precedes dslm.minCachedLocalXid then
          localXid
        else dslm.minCachedLocalXid
      maxCachedLocalXid :=
        if dslm.maxCachedLocalXid = .invalid || localXid.follows dslm.maxCachedLocalXid then
          localXid
        else dslm.maxCachedLocalXid }
  else dslm

/-- The test with a known distributed xid. -/
def testDistribXid (isVacuumCheck : Bool) (distribXid : Nat) :
    DistributedSnapshotCommitted × LocalMapping :=
  if distribXid < dslm.ds.xminAllDistributedSnapshots then (.ignore, dslm)
  else if isVacuumCheck then (.inProgress, dslm)
  else if distribXid < dslm.ds.xmin then (.visible, dslm)
  else if distribXid ≥ dslm.ds.xmax then (.inProgress, dslm)
  else if isInProgress distribXid dslm.ds.inProgressXidArray then
    (.inProgress, dslm.noteLocalXid localXid)
  else (.visible, dslm)

/-- `DistributedSnapshotWithLocalMapping_CommittedTest`. -/
def committedTest (cache : LocalDistribXactCache) (isVacuumCheck : Bool) :
    Option (DistributedSnapshotCommitted × LocalMapping × LocalDistribXactCache) :=
  if !localXid.isNormal then some (.ignore, dslm, cache)
  else if dslm.findsLocalXid localXid then some (.inProgress, dslm, cache)
  else do
    match ← cache.lookup maxCache log localXid with
    | (some distribXid, cache) =>
      let (answer, dslm) := dslm.testDistribXid localXid isVacuumCheck distribXid
      return (answer, dslm, cache)
    | (none, cache) => return (.unknown, dslm, cache)

/-- The answers to a sequence of calls. -/
def committedTests (dslm : LocalMapping) (cache : LocalDistribXactCache) :
    List (TransactionId × Bool) → Option (List DistributedSnapshotCommitted)
  | [] => some []
  | (localXid, isVacuumCheck) :: calls => do
    let (answer, dslm, cache) ← dslm.committedTest maxCache log localXid cache isVacuumCheck
    return answer :: (← committedTests dslm cache calls)

end LocalMapping

end

namespace DistributedSnapshot

variable (ds : DistributedSnapshot)

/-- The rule without caches. -/
def rule (isVacuumCheck : Bool) : Option Nat → DistributedSnapshotCommitted
  | none => .unknown
  | some distribXid =>
    if distribXid < ds.xminAllDistributedSnapshots then .ignore
    else if isVacuumCheck ∨ ds.xmax ≤ distribXid ∨ distribXid ∈ ds.inProgressXidArray then
      .inProgress
    else .visible

/-- The answer to a call. Special xids have no distributed xid. -/
def committed (committedCheck : TransactionId → Option Nat) (call : TransactionId × Bool) :
    DistributedSnapshotCommitted :=
  if call.1.isNormal then ds.rule call.2 (committedCheck call.1) else .ignore

structure Ordered : Prop where
  all_le : ds.xminAllDistributedSnapshots ≤ ds.xmin
  le : ds.xmin ≤ ds.xmax
  sorted : ds.inProgressXidArray.Pairwise (· ≤ ·)
  inside : ∀ distribXid ∈ ds.inProgressXidArray, ds.xmin ≤ distribXid ∧ distribXid < ds.xmax

end DistributedSnapshot

/-! ### The caches agree with the log -/

variable {log : DistributedLog} {maxCache distribXid : Nat} {localXid : TransactionId}
  {isVacuumCheck : Bool} {dslm : LocalMapping} {cache : LocalDistribXactCache}

def LocalDistribXactCache.Agrees (log : DistributedLog) (cache : LocalDistribXactCache) : Prop :=
  ∀ entry ∈ cache, log.committedCheck entry.localXid = some entry.distribXid

theorem LocalDistribXactCache.Agrees.lookup (agrees : cache.Agrees log) :
    ∃ after : LocalDistribXactCache, cache.lookup maxCache log localXid =
      some (log.committedCheck localXid, after) ∧ after.Agrees log := by
  unfold LocalDistribXactCache.lookup committedFind addCommitted
  by_cases disabled : maxCache = 0
  · simp only [if_pos disabled]
    cases log.committedCheck localXid <;> exact ⟨cache, rfl, agrees⟩
  simp only [if_neg disabled]
  cases found : cache.find? (·.localXid == localXid) with
  | some entry =>
    have known := agrees entry (mem_of_find?_eq_some found)
    have same : entry.localXid = localXid := by simpa using find?_some found
    exact ⟨_, by rw [← same, known], forall_mem_cons.mpr
      ⟨known, fun other mem => agrees other (mem_of_mem_eraseP mem)⟩⟩
  | none =>
    cases known : log.committedCheck localXid with
    | none => exact ⟨cache, rfl, agrees⟩
    | some distribXid =>
      have kept : ∀ entry ∈ if cache.length ≥ maxCache then cache.dropLast else cache,
          entry ∈ cache := by
        split
        · exact fun _ => mem_of_mem_dropLast
        · exact fun _ => id
      dsimp only
      generalize (if cache.length ≥ maxCache then cache.dropLast else cache) = rest at kept ⊢
      refine ⟨⟨localXid, distribXid⟩ :: rest, ?_, forall_mem_cons.mpr
        ⟨known, fun entry mem => agrees entry (kept entry mem)⟩⟩
      rw [if_neg]
      · rfl
      · rw [any_eq_true]
        rintro ⟨entry, mem, same⟩
        exact find?_eq_none.mp found entry (kept entry mem) same

theorem isInProgress_iff {xids} (sorted : Pairwise (· ≤ ·) xids) :
    isInProgress distribXid xids = true ↔ distribXid ∈ xids := by
  induction xids with
  | nil => simp [isInProgress]
  | cons xid rest ih =>
    obtain ⟨least, sorted⟩ := pairwise_cons.mp sorted
    rw [isInProgress, mem_cons]
    split_ifs with same less
    · simp [same]
    · refine iff_of_false (by simp) (not_or.mpr ⟨same, fun mem => ?_⟩)
      exact absurd (least _ mem) (not_le.mpr less)
    · rw [ih sorted, or_iff_right same]

namespace LocalMapping

/-- The noted local xids have distributed xids in progress, and the two ends are among them. -/
structure Agrees (log : DistributedLog) (dslm : LocalMapping) : Prop where
  mapped : ∀ localXid ∈ dslm.inProgressMappedLocalXids,
    ∃ distribXid ∈ dslm.ds.inProgressXidArray, log.committedCheck localXid = some distribXid
  ends : ∀ xid ∈ [dslm.minCachedLocalXid, dslm.maxCachedLocalXid],
    xid ∈ dslm.inProgressMappedLocalXids ∨ xid = .invalid ∧ dslm.inProgressMappedLocalXids = []

variable (agrees : dslm.Agrees log)
include agrees

theorem Agrees.noteLocalXid (known : log.committedCheck localXid = some distribXid)
    (inArray : distribXid ∈ dslm.ds.inProgressXidArray) :
    (dslm.noteLocalXid localXid).Agrees log := by
  unfold LocalMapping.noteLocalXid
  split
  · refine ⟨forall_mem_append.mpr ⟨agrees.mapped, ?_⟩, fun xid isEnd => .inl ?_⟩
    · exact forall_mem_singleton.mpr ⟨distribXid, inArray, known⟩
    · have ends := agrees.ends
      grind
  · exact agrees

variable (ordered : dslm.ds.Ordered)
include ordered

theorem Agrees.finds (finds : dslm.findsLocalXid localXid) :
    dslm.ds.rule isVacuumCheck (log.committedCheck localXid) = .inProgress := by
  have mem : localXid ∈ dslm.inProgressMappedLocalXids := by
    simp only [findsLocalXid, Bool.and_eq_true, Bool.or_eq_true,
      contains_iff_mem] at finds
    obtain ⟨some, isEnd | ⟨-, mem⟩⟩ := finds
    · refine (agrees.ends localXid (by simpa using isEnd)).resolve_right fun none => ?_
      simp [none.2] at some
    · exact mem
  obtain ⟨distribXid, inArray, known⟩ := agrees.mapped localXid mem
  have := (ordered.inside distribXid inArray).1
  have all_le := ordered.all_le
  rw [known, rule, if_neg (by omega), if_pos (.inr (.inr inArray))]

theorem Agrees.testDistribXid (known : log.committedCheck localXid = some distribXid) :
    ∃ after, dslm.testDistribXid localXid isVacuumCheck distribXid =
        (dslm.ds.rule isVacuumCheck (some distribXid), after) ∧
      after.Agrees log ∧ after.ds = dslm.ds := by
  have scan := @isInProgress_iff distribXid _ ordered.sorted
  have same : (dslm.noteLocalXid localXid).ds = dslm.ds := by
    unfold LocalMapping.noteLocalXid
    split <;> rfl
  unfold LocalMapping.testDistribXid rule
  by_cases old : distribXid < dslm.ds.xminAllDistributedSnapshots
  · exact ⟨dslm, by simp [old], agrees, rfl⟩
  by_cases vacuum : isVacuumCheck
  · exact ⟨dslm, by simp [old, vacuum], agrees, rfl⟩
  by_cases inArray : distribXid ∈ dslm.ds.inProgressXidArray
  · obtain ⟨lower, upper⟩ := ordered.inside distribXid inArray
    exact ⟨_, by simp [old, vacuum, inArray, scan, lower.not_gt, upper.not_ge],
      agrees.noteLocalXid known inArray, same⟩
  · refine ⟨dslm, ?_, agrees, rfl⟩
    have le := ordered.le
    grind

theorem Agrees.committedTest (cached : cache.Agrees log) :
    ∃ dslm' cache', dslm.committedTest maxCache log localXid cache isVacuumCheck =
        some (dslm.ds.committed log.committedCheck (localXid, isVacuumCheck), dslm', cache') ∧
      dslm'.Agrees log ∧ dslm'.ds = dslm.ds ∧ cache'.Agrees log := by
  unfold LocalMapping.committedTest committed
  by_cases normal : localXid.isNormal
  · by_cases finds : dslm.findsLocalXid localXid
    · refine ⟨dslm, cache, ?_, agrees, rfl, cached⟩
      simp [normal, finds, agrees.finds ordered finds]
    · obtain ⟨cache', found, cached⟩ := @cached.lookup log maxCache localXid
      simp only [normal, finds, found]
      cases known : log.committedCheck localXid with
      | none => exact ⟨dslm, cache', rfl, agrees, rfl, cached⟩
      | some distribXid =>
        obtain ⟨dslm', answer, agrees', same⟩ :=
          @agrees.testDistribXid log distribXid localXid isVacuumCheck _ ordered known
        exact ⟨dslm', cache', by simp [answer], agrees', same, cached⟩
  · exact ⟨dslm, cache, by simp [normal], agrees, rfl, cached⟩

theorem Agrees.committedTests (cached : cache.Agrees log) (calls) :
    dslm.committedTests maxCache log cache calls =
      some (calls.map (dslm.ds.committed log.committedCheck)) := by
  induction calls generalizing dslm cache with
  | nil => rfl
  | cons call calls ih =>
    obtain ⟨_, _, answer, agrees', same, cached⟩ := @agrees.committedTest log maxCache
      call.1 call.2 _ _ ordered cached
    have rest := ih agrees' (same ▸ ordered) cached
    rw [LocalMapping.committedTests, answer]
    simp [rest, same]

end LocalMapping

/-- The caches never change an answer, and the cache of the process raises no error. -/
theorem committedTests_eq_rule (ds : DistributedSnapshot) (ordered : ds.Ordered)
    (log : DistributedLog) (maxCache : Nat) (calls : List (TransactionId × Bool)) :
    (LocalMapping.start ds).committedTests maxCache log [] calls =
      some (calls.map (ds.committed log.committedCheck)) :=
  LocalMapping.Agrees.committedTests (by constructor <;> simp [LocalMapping.start]) ordered
    (forall_mem_nil _) calls

theorem committedTests_eq_rule_smallCache :
    (LocalMapping.start ⟨5, 1, 6, 9, [6, 8]⟩).committedTests 1 ⟨1, BitVec.toNat, by decide⟩ []
      [(8, false), (8, true), (7, false), (4, true), (6, false), (8, false)] =
    some [.inProgress, .inProgress, .visible, .ignore, .inProgress, .inProgress] :=
  committedTests_eq_rule _ ⟨by decide, by decide, by decide, by decide⟩ _ _ _

end Greengage.Dtm
