import Greengage.Dtm.GxidLog

/-!
Contract: distributed transaction ids are not used twice.
-/

namespace Greengage.Dtm

open Option List Nat Coordinator

open Foundations (guard_eq_some)

/-! ## Logs -/

def Survives (flushed : Nat) (wal records : List XlogRecord) : Prop :=
  ∃ upTo, flushed ≤ upTo ∧ upTo ≤ wal.length ∧ records = wal.take upTo

def recovered (checkPoint : CheckPoint) (records : List XlogRecord) : Nat :=
  (recover checkPoint records).nextGxid

variable {checkPoint : CheckPoint}

section

variable {flushed flushed' : Nat} {wal records recs : List XlogRecord} {record : XlogRecord}

theorem Survives.mono (more : flushed ≤ flushed') (survives : Survives flushed' wal recs) :
    Survives flushed wal recs := by
  obtain ⟨upTo, lower, upper, rfl⟩ := survives
  exact ⟨upTo, Nat.le_trans more lower, upper, rfl⟩

theorem survives_self (all : flushed ≤ wal.length) : Survives flushed wal wal :=
  ⟨wal.length, all, Nat.le_refl _, take_length.symm⟩

theorem survives_take (all : flushed ≤ wal.length) : Survives flushed wal (wal.take flushed) :=
  ⟨flushed, Nat.le_refl _, all, rfl⟩

theorem Survives.of_append (survives : Survives flushed (wal ++ [record]) recs) :
    Survives flushed wal recs ∨ recs = wal ++ [record] := by
  obtain ⟨upTo, lower, upper, rfl⟩ := survives
  rw [length_append, length_singleton] at upper
  by_cases whole : upTo = wal.length + 1
  · right
    exact take_of_length_le (by simp [whole])
  · left
    have old : upTo ≤ wal.length := by omega
    exact ⟨upTo, lower, old, take_append_of_le_length old⟩

theorem forall_survives_append {P : List XlogRecord → Prop}
    (old : ∀ recs, Survives flushed wal recs → P recs) (new : P (wal ++ [record])) :
    ∀ recs, Survives flushed (wal ++ [record]) recs → P recs := by
  intro recs survives
  rcases survives.of_append with pre | rfl
  · exact old recs pre
  · exact new

theorem recover_append (lt : checkPoint.redo ≤ wal.length) :
    recover checkPoint (wal ++ [record]) = xlogRedo (recover checkPoint wal) record := by
  rw [recover, drop_append_of_le_length lt, foldl_append]
  rfl

theorem foldl_xlogRedo_nextGxid (recs : List XlogRecord) :
    (∀ gen gen', (recs.foldl xlogRedo gen).nextGxid = (recs.foldl xlogRedo gen').nextGxid) ∨
      ∀ gen, (recs.foldl xlogRedo gen).nextGxid = gen.nextGxid := by
  induction recs with
  | nil => exact .inr fun _ => rfl
  | cons record later ih =>
    rcases ih with overwritten | kept
    · exact .inl fun gen gen' => overwritten _ _
    · cases record with
      | nextGxid limit => exact .inl fun gen gen' => rfl
      | checkpointOnline => exact .inr fun gen => kept _
      | checkpointShutdown checkPoint =>
        left
        intro gen gen'
        rw [foldl_cons, foldl_cons, kept, kept]
        rfl

/-- Recovery from a later redo position: the value of the checkpoint counts when no
record overwrites it. -/
theorem recovered_later {redo nextGxid} (later : checkPoint.redo ≤ redo) :
    recovered ⟨redo, nextGxid⟩ recs = recovered checkPoint recs ∨
      recovered ⟨redo, nextGxid⟩ recs = nextGxid := by
  obtain ⟨distance, rfl⟩ := Nat.exists_eq_add_of_le later
  have split : recs.drop checkPoint.redo = (recs.drop checkPoint.redo).take distance ++
        recs.drop (checkPoint.redo + distance) := by
    rw [← drop_drop, take_append_drop]
  simp only [recovered, recover]
  rw [split, foldl_append]
  rcases foldl_xlogRedo_nextGxid (recs.drop (checkPoint.redo + distance)) with same | kept
  · exact .inl (same _ _)
  · exact .inr (kept _)

theorem foldl_xlogRedo_gxidCount (recs : List XlogRecord) {gen} (none : gen.gxidCount = 0) :
    (recs.foldl xlogRedo gen).gxidCount = 0 := by
  induction recs generalizing gen with
  | nil => exact none
  | cons record later ih =>
    cases record with
    | nextGxid => exact ih rfl
    | checkpointOnline => exact ih none
    | checkpointShutdown => exact ih none

theorem recover_gxidCount : (recover checkPoint recs).gxidCount = 0 :=
  foldl_xlogRedo_gxidCount _ rfl

theorem lastLimit_append_nextGxid (limit) : lastLimit (wal ++ [.nextGxid limit]) = some limit := by
  induction wal with
  | nil => rfl
  | cons first later ih =>
    simp only [cons_append, lastLimit, ih]

theorem lastLimit_append_checkPoint (kind) :
    lastLimit (wal ++ [checkPointRecord kind checkPoint]) = lastLimit wal := by
  induction wal with
  | nil => cases kind <;> rfl
  | cons first later ih =>
    simp only [cons_append, lastLimit, ih]

end

/-! ## The invariant -/

namespace Coordinator

def bound (state : Coordinator) : Nat :=
  if state.mode = .production then state.gen.nextGxid + state.gen.gxidCount
  else state.gen.nextGxid

structure CheckPointOk (state : Coordinator) (checkPoint : CheckPoint) : Prop where
  redo_le : checkPoint.redo ≤ state.wal.length
  durable : ∀ records, Survives state.flushed state.wal records →
    state.bound ≤ recovered checkPoint records
  limited : ∀ records, Survives state.flushed state.wal records →
    ∀ limit, lastLimit records = some limit → recovered checkPoint records ≤ limit
  bumped : ∀ limit position, state.bump = some (.logged limit position) →
    ∀ records, Survives (position + 1) state.wal records → recovered checkPoint records = limit

/-- A bump holds a limit that is above the current one by the ids it will add. -/
def BumpOk (state : Coordinator) : Option BumpPhase → Prop
  | none => True
  | some .locked => state.mode = .production
  | some .checked =>
    state.mode = .production ∧ state.gen.gxidCount ≤ state.gpGxidPrefetchNum
  | some (.computed limit) =>
    state.mode = .production ∧ state.gen.gxidCount ≤ state.gpGxidPrefetchNum ∧
      limit = state.gen.nextGxid + state.gen.gxidCount + state.gpGxidPrefetchNum
  | some (.logged limit position) =>
    state.mode = .production ∧ state.gen.gxidCount ≤ state.gpGxidPrefetchNum ∧
      limit = state.gen.nextGxid + state.gen.gxidCount + state.gpGxidPrefetchNum ∧
      position < state.wal.length ∧
      ∀ records, Survives (position + 1) state.wal records → lastLimit records = some limit

/-- A checkpoint in progress can take the place of the last one once the generator has
been read. -/
def CheckPointingOk (state : Coordinator) : Option CheckPointing → Prop
  | none => True
  | some ⟨kind, redo, .started⟩ =>
    state.mayCheckPoint kind ∧ state.control.redo ≤ redo ∧ redo ≤ state.wal.length
  | some ⟨kind, redo, .read nextGxid⟩ =>
    state.mayCheckPoint kind ∧ state.CheckPointOk ⟨redo, nextGxid⟩ ∧
      (kind ≠ .online → nextGxid = state.gen.nextGxid)
  | some ⟨kind, redo, .inserted nextGxid position⟩ =>
    state.mayCheckPoint kind ∧ state.CheckPointOk ⟨redo, nextGxid⟩ ∧ redo ≤ position ∧
      (kind ≠ .online → ∀ records, Survives (position + 1) state.wal records →
        recovered ⟨redo, nextGxid⟩ records = nextGxid)

structure LogOk (state : Coordinator) : Prop where
  ordered : state.handedOut.Pairwise (· < ·)
  issued : ∀ gxid ∈ state.handedOut, gxid < state.gen.nextGxid
  flushed_le : state.flushed ≤ state.wal.length
  redo_le : state.control.redo ≤ state.flushed
  control : state.CheckPointOk state.control
  logged : 0 < state.gen.gxidCount ∨ state.handedOut ≠ [] →
    ∀ records, Survives state.flushed state.wal records → lastLimit records ≠ none
  bump : state.BumpOk state.bump
  checkPointing : state.CheckPointingOk state.checkPointing
  recovering : state.mode = .recovering → state.gen.gxidCount = 0
  gpGxidPrefetchNum : state.gpGxidPrefetchNum < 2 ^ 31
  shutdowned : state.shutdowned = true →
    (state.mode = .down ∨ state.mode = .recovering) ∧ state.checkPointing = none ∧
      ∀ records, Survives state.flushed state.wal records →
        recovered state.control records = state.control.nextGxid

variable {state after : Coordinator}

theorem BumpOk.production {phase} (ok : state.BumpOk (some phase)) : state.mode = .production := by
  cases phase with
  | locked => exact ok
  | _ => exact ok.1

theorem CheckPointingOk.may {kind redo stage}
    (ok : state.CheckPointingOk (some ⟨kind, redo, stage⟩)) : state.mayCheckPoint kind := by
  cases stage <;> exact ok.1

theorem LogOk.not_shutdowned (ok : state.LogOk) (prod : state.mode = .production) :
    ¬ state.shutdowned := by
  intro clean
  have stopped := (ok.shutdowned clean).1
  simp [prod] at stopped

/-! ## Steps that leave the log as it is -/

structure Unlogged (state after : Coordinator) : Prop where
  wal : after.wal = state.wal
  flushed : state.flushed ≤ after.flushed
  bound : after.bound ≤ state.bound
  bump : ∀ limit position, after.bump = some (.logged limit position) →
    state.bump = some (.logged limit position)

theorem CheckPointOk.unlogged (ok : state.CheckPointOk checkPoint)
    (unlogged : Unlogged state after) : after.CheckPointOk checkPoint where
  redo_le := unlogged.wal ▸ ok.redo_le
  durable recs survives := by
    rw [unlogged.wal] at survives
    exact Nat.le_trans unlogged.bound (ok.durable recs (survives.mono unlogged.flushed))
  limited recs survives := by
    rw [unlogged.wal] at survives
    exact ok.limited recs (survives.mono unlogged.flushed)
  bumped limit pos logged recs survives := by
    rw [unlogged.wal] at survives
    exact ok.bumped limit pos (unlogged.bump limit pos logged) recs survives

section

variable {checkPointing : Option CheckPointing} (ok : state.CheckPointingOk checkPointing)
  (mode : after.mode = state.mode) (shutdowned : after.shutdowned = state.shutdowned)
  (control : after.control = state.control)
include ok mode shutdowned control

/-- Another state in which every checkpoint is as good as before. Only an online checkpoint
goes on while ids are handed out and records are inserted. -/
theorem CheckPointingOk.transfer (longer : state.wal.length ≤ after.wal.length)
    (each : ∀ checkPoint, state.CheckPointOk checkPoint → after.CheckPointOk checkPoint)
    (quiet : state.mode ≠ .production →
      after.gen.nextGxid = state.gen.nextGxid ∧ after.wal = state.wal) :
    after.CheckPointingOk checkPointing := by
  have may (kind) : after.mayCheckPoint kind = state.mayCheckPoint kind := by
    cases kind <;> simp only [mayCheckPoint, mode, shutdowned]
  have notProduction (kind) (allowed : state.mayCheckPoint kind)
      (ne : kind ≠ .online) : state.mode ≠ .production := by
    cases kind <;> simp_all [mayCheckPoint]
  match checkPointing with
  | none => trivial
  | some ⟨kind, redo, .started⟩ =>
    obtain ⟨allowed, later, lt⟩ := ok
    exact ⟨(may kind).trans allowed, control ▸ later, Nat.le_trans lt longer⟩
  | some ⟨kind, redo, .read value⟩ =>
    obtain ⟨allowed, checkPointOk, exact_⟩ := ok
    refine ⟨(may kind).trans allowed, each _ checkPointOk, ?_⟩
    intro ne
    rw [exact_ ne, (quiet (notProduction kind allowed ne)).1]
  | some ⟨kind, redo, .inserted value pos⟩ =>
    obtain ⟨allowed, checkPointOk, lt, exact_⟩ := ok
    refine ⟨(may kind).trans allowed, each _ checkPointOk, lt, ?_⟩
    intro ne
    rw [(quiet (notProduction kind allowed ne)).2]
    exact exact_ ne

theorem CheckPointingOk.unlogged (unlogged : Unlogged state after)
    (nextGxid : state.mode ≠ .production → after.gen.nextGxid = state.gen.nextGxid) :
    after.CheckPointingOk checkPointing :=
  ok.transfer mode shutdowned control (Nat.le_of_eq (unlogged.wal ▸ rfl))
    (fun _ checkPointOk => checkPointOk.unlogged unlogged)
    fun stopped => ⟨nextGxid stopped, unlogged.wal⟩

end

section

section

variable (ok : state.LogOk)
include ok

theorem LogOk.allocate (taken : state.allocate = some after) : after.LogOk := by
  simp only [Coordinator.allocate, GxidGenerator.allocate, ite_none_right_eq_some,
    map_eq_some_iff] at taken
  obtain ⟨prod, ⟨gxid, gen⟩, ⟨available, genEq⟩, rfl⟩ := taken
  cases genEq
  have unlogged : Unlogged state { state with
        gen := { nextGxid := state.gen.nextGxid + 1, gxidCount := state.gen.gxidCount - 1 }
        handedOut := state.handedOut ++ [state.gen.nextGxid] } := by
    refine ⟨rfl, Nat.le_refl _, ?_, fun _ _ => id⟩
    simp only [bound, prod, if_true]
    omega
  exact { ok with
    ordered := by
      rw [pairwise_append]
      refine ⟨ok.ordered, pairwise_singleton _ _, ?_⟩
      intro gxid mem _ last
      rw [mem_singleton.mp last]
      exact ok.issued gxid mem
    issued := forall_mem_append.mpr ⟨fun gxid old => lt_succ_of_lt (ok.issued gxid old),
      forall_mem_singleton.mpr (lt_succ_self _)⟩
    control := ok.control.unlogged unlogged
    logged _ := ok.logged (.inl available)
    bump := by
      have bumpOk := ok.bump
      match bumpEq : state.bump with
      | none => trivial
      | some .locked => exact prod
      | some .checked =>
        rw [bumpEq] at bumpOk
        exact ⟨prod, by have := bumpOk.2; dsimp only; omega⟩
      | some (.computed limit) =>
        rw [bumpEq] at bumpOk
        obtain ⟨_, few, limitEq⟩ := bumpOk
        exact ⟨prod, by dsimp only; omega, by dsimp only; omega⟩
      | some (.logged limit pos) =>
        rw [bumpEq] at bumpOk
        obtain ⟨_, few, limitEq, last⟩ := bumpOk
        exact ⟨prod, by dsimp only; omega, by dsimp only; omega, last⟩
    checkPointing := ok.checkPointing.unlogged rfl rfl rfl unlogged (absurd prod)
    recovering mode := absurd (prod.symm.trans mode) (by simp)
    shutdowned clean := absurd clean (ok.not_shutdowned prod) }

section

variable {flushed : Nat} {bump : Option BumpPhase} {checkPointing : Option CheckPointing}

theorem LogOk.unlogged (unlogged : Unlogged state { state with flushed, bump, checkPointing })
    (flushed_le : flushed ≤ state.wal.length)
    (bumpOk : BumpOk { state with flushed, bump, checkPointing } bump)
    (checkPointingOk : CheckPointingOk { state with flushed, bump, checkPointing } checkPointing)
    (quiet : state.shutdowned = true → checkPointing = none) :
    LogOk { state with flushed, bump, checkPointing } :=
  { ok with
    flushed_le := flushed_le
    redo_le := Nat.le_trans ok.redo_le unlogged.flushed
    control := ok.control.unlogged unlogged
    logged used recs survives := ok.logged used recs (survives.mono unlogged.flushed)
    bump := bumpOk
    checkPointing := checkPointingOk
    shutdowned clean :=
      have ⟨stopped, _, same⟩ := ok.shutdowned clean
      ⟨stopped, quiet clean, fun recs survives =>
        same recs (survives.mono unlogged.flushed)⟩ }

theorem LogOk.unlogged_bump (unlogged : Unlogged state { state with flushed, bump })
    (flushed_le : flushed ≤ state.wal.length) (bumpOk : BumpOk { state with flushed, bump } bump) :
    LogOk { state with flushed, bump } :=
  ok.unlogged unlogged flushed_le bumpOk
    (ok.checkPointing.unlogged rfl rfl rfl unlogged fun _ => rfl)
    fun clean => (ok.shutdowned clean).2.1

end

theorem LogOk.bumpLock (taken : state.bumpLock = some after) : after.LogOk := by
  obtain ⟨⟨prod, _⟩, rfl⟩ := guard_eq_some taken
  have unlogged : Unlogged state { state with bump := some .locked } :=
    ⟨rfl, Nat.le_refl _, Nat.le_refl _, fun _ _ logged => by simp at logged⟩
  exact ok.unlogged_bump unlogged ok.flushed_le prod

theorem LogOk.bumpCheck (taken : state.bumpCheck = some after) : after.LogOk := by
  obtain ⟨locked, rfl⟩ := guard_eq_some taken
  have prod : state.mode = .production := by
    have bumpOk := ok.bump
    rwa [locked] at bumpOk
  have unlogged : Unlogged state { state with
      bump :=
        if gxidPretchThreshold state.gpGxidPrefetchNum < state.gen.gxidCount then none
        else some .checked } := by
    refine ⟨rfl, Nat.le_refl _, Nat.le_refl _, ?_⟩
    intro _ _ logged
    split at logged <;> simp at logged
  refine ok.unlogged_bump unlogged ok.flushed_le ?_
  split
  · trivial
  · rename_i few
    refine ⟨prod, ?_⟩
    dsimp only
    unfold gxidPretchThreshold at few
    omega

theorem LogOk.bumpCompute (taken : state.bumpCompute = some after) : after.LogOk := by
  obtain ⟨⟨checked, _⟩, rfl⟩ := guard_eq_some taken
  have bumpOk := ok.bump
  rw [checked] at bumpOk
  obtain ⟨prod, few⟩ := bumpOk
  have := ok.gpGxidPrefetchNum
  have unlogged : Unlogged state { state with
      bump := some (.computed (state.gen.nextLimit state.gpGxidPrefetchNum)) } :=
    ⟨rfl, Nat.le_refl _, Nat.le_refl _, fun _ _ logged => by simp at logged⟩
  refine ok.unlogged_bump unlogged ok.flushed_le ⟨prod, few, ?_⟩
  simp only [GxidGenerator.nextLimit]
  omega

theorem LogOk.flush {upTo} (taken : state.flush upTo = some after) : after.LogOk := by
  obtain ⟨⟨_, more, lt⟩, rfl⟩ := guard_eq_some taken
  have unlogged : Unlogged state { state with flushed := upTo } :=
    ⟨rfl, more, Nat.le_refl _, fun _ _ => id⟩
  exact ok.unlogged_bump unlogged lt ok.bump

theorem LogOk.checkPointStart {kind} (taken : state.checkPointStart kind = some after) :
    after.LogOk := by
  obtain ⟨⟨_, allowed⟩, rfl⟩ := guard_eq_some taken
  have unlogged : Unlogged state { state with
      checkPointing := some ⟨kind, state.wal.length, .started⟩ } :=
    ⟨rfl, Nat.le_refl _, Nat.le_refl _, fun _ _ => id⟩
  refine ok.unlogged unlogged ok.flushed_le ok.bump
    ⟨allowed, Nat.le_trans ok.redo_le ok.flushed_le, Nat.le_refl _⟩ ?_
  intro clean
  have := (ok.shutdowned clean).1
  cases kind <;> simp_all [mayCheckPoint]

end

variable {kind : CheckPointKind}

theorem checkPointValue_eq (allowed : state.mayCheckPoint kind) :
    state.checkPointValue kind = state.bound := by
  cases kind <;> simp_all [mayCheckPoint, checkPointValue, bound]

theorem LogOk.checkPointRead (ok : state.LogOk) (taken : state.checkPointRead = some after) :
    after.LogOk := by
  unfold Coordinator.checkPointRead at taken
  split at taken
  case h_2 => cases taken
  case h_1 kind redo started =>
    obtain ⟨noBump, rfl⟩ := guard_eq_some taken
    have startedOk := ok.checkPointing
    rw [started] at startedOk
    obtain ⟨allowed, later, lt⟩ := startedOk
    have checkPointOk : state.CheckPointOk ⟨redo, state.bound⟩ := {
      redo_le := lt
      durable recs survives := by
        rcases @recovered_later state.control recs redo state.bound later with same | kept
        · exact same ▸ ok.control.durable recs survives
        · exact Nat.le_of_eq kept.symm
      limited recs survives limit last := by
        have controlLimited := ok.control.limited recs survives limit last
        rcases @recovered_later state.control recs redo state.bound later with same | kept
        · exact same ▸ controlLimited
        · rw [kept]
          exact Nat.le_trans (ok.control.durable recs survives) controlLimited
      bumped limit pos logged := by simp [noBump] at logged }
    rw [checkPointValue_eq allowed]
    have unlogged : Unlogged state { state with
        checkPointing := some ⟨kind, redo, .read state.bound⟩ } :=
      ⟨rfl, Nat.le_refl _, Nat.le_refl _, fun _ _ => id⟩
    refine ok.unlogged unlogged ok.flushed_le ok.bump
      ⟨allowed, checkPointOk.unlogged unlogged, ?_⟩ ?_
    · intro ne
      cases kind <;> simp_all [mayCheckPoint, bound]
    · intro clean
      have quiet := (ok.shutdowned clean).2.1
      simp [quiet] at started

/-! ## Steps that insert a record -/

theorem survives_succ_append {wal recs record}
    (survives : Survives (wal.length + 1) (wal ++ [record]) recs) :
    recs = wal ++ [record] := by
  rcases survives.of_append with ⟨_, _, _, _⟩ | whole
  · omega
  · exact whole

theorem CheckPointOk.bumpLog {limit : Nat} (ok : state.CheckPointOk checkPoint)
    (above : state.bound ≤ limit) :
    CheckPointOk { state with
      wal := state.wal ++ [.nextGxid limit]
      bump := some (.logged limit state.wal.length) } checkPoint := by
  have new : recovered checkPoint (state.wal ++ [.nextGxid limit]) = limit := by
    rw [recovered, recover_append ok.redo_le]
    rfl
  exact {
    redo_le := by
      rw [length_append]
      exact le_add_right_of_le ok.redo_le
    durable := forall_survives_append ok.durable (Nat.le_trans above (Nat.le_of_eq new.symm))
    limited := forall_survives_append ok.limited fun other last => by
      rw [lastLimit_append_nextGxid] at last
      exact Nat.le_of_eq (new.trans (some.inj last))
    bumped other pos logged recs survives := by
      obtain ⟨rfl, rfl⟩ := logged
      rw [survives_succ_append survives, new] }

theorem LogOk.bumpLog (ok : state.LogOk) (taken : state.bumpLog = some after) : after.LogOk := by
  unfold Coordinator.bumpLog at taken
  split at taken
  case h_2 => cases taken
  case h_1 limit ran =>
    simp only [some.injEq] at taken
    subst taken
    have bumpOk := ok.bump
    rw [ran] at bumpOk
    obtain ⟨prod, few, limitEq⟩ := bumpOk
    have above : state.bound ≤ limit := by
      simp only [bound, prod, if_true]
      omega
    have longer : state.wal.length ≤ (state.wal ++ [XlogRecord.nextGxid limit]).length := by
      simp
    exact { ok with
      flushed_le := Nat.le_trans ok.flushed_le longer
      control := ok.control.bumpLog above
      logged used := forall_survives_append (ok.logged used) (by
        simp [lastLimit_append_nextGxid])
      bump := by
        refine ⟨prod, few, limitEq, ?_, ?_⟩
        · simp
        · intro _ survives
          rw [survives_succ_append survives, lastLimit_append_nextGxid]
      checkPointing := ok.checkPointing.transfer rfl rfl rfl longer
        (fun _ checkPointOk => checkPointOk.bumpLog above) (absurd prod)
      shutdowned clean := absurd clean (ok.not_shutdowned prod) }

theorem CheckPointOk.bumpExtend {limit pos gen} (ok : state.CheckPointOk checkPoint)
    (logged : state.bump = some (.logged limit pos)) (flushed : pos < state.flushed)
    (ext : bound { state with gen, bump := none } = limit) :
    CheckPointOk { state with gen, bump := none } checkPoint where
  redo_le := ok.redo_le
  durable recs survives := by
    rw [ext]
    exact Nat.le_of_eq (ok.bumped limit pos logged recs (survives.mono flushed)).symm
  limited := ok.limited
  bumped _ _ none := by cases none

theorem LogOk.bumpExtend (ok : state.LogOk) (taken : state.bumpExtend = some after) :
    after.LogOk := by
  unfold Coordinator.bumpExtend at taken
  split at taken
  case h_2 => cases taken
  case h_1 limit pos logged =>
    obtain ⟨flushed, rfl⟩ := guard_eq_some taken
    have bumpOk := ok.bump
    rw [logged] at bumpOk
    obtain ⟨prod, _, _, _, last⟩ := bumpOk
    have := ok.gpGxidPrefetchNum
    have ext : bound { state with
        gen := state.gen.prefetch state.gpGxidPrefetchNum, bump := none } = limit := by
      simp only [bound, prod, if_true, GxidGenerator.prefetch]
      omega
    exact { ok with
      control := ok.control.bumpExtend logged flushed ext
      logged _ recs survives := by
        rw [last recs (survives.mono flushed)]
        exact some_ne_none limit
      bump := trivial
      checkPointing := ok.checkPointing.transfer rfl rfl rfl (Nat.le_refl _)
        (fun _ checkPointOk => checkPointOk.bumpExtend logged flushed ext)
        (absurd prod)
      recovering recov := absurd (prod.symm.trans recov) (by simp)
      shutdowned := ok.shutdowned }

theorem CheckPointOk.checkPointInsert {written} {checkPointing : Option CheckPointing}
    (ok : state.CheckPointOk checkPoint) (bumpOk : state.BumpOk state.bump)
    (flushed_le : state.flushed ≤ state.wal.length)
    (exact_ : kind ≠ .online → state.mode ≠ .production ∧ written.nextGxid = state.bound) :
    CheckPointOk { state with
      wal := state.wal ++ [checkPointRecord kind written], checkPointing } checkPoint := by
  have whole := survives_self flushed_le
  have redo_le : checkPoint.redo ≤ (state.wal ++ [checkPointRecord kind written]).length := by
    rw [length_append]
    exact le_add_right_of_le ok.redo_le
  by_cases online : kind = .online
  · -- the record of an online checkpoint does not change what recovery does
    have new : recovered checkPoint (state.wal ++ [checkPointRecord kind written]) =
        recovered checkPoint state.wal := by
      rw [online, recovered, recover_append ok.redo_le]
      rfl
    exact {
      redo_le := redo_le
      durable := forall_survives_append ok.durable (new ▸ ok.durable state.wal whole)
      limited := forall_survives_append ok.limited fun limit last => by
        rw [lastLimit_append_checkPoint] at last
        exact new ▸ ok.limited state.wal whole limit last
      bumped limit pos logged := by
        refine forall_survives_append (ok.bumped limit pos logged) ?_
        have position_lt : pos < state.wal.length := by
          rw [logged] at bumpOk
          exact bumpOk.2.2.2.1
        exact new.trans (ok.bumped limit pos logged state.wal (survives_self position_lt)) }
  · obtain ⟨stopped, valueEq⟩ := exact_ online
    have new : recovered checkPoint (state.wal ++ [checkPointRecord kind written]) =
        state.bound := by
      rw [recovered, recover_append ok.redo_le, ← valueEq]
      cases kind with
      | online => exact absurd rfl online
      | shutdown => rfl
      | endOfRecovery => rfl
    exact {
      redo_le := redo_le
      durable := forall_survives_append ok.durable (Nat.le_of_eq new.symm)
      limited := forall_survives_append ok.limited fun limit last => by
        rw [lastLimit_append_checkPoint] at last
        rw [new]
        exact Nat.le_trans (ok.durable state.wal whole) (ok.limited state.wal whole limit last)
      bumped limit pos logged := by
        rw [logged] at bumpOk
        exact absurd bumpOk.1 stopped }

theorem LogOk.checkPointInsert (ok : state.LogOk) (taken : state.checkPointInsert = some after) :
    after.LogOk := by
  unfold Coordinator.checkPointInsert at taken
  split at taken
  case h_2 => cases taken
  case h_1 kind redo value reading =>
    obtain ⟨_, rfl⟩ := guard_eq_some taken
    have readOk := ok.checkPointing
    rw [reading] at readOk
    obtain ⟨allowed, checkPointOk, _⟩ := readOk
    have stopped : kind ≠ .online → state.mode ≠ .production ∧ value = state.bound := by
      intro ne
      cases kind <;> simp_all [mayCheckPoint, bound]
    have longer : state.wal.length ≤
        (state.wal ++ [checkPointRecord kind ⟨redo, value⟩]).length := by
      simp
    exact { ok with
      flushed_le := Nat.le_trans ok.flushed_le longer
      control := ok.control.checkPointInsert ok.bump ok.flushed_le stopped
      logged used := forall_survives_append (ok.logged used) (by
        rw [lastLimit_append_checkPoint]
        exact ok.logged used state.wal (survives_self ok.flushed_le))
      bump := by
        have bumpOk := ok.bump
        match bumpEq : state.bump with
        | none => trivial
        | some .locked | some .checked | some (.computed _) => rwa [bumpEq] at bumpOk
        | some (.logged limit pos) =>
          rw [bumpEq] at bumpOk
          obtain ⟨prod, few, limitEq, position_lt, last⟩ := bumpOk
          refine ⟨prod, few, limitEq, Nat.lt_of_lt_of_le position_lt longer, ?_⟩
          refine forall_survives_append last ?_
          rw [lastLimit_append_checkPoint]
          exact last state.wal (survives_self position_lt)
      checkPointing := by
        refine ⟨allowed, checkPointOk.checkPointInsert ok.bump ok.flushed_le stopped,
          checkPointOk.redo_le, ?_⟩
        intro ne _ survives
        rw [survives_succ_append survives, recovered, recover_append checkPointOk.redo_le]
        cases kind with
        | online => exact absurd rfl ne
        | shutdown => rfl
        | endOfRecovery => rfl
      shutdowned clean := by
        have quiet := (ok.shutdowned clean).2.1
        simp [quiet] at reading }

/-! ## Stops and starts -/

theorem LogOk.bump_eq_none (ok : state.LogOk) (stopped : state.mode ≠ .production) :
    state.bump = none := by
  have bumpOk := ok.bump
  cases bumpEq : state.bump with
  | none => rfl
  | some phase =>
    rw [bumpEq] at bumpOk
    exact absurd bumpOk.production stopped

theorem LogOk.checkPointing_eq_none (ok : state.LogOk) (down : state.mode = .down) :
    state.checkPointing = none := by
  have checkPointingOk := ok.checkPointing
  cases eq : state.checkPointing with
  | none => rfl
  | some checkPointing =>
    rw [eq] at checkPointingOk
    have may := checkPointingOk.may
    cases kind : checkPointing.kind <;> simp [kind, mayCheckPoint, down] at may

theorem bound_le (stopped : after.mode ≠ .production) (gen : after.gen = state.gen) :
    after.bound ≤ state.bound := by
  simp only [bound, stopped, if_false, gen]
  split
  · exact le_add_right _ _
  · exact Nat.le_refl _

section

variable (ok : state.LogOk)
include ok

theorem LogOk.checkPointFinish (taken : state.checkPointFinish = some after) : after.LogOk := by
  unfold Coordinator.checkPointFinish at taken
  split at taken
  case h_2 => cases taken
  case h_1 kind redo value pos inserted =>
    obtain ⟨flushed, rfl⟩ := guard_eq_some taken
    have insertedOk := ok.checkPointing
    rw [inserted] at insertedOk
    obtain ⟨_, checkPointOk, lt, exact_⟩ := insertedOk
    have unlogged : Unlogged state { state with
        control := ⟨redo, value⟩
        checkPointing := none
        shutdowned := if kind = .online then state.shutdowned else true
        mode := if kind = .shutdown then .down else state.mode } := by
      refine ⟨rfl, Nat.le_refl _, ?_, fun _ _ => id⟩
      by_cases shutdown : kind = .shutdown
      · exact bound_le (by simp [shutdown]) rfl
      · simp [bound, shutdown]
    exact { ok with
      redo_le := Nat.le_trans lt (Nat.le_of_lt flushed)
      control := checkPointOk.unlogged unlogged
      bump := by
        by_cases shutdown : kind = .shutdown
        · have none := ok.bump_eq_none (by simp_all [mayCheckPoint])
          simp only [none]
          trivial
        · simp only [shutdown]
          exact ok.bump
      checkPointing := trivial
      recovering recov := by
        split at recov
        · cases recov
        · exact ok.recovering recov
      shutdowned clean := by
        by_cases online : kind = .online
        · -- an online checkpoint is made by a running server
          have running : state.mode = .production := by simp_all [mayCheckPoint]
          simp only [online] at clean
          exact absurd clean (ok.not_shutdowned running)
        · refine ⟨?_, rfl, fun recs survives => exact_ online recs (survives.mono flushed)⟩
          cases kind <;> simp_all [mayCheckPoint] }

theorem LogOk.openServer (taken : state.openServer = some after) : after.LogOk := by
  obtain ⟨⟨recov, noCheckPoint⟩, rfl⟩ := guard_eq_some taken
  have none := ok.recovering recov
  have noBump := ok.bump_eq_none (by simp [recov])
  have unlogged : Unlogged state { state with mode := .production, shutdowned := false } :=
    ⟨rfl, Nat.le_refl _, by simp [bound, none], fun _ _ => id⟩
  exact { ok with
    control := ok.control.unlogged unlogged
    bump := by simp only [noBump]; trivial
    checkPointing := by simp only [noCheckPoint]; trivial
    recovering _ := none
    shutdowned clean := by cases clean }

theorem LogOk.shutDown (taken : state.shutDown = some after) : after.LogOk := by
  obtain ⟨⟨prod, noBump, noCheckPoint⟩, rfl⟩ := guard_eq_some taken
  have unlogged : Unlogged state { state with mode := .shuttingDown } :=
    ⟨rfl, Nat.le_refl _, bound_le (by simp) rfl, fun _ _ => id⟩
  exact { ok with
    control := ok.control.unlogged unlogged
    bump := by simp only [noBump]; trivial
    checkPointing := by simp only [noCheckPoint]; trivial
    recovering recov := by cases recov
    shutdowned clean := absurd clean (ok.not_shutdowned prod) }

theorem LogOk.crash : state.crash.LogOk := by
  have unlogged : Unlogged state state.crash :=
    ⟨rfl, Nat.le_refl _, bound_le (by simp [Coordinator.crash]) rfl,
      fun _ _ logged => by cases logged⟩
  exact { ok with
    control := ok.control.unlogged unlogged
    bump := trivial
    checkPointing := trivial
    recovering recov := by cases recov
    shutdowned clean := ⟨.inl rfl, rfl, (ok.shutdowned clean).2.2⟩ }

theorem LogOk.startUp {gpGxidPrefetchNum} (taken : state.startUp gpGxidPrefetchNum = some after) :
    after.LogOk := by
  obtain ⟨⟨down, _, small⟩, rfl⟩ := guard_eq_some taken
  have onDisk := survives_take ok.flushed_le
  have only (recs : List XlogRecord)
      (survives : Survives state.flushed (state.wal.take state.flushed) recs) :
      recs = state.wal.take state.flushed := by
    obtain ⟨upTo, lower, _, rfl⟩ := survives
    exact take_of_length_le (by rw [length_take]; omega)
  obtain ⟨gen, genDef⟩ := @exists_eq _ ((if state.shutdowned then
      { nextGxid := state.control.nextGxid, gxidCount := 0 }
        else recover state.control (state.wal.take state.flushed) : GxidGenerator))
  rw [← genDef]
  have nextGxid : gen.nextGxid = recovered state.control (state.wal.take state.flushed) := by
    cases clean : state.shutdowned with
    | true => simp [genDef, clean, (ok.shutdowned clean).2.2 _ onDisk]
    | false => simp [genDef, clean, recovered]
  have gxidCount : gen.gxidCount = 0 := by
    cases clean : state.shutdowned with
    | true => simp [genDef, clean]
    | false => simp [genDef, clean, recover_gxidCount]
  have above : state.gen.nextGxid ≤ gen.nextGxid := by
    have durable := ok.control.durable _ onDisk
    rw [nextGxid]
    simpa [bound, down] using durable
  exact { ok with
    issued gxid mem := Nat.lt_of_lt_of_le (ok.issued gxid mem) above
    flushed_le := by simp [ok.flushed_le]
    control := {
      redo_le := by
        simp only [length_take]
        have lt := ok.redo_le
        have longer := ok.flushed_le
        omega
      durable recs survives := by
        rw [only recs survives, ← nextGxid]
        simp [bound]
      limited recs survives := by
        rw [only recs survives]
        exact ok.control.limited _ onDisk
      bumped limit pos logged := by
        have none := ok.bump_eq_none (by simp [down])
        simp [none] at logged }
    logged used recs survives := by
      rw [only recs survives]
      refine ok.logged (.inr ?_) _ onDisk
      simpa [gxidCount] using used
    bump := by
      simp only [ok.bump_eq_none (by simp [down])]
      trivial
    checkPointing := by
      simp only [ok.checkPointing_eq_none down]
      trivial
    recovering _ := gxidCount
    gpGxidPrefetchNum := small
    shutdowned clean := by
      refine ⟨.inr rfl, ok.checkPointing_eq_none down, ?_⟩
      intro recs survives
      rw [only recs survives]
      exact (ok.shutdowned clean).2.2 _ onDisk }

theorem LogOk.step {event} (taken : state.step event = some after) : after.LogOk := by
  cases event with
  | allocate => exact ok.allocate taken
  | bumpLock => exact ok.bumpLock taken
  | bumpCheck => exact ok.bumpCheck taken
  | bumpCompute => exact ok.bumpCompute taken
  | bumpLog => exact ok.bumpLog taken
  | bumpExtend => exact ok.bumpExtend taken
  | flush => exact ok.flush taken
  | checkPointStart => exact ok.checkPointStart taken
  | checkPointRead => exact ok.checkPointRead taken
  | checkPointInsert => exact ok.checkPointInsert taken
  | checkPointFinish => exact ok.checkPointFinish taken
  | openServer => exact ok.openServer taken
  | shutDown => exact ok.shutDown taken
  | crash => exact some.inj taken ▸ ok.crash
  | startUp => exact ok.startUp taken

end

end

theorem logOk_initial (first) : (initial first).LogOk := by
  have only (recs : List XlogRecord)
      (survives : Survives (initial first).flushed (initial first).wal recs) :
      recs = (initial first).wal := by
    obtain ⟨upTo, lower, _, rfl⟩ := survives
    exact take_of_length_le lower
  exact {
    ordered := Pairwise.nil
    issued _ mem := by cases mem
    flushed_le := Nat.le_refl _
    redo_le := zero_le _
    control := {
      redo_le := zero_le _
      durable recs survives := by rw [only recs survives]; exact Nat.le_refl _
      limited recs survives limit last := by
        rw [only recs survives] at last
        cases last
      bumped _ _ logged := by cases logged }
    logged used := by simp [initial] at used
    bump := trivial
    checkPointing := trivial
    recovering recovering := by cases recovering
    gpGxidPrefetchNum := Nat.two_pow_pos 31
    shutdowned _ := ⟨.inl rfl, rfl, fun recs survives => by
      rw [only recs survives]
      rfl⟩ }

end Coordinator

open Foundations (Reachable)

/-- In every run, with checkpoints, crashes and restarts anywhere, every gxid is greater
than the ones handed out before it. What is on disk covers them all: recovery would go on
above them, and the last flushed `XLOG_NEXTGXID` record has a limit above them. -/
theorem reachable_gxids_increase {first : Nat} {state : Coordinator}
    (reached : Reachable Coordinator.step (.initial first) state) :
    state.handedOut.Pairwise (· < ·) ∧ ∀ gxid ∈ state.handedOut,
        gxid < (recover state.control (state.wal.take state.flushed)).nextGxid ∧
        ∃ limit, lastLimit (state.wal.take state.flushed) = some limit ∧ gxid < limit := by
  have ok : state.LogOk :=
    reached.invariant (logOk_initial first) fun _ _ _ ok taken => ok.step taken
  have onDisk := survives_take ok.flushed_le
  refine ⟨ok.ordered, ?_⟩
  intro gxid mem
  have covered : gxid < (recover state.control (state.wal.take state.flushed)).nextGxid := by
    have issued := ok.issued gxid mem
    have durable := ok.control.durable _ onDisk
    have within : state.gen.nextGxid ≤ state.bound := by
      unfold bound
      split
      · exact le_add_right _ _
      · exact Nat.le_refl _
    exact Nat.lt_of_lt_of_le issued (Nat.le_trans within durable)
  refine ⟨covered, ?_⟩
  obtain ⟨limit, last⟩ := ne_none_iff_exists'.mp (ok.logged (.inr (ne_nil_of_mem mem)) _ onDisk)
  exact ⟨limit, last, Nat.lt_of_lt_of_le covered (ok.control.limited _ onDisk limit last)⟩

/-- Two allocations, an online checkpoint that a bump comes into, a crash when the record
of the checkpoint is not flushed yet, and an allocation after the restart. -/
def crashRun : List Event :=
  [.startUp 512, .openServer, .bumpLock, .bumpCheck, .bumpCompute, .bumpLog, .flush 2,
    .bumpExtend, .allocate, .checkPointStart .online, .checkPointRead, .allocate,
    .checkPointInsert, .crash, .startUp 512, .openServer, .bumpLock, .bumpCheck, .bumpCompute,
    .bumpLog, .flush 3, .bumpExtend, .allocate]

theorem reachable_gxids_increase_crashRun :
    ∃ state, Reachable Coordinator.step (.initial 1) state ∧ state.handedOut = [1, 2, 513] ∧
      state.handedOut.Pairwise (· < ·) := by
  have run : (crashRun.foldlM step (.initial 1)).map (·.handedOut) = some [1, 2, 513] := by
    decide +kernel
  obtain ⟨state, reach, out⟩ := Reachable.exists_of_run _ run
  exact ⟨state, reach, out, (reachable_gxids_increase reach).1⟩

end Greengage.Dtm
