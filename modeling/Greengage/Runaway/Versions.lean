import Greengage.Foundations.SharedCounter
import Greengage.Runaway.Cleanup

/-!
Contract: the invariant of the runaway cleanup.

The flag that makes a process the detector is handed on: from the detector to the event of
the session that it flags, to the last cleaner of that event, and back. `Holder` says who
has it. A process owes a cleanup exactly if it was active when the session was flagged and
has not decremented the count yet; the versions let the process find that out by itself, as
long as the last event stays the same during its check (`CleanOk`).
-/

namespace Greengage.Runaway

open Option Function

open Foundations (sum_update_add)

/-- How far a session is flagged. -/
inductive Stage
  | announced
  | versioned
  | counted
deriving DecidableEq

/-- Who has the flag of the detector. -/
inductive Holder
  | free
  | claiming (process : Nat)
  | scanning (process : Nat)
  | flagging (process session : Nat) (stage : Stage)
  | flagged (session : Nat)
  | clearing (process session : Nat)
  | releasing (process : Nat)
deriving DecidableEq

namespace Holder

def owner : Holder → Option Nat
  | .claiming process | .scanning process | .flagging process _ _ | .clearing process _
  | .releasing process => some process
  | .free | .flagged _ => none

def event : Holder → Option Nat
  | .flagging _ session _ | .flagged session | .clearing _ session => some session
  | _ => none

def isFlagging : Holder → Bool
  | .flagging _ _ _ => true
  | _ => false

def isOwed : Holder → Bool
  | .flagging _ _ _ | .flagged _ => true
  | _ => false

end Holder

/-- What a process in a phase has of the flag. -/
def Phase.holder (process session : Nat) : Phase → Option Holder
  | .claimed => some (.claiming process)
  | .scanning => some (.scanning process)
  | .announced flagged _ => some (.flagging process flagged .announced)
  | .versioned flagged _ => some (.flagging process flagged .versioned)
  | .counted flagged _ => some (.flagging process flagged .counted)
  | .clearing => some (.clearing process session)
  | .releasing => some (.releasing process)
  | _ => none

def Phase.cleaning : Phase → Bool
  | .decided | .begun | .finishing _ | .decrementing => true
  | _ => false

def Phase.ending : Phase → Bool
  | .finishing _ | .decrementing => true
  | _ => false

def Phase.entering : Phase → Bool
  | .starting | .checked | .compared | .between | .decided => true
  | _ => false

def Process.Due (process : Process) (latest : Nat) : Prop :=
  process.activationVersion < latest ∧
    (process.isProcessActive = true ∨ latest < process.deactivationVersion)

/-- The flag of the detector is with the process whose phase says so. -/
structure Tied (holder : Holder) (number : Nat) (process : Process) : Prop where
  holds : ∀ own, process.phase.holder number process.session = some own → holder = own
  held : holder.owner = some number → process.phase.holder number process.session = some holder
  status : ∀ session status, (process.phase = .announced session status ∨
    process.phase = .versioned session status ∨ process.phase = .counted session status) →
      status ≠ .notRunaway

/-- What holds of the cleanup of a process. `owes` says that it owes a cleanup for the last
event. -/
structure CleanOk (holder : Holder) (current latest : Nat) (owes : Prop) (process : Process) :
    Prop where
  attached : process.phase ≠ .calm → process.attached = true
  activity : process.isProcessActive = true → process.attached = true
  versions : process.activationVersion ≤ current ∧ process.deactivationVersion ≤ current
  cleanups : process.endCleanupRunawayVersion ≤ process.beginCleanupRunawayVersion ∧
    process.beginCleanupRunawayVersion ≤ latest
  -- The phases of a cleanup.
  unbegun : process.phase = .compared ∨ process.phase = .between ∨ process.phase = .decided →
    process.beginCleanupRunawayVersion ≠ latest
  between : process.phase = .between →
    process.isProcessActive = false ∧ latest < process.deactivationVersion
  begun : process.phase = .begun →
    process.beginCleanupRunawayVersion = latest ∧ process.endCleanupRunawayVersion ≠ latest
  ending : process.phase.ending = true →
    process.beginCleanupRunawayVersion = latest ∧ process.endCleanupRunawayVersion = latest
  cleaning : process.phase.cleaning = true → owes
  progress : process.beginCleanupRunawayVersion = latest →
    process.endCleanupRunawayVersion ≠ latest → owes
  quietDuringFlag : process.phase.checking = true → holder.isFlagging = false
  -- A process that owes its cleanup can still find that out, or has started.
  owed : owes → process.attached = true ∧ holder.isOwed = true ∧ holder.event = some process.session
  due : owes → process.beginCleanupRunawayVersion ≠ latest → process.Due latest ∧
    (process.isProcessActive = false → process.phase.entering = true)
  done : owes → process.beginCleanupRunawayVersion = latest →
    process.endCleanupRunawayVersion = latest → process.phase.ending = true
  activeDuringFlag : owes → holder.isFlagging = true →
    process.isProcessActive = true ∧ process.beginCleanupRunawayVersion ≠ latest
  owedByActive : holder.isFlagging = true → holder.event = some process.session →
    process.isProcessActive = true → owes
  -- A process that owes nothing does not start.
  notDue : ¬owes → process.beginCleanupRunawayVersion ≠ latest →
    process.phase.checking = true ∨ holder.event = some process.session → ¬process.Due latest

def activeShare (session : Nat) (process : Process) : Int :=
  if process.attached ∧ process.isProcessActive ∧ process.session = session then 1 else 0

def pinShare (session : Nat) (process : Process) : Int :=
  if process.attached ∧ process.session = session then 1 else 0

def Holder.counts (holder : Holder) (session : Nat) : Bool :=
  match holder with
  | .flagging _ chosen .counted => chosen == session
  | .flagged chosen => chosen == session
  | _ => false

structure SessionOk (holder : Holder) (owing : Nat) (processes : Nat → Process)
    (maxBackends number : Nat) (session : Session) : Prop where
  flagged : session.runawayStatus ≠ .notRunaway ↔
    holder.event = some number ∧ holder.isFlagging = false
  spinLock : session.spinLock = true ↔ holder.event = some number ∧ holder.isFlagging = true
  active : session.activeProcessCount =
    ∑ process ∈ Finset.range maxBackends, activeShare number (processes process)
  pins : session.pinCount =
    ∑ process ∈ Finset.range maxBackends, pinShare number (processes process)
  countdown : session.cleanupCountdown =
    if holder.counts number then (owing : Int) else cleanupCountdownBeforeRunaway

structure SegmentOk (maxBackends : Nat) (segment : Segment) (holder : Holder) : Prop where
  detector : segment.isRunawayDetector = true ↔ holder ≠ .free
  locked : (∃ process, holder = .scanning process) ∨ holder.isFlagging = true →
    segment.sessionStateLock = true
  announced : ∀ process session, holder = .flagging process session .announced →
    segment.latestRunawayVersion = segment.currentVersion + 1
  announcedOnly : (∀ process session, holder ≠ .flagging process session .announced) →
    segment.latestRunawayVersion < segment.currentVersion
  positive : 1 ≤ segment.currentVersion
  nonempty : holder.isFlagging = true → (segment.owing maxBackends).Nonempty
  pinned : ∀ session, holder.event = some session → 0 < (segment.sessions session).pinCount
  absent : ∀ number, maxBackends ≤ number → segment.processes number = .fresh
  tied : ∀ number, Tied holder number (segment.processes number)
  processes : ∀ number, CleanOk holder segment.currentVersion segment.latestRunawayVersion
    (number ∈ segment.owing maxBackends) (segment.processes number)
  sessions : ∀ number, SessionOk holder (segment.owing maxBackends).card segment.processes
    maxBackends number (segment.sessions number)
  logged : ∀ entry ∈ segment.members, entry.1 ≤ segment.latestRunawayVersion
  finishedMembers : ∀ entry ∈ segment.finished, entry ∈ segment.members
  startedMembers : ∀ entry ∈ segment.started, entry ∈ segment.members
  startedOnce : segment.started.Nodup
  finishedOnce : segment.finished.Nodup
  startedBegun : ∀ number ∈ segment.owing maxBackends,
    (segment.latestRunawayVersion, number) ∈ segment.started →
      (segment.processes number).beginCleanupRunawayVersion = segment.latestRunawayVersion

variable {holder : Holder} {number num : Nat} {process proc : Process}

section

variable {after : Holder} {other : Nat} {next : Process}

theorem Phase.holder_owner {phase : Phase} {sess : Nat} {own : Holder}
    (is : phase.holder num sess = some own) : own.owner = some num := by
  cases phase <;> simp only [holder, reduceCtorEq, some.injEq] at is <;> subst is <;> rfl

theorem Tied.untied (tied : Tied holder num proc) (foreign : holder.owner ≠ some num) :
    proc.phase.holder num proc.session = none := by
  cases own : proc.phase.holder num proc.session with
  | none => rfl
  | some held => exact absurd (tied.holds held own ▸ Phase.holder_owner own) foreign

theorem Tied.of_untied (untied : next.phase.holder num next.session = none)
    (foreign : holder.owner ≠ some num) : Tied holder num next where
  holds own is := by simp [untied] at is
  held is := absurd is foreign
  status sess status is := by rcases is with is | is | is <;> simp [is, Phase.holder] at untied

theorem Tied.foreign (tied : Tied holder num proc)
    (untied : proc.phase.holder num proc.session = none) : holder.owner ≠ some num := by
  intro owner
  simp [tied.held owner] at untied

end

def Phase.plain : Phase → Bool
  | .calm | .claimed | .scanning | .announced _ _ | .versioned _ _ | .counted _ _ | .exchanging
  | .clearing | .releasing => true
  | _ => false

namespace CleanOk

variable {after : Holder} {cur later latest : Nat} {owes : Prop} {phase : Phase}

section

variable (ok : CleanOk holder cur latest owes proc)
include ok

theorem handOn (current_le : cur ≤ later)
    (event : ∀ sess, after.event = some sess → holder.event = some sess)
    (flagging : after.isFlagging = true → holder.isFlagging = true)
    (owed : owes → after.isOwed = true ∧ after.event = holder.event) :
    CleanOk after later latest owes proc :=
  { ok with
    versions := ⟨ok.versions.1.trans current_le, ok.versions.2.trans current_le⟩
    quietDuringFlag checking := by
      by_contra during
      have pre := flagging (Bool.not_eq_false _ ▸ during)
      simp [ok.quietDuringFlag checking] at pre
    owed owing := ⟨(ok.owed owing).1, (owed owing).1,
      (owed owing).2.trans (ok.owed owing).2.2⟩
    activeDuringFlag owing during := ok.activeDuringFlag owing (flagging during)
    owedByActive during same := ok.owedByActive (flagging during) (event _ same)
    notDue notOwing unbegun which :=
      ok.notDue notOwing unbegun (which.imp_right (event proc.session)) }

theorem goto_plain (attached : proc.attached) (pre : proc.phase.plain)
    (next : phase.plain = true ∨ phase = .starting) :
    CleanOk holder cur latest owes { proc with phase } := by
  have notEntering : proc.phase.entering = false := by
    cases phaseIs : proc.phase <;> simp_all [Phase.plain, Phase.entering]
  have notEnding : proc.phase.ending = false := by
    cases phaseIs : proc.phase <;> simp_all [Phase.plain, Phase.ending]
  have notChecking : phase.checking = false := by
    rcases next with plain | rfl
    · cases phase <;> simp_all [Phase.plain, Phase.checking]
    · rfl
  refine { ok with
    attached _ := attached, unbegun := ?_, between := ?_, begun := ?_, ending := ?_
    cleaning := ?_, quietDuringFlag := by simp [notChecking]
    due := ?due, done := ?done, notDue := ?notDue }
  case due =>
    intro owing unbegun
    obtain ⟨due, entering⟩ := ok.due owing unbegun
    exact ⟨due, fun idle => by simp [notEntering] at entering; simp_all⟩
  case done =>
    intro owing begun ended
    simpa [notEnding] using ok.done owing begun ended
  case notDue =>
    intro notOwing unbegun which
    refine ok.notDue notOwing unbegun (.inr ?_)
    simpa [notChecking] using which
  all_goals
    rcases next with plain | rfl
    · cases phase <;> simp_all [Phase.plain, Phase.ending, Phase.cleaning]
    · simp [Phase.ending, Phase.cleaning]

theorem goto_calm (notEnding : proc.phase.ending = false)
    (active : owes → proc.beginCleanupRunawayVersion ≠ latest → proc.isProcessActive = true) :
    CleanOk holder cur latest owes { proc with phase := .calm } :=
  { ok with
    attached moving := absurd rfl moving
    unbegun := by simp
    between := nofun
    begun := nofun
    ending := nofun
    cleaning := nofun
    quietDuringFlag := nofun
    due owing unbegun := ⟨(ok.due owing unbegun).1, fun idle => by
      simp [active owing unbegun] at idle⟩
    done owing begun ended := by simpa [notEnding] using ok.done owing begun ended
    notDue notOwing unbegun which :=
      ok.notDue notOwing unbegun (.inr (which.resolve_left nofun)) }

theorem goto_checking (attached : proc.attached) (notEnding : proc.phase.ending = false)
    (watched : proc.phase.checking = true ∨ holder.event = some proc.session ∧
      holder.isFlagging = false) (checking : phase.checking)
    (unbegun : phase ≠ .checked → proc.beginCleanupRunawayVersion ≠ latest)
    (between : phase = .between → proc.isProcessActive = false ∧ latest <
      proc.deactivationVersion) (decided : phase = .decided → owes) :
    CleanOk holder cur latest owes { proc with phase } := by
  have quiet : holder.isFlagging = false := by
    rcases watched with pre | ⟨_, quiet⟩
    · exact ok.quietDuringFlag pre
    · exact quiet
  have entering : phase.entering := by
    cases phase <;> simp_all [Phase.checking, Phase.entering]
  exact { ok with
      attached _ := attached
      unbegun which := unbegun (by rcases which with is | is | is <;> simp_all)
      between
      begun := by cases phase <;> simp_all [Phase.checking]
      ending := by cases phase <;> simp_all [Phase.checking, Phase.ending]
      cleaning := by cases phase <;> simp_all [Phase.checking, Phase.cleaning]
      quietDuringFlag _ := quiet
      due owing unbegun := ⟨(ok.due owing unbegun).1, fun _ => entering⟩
      done owing begun ended := by simpa [notEnding] using ok.done owing begun ended
      notDue notOwing unbegun _ :=
        ok.notDue notOwing unbegun (watched.imp_right And.left) }

theorem owes_of_due (checking : proc.phase.checking)
    (unbegun : proc.beginCleanupRunawayVersion ≠ latest) (due : proc.Due latest) : owes := by
  by_contra notOwing
  exact ok.notDue notOwing unbegun (.inl checking) due

theorem begin (is : proc.phase = .decided) : CleanOk holder cur latest owes
      { proc with beginCleanupRunawayVersion := latest, phase := .begun } := by
  have owing : owes := ok.cleaning (by rw [is]; rfl)
  have unbegun := ok.unbegun (.inr (.inr is))
  have quiet := ok.quietDuringFlag (by rw [is]; rfl)
  have := ok.cleanups
  have unended : proc.endCleanupRunawayVersion ≠ latest := by omega
  exact { ok with
      attached _ := (ok.owed owing).1
      cleanups := ⟨by simp only; omega, le_rfl⟩
      unbegun := by simp
      between := nofun
      begun _ := ⟨rfl, unended⟩
      ending := nofun
      cleaning _ := owing
      progress _ _ := owing
      quietDuringFlag := nofun
      due _ ne := absurd rfl ne
      done _ _ ended := absurd ended unended
      activeDuringFlag _ during := by simp [quiet] at during
      notDue notOwing := absurd owing notOwing }

theorem finish {ignoredCleanup} (begun : proc.beginCleanupRunawayVersion = latest)
    (unended : proc.endCleanupRunawayVersion ≠ proc.beginCleanupRunawayVersion) :
    CleanOk holder cur latest owes { proc with
        endCleanupRunawayVersion := proc.beginCleanupRunawayVersion
        phase := .finishing ignoredCleanup } := by
  have owing : owes := ok.progress begun (begun ▸ unended)
  exact { ok with
      attached _ := (ok.owed owing).1
      cleanups := ⟨le_rfl, ok.cleanups.2⟩
      unbegun := by simp
      between := nofun
      begun := nofun
      ending _ := ⟨begun, begun⟩
      cleaning _ := owing
      progress _ _ := owing
      quietDuringFlag := nofun
      due _ ne := absurd begun ne
      done _ _ _ := rfl
      notDue notOwing := absurd owing notOwing }

theorem goto_decrementing (is : proc.phase.ending) :
    CleanOk holder cur latest owes { proc with phase := .decrementing } := by
  have owing : owes := ok.cleaning (by
    cases phaseIs : proc.phase <;> simp_all [Phase.ending, Phase.cleaning])
  have begun := (ok.ending is).1
  exact { ok with
      attached _ := (ok.owed owing).1
      unbegun := by simp
      between := nofun
      begun := nofun
      ending _ := ok.ending is
      cleaning _ := owing
      quietDuringFlag := nofun
      due _ ne := absurd begun ne
      done _ _ _ := rfl
      notDue notOwing := absurd owing notOwing }

section

variable (attached : proc.attached)
  (unlocked : holder.event = some proc.session → holder.isFlagging = false)
  (ordered : holder.event = some proc.session → latest < cur)
include attached unlocked ordered

theorem activate (idle : proc.isProcessActive = false) (notEntering : proc.phase.entering = false) :
    CleanOk holder cur latest owes
      { proc with isProcessActive := true, activationVersion := cur } :=
  { ok with
    activity _ := attached
    versions := ⟨le_rfl, ok.versions.2⟩
    between := fun (is : proc.phase = .between) => by simp [is, Phase.entering] at notEntering
    due owing unbegun := by
      have entering := (ok.due owing unbegun).2 idle
      simp [notEntering] at entering
    activeDuringFlag owing during := by
      simp [unlocked (ok.owed owing).2.2] at during
    owedByActive during event _ := by simp [unlocked event] at during
    notDue _ _ which due := by
      have event : holder.event = some proc.session := which.resolve_left fun checking => by
        cases is : proc.phase <;> simp_all [Phase.checking, Phase.entering]
      have early : cur < latest := due.1
      have := ordered event
      omega }

theorem deactivate (active : proc.isProcessActive) (calm : proc.phase = .calm) :
    CleanOk holder cur latest owes { proc with
        isProcessActive := false, deactivationVersion := cur, phase := .starting } :=
  { ok with
    attached _ := attached
    activity := nofun
    versions := ⟨ok.versions.1, le_rfl⟩
    unbegun := by simp
    between := nofun
    begun := nofun
    ending := nofun
    cleaning := nofun
    quietDuringFlag := nofun
    due owing unbegun :=
      ⟨⟨(ok.due owing unbegun).1.1, .inr (ordered (ok.owed owing).2.2)⟩, fun _ => rfl⟩
    done owing begun ended := by
      have ending := ok.done owing begun ended
      simp [calm, Phase.ending] at ending
    activeDuringFlag owing during := by
      simp [unlocked (ok.owed owing).2.2] at during
    owedByActive := nofun
    notDue notOwing unbegun which due :=
      ok.notDue notOwing unbegun (.inr (which.resolve_left nofun)) ⟨due.1, .inl active⟩ }

end

end

end CleanOk

variable {backends : Nat}

section

variable {after : Holder} {owing owing' party : Nat} {processes : Nat → Process}
  {entry next : Session}

section

variable (ok : SessionOk holder owing processes backends num entry)
  (lt : party < backends)
include ok lt

theorem SessionOk.change (flagged : next.runawayStatus ≠ .notRunaway ↔
      after.event = some num ∧ after.isFlagging = false)
    (spinLock : next.spinLock = true ↔ after.event = some num ∧ after.isFlagging = true)
    (active : next.activeProcessCount + activeShare num (processes party) =
      entry.activeProcessCount + activeShare num proc)
    (pins : next.pinCount + pinShare num (processes party) =
      entry.pinCount + pinShare num proc) (countdown : next.cleanupCountdown =
      if after.counts num then (owing' : Int) else cleanupCountdownBeforeRunaway) :
    SessionOk after owing' (update processes party proc) backends num next where
  flagged
  spinLock
  active := by
    have sums := @sum_update_add _ _ _ _ processes _ (activeShare num)
      (Finset.mem_range.mpr lt) proc
    have pre := ok.active
    omega
  pins := by
    have sums := @sum_update_add _ _ _ _ processes _ (pinShare num) (Finset.mem_range.mpr lt) proc
    have pre := ok.pins
    omega
  countdown

theorem SessionOk.keep (event : after.event = some num ↔ holder.event = some num)
    (flagging : holder.event = some num → after.isFlagging = holder.isFlagging)
    (countdown : after.counts num = true → owing' = owing)
    (counts : after.counts num = holder.counts num)
    (active : activeShare num proc = activeShare num (processes party))
    (pins : pinShare num proc = pinShare num (processes party)) :
    SessionOk after owing' (update processes party proc) backends num entry := by
  apply ok.change lt
  · rw [ok.flagged, event]
    exact and_congr_right fun same => by rw [flagging same]
  · rw [ok.spinLock, event]
    exact and_congr_right fun same => by rw [flagging same]
  · rw [active]
  · rw [pins]
  · rw [ok.countdown, ← counts]
    split_ifs with counted
    · rw [countdown counted]
    · rfl

end

end

namespace SegmentOk

variable {seg after : Segment} {held : Holder} {next : Process}

section

variable (ok : SegmentOk backends seg holder)
include ok

section

variable (lt : num < backends)
include lt

theorem move {currentVersion isRunawayDetector sessionStateLock sessions}
    (current_le : seg.currentVersion ≤ currentVersion)
    (detector : isRunawayDetector = true ↔ held ≠ .free)
    (locked : (∃ proc, held = .scanning proc) ∨ held.isFlagging = true → sessionStateLock = true)
    (announced : ∀ proc sess, held = .flagging proc sess .announced →
      seg.latestRunawayVersion = currentVersion + 1)
    (announcedOnly : (∀ proc sess, held ≠ .flagging proc sess .announced) →
      seg.latestRunawayVersion < currentVersion)
    (event : ∀ sess, held.event = some sess → holder.event = some sess)
    (flagging : held.isFlagging = true → holder.isFlagging = true)
    (owed : (seg.owing backends).Nonempty → held.isOwed = true ∧ held.event = holder.event)
    (rest : ∀ other, other ≠ num → (held.owner = some other ↔ holder.owner = some other) ∧
      (holder.owner = some other → held = holder)) (tied : Tied held num next)
    (clean : CleanOk held currentVersion seg.latestRunawayVersion
      (num ∈ seg.owing backends) next) (begun : num ∈ seg.owing backends →
      (seg.processes num).beginCleanupRunawayVersion = seg.latestRunawayVersion →
      next.beginCleanupRunawayVersion = seg.latestRunawayVersion)
    (pinned : ∀ sess, held.event = some sess → 0 < (sessions sess).pinCount)
    (sessionsOk : ∀ sess, SessionOk held (seg.owing backends).card
      (update seg.processes num next) backends sess (sessions sess)) :
    SegmentOk backends { seg with
        currentVersion, isRunawayDetector, sessionStateLock, sessions
        processes := update seg.processes num next } held := by
  constructor <;> try assumption
  case positive => exact ok.positive.trans current_le
  case nonempty => exact fun during => ok.nonempty (flagging during)
  case absent =>
    exact fun other out => (update_of_ne (by omega) ..).trans (ok.absent other out)
  case tied =>
    intro other
    by_cases this : other = num
    · subst this
      simpa only [update_self] using tied
    simp only [update_of_ne this]
    by_cases owner : holder.owner = some other
    · rw [(rest other this).2 owner]
      exact ok.tied other
    · exact .of_untied ((ok.tied other).untied owner) fun is => owner ((rest other this).1.mp is)
  case processes =>
    intro other
    by_cases this : other = num
    · subst this
      simp only [update_self]
      exact clean
    simp only [update_of_ne this]
    exact (ok.processes other).handOn current_le event flagging fun owing => owed ⟨other, owing⟩
  case logged => exact ok.logged
  case finishedMembers => exact ok.finishedMembers
  case startedMembers => exact ok.startedMembers
  case startedOnce => exact ok.startedOnce
  case finishedOnce => exact ok.finishedOnce
  case startedBegun =>
    intro other owing isStarted
    have pre := ok.startedBegun other owing isStarted
    by_cases this : other = num
    · subst this
      simpa only [update_self] using begun owing pre
    · simpa only [update_of_ne this] using pre

theorem pinned_update (attached : next.attached = (seg.processes num).attached)
    (sess : next.session = (seg.processes num).session)
    (event : ∀ sess, held.event = some sess → holder.event = some sess)
    {sessions : Nat → Session} {owing : Nat}
    (sessionsOk : ∀ sess, SessionOk held owing (update seg.processes num next)
      backends sess (sessions sess)) (other) (is : held.event = some other) :
    0 < (sessions other).pinCount := by
  have := @sum_update_add _ _ _ _ seg.processes _ (pinShare other) (Finset.mem_range.mpr lt) next
  have share : pinShare other next = pinShare other (seg.processes num) := by
    simp only [pinShare, attached, sess]
  have := (ok.sessions other).pins
  have := (sessionsOk other).pins
  have := ok.pinned other (event other is)
  omega

section

variable (foreign : holder.owner ≠ some num)
  (untied : next.phase.holder num next.session = none)
  (clean : CleanOk holder seg.currentVersion seg.latestRunawayVersion (num ∈ seg.owing backends) next)
  (begun : (seg.processes num).beginCleanupRunawayVersion = seg.latestRunawayVersion → next.beginCleanupRunawayVersion = seg.latestRunawayVersion)
  (attached : next.attached = (seg.processes num).attached)
include foreign untied clean begun attached

theorem stay (sess : next.session = (seg.processes num).session) {sessions : Nat → Session}
    (sessionsOk : ∀ sess, SessionOk holder (seg.owing backends).card
      (update seg.processes num next) backends sess (sessions sess)) :
    SegmentOk backends ({ seg with sessions }.setProcess num next) holder :=
  ok.move lt le_rfl ok.detector ok.locked ok.announced ok.announcedOnly (fun _ => id) id
    (fun ⟨other, owing⟩ => ⟨((ok.processes other).owed owing).2.1, rfl⟩)
    (fun _ _ => ⟨Iff.rfl, fun _ => rfl⟩) (.of_untied untied foreign) clean (fun _ => begun)
    (ok.pinned_update lt attached sess (fun _ => id) sessionsOk) sessionsOk

theorem private_step (active : next.isProcessActive = (seg.processes num).isProcessActive)
    (sess : next.session = (seg.processes num).session) :
    SegmentOk backends (seg.setProcess num next) holder :=
  ok.stay lt foreign untied clean begun attached sess fun other =>
    (ok.sessions other).keep lt Iff.rfl (fun _ => rfl) (fun _ => rfl) rfl
      (by simp only [activeShare, attached, active, sess])
      (by simp only [pinShare, attached, sess])

theorem activity (sess : next.session = (seg.processes num).session) {count}
    (active : count + activeShare next.session (seg.processes num) =
      (seg.sessions next.session).activeProcessCount + activeShare next.session next) :
    SegmentOk backends ((seg.setSession next.session
      { seg.sessions next.session with activeProcessCount := count }).setProcess num next)
        holder := by
  refine ok.stay lt foreign untied clean begun attached sess fun other => ?_
  by_cases this : other = next.session
  · subst this
    have sessOk := ok.sessions next.session
    rw [update_self]
    exact sessOk.change lt sessOk.flagged sessOk.spinLock active
      (by simp only [pinShare, attached, sess]) sessOk.countdown
  · rw [update_of_ne this]
    have elsewhere : ¬(next.session = other) := fun same => this same.symm
    refine (ok.sessions other).keep lt Iff.rfl (fun _ => rfl) (fun _ => rfl) rfl ?_ ?_
    · simp [activeShare, ← sess, elsewhere]
    · simp [pinShare, ← sess, elsewhere]

end

theorem goto {phase} (foreign : holder.owner ≠ some num)
    (untied : phase.holder num (seg.processes num).session = none)
    (clean : CleanOk holder seg.currentVersion seg.latestRunawayVersion
      (num ∈ seg.owing backends) { seg.processes num with phase }) :
    SegmentOk backends (seg.goto num phase) holder :=
  ok.private_step lt foreign untied clean id rfl rfl rfl

end

theorem unlocked {sess} (free : (seg.sessions sess).spinLock = false)
    (event : holder.event = some sess) : holder.isFlagging = false := by
  by_contra during
  have lock := (ok.sessions sess).spinLock.mpr ⟨event, Bool.not_eq_false _ ▸ during⟩
  simp [free] at lock

theorem ordered (quiet : holder.isFlagging = false) :
    seg.latestRunawayVersion < seg.currentVersion := by
  apply ok.announcedOnly
  rintro _ _ rfl
  cases quiet

section

variable (lt : num < backends) (attached : (seg.processes num).attached)
  (foreign : holder.owner ≠ some num)
include lt attached foreign

/-- `IdleTracker_ActivateProcess`. -/
theorem activateProcess {phase} (idle : (seg.processes num).isProcessActive = false)
    (untied : phase.holder num (seg.processes num).session = none)
    (notEntering : phase.entering = false)
    (clean : CleanOk holder seg.currentVersion seg.latestRunawayVersion
      (num ∈ seg.owing backends) { seg.processes num with phase })
    (taken : seg.activateProcess num phase = some after) :
    SegmentOk backends after holder := by
  obtain ⟨free, taken⟩ := ite_none_left_eq_some.mp taken
  rw [← some.inj taken]
  have quiet := ok.unlocked (Bool.not_eq_true _ ▸ free)
  refine ok.activity lt foreign untied
    (clean.activate attached quiet (fun event => ok.ordered (quiet event)) idle notEntering)
    id rfl rfl ?_
  simp [activeShare, attached, idle]

/-- `IdleTracker_DeactivateProcess`. -/
theorem deactivateProcess (active : (seg.processes num).isProcessActive)
    (calm : (seg.processes num).phase = .calm)
    (taken : seg.deactivateProcess num = some after) :
    SegmentOk backends after holder := by
  obtain ⟨free, taken⟩ := ite_none_left_eq_some.mp taken
  rw [← some.inj taken]
  have quiet := ok.unlocked (Bool.not_eq_true _ ▸ free)
  refine ok.activity lt foreign rfl ((ok.processes num).deactivate attached quiet
    (fun event => ok.ordered (quiet event)) active calm) id rfl rfl ?_
  simp [activeShare, attached, active]

end

end

end SegmentOk

end Greengage.Runaway
