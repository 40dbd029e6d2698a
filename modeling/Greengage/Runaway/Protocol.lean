import Greengage.Runaway.Owing

/-!
Contract: the runaway cleanup over whole runs.
-/

namespace Greengage.Runaway

open Option Segment Bool

open Foundations (Reachable)

variable {maxBackends backends number num session : Nat} {segment seg after : Segment} {holder : Holder}

theorem topConsumer_marked {scan status} (chosen : topConsumer scan = some (session, status)) :
    status ≠ .notRunaway := by
  obtain ⟨_, _, is⟩ := map_eq_some_iff.mp chosen
  rw [← (Prod.mk.inj is).2]
  split_ifs <;> simp

namespace SegmentOk

theorem Phase.plain_of_entering {phase : Phase} (entering : phase.entering) (num session) :
    phase.ending = false ∧ phase.holder num session = none := by
  cases phase <;> simp_all [Phase.entering, Phase.ending, Phase.holder]

section

variable (ok : SegmentOk backends seg holder) (lt : num < backends)
  (entering : (seg.processes num).phase.entering)
include ok lt entering

theorem quit (active : num ∈ seg.owing backends →
      (seg.processes num).beginCleanupRunawayVersion ≠ seg.latestRunawayVersion →
        (seg.processes num).isProcessActive = true) :
    SegmentOk backends (seg.goto num .calm) holder := by
  obtain ⟨notEnding, noHolder⟩ := Phase.plain_of_entering entering num _
  exact ok.goto lt (ok.foreign num noHolder) rfl ((ok.processes num).goto_calm notEnding active)

theorem enter {phase : Phase} (watched : (seg.processes num).phase.checking = true ∨
      holder.event = some (seg.processes num).session ∧ holder.isFlagging = false)
    (checking : phase.checking) (unbegun : phase ≠ .checked →
      (seg.processes num).beginCleanupRunawayVersion ≠ seg.latestRunawayVersion)
    (between : phase = .between → (seg.processes num).isProcessActive = false ∧
      seg.latestRunawayVersion < (seg.processes num).deactivationVersion)
    (decided : phase = .decided → num ∈ seg.owing backends) :
    SegmentOk backends (seg.goto num phase) holder := by
  have clean := ok.processes num
  have attached := clean.attached fun calm => by simp [calm, Phase.entering] at entering
  obtain ⟨notEnding, noHolder⟩ := Phase.plain_of_entering entering num _
  refine ok.goto lt (ok.foreign num noHolder) ?_
    (clean.goto_checking attached notEnding watched checking unbegun between decided)
  cases phase <;> first | rfl | cases checking

end

section

variable (ok : SegmentOk backends seg holder) (lt : num < backends)
include ok lt

theorem check_starting (starting : (seg.processes num).phase = .starting) :
    SegmentOk backends (seg.goto num
      (if (seg.sessions (seg.processes num).session).runawayStatus ≠ .notRunaway
        then .checked else .calm)) holder := by
  have clean := ok.processes num
  have flagged := (ok.sessions (seg.processes num).session).flagged
  split_ifs with marked
  · exact ok.enter lt (by rw [starting]; rfl) (.inr (flagged.mp marked)) rfl (by simp) nofun nofun
  · refine ok.quit lt (by rw [starting]; rfl) fun owing _ => ?_
    -- Only an event that is not announced in full can be owed by a session without a mark.
    obtain ⟨_, _, event⟩ := clean.owed owing
    have during : holder.isFlagging := by
      by_contra quiet
      exact marked (flagged.mpr ⟨event, not_eq_true _ ▸ quiet⟩)
    exact (clean.activeDuringFlag owing during).1

theorem check_checked (checked : (seg.processes num).phase = .checked) :
    SegmentOk backends (seg.goto num
      (if (seg.processes num).beginCleanupRunawayVersion ≠ seg.latestRunawayVersion
        then .compared else .calm)) holder := by
  split_ifs with unbegun
  · exact ok.enter lt (by rw [checked]; rfl) (.inl (by rw [checked]; rfl)) rfl
      (fun _ => unbegun) nofun nofun
  · exact ok.quit lt (by rw [checked]; rfl) fun _ begun => absurd begun unbegun

theorem check_compared (cmp : (seg.processes num).phase = .compared) :
    SegmentOk backends (seg.goto num (if (seg.processes num).isProcessActive then
        if (seg.processes num).activationVersion < seg.latestRunawayVersion
          then .decided else .calm
      else if seg.latestRunawayVersion < (seg.processes num).deactivationVersion
        then .between else .calm)) holder := by
  have clean := ok.processes num
  have entering : (seg.processes num).phase.entering := by rw [cmp]; rfl
  have checking : (seg.processes num).phase.checking := by rw [cmp]; rfl
  have unbegun := clean.unbegun (.inl cmp)
  split_ifs with active early late
  · exact ok.enter lt entering (.inl checking) rfl (fun _ => unbegun) nofun
      fun _ => clean.owes_of_due checking unbegun ⟨early, .inl active⟩
  · exact ok.quit lt entering fun _ _ => active
  · exact ok.enter lt entering (.inl checking) rfl (fun _ => unbegun)
      (fun _ => ⟨not_eq_true _ ▸ active, late⟩) nofun
  · refine ok.quit lt entering fun owing _ => ?_
    exact (clean.due owing unbegun).1.2.resolve_right late

theorem check_between (between : (seg.processes num).phase = .between) :
    SegmentOk backends (seg.goto num
      (if (seg.processes num).activationVersion < seg.latestRunawayVersion
        then .decided else .calm)) holder := by
  have clean := ok.processes num
  have entering : (seg.processes num).phase.entering := by rw [between]; rfl
  have checking : (seg.processes num).phase.checking := by rw [between]; rfl
  have unbegun := clean.unbegun (.inr (.inl between))
  split_ifs with early
  · exact ok.enter lt entering (.inl checking) rfl (fun _ => unbegun) nofun fun _ =>
      clean.owes_of_due checking unbegun ⟨early, .inr (clean.between between).2⟩
  · refine ok.quit lt entering fun owing _ => ?_
    exact absurd (clean.due owing unbegun).1.1 early

end

section

variable (ok : SegmentOk backends seg holder)
include ok

theorem proceed (lt : num < backends) {scan cancel}
    (taken : seg.proceed backends num scan cancel = some after)
    (settled : after.latestRunawayVersion = seg.latestRunawayVersion ∨
      ∀ other < backends, (seg.processes other).phase.checking = false) :
    ∃ held, SegmentOk backends after held := by
  have clean := ok.processes num
  unfold Segment.proceed at taken
  cases phaseIs : (seg.processes num).phase <;>
    simp only [phaseIs, reduceCtorEq, some.injEq] at taken
  case claimed => exact ⟨_, taken ▸ ok.scan lt phaseIs⟩
  case scanning =>
    obtain ⟨_, taken⟩ := ite_none_right_eq_some.mp taken
    cases chosen : topConsumer scan with
    | none =>
      simp only [chosen, some.injEq] at taken
      exact ⟨_, taken ▸ ok.giveUp lt phaseIs⟩
    | some choice =>
      obtain ⟨session, status⟩ := choice
      simp only [chosen, some.injEq] at taken
      by_cases pos : 0 < (seg.sessions session).activeProcessCount
      · have new : after.latestRunawayVersion = seg.currentVersion + 1 := by
          rw [← taken, flag, if_pos pos]
        have holderIs := ok.holder_eq (.scanning num) (by rw [phaseIs]; rfl)
        have := ok.ordered (by rw [holderIs]; rfl)
        have unchecked := settled.resolve_left (by omega)
        subst taken
        exact ⟨_, ok.announce lt phaseIs unchecked (topConsumer_marked chosen) pos⟩
      · have same : seg.flag backends num session status = seg.giveUp num :=
          if_neg pos
        exact ⟨_, taken ▸ same ▸ ok.giveUp lt phaseIs⟩
  case announced session status => exact ⟨_, taken ▸ ok.versioned lt phaseIs⟩
  case versioned session status => exact ⟨_, taken ▸ ok.counted lt phaseIs⟩
  case counted session status => exact ⟨_, taken ▸ ok.marked lt phaseIs⟩
  case starting => exact ⟨_, taken ▸ ok.check_starting lt phaseIs⟩
  case checked => exact ⟨_, taken ▸ ok.check_checked lt phaseIs⟩
  case compared => exact ⟨_, taken ▸ ok.check_compared lt phaseIs⟩
  case between => exact ⟨_, taken ▸ ok.check_between lt phaseIs⟩
  case decided => exact ⟨_, taken ▸ ok.begin lt phaseIs⟩
  case begun =>
    refine ⟨holder, taken ▸ ?_⟩
    split_ifs
    · refine ok.goto lt (ok.foreign num (by rw [phaseIs]; rfl)) rfl
        (clean.goto_calm (by rw [phaseIs]; rfl) fun _ unbegun => ?_)
      exact absurd (clean.begun phaseIs).1 unbegun
    · exact ok.cleanupDoneForProcess lt true (by rw [phaseIs]; rfl) (by rw [phaseIs]; rfl)
        (by rw [phaseIs]; rfl)
  case finishing ignoredCleanup =>
    have foreign := ok.foreign num (by rw [phaseIs]; rfl)
    have moved := clean.goto_decrementing (by rw [phaseIs]; rfl)
    split_ifs at taken with inactive
    · have idle : (seg.processes num).isProcessActive = false := by simp_all
      have attached := clean.attached (by simp [phaseIs])
      exact ⟨holder, ok.activateProcess lt attached foreign idle rfl rfl moved taken⟩
    · exact ⟨holder, some.inj taken ▸ ok.goto lt foreign rfl moved⟩
  case decrementing =>
    subst taken
    exact ⟨_, ok.decrement lt phaseIs rfl⟩
  case exchanging =>
    split_ifs at taken with last
    · exact ⟨_, taken ▸ ok.exchange lt phaseIs last⟩
    · have attached := clean.attached (by simp [phaseIs])
      exact ⟨holder, taken ▸ ok.goto lt (ok.foreign num (by rw [phaseIs]; rfl)) rfl
        (clean.goto_plain attached (by rw [phaseIs]; rfl) (.inl rfl))⟩
  case clearing =>
    obtain ⟨flagged, moved⟩ := ok.unmark lt phaseIs
    rw [if_pos flagged] at taken
    exact ⟨_, taken ▸ moved⟩
  case releasing => exact ⟨_, taken ▸ ok.release lt phaseIs⟩

theorem calm_start (lt : num < backends) (attached : (seg.processes num).attached)
    (calm : (seg.processes num).phase = .calm) :
    SegmentOk backends (seg.goto num .starting) holder :=
  ok.goto lt (ok.foreign num (by rw [calm]; rfl)) rfl
    ((ok.processes num).goto_plain attached (by rw [calm]; rfl) (.inr rfl))

theorem act {event} (lt : event.process < backends) (taken : seg.act backends event = some after)
    (settled : after.latestRunawayVersion = seg.latestRunawayVersion ∨
      ∀ other < backends, (seg.processes other).phase.checking = false) :
    ∃ held, SegmentOk backends after held := by
  have calmOf : ∀ num, seg.isCalm num = true →
      (seg.processes num).attached = true ∧ (seg.processes num).phase = .calm := by
    simp [isCalm]
  cases event with
  | join num session =>
    obtain ⟨may, taken⟩ := ite_none_right_eq_some.mp taken
    have absent : (seg.processes num).attached = false := by simp_all
    exact ⟨holder, some.inj taken ▸ ok.join lt absent session⟩
  | exit num =>
    obtain ⟨may, taken⟩ := ite_none_right_eq_some.mp taken
    simp only [and_eq_true, not_eq_true', beq_iff_eq] at may
    obtain ⟨⟨⟨isCalm, idle⟩, ended⟩, unlocked⟩ := may
    obtain ⟨attached, calm⟩ := calmOf num isCalm
    exact some.inj taken ▸ ok.exit lt attached calm idle ended unlocked
  | activate num =>
    obtain ⟨may, taken⟩ := ite_none_right_eq_some.mp taken
    simp only [and_eq_true, not_eq_true'] at may
    obtain ⟨attached, calm⟩ := calmOf num may.1
    have foreign := ok.foreign num (by rw [calm]; rfl)
    exact ⟨holder, ok.activateProcess lt attached foreign may.2 rfl rfl
      ((ok.processes num).goto_plain attached (by rw [calm]; rfl) (.inl rfl)) taken⟩
  | deactivate num =>
    obtain ⟨may, taken⟩ := ite_none_right_eq_some.mp taken
    simp only [and_eq_true] at may
    obtain ⟨attached, calm⟩ := calmOf num may.1
    exact ⟨holder, ok.deactivateProcess lt attached
      (ok.foreign num (by rw [calm]; rfl)) may.2 calm taken⟩
  | startCleanup num =>
    obtain ⟨isCalm, taken⟩ := ite_none_right_eq_some.mp taken
    obtain ⟨attached, calm⟩ := calmOf num isCalm
    exact ⟨holder, some.inj taken ▸ ok.calm_start lt attached calm⟩
  | cleanupDone num =>
    change num < backends at lt
    obtain ⟨isCalm, taken⟩ := ite_none_right_eq_some.mp taken
    obtain ⟨_, calm⟩ := calmOf num isCalm
    exact ⟨holder, some.inj taken ▸ ok.cleanupDoneForProcess lt false
      (by rw [calm]; rfl) (by rw [calm]; rfl) (by rw [calm]; rfl)⟩
  | detect num =>
    obtain ⟨isCalm, taken⟩ := ite_none_right_eq_some.mp taken
    obtain ⟨attached, calm⟩ := calmOf num isCalm
    split_ifs at taken with claimed
    · exact ⟨holder, some.inj taken ▸ ok⟩
    · obtain rfl : holder = .free := by
        by_contra given
        exact claimed (ok.detector.mpr given)
      exact ⟨_, some.inj taken ▸ ok.detect lt attached calm⟩
  | proceed num scan cancel => exact ok.proceed lt taken settled

end

theorem start (backends) : SegmentOk backends Segment.start .free where
  detector := by simp [Segment.start]
  locked := by simp [Holder.isFlagging]
  announced := nofun
  announcedOnly _ := zero_lt_one
  positive := le_refl 1
  nonempty := nofun
  pinned := nofun
  absent _ _ := rfl
  tied _ := .of_untied rfl nofun
  processes num := .newcomer (le_refl 1) (by simp [owing, Segment.start])
  sessions num :=
    { flagged := iff_of_false (by simp [Segment.start, Session.free]) nofun
      spinLock := iff_of_false (by simp [Segment.start, Session.free]) nofun
      active := (Finset.sum_eq_zero fun _ _ => rfl).symm
      pins := (Finset.sum_eq_zero fun _ _ => rfl).symm
      countdown := rfl }
  logged := nofun
  finishedMembers := nofun
  startedMembers := nofun
  startedOnce := .nil
  finishedOnce := .nil
  startedBegun := nofun

end SegmentOk

theorem settledStep_ok {event} (ok : ∃ holder, SegmentOk backends seg holder)
    (taken : seg.settledStep backends event = some after) :
    ∃ held, SegmentOk backends after held := by
  obtain ⟨holder, ok⟩ := ok
  obtain ⟨settled, taken⟩ := ite_none_right_eq_some.mp taken
  obtain ⟨lt, taken⟩ := ite_none_right_eq_some.mp taken
  refine ok.act lt taken ?_
  simpa [Segment.settled, taken] using settled

theorem SegmentOk.owner_eq_none (ok : SegmentOk backends seg holder)
    (out : ∀ num, (seg.processes num).phase.detecting = false ∧
      (seg.processes num).phase.resetting = false) : holder.owner = none := by
  cases owner : holder.owner with
  | none => rfl
  | some num =>
    have := (ok.tied num).held owner
    have := out num
    cases phaseIs : (seg.processes num).phase <;>
      simp_all [Phase.holder, Phase.detecting, Phase.resetting]

theorem reachable_ok
    (reached : Reachable (Segment.settledStep maxBackends) Segment.start segment) :
    ∃ holder, SegmentOk maxBackends segment holder :=
  reached.invariant ⟨.free, .start maxBackends⟩ fun _ _ _ pre taken => settledStep_ok pre taken

/-- In every run in which no check is overtaken by a new event, a process starts and finishes
at most one cleanup for an event, and only for an event at which it was active. Outside the
critical section of the detector and the reset of the last cleaner, the flag of the detector
is set exactly if there is one flagged session and free exactly if there is none, and the
count of a flagged session is the number of its processes that still owe a cleanup. -/
theorem reachable_cleanup
    (reached : Reachable (Segment.settledStep maxBackends) Segment.start segment) :
    segment.started.Nodup ∧ segment.finished.Nodup ∧
    (∀ entry ∈ segment.started, entry ∈ segment.members) ∧
    (∀ entry ∈ segment.finished, entry ∈ segment.members) ∧
    ((∀ number, (segment.processes number).phase.detecting = false ∧
        (segment.processes number).phase.resetting = false) →
      (segment.isRunawayDetector = true ↔ ∃! session, segment.Flagged session) ∧
      (segment.isRunawayDetector = false ↔ ∀ session, ¬segment.Flagged session) ∧
      ∀ session, (segment.sessions session).cleanupCountdown =
        if segment.Flagged session then
          (((segment.owing maxBackends).filter
            fun number => (segment.processes number).session = session).card : Int)
        else cleanupCountdownBeforeRunaway) := by
  obtain ⟨holder, ok⟩ := reachable_ok reached
  refine ⟨ok.startedOnce, ok.finishedOnce, ok.startedMembers, ok.finishedMembers, fun out => ?_⟩
  have owner := ok.owner_eq_none out
  have flagged : ∀ session, segment.Flagged session ↔ _ := fun session =>
    (ok.sessions session).flagged
  have countdown := fun session => (ok.sessions session).countdown
  cases holder with
  | free =>
    have unset : segment.isRunawayDetector = false := by simpa using ok.detector
    have none : ∀ session, ¬segment.Flagged session := fun session is =>
      absurd ((flagged session).mp is).1 nofun
    refine ⟨iff_of_false (by simp [unset]) ?_, iff_of_true unset none, fun session => ?_⟩
    · rintro ⟨session, is, _⟩
      exact none session is
    · rw [if_neg (none session)]
      exact countdown session
  | flagged chosen =>
    have set : segment.isRunawayDetector = true := ok.detector.mpr nofun
    have only (session) : segment.Flagged session ↔ chosen = session := by
      rw [flagged session]
      simp [Holder.event, Holder.isFlagging]
    refine ⟨iff_of_true set ⟨chosen, (only chosen).mpr rfl, fun session is =>
      ((only session).mp is).symm⟩, iff_of_false (by simp [set]) ?_, fun session => ?_⟩
    · exact fun none => none chosen ((only chosen).mpr rfl)
    · have own : (segment.owing maxBackends).filter
          (fun number => (segment.processes number).session = chosen) =
            segment.owing maxBackends := by
        refine Finset.filter_true_of_mem fun number owing => ?_
        exact (some.inj ((ok.processes number).owed owing).2.2).symm
      simp only [countdown session, Holder.counts, only session, beq_iff_eq]
      split_ifs with same
      · rw [← same, own]
      · rfl
  | _ => cases owner

def flagBy (session : Nat) : List Event :=
  .detect 2 :: .proceed 2 [] false :: .proceed 2 [⟨session, 100, true⟩] false ::
    List.replicate 3 (.proceed 2 [] false)

/-- Processes 0 and 1 in session 1, process 2 in session 2, and session 1 is flagged while
process 0 is active. -/
def flaggedRun : List Event :=
  [.join 0 1, .join 1 1, .join 2 2, .activate 0, .activate 2] ++ flagBy 1

/-- What a run shows of session 1 and of the three processes. -/
structure CleanupView where
  cleanupCountdown : Int
  flagged : Bool
  members : List (Nat × Nat)
  started : List (Nat × Nat)
  finished : List (Nat × Nat)
  calm : Bool
deriving DecidableEq

def Segment.cleanupView (segment : Segment) : CleanupView where
  cleanupCountdown := (segment.sessions 1).cleanupCountdown
  flagged := decide (segment.Flagged 1)
  members := segment.members
  started := segment.started
  finished := segment.finished
  calm := (List.range 3).all fun number => (segment.processes number).phase == .calm

/-- Processes 0 and 1 are both active when session 1 is flagged, and process 0 ends its cleanup. -/
def sharedRun : List Event :=
  [.join 0 1, .join 1 1, .join 2 2, .activate 0, .activate 1, .activate 2] ++ flagBy 1 ++
    .startCleanup 0 :: List.replicate 8 (.proceed 0 [] false)

/-- One of the two processes of a flagged session has cleaned up: session 1 is the only flagged
one and its count is the one process that still has to. -/
theorem reachable_cleanup_shared :
    ∃ segment, Reachable (Segment.settledStep 3) Segment.start segment ∧
      segment.members = [(2, 0), (2, 1)] ∧ segment.started = [(2, 0)] ∧
      segment.finished = [(2, 0)] ∧ (∀ entry ∈ segment.finished, entry ∈ segment.members) ∧
      segment.Flagged 1 ∧ (∃! session, segment.Flagged session) ∧
      (segment.sessions 1).cleanupCountdown = 1 ∧
      ((segment.owing 3).filter fun number => (segment.processes number).session = 1).card = 1 := by
  have run : (sharedRun.foldlM (settledStep 3) start).map cleanupView =
      some ⟨1, true, [(2, 0), (2, 1)], [(2, 0)], [(2, 0)], true⟩ := by
    decide +kernel
  obtain ⟨segment, reach, view⟩ := Reachable.exists_of_run _ run
  simp only [cleanupView, CleanupView.mk.injEq] at view
  obtain ⟨count, isFlagged, members, started, finished, calm⟩ := view
  have flagged : segment.Flagged 1 := of_decide_eq_true isFlagged
  have quiet (number : Nat) : (segment.processes number).phase = .calm := by
    rcases lt_or_ge number 3 with lt | ge
    · exact beq_iff_eq.mp (List.all_eq_true.mp calm number (List.mem_range.mpr lt))
    · obtain ⟨holder, ok⟩ := reachable_ok reach
      rw [ok.absent number ge]
      rfl
  obtain ⟨-, -, -, owned, atRest⟩ := reachable_cleanup reach
  obtain ⟨claimed, free, counts⟩ := atRest fun number => by simp [quiet, Phase.detecting,
    Phase.resetting]
  have detector : segment.isRunawayDetector = true := by
    by_contra unset
    exact free.mp (Bool.eq_false_of_not_eq_true unset) 1 flagged
  refine ⟨segment, reach, members, started, finished, owned, flagged, claimed.mp detector, count,
    ?_⟩
  have owing := counts 1
  rw [if_pos flagged, count] at owing
  exact_mod_cast owing.symm

/-- Session 1 is flagged and process 1, which has got active later, finds that; then the
cleanup of session 1 ends, session 2 is flagged, and process 1 goes on. -/
def staleRun : List Event :=
  flaggedRun ++ [.activate 1, .startCleanup 1, .proceed 1 [] false, .startCleanup 0] ++
    List.replicate 10 (.proceed 0 [] false) ++ flagBy 2 ++
    List.replicate 7 (.proceed 1 [] false)

/-- A check that is overtaken by a new event: process 1, which was not active when session 1
was flagged and is not in session 2, takes the event of session 2 for its own, and the count of
session 1, which is not flagged, is decremented. -/
theorem stale_check_decrements : ∃ segment, Reachable (Segment.step 3) Segment.start segment ∧
      (∀ number < 3, (segment.processes number).phase = .calm) ∧
      ¬segment.Flagged 1 ∧ (segment.sessions 1).cleanupCountdown = -2 ∧
      (4, 1) ∈ segment.finished ∧ (4, 1) ∉ segment.members := by
  have run : (staleRun.foldlM (step 3) start).map cleanupView =
      some ⟨-2, false, [(4, 2), (2, 0)], [(4, 1), (2, 0)], [(4, 1), (2, 0)], true⟩ := by
    decide +kernel
  obtain ⟨segment, reach, view⟩ := Reachable.exists_of_run _ run
  simp only [cleanupView, CleanupView.mk.injEq] at view
  obtain ⟨count, flagged, members, -, done, calm⟩ := view
  refine ⟨segment, reach, fun number lt => ?_, of_decide_eq_false flagged, count,
    by simp [done], by simp [members]⟩
  exact beq_iff_eq.mp (List.all_eq_true.mp calm number (List.mem_range.mpr lt))

end Greengage.Runaway
