import Greengage.Runaway.Versions
import Mathlib.Algebra.BigOperators.Ring.Finset

/-!
Contract: how the flag of the detector is handed on.

A detector takes it, scans the sessions, and gives it back or passes it to the event that it
announces; the last cleaner of the event takes it from there and gives it back. Every step
keeps the invariant of the segment with the next holder.
-/

namespace Greengage.Runaway

open Function Holder Finset Phase

variable {backends num : Nat} {seg after : Segment} {holder held : Holder}

namespace SegmentOk

section

variable (ok : SegmentOk backends seg holder)
include ok

theorem holder_eq (held) (own : (seg.processes num).phase.holder num (seg.processes num).session =
      some held) : holder = held :=
  (ok.tied num).holds held own

theorem detects (pre : holder ≠ .free) (after : held ≠ .free) :
    seg.isRunawayDetector = true ↔ held ≠ .free :=
  iff_of_true (ok.detector.mpr pre) after

theorem owing_eq_empty (notOwed : holder.isOwed = false) : seg.owing backends = ∅ := by
  rw [eq_empty_iff_forall_notMem]
  intro other owing
  have owed := ((ok.processes other).owed owing).2.1
  simp [notOwed] at owed

variable (lt : num < backends) (phase : Phase)
include lt

theorem pass {own} (is : (seg.processes num).phase = own)
    (attached : own ≠ .calm ∨ (seg.processes num).attached) (pre : own.plain)
    (plain : phase.plain) {sessions detector lock cur} (current_le : seg.currentVersion ≤ cur)
    (isDetector : detector = true ↔ held ≠ .free)
    (locked : (∃ proc, held = .scanning proc) ∨ held.isFlagging = true → lock = true)
    (announcedOnly : seg.latestRunawayVersion < cur)
    (notAnnounced : ∀ proc sess, held ≠ .flagging proc sess .announced)
    (event : ∀ sess, held.event = some sess → holder.event = some sess)
    (flagging : held.isFlagging = true → holder.isFlagging = true)
    (owed : (seg.owing backends).Nonempty → held.isOwed = true ∧ held.event = holder.event)
    (owners : holder.owner.getD num = num ∧ held.owner.getD num = num)
    (tied : Tied held num { seg.processes num with phase })
    (sessionsOk : ∀ sess, SessionOk held (seg.owing backends).card
      (update seg.processes num { seg.processes num with phase }) backends
      sess (sessions sess)) :
    SegmentOk backends { seg.goto num phase with
        sessions
        isRunawayDetector := detector
        sessionStateLock := lock
        currentVersion := cur } held := by
  have attached := attached.elim (fun busy => (ok.processes num).attached (is ▸ busy)) id
  have pinned := @pinned_update _ _ _ _ held { seg.processes num with phase } ok lt
    rfl rfl event _ _ sessionsOk
  refine ok.move lt current_le isDetector locked ?_ (fun _ => announcedOnly)
    event flagging owed ?_ tied ?_ (fun _ => id) pinned sessionsOk
  · intro proc sess is
    exact absurd is (notAnnounced proc sess)
  · intro other this
    have left : holder.owner ≠ some other := fun is => this (by simpa [is] using owners.1)
    have right : held.owner ≠ some other := fun is => this (by simpa [is] using owners.2)
    exact ⟨iff_of_false right left, fun is => absurd is left⟩
  · exact ((ok.processes num).goto_plain attached (is ▸ pre) (.inl plain)).handOn current_le event
      flagging fun owing => owed ⟨num, owing⟩

theorem keepSessions {sess} (event : held.event = some sess ↔ holder.event = some sess)
    (flagging : holder.event = some sess → held.isFlagging = holder.isFlagging)
    (counts : held.counts sess = holder.counts sess) :
    SessionOk held (seg.owing backends).card
      (update seg.processes num { seg.processes num with phase })
      backends sess (seg.sessions sess) :=
  (ok.sessions sess).keep lt event flagging (fun _ => rfl) counts rfl rfl

theorem changeSession {sess entry} (changed : SessionOk held (seg.owing backends).card
      (update seg.processes num { seg.processes num with phase }) backends
      sess entry)
    (rest : ∀ other, other ≠ sess → (held.event = some other ↔ holder.event = some other) ∧
      (holder.event = some other → held.isFlagging = holder.isFlagging) ∧
      held.counts other = holder.counts other) (other) :
    SessionOk held (seg.owing backends).card
      (update seg.processes num { seg.processes num with phase })
      backends other ((seg.setSession sess entry).sessions other) := by
  unfold Segment.setSession
  by_cases this : other = sess
  · subst this
    simpa only [update_self] using changed
  · obtain ⟨event, flagging, counts⟩ := rest other this
    simpa only [update_of_ne this] using ok.keepSessions lt phase event flagging counts

end

theorem detect (ok : SegmentOk backends seg .free) (lt : num < backends)
    (attached : (seg.processes num).attached)
    (calm : (seg.processes num).phase = .calm) :
    SegmentOk backends { seg.goto num .claimed with isRunawayDetector := true }
      (.claiming num) := by
  refine ok.pass lt .claimed calm (.inr attached) rfl rfl le_rfl (by simp)
    (by simp [isFlagging]) (ok.ordered rfl) (by simp) (by rintro _ ⟨⟩) (by rintro ⟨⟩)
    (by simp [ok.owing_eq_empty rfl]) ⟨rfl, rfl⟩ ?_ ?_
  · exact ⟨by simp [holder], by simp [holder], by simp⟩
  · intro _
    exact ok.keepSessions lt .claimed Iff.rfl (by rintro ⟨⟩) rfl

theorem scan (ok : SegmentOk backends seg holder) (lt : num < backends)
    (claimed : (seg.processes num).phase = .claimed) :
    SegmentOk backends { seg.goto num .scanning with sessionStateLock := true }
      (.scanning num) := by
  obtain rfl := ok.holder_eq (.claiming num) (by rw [claimed]; rfl)
  refine ok.pass lt .scanning claimed (.inl nofun) rfl rfl le_rfl (ok.detects nofun nofun)
    (fun _ => rfl) (ok.ordered rfl) (by simp) (by rintro _ ⟨⟩) (by rintro ⟨⟩)
    (by simp [ok.owing_eq_empty rfl]) ⟨rfl, rfl⟩ ?_ ?_
  · exact ⟨by simp [holder], by simp [holder], by simp⟩
  · intro _
    exact ok.keepSessions lt .scanning Iff.rfl (by rintro ⟨⟩) rfl

theorem giveUp (ok : SegmentOk backends seg holder) (lt : num < backends)
    (scanning : (seg.processes num).phase = .scanning) :
    SegmentOk backends (seg.giveUp num) .free := by
  obtain rfl := ok.holder_eq (.scanning num) (by rw [scanning]; rfl)
  refine ok.pass lt .calm scanning (.inl nofun) rfl rfl le_rfl (by simp)
    (by simp [isFlagging]) (ok.ordered rfl) nofun nofun nofun
    (by simp [ok.owing_eq_empty rfl]) ⟨rfl, rfl⟩ (.of_untied rfl nofun) ?_
  intro _
  exact ok.keepSessions lt .calm Iff.rfl nofun rfl

section

variable {sess : Nat} {status : RunawayStatus}

theorem tied_flagging {stage phase} (marked : status ≠ .notRunaway)
    (is : phase = .announced sess status ∧ stage = .announced ∨
      phase = .versioned sess status ∧ stage = .versioned ∨
      phase = .counted sess status ∧ stage = .counted) (proc : Process) :
    Tied (.flagging num sess stage) num { proc with phase } := by
  rcases is with ⟨rfl, rfl⟩ | ⟨rfl, rfl⟩ | ⟨rfl, rfl⟩
  all_goals exact ⟨by simp [holder], by simp [holder], by simp [marked]⟩

section

variable (ok : SegmentOk backends seg holder)
include ok

theorem versioned (lt : num < backends)
    (announced : (seg.processes num).phase = .announced sess status) :
    SegmentOk backends { seg.goto num (.versioned sess status) with
        currentVersion := seg.currentVersion + 2 } (.flagging num sess .versioned) := by
  obtain rfl := ok.holder_eq (.flagging num sess .announced) (by rw [announced]; rfl)
  have marked := (ok.tied num).status sess status (.inl announced)
  have := ok.announced num sess rfl
  refine ok.pass lt (.versioned sess status) announced (.inl nofun) rfl rfl
    (Nat.le_add_right _ _) (ok.detects nofun nofun) (fun _ => ok.locked (.inr rfl)) (by omega)
    (by simp) (fun _ => id) id (fun _ => ⟨rfl, rfl⟩) ⟨rfl, rfl⟩ ?_ ?_
  · exact tied_flagging marked (by simp) _
  · intro _
    exact ok.keepSessions lt _ Iff.rfl (fun _ => rfl) rfl

theorem activeProcessCount_eq (event : holder.event = some sess) (during : holder.isFlagging) :
    (seg.sessions sess).activeProcessCount = (seg.owing backends).card := by
  have isActive (other) (_ : other ∈ range backends) : activeShare sess (seg.processes other) =
        if other ∈ seg.owing backends then 1 else 0 := by
    have clean := ok.processes other
    refine if_congr (Iff.intro ?_ ?_) rfl rfl
    · rintro ⟨_, active, rfl⟩
      exact clean.owedByActive during event active
    · intro owing
      obtain ⟨attached, _, same⟩ := clean.owed owing
      exact ⟨attached, (clean.activeDuringFlag owing during).1,
        Option.some.inj (same.symm.trans event)⟩
  have subset : seg.owing backends ⊆ range backends := filter_subset _ _
  rw [(ok.sessions sess).active, sum_congr rfl isActive, sum_boole,
    filter_mem_eq_inter, inter_eq_right.mpr subset]

theorem counted (lt : num < backends)
    (versioned : (seg.processes num).phase = .versioned sess status) :
    SegmentOk backends ((seg.setSession sess { seg.sessions sess with
          cleanupCountdown := (seg.sessions sess).activeProcessCount }).goto num
        (.counted sess status)) (.flagging num sess .counted) := by
  obtain rfl := ok.holder_eq (.flagging num sess .versioned) (by rw [versioned]; rfl)
  have marked := (ok.tied num).status sess status (.inr (.inl versioned))
  refine ok.pass lt (.counted sess status) versioned (.inl nofun) rfl rfl
    le_rfl (ok.detects nofun nofun) (fun _ => ok.locked (.inr rfl)) (ok.announcedOnly (by simp))
    (by simp) (fun _ => id) id (fun _ => ⟨rfl, rfl⟩) ⟨rfl, rfl⟩ ?_ ?_
  · exact tied_flagging marked (by simp) _
  · have sessOk := ok.sessions sess
    refine ok.changeSession lt _ ?_ fun other this =>
      ⟨Iff.rfl, fun _ => rfl, by simp [counts, this.symm]⟩
    refine sessOk.change lt sessOk.flagged sessOk.spinLock rfl rfl ?_
    simpa [counts] using ok.activeProcessCount_eq rfl rfl

theorem marked (lt : num < backends) (counted : (seg.processes num).phase = .counted sess status) :
    SegmentOk backends { (seg.setSession sess { seg.sessions sess with
            runawayStatus := status, spinLock := false }).goto num .calm with
        sessionStateLock := false } (.flagged sess) := by
  obtain rfl := ok.holder_eq (.flagging num sess .counted) (by rw [counted]; rfl)
  have marked := (ok.tied num).status sess status (.inr (.inr counted))
  refine ok.pass lt .calm counted (.inl nofun) rfl rfl le_rfl (ok.detects nofun nofun)
    (by simp [isFlagging]) (ok.announcedOnly (by simp)) nofun (fun _ => id) nofun
    (fun _ => ⟨rfl, rfl⟩) ⟨rfl, rfl⟩ (.of_untied rfl nofun) ?_
  have sessOk := ok.sessions sess
  refine ok.changeSession lt _ ?_ fun other this =>
    ⟨Iff.rfl, fun same => absurd (Option.some.inj same).symm this, rfl⟩
  refine sessOk.change lt ?_ ?_ rfl rfl sessOk.countdown
  · simp [marked, event, isFlagging]
  · simp [isFlagging]

end

end

section

variable (ok : SegmentOk backends seg holder) (lt : num < backends)
include ok lt

theorem exchange (exchanging : (seg.processes num).phase = .exchanging)
    (last : (seg.sessions (seg.processes num).session).cleanupCountdown = 0) :
    SegmentOk backends ((seg.setSession (seg.processes num).session
        { seg.sessions (seg.processes num).session with
          cleanupCountdown := cleanupCountdownBeforeRunaway }).goto num .clearing)
      (.clearing num (seg.processes num).session) := by
  obtain ⟨sess, sessionIs⟩ := @exists_eq _ ((seg.processes num).session)
  rw [← sessionIs] at last ⊢
  have countdown := (ok.sessions sess).countdown
  rw [last] at countdown
  -- The count is that of an event, and nobody is left to clean up.
  have counts : holder.counts sess := by
    by_contra notCounted
    rw [if_neg notCounted] at countdown
    cases countdown
  rw [if_pos counts] at countdown
  have nobody : seg.owing backends = ∅ := card_eq_zero.mp (by omega)
  have quiet : holder.isFlagging = false := by
    by_contra during
    have ne := ok.nonempty (Bool.not_eq_false _ ▸ during)
    simp [nobody] at ne
  obtain rfl : holder = .flagged sess := by
    cases holder with
    | flagging => cases quiet
    | flagged chosen => simpa [Holder.counts] using counts
    | _ => cases counts
  refine ok.pass lt .clearing exchanging (.inl nofun) rfl rfl le_rfl (ok.detects nofun nofun)
    (by simp [isFlagging]) (ok.ordered rfl) nofun (fun _ => id) nofun (by simp [nobody])
    ⟨rfl, rfl⟩ ?_ ?_
  · exact ⟨by simp [holder, sessionIs], by simp [holder, sessionIs], by simp⟩
  · have sessOk := ok.sessions sess
    refine ok.changeSession lt _ ?_ fun other this =>
      ⟨Iff.rfl, fun _ => rfl, by simp [Holder.counts, this.symm]⟩
    exact sessOk.change lt sessOk.flagged sessOk.spinLock rfl rfl rfl

theorem unmark (clearing : (seg.processes num).phase = .clearing) :
    (seg.sessions (seg.processes num).session).runawayStatus ≠ .notRunaway ∧
    SegmentOk backends ((seg.setSession (seg.processes num).session
        { seg.sessions (seg.processes num).session with
          runawayStatus := .notRunaway }).goto num .releasing) (.releasing num) := by
  obtain ⟨sess, sessionIs⟩ := @exists_eq _ ((seg.processes num).session)
  obtain rfl := ok.holder_eq (.clearing num sess) (by rw [clearing, sessionIs]; rfl)
  rw [← sessionIs]
  have sessOk := ok.sessions sess
  refine ⟨sessOk.flagged.mpr ⟨rfl, rfl⟩, ?_⟩
  refine ok.pass lt .releasing clearing (.inl nofun) rfl rfl le_rfl (ok.detects nofun nofun)
    (by simp [isFlagging]) (ok.ordered rfl) nofun nofun nofun
    (by simp [ok.owing_eq_empty rfl]) ⟨rfl, rfl⟩ ?_ ?_
  · exact ⟨by simp [holder], by simp [holder], by simp⟩
  · refine ok.changeSession lt _ ?_ fun other this =>
      ⟨by simp [event, this.symm], fun _ => rfl, rfl⟩
    refine sessOk.change lt ?_ ?_ rfl rfl sessOk.countdown
    · simp [event]
    · simp [sessOk.spinLock, isFlagging]

theorem release (releasing : (seg.processes num).phase = .releasing) :
    SegmentOk backends { seg.goto num .calm with isRunawayDetector := false } .free := by
  obtain rfl := ok.holder_eq (.releasing num) (by rw [releasing]; rfl)
  refine ok.pass lt .calm releasing (.inl nofun) rfl rfl le_rfl (by simp)
    (by simp [isFlagging]) (ok.ordered rfl) nofun nofun nofun
    (by simp [ok.owing_eq_empty rfl]) ⟨rfl, rfl⟩ (.of_untied rfl nofun) ?_
  intro _
  exact ok.keepSessions lt .calm Iff.rfl nofun rfl

end

end SegmentOk

end Greengage.Runaway
