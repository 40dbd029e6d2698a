import Greengage.Dtm.Snapshot

/-!
Contract: distributed snapshots as cuts of the runs of the coordinator.

A snapshot is wrong for the first gxid after the start of the server when this is handed out
after its slot was read, because `latestCompletedGxid` then already has this value.
-/

namespace Greengage.Dtm

open Function List

open Foundations (guard_eq_some)

/-- What the fields of a snapshot of `session` say, complete or not. -/
structure ViewOk (first : Nat) (handedOut : List (Nat × Nat)) (nextGxid : Nat) (ended : List Nat)
    (session xmin xmax : Nat) (inProgress : List Nat) (reads : List (Nat × Nat)) : Prop where
  xmin_le : xmin ≤ xmax
  first_lt : first < xmax
  latest : xmax = first + 1 ∨ ∃ gxid ∈ ended, xmax = gxid + 1
  ended_lt : ∀ gxid ∈ ended, gxid < xmax
  reads_le : ∀ slot next, (slot, next) ∈ reads → next ≤ nextGxid
  reads_gt : ∀ slot next, (slot, next) ∈ reads → ∀ gxid ∈ ended, gxid < next
  seen : ∀ slot next gxid, (slot, next) ∈ reads → slot ≠ session → (slot, gxid) ∈ handedOut →
    gxid < next → gxid < xmax → gxid ∉ ended → xmin ≤ gxid ∧ gxid ∈ inProgress
  inProgress : ∀ gxid ∈ inProgress, gxid ∉ ended ∧
    ∃ slot next, (slot, next) ∈ reads ∧ (slot, gxid) ∈ handedOut ∧ gxid < next

/-- The scan of a session: it has read the slots that are not ahead of it. -/
structure ScanOk (first : Nat) (state : Dispatcher) (session : Nat) (scan : Scan) : Prop where
  member : session ∈ state.procArray
  view : ViewOk first state.handedOut state.gen.nextGxid state.ended session scan.xmin scan.xmax
    scan.inProgressXidArray scan.reads
  covered : ∀ slot ∈ state.procArray, slot ∈ scan.slots ∨ ∃ next, (slot, next) ∈ scan.reads

structure TakenOk (first : Nat) (state : Dispatcher) (taken : Taken) : Prop where
  view : ViewOk first state.handedOut state.gen.nextGxid taken.ended taken.session taken.ds.xmin
    taken.ds.xmax taken.ds.inProgressXidArray taken.reads
  covered : ∀ slot ∈ state.procArray, ∃ next, (slot, next) ∈ taken.reads

/-- The invariant of the coordinator after a start with the gxid `first`. -/
structure DispatcherOk (first : Nat) (state : Dispatcher) : Prop where
  first_pos : 0 < first
  first_le : first ≤ state.gen.nextGxid
  handedOut : ∀ session gxid, (session, gxid) ∈ state.handedOut →
    session ∈ state.procArray ∧ first ≤ gxid ∧ gxid < state.gen.nextGxid
  owner : ∀ session other gxid, (session, gxid) ∈ state.handedOut →
    (other, gxid) ∈ state.handedOut → session = other
  ended : ∀ gxid ∈ state.ended, gxid < state.gen.nextGxid ∧ gxid ≤ state.latestCompletedGxid
  latest : first ≤ state.latestCompletedGxid ∧
    (state.latestCompletedGxid = first ∨ state.latestCompletedGxid ∈ state.ended)
  active : ∀ session gxid, (session, gxid) ∈ state.handedOut → gxid ∉ state.ended →
    (state.allTmGxact session).gxid = gxid
  slots : ∀ session, (state.allTmGxact session).gxid ≠ invalidDistributedTransactionId →
    (session, (state.allTmGxact session).gxid) ∈ state.handedOut ∧
      (state.allTmGxact session).gxid ∉ state.ended
  scans : ∀ session scan, state.scans session = some scan → ScanOk first state session scan
  snapshots : ∀ taken ∈ state.snapshots, TakenOk first state taken

section

variable {first nextGxid session sess xmin xmax : Nat} {handedOut reads : List (Nat × Nat)}
  {ended inProgress : List Nat}

section

variable (ok : ViewOk first handedOut nextGxid ended sess xmin xmax inProgress reads)
include ok

theorem ViewOk.handOut (owner) :
    ViewOk first (handedOut ++ [(owner, nextGxid)]) (nextGxid + 1) ended sess xmin xmax
      inProgress reads :=
  { ok with
    reads_le slot next read := Nat.le_succ_of_le (ok.reads_le slot next read)
    seen slot next gxid read other mem pre := by
      have := ok.reads_le slot next read
      rw [mem_append, mem_singleton, Prod.mk.injEq] at mem
      rcases mem with old | ⟨_, rfl⟩
      · exact ok.seen slot next gxid read other old pre
      · omega
    inProgress gxid mem := by
      obtain ⟨running, slot, next, read, owned, pre⟩ := ok.inProgress gxid mem
      exact ⟨running, slot, next, read, mem_append_left _ owned, pre⟩ }

/-- A snapshot is right for a gxid of another session except for the first one, when this
was handed out after its slot was read. -/
theorem ViewOk.finished_iff
    (owner : ∀ sess other gxid, (sess, gxid) ∈ handedOut → (other, gxid) ∈ handedOut →
      sess = other) {slot gxid} (other : slot ≠ sess) (owned : (slot, gxid) ∈ handedOut)
    (lower : first ≤ gxid) (covered : ∃ next, (slot, next) ∈ reads) :
    ((gxid < xmin ∨ gxid < xmax ∧ gxid ∉ inProgress) ↔ gxid ∈ ended) ↔
      (gxid = first → ∃ next, (slot, next) ∈ reads ∧ first < next) := by
  have settled : gxid ∈ ended → gxid < xmax ∧ gxid ∉ inProgress := fun mem =>
    ⟨ok.ended_lt gxid mem, fun running => (ok.inProgress gxid running).1 mem⟩
  have xmin_le := ok.xmin_le
  constructor
  · rintro right rfl
    -- otherwise nothing has ended, and the first gxid counts as finished
    by_contra unread
    have unread : ∀ next, (slot, next) ∈ reads → ¬ gxid < next := fun next read pre =>
      unread ⟨next, read, pre⟩
    have notListed : gxid ∉ inProgress := by
      intro listed
      obtain ⟨_, slot', next, read, owned', pre⟩ := ok.inProgress gxid listed
      obtain rfl := owner slot slot' gxid owned owned'
      exact unread next read pre
    have mem := right.mp (.inr ⟨ok.first_lt, notListed⟩)
    obtain ⟨next, read⟩ := covered
    exact unread next read (ok.reads_gt slot next read gxid mem)
  · intro firstRead
    refine ⟨?_, fun mem => .inr (settled mem)⟩
    intro done
    by_contra running
    have small : gxid < xmax := by omega
    -- the gxid had been handed out when the slot was read
    have read : ∃ next, (slot, next) ∈ reads ∧ gxid < next := by
      by_cases isFirst : gxid = first
      · exact isFirst ▸ firstRead isFirst
      · obtain ⟨next, read⟩ := covered
        refine ⟨next, read, ?_⟩
        rcases ok.latest with _ | ⟨latest, mem, _⟩
        · omega
        · have handedOutBefore := ok.reads_gt slot next read latest mem
          omega
    obtain ⟨next, read, pre⟩ := read
    have seen := ok.seen slot next gxid read other owned pre small running
    rcases done with _ | ⟨_, notListed⟩
    · omega
    · exact notListed seen.2

end

end

section

variable {first session sess : Nat} {state after : Dispatcher}

theorem DispatcherOk.currentDtxActivate (ok : DispatcherOk first state)
    (taken : state.currentDtxActivate sess = some after) : DispatcherOk first after := by
  simp only [Dispatcher.currentDtxActivate, GxidGenerator.allocate, Option.ite_none_right_eq_some,
    Option.map_eq_some_iff] at taken
  obtain ⟨⟨mem, _, idle⟩, ⟨gxid, gen⟩, ⟨_, genEq⟩, rfl⟩ := taken
  cases genEq
  have first_pos := ok.first_pos
  have first_le := ok.first_le
  have fresh : state.gen.nextGxid ∉ state.ended := fun ended =>
    absurd (ok.ended _ ended).1 (Nat.lt_irrefl _)
  have unowned (other : Nat) : (other, state.gen.nextGxid) ∉ state.handedOut := fun owned =>
    absurd (ok.handedOut _ _ owned).2.2 (Nat.lt_irrefl _)
  have member_iff (other gxid : Nat) :
      (other, gxid) ∈ state.handedOut ++ [(sess, state.gen.nextGxid)] ↔
        (other, gxid) ∈ state.handedOut ∨ other = sess ∧ gxid = state.gen.nextGxid := by
    rw [mem_append, mem_singleton, Prod.mk.injEq]
  exact {
    first_pos := first_pos
    first_le := Nat.le_succ_of_le first_le
    handedOut other gxid owned := by
      rcases (member_iff other gxid).mp owned with old | ⟨rfl, rfl⟩
      · obtain ⟨inArray, lower, upper⟩ := ok.handedOut other gxid old
        exact ⟨inArray, lower, Nat.lt_succ_of_lt upper⟩
      · exact ⟨mem, first_le, Nat.lt_succ_self _⟩
    owner left right gxid leftOwned rightOwned := by
      rcases (member_iff left gxid).mp leftOwned with leftEarlier | ⟨rfl, rfl⟩
      · rcases (member_iff right gxid).mp rightOwned with rightEarlier | ⟨rfl, rfl⟩
        · exact ok.owner left right gxid leftEarlier rightEarlier
        · exact absurd leftEarlier (unowned left)
      · rcases (member_iff right _).mp rightOwned with rightEarlier | ⟨rfl, _⟩
        · exact absurd rightEarlier (unowned right)
        · rfl
    ended gxid ended := by
      obtain ⟨upper, latest⟩ := ok.ended gxid ended
      exact ⟨Nat.lt_succ_of_lt upper, latest⟩
    latest := ok.latest
    active other gxid owned running := by
      rcases (member_iff other gxid).mp owned with old | ⟨rfl, rfl⟩
      · have slot := ok.active other gxid old running
        have ne : other ≠ sess := by
          rintro rfl
          have lower := (ok.handedOut other gxid old).2.1
          rw [idle, invalidDistributedTransactionId] at slot
          omega
        simpa only [update_of_ne ne] using slot
      · simp only [update_self]
    slots other valid := by
      by_cases src : other = sess
      · subst src
        simp only [update_self]
        exact ⟨(member_iff _ _).mpr (.inr ⟨rfl, rfl⟩), fresh⟩
      · simp only [update_of_ne src] at valid ⊢
        obtain ⟨owned, running⟩ := ok.slots other valid
        exact ⟨(member_iff _ _).mpr (.inl owned), running⟩
    scans other scan scanning := by
      have scanOk := ok.scans other scan scanning
      exact ⟨scanOk.member, scanOk.view.handOut sess, scanOk.covered⟩
    snapshots snap old := by
      have takenOk := ok.snapshots snap old
      exact ⟨takenOk.view.handOut sess, takenOk.covered⟩ }

theorem DispatcherOk.procArrayEndGxact (ok : DispatcherOk first state)
    (taken : state.procArrayEndGxact sess = some after) : DispatcherOk first after := by
  obtain ⟨⟨_, unlocked⟩, rfl⟩ := guard_eq_some taken
  have noScan (other) (scan) : state.scans other ≠ some scan := by
    intro scanning
    have scanMember := (ok.scans other scan scanning).member
    simp only [Dispatcher.unlocked, all_eq_true] at unlocked
    have none := unlocked other scanMember
    simp [scanning] at none
  by_cases valid : (state.allTmGxact sess).gxid ≠ invalidDistributedTransactionId
  case neg =>
    -- the slot has no gxid, and nothing else changes but its xmin
    have same (other) : (update state.allTmGxact sess .idle other).gxid =
          (state.allTmGxact other).gxid := by
      by_cases src : other = sess
      · subst src
        rw [update_self]
        exact (not_ne_iff.mp valid).symm
      · rw [update_of_ne src]
    simp only [valid, if_false]
    exact { ok with
      active := by simpa only [same] using ok.active
      slots := by simpa only [same] using ok.slots
      scans other scan scanning := absurd scanning (noScan other scan)
      snapshots snap old := { ok.snapshots snap old with } }
  case pos =>
    obtain ⟨owned, running⟩ := ok.slots sess valid
    obtain ⟨gxid, gxidDef⟩ := @exists_eq _ ((state.allTmGxact sess).gxid)
    rw [← gxidDef] at valid owned running ⊢
    have upper := (ok.handedOut sess gxid owned).2.2
    have lower := (ok.handedOut sess gxid owned).2.1
    simp only [ne_eq, valid, not_false_eq_true, true_and, if_true]
    exact { ok with
      ended other ended := by
        rcases mem_append.mp ended with old | last
        · have bound := ok.ended other old
          refine ⟨bound.1, ?_⟩
          dsimp only
          split <;> omega
        · rw [mem_singleton.mp last]
          refine ⟨upper, ?_⟩
          dsimp only
          split <;> omega
      latest := by
        have latest := ok.latest
        split
        · exact ⟨lower, .inr (mem_append_right _ (mem_singleton_self _))⟩
        · exact ⟨latest.1, latest.2.imp_right (mem_append_left _)⟩
      active other otherGxid otherOwned otherRunning := by
        rw [mem_append, mem_singleton, not_or] at otherRunning
        have slot := ok.active other otherGxid otherOwned otherRunning.1
        have ne : other ≠ sess := by
          rintro rfl
          exact otherRunning.2 (slot.symm.trans gxidDef.symm)
        simpa only [update_of_ne ne] using slot
      slots other otherValid := by
        by_cases src : other = sess
        · subst src
          simp only [update_self] at otherValid
          exact absurd rfl otherValid
        · simp only [update_of_ne src] at otherValid ⊢
          obtain ⟨otherOwned, otherRunning⟩ := ok.slots other otherValid
          refine ⟨otherOwned, ?_⟩
          rw [mem_append, mem_singleton, not_or]
          refine ⟨otherRunning, ?_⟩
          intro same
          rw [same] at otherOwned
          exact src (ok.owner other sess gxid otherOwned owned)
      scans other scan scanning := absurd scanning (noScan other scan)
      snapshots snap old := { ok.snapshots snap old with } }

theorem DispatcherOk.snapshotBegin (ok : DispatcherOk first state)
    (taken : state.snapshotBegin sess = some after) : DispatcherOk first after := by
  obtain ⟨⟨mem, _, _⟩, rfl⟩ := guard_eq_some taken
  have latest := ok.latest
  exact { ok with
    scans other scan scanning := by
      by_cases src : other = sess
      · subst src
        simp only [update_self, Option.some.injEq] at scanning
        subst scanning
        exact {
          member := mem
          view := {
            xmin_le := Nat.le_refl _
            first_lt := Nat.lt_succ_of_le latest.1
            latest := latest.2.imp (fun start => by rw [start]) fun last => ⟨_, last, rfl⟩
            ended_lt gxid ended := Nat.lt_succ_of_le (ok.ended gxid ended).2
            reads_le _ _ read := by cases read
            reads_gt _ _ read := by cases read
            seen _ _ _ read := by cases read
            inProgress _ listed := by cases listed }
          covered slot inArray := .inl inArray }
      · simp only [update_of_ne src] at scanning
        have scanOk := ok.scans other scan scanning
        exact { scanOk with }
    snapshots snap old := { ok.snapshots snap old with } }

theorem ScanOk.readDxid {scan} (ok : ScanOk first state sess scan) (dxid) :
    ScanOk first state sess (scan.readDxid dxid) :=
  { ok with }

section

variable (ok : DispatcherOk first state)
include ok

/-- The next slot is read: a running transaction below `xmax` is listed. -/
theorem ScanOk.readGxid {scan slot rest} (scanOk : ScanOk first state sess scan)
    (next : scan.slots = slot :: rest) :
    ScanOk first state sess
      (scan.readGxid sess slot state.gen.nextGxid (state.allTmGxact slot).gxid) := by
  have view := scanOk.view
  have first_pos := ok.first_pos
  have reads_iff (other bound : Nat) : (other, bound) ∈ scan.reads ++ [(slot, state.gen.nextGxid)] ↔
      (other, bound) ∈ scan.reads ∨ other = slot ∧ bound = state.gen.nextGxid := by
    rw [mem_append, mem_singleton, Prod.mk.injEq]
  have covered (other) (inArray : other ∈ state.procArray) : other ∈ scan.slots.tail ∨
      ∃ bound, (other, bound) ∈ scan.reads ++ [(slot, state.gen.nextGxid)] := by
    rcases scanOk.covered other inArray with ahead | ⟨bound, read⟩
    · rw [next, mem_cons] at ahead
      rcases ahead with rfl | later
      · exact .inr ⟨_, (reads_iff _ _).mpr (.inr ⟨rfl, rfl⟩)⟩
      · exact .inl (by rw [next]; exact later)
    · exact .inr ⟨bound, (reads_iff _ _).mpr (.inl read)⟩
  have reads_le : ∀ other bound, (other, bound) ∈ scan.reads ++ [(slot, state.gen.nextGxid)] →
      bound ≤ state.gen.nextGxid := by
    intro other bound read
    rcases (reads_iff other bound).mp read with old | ⟨_, rfl⟩
    · exact view.reads_le other bound old
    · exact Nat.le_refl _
  have reads_gt : ∀ other bound, (other, bound) ∈ scan.reads ++ [(slot, state.gen.nextGxid)] →
      ∀ gxid ∈ state.ended, gxid < bound := by
    intro other bound read gxid ended
    rcases (reads_iff other bound).mp read with old | ⟨_, rfl⟩
    · exact view.reads_gt other bound old gxid ended
    · exact (ok.ended gxid ended).1
  have listed (array : List Nat)
      (known : ∀ gxid ∈ array, gxid ∈ scan.inProgressXidArray ∨ gxid ∉ state.ended ∧
        (slot, gxid) ∈ state.handedOut) :
      ∀ gxid ∈ array, gxid ∉ state.ended ∧ ∃ other bound,
        (other, bound) ∈ scan.reads ++ [(slot, state.gen.nextGxid)] ∧
          (other, gxid) ∈ state.handedOut ∧ gxid < bound := by
    intro gxid inArray
    rcases known gxid inArray with old | ⟨running, owned⟩
    · obtain ⟨running, other, bound, read, owned, pre⟩ := view.inProgress gxid old
      exact ⟨running, other, bound, (reads_iff _ _).mpr (.inl read), owned, pre⟩
    · exact ⟨running, slot, _, (reads_iff _ _).mpr (.inr ⟨rfl, rfl⟩), owned,
        (ok.handedOut slot gxid owned).2.2⟩
  simp only [Scan.readGxid]
  split
  case isTrue skipped =>
    refine ⟨scanOk.member, { view with
      reads_le := reads_le
      reads_gt := reads_gt
      seen := ?_
      inProgress := listed _ fun gxid inArray => .inl inArray }, covered⟩
    intro other bound gxid read ne owned pre small running
    dsimp only at small
    rcases (reads_iff other bound).mp read with old | ⟨rfl, rfl⟩
    · exact view.seen other bound gxid old ne owned pre small running
    · -- the gxid would be in the slot
      have lower := (ok.handedOut other gxid owned).2.1
      rw [ok.active other gxid owned running, invalidDistributedTransactionId] at skipped
      omega
  case isFalse used =>
    rw [not_or] at used
    obtain ⟨valid, small⟩ := used
    obtain ⟨slotOwned, slotRunning⟩ := ok.slots slot valid
    refine ⟨scanOk.member, {
      xmin_le := ?_
      first_lt := view.first_lt
      latest := view.latest
      ended_lt := view.ended_lt
      reads_le := reads_le
      reads_gt := reads_gt
      seen := ?_
      inProgress := listed _ ?_ }, covered⟩
    · dsimp only
      split <;> omega
    · intro other bound gxid read ne owned pre below running
      dsimp only at below ⊢
      rcases (reads_iff other bound).mp read with old | ⟨rfl, rfl⟩
      · have seen := view.seen other bound gxid old ne owned pre below running
        constructor
        · split <;> omega
        · split
          · exact seen.2
          · exact mem_append_left _ seen.2
      · rw [ok.active other gxid owned running, if_neg ne]
        constructor
        · split <;> omega
        · exact mem_append_right _ (mem_singleton_self _)
    · intro gxid inArray
      dsimp only at inArray
      split at inArray
      · exact .inl inArray
      · rcases mem_append.mp inArray with old | last
        · exact .inl old
        · rw [mem_singleton.mp last]
          exact .inr ⟨slotRunning, slotOwned⟩

theorem DispatcherOk.snapshotRead (taken : state.snapshotRead sess = some after) :
    DispatcherOk first after := by
  unfold Dispatcher.snapshotRead at taken
  split at taken
  case h_2 => cases taken
  case h_1 scan scanning =>
    split at taken
    case h_1 => cases taken
    case h_2 slot rest next =>
      simp only [Option.some.injEq] at taken
      subst taken
      have scanOk := ok.scans sess scan scanning
      have afterOk : ScanOk first state sess (if scan.dxidRead then
            scan.readGxid sess slot state.gen.nextGxid (state.allTmGxact slot).gxid
          else scan.readDxid (state.allTmGxact slot).xminDistributedSnapshot) := by
        split
        · exact scanOk.readGxid ok next
        · exact scanOk.readDxid _
      exact { ok with
        scans other otherScan otherScanning := by
          by_cases src : other = sess
          · subst src
            simp only [update_self, Option.some.injEq] at otherScanning
            subst otherScanning
            exact { afterOk with }
          · simp only [update_of_ne src] at otherScanning
            have otherOk := ok.scans other otherScan otherScanning
            exact { otherOk with }
        snapshots snap old := { ok.snapshots snap old with } }

theorem DispatcherOk.snapshotEnd (taken : state.snapshotEnd sess = some after) :
    DispatcherOk first after := by
  unfold Dispatcher.snapshotEnd at taken
  split at taken
  case h_2 => cases taken
  case h_1 scan scanning =>
    obtain ⟨compl, rfl⟩ := guard_eq_some taken
    have scanOk := ok.scans sess scan scanning
    have same (xmin other) : (update state.allTmGxact sess
          { state.allTmGxact sess with xminDistributedSnapshot := xmin } other).gxid =
          (state.allTmGxact other).gxid := by
      by_cases src : other = sess
      · rw [src, update_self]
      · rw [update_of_ne src]
    exact { ok with
      active := by simpa only [same] using ok.active
      slots := by simpa only [same] using ok.slots
      scans other otherScan otherScanning := by
        by_cases src : other = sess
        · simp [src] at otherScanning
        · simp only [update_of_ne src] at otherScanning
          have otherOk := ok.scans other otherScan otherScanning
          exact { otherOk with }
      snapshots snap mem := by
        rcases mem_append.mp mem with old | last
        · exact ⟨(ok.snapshots snap old).view, (ok.snapshots snap old).covered⟩
        · rw [mem_singleton.mp last]
          refine ⟨scanOk.view, ?_⟩
          intro slot inArray
          rcases scanOk.covered slot inArray with ahead | read
          · rw [compl] at ahead
            cases ahead
          · exact read }

theorem DispatcherOk.step {event} (taken : state.step event = some after) :
    DispatcherOk first after := by
  cases event with
  | currentDtxActivate => exact ok.currentDtxActivate taken
  | procArrayEndGxact => exact ok.procArrayEndGxact taken
  | snapshotBegin => exact ok.snapshotBegin taken
  | snapshotRead => exact ok.snapshotRead taken
  | snapshotEnd => exact ok.snapshotEnd taken
  | prefetch | recoverTM =>
    cases taken
    exact { ok with
      scans sess scan scanning := { ok.scans sess scan scanning with }
      snapshots snap old := { ok.snapshots snap old with } }

end

end

theorem dispatcherOk_start (procArray) {first} (numCommittedGxacts) (valid : 0 < first) :
    DispatcherOk first (.start procArray first numCommittedGxacts) where
  first_pos := valid
  first_le := Nat.le_refl _
  handedOut _ _ owned := by cases owned
  owner _ _ _ owned := by cases owned
  ended _ ended := by cases ended
  latest := ⟨Nat.le_refl _, .inl rfl⟩
  active _ _ owned := by cases owned
  slots _ valid := absurd rfl valid
  scans _ _ scanning := by cases scanning
  snapshots _ old := by cases old

open Foundations (Reachable)

/-- In every run, for a snapshot and a gxid that another session has or gets later: the
gxid is finished for the snapshot exactly if it had ended before the snapshot, if and only
if it is not the first gxid after the start, or this one had been handed out when the
snapshot read the slot of its session. -/
theorem reachable_finished_iff {procArray : List Nat} {first numCommittedGxacts : Nat}
    (valid : 0 < first) {state : Dispatcher}
    (reached : Reachable Dispatcher.step (.start procArray first numCommittedGxacts) state)
    {taken : Taken} (snapshot : taken ∈ state.snapshots) {session gxid : Nat}
    (owned : (session, gxid) ∈ state.handedOut) (other : session ≠ taken.session) :
    ((taken.ds.finished gxid ↔ gxid ∈ taken.ended) ↔
      (gxid = first → ∃ next, (session, next) ∈ taken.reads ∧ first < next)) := by
  have ok : DispatcherOk first state := reached.invariant
    (dispatcherOk_start procArray numCommittedGxacts valid) fun _ _ _ ok taken => ok.step taken
  have takenOk := ok.snapshots taken snapshot
  obtain ⟨inArray, lower, _⟩ := ok.handedOut session gxid owned
  exact takenOk.view.finished_iff ok.owner other owned lower (takenOk.covered session inArray)

/-- Session 0 takes a snapshot before any gxid is handed out after a start with gxid 5, and
another one when session 1 has ended gxid 5 and has gxid 6. -/
def firstGxidRun : List DispatcherEvent :=
  [.prefetch 512, .snapshotBegin 0, .snapshotRead 0, .snapshotRead 0, .snapshotRead 0,
    .snapshotRead 0, .snapshotEnd 0, .currentDtxActivate 1, .procArrayEndGxact 1,
    .currentDtxActivate 1, .snapshotBegin 0, .snapshotRead 0, .snapshotRead 0, .snapshotRead 0,
    .snapshotRead 0, .snapshotEnd 0]

def earlySnapshot : Taken where
  session := 0
  ds := ⟨6, 1, 6, 6, []⟩
  reads := [(0, 5), (1, 5)]
  ended := []

def lateSnapshot : Taken where
  session := 0
  ds := ⟨6, 2, 6, 6, []⟩
  reads := [(0, 7), (1, 7)]
  ended := [5]

theorem firstGxidRun_eq : (firstGxidRun.foldlM Dispatcher.step (.start [0, 1] 5 0)).map
        (fun state => (state.handedOut, state.snapshots)) =
      some ([(1, 5), (1, 6)], [earlySnapshot, lateSnapshot]) := by
  decide +kernel

theorem reachable_finished_iff_lateSnapshot :
    ∃ state, Reachable Dispatcher.step (.start [0, 1] 5 0) state ∧
      lateSnapshot ∈ state.snapshots ∧ (1, 5) ∈ state.handedOut ∧
      (lateSnapshot.ds.finished 5 ↔ 5 ∈ lateSnapshot.ended) := by
  obtain ⟨state, reach, view⟩ := Reachable.exists_of_run _ firstGxidRun_eq
  obtain ⟨handedOut, snapshots⟩ := Prod.mk.inj view
  have snap : lateSnapshot ∈ state.snapshots := by simp [snapshots]
  have owned : (1, 5) ∈ state.handedOut := by simp [handedOut]
  exact ⟨state, reach, snap, owned,
    (reachable_finished_iff (by decide) reach snap owned (by decide)).mpr
      fun _ => ⟨7, by decide, by decide⟩⟩

/-- The first gxid after the start is visible to a snapshot that was taken before it was
handed out. -/
theorem finished_before_handedOut : ∃ state, Reachable Dispatcher.step (.start [0, 1] 5 0) state ∧
      earlySnapshot ∈ state.snapshots ∧ (1, 5) ∈ state.handedOut ∧
      earlySnapshot.session ≠ 1 ∧ earlySnapshot.ds.finished 5 ∧ 5 ∉ earlySnapshot.ended := by
  obtain ⟨state, reach, view⟩ := Reachable.exists_of_run _ firstGxidRun_eq
  obtain ⟨handedOut, snapshots⟩ := Prod.mk.inj view
  exact ⟨state, reach, by simp [snapshots], by simp [handedOut], by decide, by decide, by decide⟩

end Greengage.Dtm
