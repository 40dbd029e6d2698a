import Greengage.Runaway.Handover

/-!
Contract: the steps that change what is owed.

A session is flagged, a cleanup is started or counted, a process comes or goes. Every step
keeps the invariant of the segment.
-/

namespace Greengage.Runaway

open Function List Process Session Segment

open Foundations (sum_update_add share_le_sum)

variable {backends num session sess : Nat} {seg after : Segment} {holder held : Holder}
  {cur latest : Nat} {owes : Prop} {process : Process}

/-! ### An event is announced -/

theorem CleanOk.announce (ok : CleanOk (.scanning num) cur latest owes process)
    (ord : latest < cur) (unchecked : process.phase.checking = false) :
    CleanOk (.flagging num sess .announced) cur (cur + 1)
      (process.attached = true ∧ process.isProcessActive = true ∧ process.session = sess)
      process := by
  have notOwing : ¬owes := fun owing => by simpa [Holder.isOwed] using (ok.owed owing).2.1
  have cleanups := ok.cleanups
  have versions := ok.versions
  have old : process.beginCleanupRunawayVersion ≠ cur + 1 := by omega
  constructor
  case attached => exact ok.attached
  case activity => exact ok.activity
  case versions => exact ok.versions
  case cleanups => omega
  case unbegun => exact fun _ => old
  case between => intro is; simp [is, Phase.checking] at unchecked
  case begun =>
    intro is
    exact absurd (ok.cleaning (by rw [is]; rfl)) notOwing
  case ending =>
    intro is
    refine absurd (ok.cleaning ?_) notOwing
    cases phaseIs : process.phase <;> simp_all [Phase.ending, Phase.cleaning]
  case cleaning => exact fun is => absurd (ok.cleaning is) notOwing
  case progress => exact fun same => absurd same old
  case quietDuringFlag => simp [unchecked]
  case owed =>
    rintro ⟨attached, _, same⟩
    exact ⟨attached, rfl, by rw [same]; rfl⟩
  case due =>
    rintro ⟨_, active, _⟩ _
    exact ⟨⟨by omega, .inl active⟩, by simp [active]⟩
  case done => exact fun _ same => absurd same old
  case activeDuringFlag =>
    rintro ⟨_, active, _⟩ _
    exact ⟨active, old⟩
  case owedByActive =>
    intro _ same active
    exact ⟨ok.activity active, active, (Option.some.inj same).symm⟩
  case notDue =>
    rintro notActive _ which ⟨_, active | _⟩
    · have same : some sess = some process.session := which.resolve_left (by simp [unchecked])
      exact notActive ⟨ok.activity active, active, (Option.some.inj same).symm⟩
    · omega

namespace SegmentOk

section

variable (ok : SegmentOk backends seg holder)
include ok

theorem mem_owing_announce (ord : seg.latestRunawayVersion < seg.currentVersion)
    {processes sessions} (other) :
    other ∈ owing { seg with
        processes, sessions
        latestRunawayVersion := seg.currentVersion + 1
        members := (seg.activeProcesses backends sess).map (seg.currentVersion + 1, ·)
          ++ seg.members } backends ↔ (seg.processes other).attached = true ∧
      (seg.processes other).isProcessActive = true ∧
      (seg.processes other).session = sess := by
  have lt : (seg.processes other).attached = true → other < backends := by
    intro attached
    by_contra out
    simp [ok.absent other (by omega), fresh] at attached
  have notMember : (seg.currentVersion + 1, other) ∉ seg.members := by
    intro mem
    have := ok.logged _ mem
    omega
  have notFinished : (seg.currentVersion + 1, other) ∉ seg.finished :=
    fun isFinished => notMember (ok.finishedMembers _ isFinished)
  simp only [owing, Finset.mem_filter, Finset.mem_range, mem_append, mem_map, Prod.mk.injEq, true_and, exists_eq_right,
    activeProcesses, mem_filter, mem_range, Bool.and_eq_true, beq_iff_eq]
  tauto

theorem active_le_pins (sess) :
    (seg.sessions sess).activeProcessCount ≤ (seg.sessions sess).pinCount := by
  rw [(ok.sessions sess).active, (ok.sessions sess).pins]
  apply sum_le_sum
  intro _ _
  unfold activeShare pinShare
  split_ifs <;> simp_all

theorem exists_active (pos : 0 < (seg.sessions sess).activeProcessCount) :
    ∃ other, (seg.processes other).attached = true ∧ (seg.processes other).isProcessActive = true ∧
      (seg.processes other).session = sess := by
  by_contra none
  rw [(ok.sessions sess).active, Finset.sum_eq_zero] at pos
  · omega
  · intro other _
    exact if_neg fun active => none ⟨other, active⟩

/-- The detector takes the spin lock of the session that it has chosen and announces the
event. -/
theorem announce (lt : num < backends) {status} (scanning : (seg.processes num).phase = .scanning)
    (unchecked : ∀ other < backends, (seg.processes other).phase.checking = false)
    (marked : status ≠ .notRunaway)
    (pos : 0 < (seg.sessions sess).activeProcessCount) :
    SegmentOk backends (seg.flag backends num sess status) (.flagging num sess .announced) := by
  obtain rfl := ok.holder_eq (.scanning num) (by rw [scanning]; rfl)
  have attached := (ok.processes num).attached (by simp [scanning])
  have ord := ok.ordered rfl
  have uncheckedAll (other) : (seg.processes other).phase.checking = false := by
    by_cases inside : other < backends
    · exact unchecked other inside
    · rw [ok.absent other (by omega)]
      rfl
  rw [flag, if_pos pos]
  constructor
  case detector => exact iff_of_true (ok.detector.mpr (by simp)) (by simp)
  case locked => exact fun _ => ok.locked (.inl ⟨num, rfl⟩)
  case announced => exact fun _ _ _ => rfl
  case announcedOnly => exact fun never => absurd rfl (never num sess)
  case positive => exact ok.positive
  case nonempty =>
    intro _
    obtain ⟨other, active⟩ := ok.exists_active pos
    exact ⟨other, (ok.mem_owing_announce ord other).mpr active⟩
  case pinned =>
    intro other same
    obtain rfl : sess = other := Option.some.inj same
    simpa [Segment.goto, setSession, setProcess] using
      pos.trans_le (ok.active_le_pins sess)
  case absent =>
    exact fun other out => (update_of_ne (by omega) ..).trans (ok.absent other out)
  case tied =>
    intro other
    simp only [Segment.goto, setProcess]
    by_cases this : other = num
    · rw [this, update_self]
      exact tied_flagging marked (by simp) _
    · have foreign : (Holder.scanning num).owner ≠ some other := by
        simp [Holder.owner, Ne.symm this]
      rw [update_of_ne this]
      exact .of_untied ((ok.tied other).untied foreign) foreign
  case processes =>
    intro other
    have clean := ok.processes other
    simp only [Segment.goto, setProcess, setSession]
    rw [propext (ok.mem_owing_announce ord other)]
    by_cases this : other = num
    · subst this
      rw [update_self]
      have moved : CleanOk _ _ _ _ { seg.processes other with phase := .announced sess status } :=
        clean.goto_plain attached (by rw [scanning]; rfl) (.inl rfl)
      exact moved.announce ord rfl
    · rw [update_of_ne this]
      exact clean.announce ord (uncheckedAll other)
  case sessions =>
    intro other
    simp only [Segment.goto, setProcess, setSession]
    have sessOk := ok.sessions other
    by_cases this : other = sess
    · subst this
      rw [update_self]
      refine sessOk.change lt ?_ ?_ rfl rfl sessOk.countdown
      · simp [sessOk.flagged, Holder.event, Holder.isFlagging]
      · simp [Holder.event, Holder.isFlagging]
    · rw [update_of_ne this]
      refine sessOk.keep lt ?_ (by rintro ⟨⟩) (by rintro ⟨⟩) rfl rfl rfl
      simp [Holder.event, Ne.symm this]
  case logged =>
    intro entry mem
    rcases mem_append.mp mem with new | old
    · obtain ⟨other, _, rfl⟩ := mem_map.mp new
      exact le_rfl
    · exact (ok.logged entry old).trans (by dsimp only; omega)
  case finishedMembers =>
    exact fun entry isFinished => mem_append.mpr (.inr (ok.finishedMembers entry isFinished))
  case startedMembers =>
    exact fun entry isStarted => mem_append.mpr (.inr (ok.startedMembers entry isStarted))
  case startedOnce => exact ok.startedOnce
  case finishedOnce => exact ok.finishedOnce
  case startedBegun =>
    intro other _ isStarted
    have earlier : seg.currentVersion + 1 ≤ seg.latestRunawayVersion :=
      ok.logged _ (ok.startedMembers _ isStarted)
    omega

/-! ### The cleanup of a process -/

theorem foreign (num) (untied : (seg.processes num).phase.holder num (seg.processes num).session =
      none) : holder.owner ≠ some num :=
  (ok.tied num).foreign untied

theorem begin (lt : num < backends) (decided : (seg.processes num).phase = .decided) :
    SegmentOk backends { seg.setProcess num { seg.processes num with
            beginCleanupRunawayVersion := seg.latestRunawayVersion, phase := .begun } with
        started := (seg.latestRunawayVersion, num) :: seg.started } holder := by
  have clean := ok.processes num
  have owing : num ∈ seg.owing backends := clean.cleaning (by rw [decided]; rfl)
  have moved : SegmentOk backends (seg.setProcess num { seg.processes num with
        beginCleanupRunawayVersion := seg.latestRunawayVersion, phase := .begun }) holder :=
    ok.private_step lt (ok.foreign num (by rw [decided]; rfl)) rfl (clean.begin decided)
      (fun _ => rfl) rfl rfl rfl
  have first : (seg.latestRunawayVersion, num) ∉ seg.started := fun isStarted =>
    clean.unbegun (.inr (.inr decided)) (ok.startedBegun num owing isStarted)
  refine { moved with startedMembers := ?_, startedOnce := ?_, startedBegun := ?_ }
  · intro entry isStarted
    rcases mem_cons.mp isStarted with rfl | before
    · exact (Finset.mem_filter.mp owing).2.1
    · exact ok.startedMembers entry before
  · exact nodup_cons.mpr ⟨first, ok.startedOnce⟩
  · intro other otherOwing isStarted
    by_cases this : other = num
    · subst this
      simp [setProcess]
    · refine moved.startedBegun other otherOwing ((mem_cons.mp isStarted).resolve_left ?_)
      simp [this]

/-- `RunawayCleaner_RunawayCleanupDoneForProcess`, up to the first access to the session. -/
theorem cleanupDoneForProcess (lt : num < backends) (ignoredCleanup)
    (untied : (seg.processes num).phase.holder num (seg.processes num).session =
      none) (notEnding : (seg.processes num).phase.ending = false)
    (notEntering : (seg.processes num).phase.entering = false) :
    SegmentOk backends (seg.cleanupDoneForProcess num ignoredCleanup) holder := by
  have clean := ok.processes num
  have foreign := ok.foreign num untied
  unfold Segment.cleanupDoneForProcess
  dsimp only
  split_ifs with nothing
  · refine ok.goto lt foreign rfl (clean.goto_calm notEnding fun owing unbegun => ?_)
    by_contra idle
    have entering := (clean.due owing unbegun).2 (Bool.not_eq_true _ ▸ idle)
    simp [notEntering] at entering
  · obtain ⟨begun, unended⟩ := not_or.mp nothing
    exact ok.private_step lt foreign rfl (clean.finish (not_not.mp begun) unended) id rfl rfl rfl

end

end SegmentOk

theorem CleanOk.settle (ok : CleanOk holder cur latest owes process)
    (decrementing : process.phase = .decrementing) :
    CleanOk holder cur latest False { process with phase := .exchanging } := by
  have ended := ok.ending (by rw [decrementing]; rfl)
  have owing : owes := ok.cleaning (by rw [decrementing]; rfl)
  have quiet : holder.isFlagging = false := by
    by_contra during
    exact (ok.activeDuringFlag owing (Bool.not_eq_false _ ▸ during)).2 ended.1
  exact { ok with
      attached _ := (ok.owed owing).1
      unbegun := by simp
      between := nofun
      begun := nofun
      ending := nofun
      cleaning := nofun
      progress _ unended := unended ended.2
      quietDuringFlag := nofun
      owed := False.elim
      due := False.elim
      done := False.elim
      activeDuringFlag := False.elim
      owedByActive during := by simp [quiet] at during
      notDue _ unbegun := absurd ended.1 unbegun }

theorem Segment.owing_finish {processes sessions} : owing { seg with
        processes, sessions
        finished := (seg.latestRunawayVersion, num) :: seg.finished } backends =
      (seg.owing backends).erase num := by
  ext other
  simp only [owing, Finset.mem_filter, Finset.mem_erase, mem_cons, Prod.mk.injEq]
  tauto

theorem Holder.eq_flagged (owed : holder.isOwed) (quiet : holder.isFlagging = false)
    (event : holder.event = some sess) : holder = .flagged sess := by
  cases holder with
  | flagging => cases quiet
  | flagged => rw [Option.some.inj event]
  | _ => cases owed

namespace SegmentOk

theorem decrement (ok : SegmentOk backends seg holder) (lt : num < backends)
    (decrementing : (seg.processes num).phase = .decrementing)
    (sessionIs : (seg.processes num).session = sess) :
    SegmentOk backends { (seg.setSession sess { seg.sessions sess with
            cleanupCountdown := (seg.sessions sess).cleanupCountdown - 1 }).goto num
          .exchanging with
        finished :=
          ((seg.processes num).endCleanupRunawayVersion, num) :: seg.finished }
      holder := by
  have clean := ok.processes num
  have owes : num ∈ seg.owing backends := clean.cleaning (by rw [decrementing]; rfl)
  have ended := clean.ending (by rw [decrementing]; rfl)
  obtain ⟨-, owed, event⟩ := clean.owed owes
  have quiet : holder.isFlagging = false := by
    by_contra during
    exact (clean.activeDuringFlag owes (Bool.not_eq_false _ ▸ during)).2 ended.1
  rw [sessionIs] at event
  obtain rfl := Holder.eq_flagged owed quiet event
  simp only [ended.2, Segment.goto, setProcess, setSession]
  refine { ok with
    nonempty := nofun, pinned := ?pinned, absent := ?absent, tied := ?tied
    processes := ?processes, sessions := ?sessions, finishedMembers := ?finishedMembers
    finishedOnce := ?finishedOnce, startedBegun := ?startedBegun } <;> try dsimp only
  case pinned =>
    intro other same
    obtain rfl : sess = other := Option.some.inj same
    rw [update_self]
    exact ok.pinned sess rfl
  case absent =>
    exact fun other out => (update_of_ne (by omega) ..).trans (ok.absent other out)
  case tied =>
    intro other
    by_cases this : other = num
    · rw [this, update_self]
      exact .of_untied rfl (by rintro ⟨⟩)
    · rw [update_of_ne this]
      exact ok.tied other
  case processes =>
    intro other
    rw [owing_finish]
    by_cases this : other = num
    · rw [this, update_self]
      simpa only [ended.2, Finset.mem_erase, ne_eq, not_true_eq_false, false_and] using
        clean.settle decrementing
    · rw [update_of_ne this]
      simpa only [Finset.mem_erase, ne_eq, this, not_false_eq_true, true_and] using
        ok.processes other
  case sessions =>
    intro other
    rw [owing_finish]
    have sessOk := ok.sessions other
    by_cases this : other = sess
    · subst this
      rw [update_self]
      refine sessOk.change lt sessOk.flagged sessOk.spinLock rfl rfl ?_
      have countdown := sessOk.countdown
      have := Finset.card_pos.mpr ⟨num, owes⟩
      simp only [Holder.counts, beq_self_eq_true, if_true] at countdown ⊢
      rw [countdown, Finset.card_erase_of_mem owes]
      omega
    · rw [update_of_ne this]
      refine sessOk.keep lt Iff.rfl (fun _ => rfl) (fun counted => ?_) rfl rfl rfl
      exact absurd (by simpa [Holder.counts] using counted) (Ne.symm this)
  case finishedMembers =>
    intro entry isFinished
    rcases mem_cons.mp isFinished with rfl | before
    · exact (Finset.mem_filter.mp owes).2.1
    · exact ok.finishedMembers entry before
  case finishedOnce => exact nodup_cons.mpr ⟨(Finset.mem_filter.mp owes).2.2, ok.finishedOnce⟩
  case startedBegun =>
    intro other owing isStarted
    rw [owing_finish] at owing
    obtain ⟨this, before⟩ := Finset.mem_erase.mp owing
    rw [update_of_ne this]
    exact ok.startedBegun other before isStarted

end SegmentOk

/-! ### Processes come and go -/

theorem CleanOk.newcomer (pos : 1 ≤ cur) (notOwing : ¬owes) {attached} :
    CleanOk holder cur latest owes { fresh with attached, session } where
  attached moving := absurd rfl moving
  activity := nofun
  versions := ⟨pos, pos⟩
  cleanups := ⟨le_refl _, Nat.zero_le _⟩
  unbegun := nofun
  between := nofun
  begun := nofun
  ending := nofun
  cleaning := nofun
  progress same ne := absurd same ne
  quietDuringFlag := nofun
  owed owing := absurd owing notOwing
  due owing := absurd owing notOwing
  done owing := absurd owing notOwing
  activeDuringFlag owing := absurd owing notOwing
  owedByActive _ _ := nofun
  notDue := by
    rintro _ _ _ ⟨early, active | late⟩
    · cases active
    · exact absurd (lt_trans early late) (lt_irrefl 1)

theorem CleanOk.not_owes (ok : CleanOk holder cur latest owes process)
    (calm : process.phase = .calm) (idle : process.isProcessActive = false)
    (ended : process.beginCleanupRunawayVersion = process.endCleanupRunawayVersion) : ¬owes := by
  intro owing
  by_cases begun : process.beginCleanupRunawayVersion = latest
  · simpa [calm, Phase.ending] using ok.done owing begun (ended ▸ begun)
  · simpa [calm, Phase.entering] using (ok.due owing begun).2 idle

theorem Holder.event_of_counts (counts : holder.counts sess) : holder.event = some sess := by
  cases holder with
  | flagging _ chosen stage => cases stage <;> simp_all [Holder.counts, event]
  | flagged => simpa [Holder.counts, event] using counts
  | _ => cases counts

namespace SegmentOk

theorem unused_eq_free (ok : SegmentOk backends seg holder)
    (unused : (seg.sessions sess).pinCount = 0) :
    seg.sessions sess = free := by
  have sessOk := ok.sessions sess
  have notEvent : holder.event ≠ some sess := fun event => by
    have := ok.pinned sess event
    omega
  have status : (seg.sessions sess).runawayStatus = .notRunaway := by
    by_contra flagged
    exact notEvent (sessOk.flagged.mp flagged).1
  have spinLock : (seg.sessions sess).spinLock = false := by
    by_contra taken
    exact notEvent (sessOk.spinLock.mp (Bool.not_eq_false _ ▸ taken)).1
  have countdown : (seg.sessions sess).cleanupCountdown = cleanupCountdownBeforeRunaway := by
    rw [sessOk.countdown, if_neg fun counts => notEvent (Holder.event_of_counts counts)]
  have active : (seg.sessions sess).activeProcessCount = 0 := by
    have := ok.active_le_pins sess
    have lower : 0 ≤ (seg.sessions sess).activeProcessCount := by
      rw [sessOk.active]
      exact Finset.sum_nonneg fun _ _ => by unfold activeShare; split_ifs <;> decide
    omega
  cases entryIs : seg.sessions sess
  simp_all [free]

section

variable (ok : SegmentOk backends seg holder) (lt : num < backends)
include ok lt

theorem replace (calm : (seg.processes num).phase = .calm)
    (idle : (seg.processes num).isProcessActive = false)
    (notOwing : num ∉ seg.owing backends) {attached own count}
    (pins : count + pinShare session (seg.processes num) =
      (seg.sessions session).pinCount +
        pinShare session { fresh with attached, session := own })
    (rest : ∀ other, other ≠ session → pinShare other
      { fresh with attached, session := own } = pinShare other (seg.processes num))
    (pinned : holder.event = some session → 0 < count) :
    SegmentOk backends ((seg.setSession session
      { seg.sessions session with pinCount := count }).setProcess num
      { fresh with attached, session := own }) holder := by
  have active (other) : activeShare other { fresh with attached, session := own } =
      activeShare other (seg.processes num) := by
    simp [activeShare, idle, fresh]
  refine ok.move lt le_rfl ok.detector ok.locked ok.announced
    ok.announcedOnly (fun _ => id) id
    (fun some => some.elim fun other owing => ⟨((ok.processes other).owed owing).2.1, rfl⟩)
    (fun _ _ => ⟨Iff.rfl, fun _ => rfl⟩)
    (.of_untied rfl (ok.foreign num (by rw [calm]; rfl)))
    (.newcomer ok.positive notOwing) (fun owing => absurd owing notOwing)
    (fun other event => ?_) fun other => ?_
  all_goals
    unfold setSession
    by_cases this : other = session
  · subst this
    simpa only [update_self] using pinned event
  · simpa only [update_of_ne this] using ok.pinned other event
  · subst this
    have sessOk := ok.sessions other
    simp only [update_self]
    exact sessOk.change lt sessOk.flagged sessOk.spinLock (by simp [active]) pins
      sessOk.countdown
  · simp only [update_of_ne this]
    exact (ok.sessions other).keep lt Iff.rfl (fun _ => rfl) (fun _ => rfl) rfl (active other)
      (rest other this)

/-- `SessionState_Acquire`. -/
theorem join (absent : (seg.processes num).attached = false) (sess) :
    SegmentOk backends (seg.join num sess) holder := by
  have entryIs : (if (seg.sessions sess).pinCount = 0 then free
      else seg.sessions sess) = seg.sessions sess := by
    split_ifs with unused
    · exact (ok.unused_eq_free unused).symm
    · rfl
  have clean := ok.processes num
  have calm : (seg.processes num).phase = .calm := by
    by_contra moving
    simpa [absent] using clean.attached moving
  have idle : (seg.processes num).isProcessActive = false := by
    by_contra active
    simpa [absent] using clean.activity (Bool.not_eq_false _ ▸ active)
  have notOwing : num ∉ seg.owing backends := fun owing => by
    simpa [absent] using (clean.owed owing).1
  unfold Segment.join
  dsimp only
  rw [entryIs]
  refine ok.replace lt calm idle notOwing (by simp [pinShare, absent]) (fun other this => ?_)
    fun event => (ok.pinned sess event).trans (Int.lt_succ _)
  simp [pinShare, absent, this.symm]

section

variable (attached : (seg.processes num).attached)
include attached

theorem leave (calm : (seg.processes num).phase = .calm)
    (idle : (seg.processes num).isProcessActive = false)
    (notOwing : num ∉ seg.owing backends)
    (rest : holder.event = some (seg.processes num).session →
      (seg.sessions (seg.processes num).session).pinCount - 1 ≠ 0) :
    SegmentOk backends ((seg.setSession (seg.processes num).session
      { seg.sessions (seg.processes num).session with
        pinCount := (seg.sessions (seg.processes num).session).pinCount - 1 }).setProcess
      num fresh) holder := by
  refine ok.replace lt calm idle notOwing (by simp [pinShare, attached]) (fun other this => ?_)
    fun event => ?_
  · simp [pinShare, this.symm]
  · have := ok.pinned _ event
    have := rest event
    omega

theorem eq_of_last (last : (seg.sessions (seg.processes num).session).pinCount - 1 = 0)
    {other} (otherAttached : (seg.processes other).attached)
    (same : (seg.processes other).session = (seg.processes num).session) :
    other = num := by
  by_contra this
  have otherRange : other < backends := by
    by_contra out
    simp [ok.absent other (by omega), fresh] at otherAttached
  have sums := @sum_update_add _ _ _ _ seg.processes _
    (pinShare (seg.processes num).session) (Finset.mem_range.mpr lt) fresh
  have share := @share_le_sum _ _ _ (update seg.processes num fresh) _
    (pinShare (seg.processes num).session) (fun _ => by unfold pinShare; split_ifs <;> decide)
    (Finset.mem_range.mpr otherRange)
  rw [update_of_ne this] at share
  have own : pinShare (seg.processes num).session (seg.processes num) = 1 := by
    simp [pinShare, attached]
  have rest : pinShare (seg.processes num).session (seg.processes other) = 1 := by
    simp [pinShare, otherAttached, same]
  have gone : pinShare (seg.processes num).session fresh = 0 := rfl
  have pins := (ok.sessions (seg.processes num).session).pins
  omega

section

variable (calm : (seg.processes num).phase = .calm)
  (idle : (seg.processes num).isProcessActive = false)
include calm idle

theorem leave_last (notOwing : num ∉ seg.owing backends) (unlocked : seg.sessionStateLock = false)
    (event : holder.event = some (seg.processes num).session)
    (last : (seg.sessions (seg.processes num).session).pinCount - 1 = 0) :
    SegmentOk backends { (seg.setSession (seg.processes num).session free).setProcess num
          fresh with isRunawayDetector := false } .free := by
  have alone := @eq_of_last _ _ _ _ ok lt attached last
  have nobody : seg.owing backends = ∅ := by
    rw [Finset.eq_empty_iff_forall_notMem]
    intro other owing
    obtain ⟨otherAttached, _, same⟩ := (ok.processes other).owed owing
    obtain rfl := alone otherAttached (Option.some.inj (same.symm.trans event))
    exact notOwing owing
  have quiet : holder.isFlagging = false := by
    by_contra during
    simpa [unlocked] using ok.locked (.inr (Bool.not_eq_false _ ▸ during))
  have owner : holder.owner = none := by
    cases holderIs : holder with
    | clearing cleaner chosen =>
      have own := (ok.tied cleaner).held (by rw [holderIs]; rfl)
      rw [holderIs] at own event
      have clearing : (seg.processes cleaner).phase = .clearing ∧
          (seg.processes cleaner).session = chosen := by
        cases phaseIs : (seg.processes cleaner).phase <;>
          simp_all [Phase.holder]
      have otherAttached := (ok.processes cleaner).attached (by simp [clearing.1])
      obtain rfl := alone otherAttached (clearing.2.trans (Option.some.inj event))
      simp [clearing.1] at calm
    | flagging => simp [holderIs, Holder.isFlagging] at quiet
    | flagged => rfl
    | _ => simp [holderIs, Holder.event] at event
  refine ok.move lt le_rfl (by simp) (by simp [Holder.isFlagging])
    (by simp) (fun _ => ok.ordered quiet) (by rintro _ ⟨⟩) (by rintro ⟨⟩) (by simp [nobody]) ?_
      (.of_untied rfl (by rintro ⟨⟩))
    (.newcomer ok.positive notOwing) (fun owing => absurd owing notOwing) (by rintro _ ⟨⟩) ?_
  · intro other _
    exact ⟨iff_of_false (by rintro ⟨⟩) (by simp [owner]), fun is => by simp [owner] at is⟩
  · intro other
    have sessOk := ok.sessions other
    change SessionOk _ _ (update seg.processes num fresh) _ _
      (update seg.sessions (seg.processes num).session free other)
    by_cases this : other = (seg.processes num).session
    · subst this
      have active : (seg.sessions (seg.processes num).session).activeProcessCount = 0 := by
        rw [sessOk.active]
        refine Finset.sum_eq_zero fun other _ => if_neg ?_
        rintro ⟨otherAttached, otherActive, same⟩
        simp [alone otherAttached same, idle] at otherActive
      rw [update_self]
      refine sessOk.change lt ?_ ?_ ?_ ?_ rfl
      · exact iff_of_false (by simp [free]) (by simp [Holder.event])
      · exact iff_of_false (by simp [free]) (by simp [Holder.event])
      · simp [active, activeShare, idle, free, fresh]
      · simp only [pinShare, attached, free, fresh]
        simp
        omega
    · have notEvent : holder.event ≠ some other := fun same =>
        this (Option.some.inj (same.symm.trans event))
      rw [update_of_ne this]
      refine sessOk.keep lt (iff_of_false (by simp [Holder.event]) notEvent)
        (fun same => absurd same notEvent) (fun _ => rfl) ?_ ?_ ?_
      · refine (Bool.eq_false_iff.mpr fun counts => ?_).symm
        exact notEvent (Holder.event_of_counts counts)
      · simp [activeShare, idle, fresh]
      · simp [pinShare, fresh, Ne.symm this]

/-- `SessionState_Release`. -/
theorem exit (ended : (seg.processes num).beginCleanupRunawayVersion =
      (seg.processes num).endCleanupRunawayVersion)
    (unlocked : seg.sessionStateLock = false) :
    ∃ held, SegmentOk backends (seg.exit num) held := by
  have notOwing := (ok.processes num).not_owes calm idle ended
  unfold Segment.exit
  dsimp only
  split_ifs with last flagged
  · have event := ((ok.sessions _).flagged.mp flagged).1
    refine ⟨.free, ?_⟩
    have left := ok.leave_last lt attached calm idle notOwing unlocked event last
    simpa [setProcess, setSession] using left
  · have notEvent : holder.event ≠ some (seg.processes num).session := by
      intro event
      refine flagged ((ok.sessions _).flagged.mpr ⟨event, ?_⟩)
      by_contra during
      simpa [unlocked] using ok.locked (.inr (Bool.not_eq_false _ ▸ during))
    have left := ok.leave lt attached calm idle notOwing fun event => absurd event notEvent
    -- Without an event, the reset of the entry changes nothing.
    have reset := @unused_eq_free _ (seg.processes num).session _ _ left
      (by simpa [setProcess, setSession] using last)
    refine ⟨holder, ?_⟩
    rw [setSession, ← reset, update_eq_self]
    exact left
  · exact ⟨holder, ok.leave lt attached calm idle notOwing fun _ => last⟩

end

end

end

end SegmentOk

end Greengage.Runaway
