import Greengage.Fts.Catalog

/-!
Contract: what the bodies of the main loop make of one pair and of the catalog.

The catalog is written in one place, for a pair whose probe is settled. What makes that
write complete is kept by everything before it: until a pair is updated, the rows it took
at the beginning of the cycle are the rows of the catalog (`Standing`), and a pair that
has its answer is not polled any more (`PairOk`).
-/

namespace Greengage.Fts

open MessageState SegmentInfo

def MessageState.type : MessageState → Option MessageType
  | .segment type => some type
  | .retryWait type => some type
  | .success type => some type
  | .failed type => some type
  | .responseProcessed => none

/-- How a pair stands to the catalog, in which its content has the rows `primary` and
`mirror`. -/
structure Standing (catalog : List SegmentConfig) (info : SegmentInfo)
    (primary mirror : SegmentConfig) : Prop where
  recorded : Recorded catalog primary mirror
  dbid : primary.dbid = info.primary.dbid
  segindex : primary.segindex = info.primary.segindex
  snapshot : info.state.type = some .probe → primary = info.primary ∧ mirror = info.mirror
  down : info.state.type = some .syncrepOff → mirror.alive = false ∧ primary.inSync = false

/-- What holds of a pair by itself. `polled` says that `ftsPoll` has seen the pair since
`ftsConnect` has. -/
structure PairOk (polled : Bool) (info : SegmentInfo) : Prop where
  alive : info.result.isPrimaryAlive = info.state.isSuccess
  up_of_inSync : info.result.isInSync = true → info.result.isMirrorAlive = true
  events : info.pollEvents.pollin = true → info.pollEvents.pollout = false
  revents : info.pollRevents.pollin = true → info.pollRevents.pollout = false
  unconnected : info.conn = none → info.pollEvents = .none ∧ info.pollRevents = .none
  quiet : info.pollEvents ≠ .none →
    (∃ type, info.state = .segment type) ∨ ∃ type, info.state = .failed type
  ready : polled = true → info.pollEvents ≠ .none →
    info.pollRevents.pollin = false ∧ (info.pollRevents.pollout = true → info.connected = true)

structure Kept (info after : SegmentInfo) : Prop where
  primary : after.primary = info.primary
  mirror : after.mirror = info.mirror
  type : after.state.type = info.state.type

variable {cat : List SegmentConfig} {info after : SegmentInfo}
  {primary prim mirror mir : SegmentConfig} {polled : Bool}

theorem Kept.refl (info) : Kept info info := ⟨rfl, rfl, rfl⟩

theorem Standing.kept (standing : Standing cat info prim mir)
    (kept : Kept info after) : Standing cat after prim mir where
  recorded := standing.recorded
  dbid := by rw [standing.dbid, kept.primary]
  segindex := by rw [standing.segindex, kept.primary]
  snapshot := by rw [kept.type, kept.primary, kept.mirror]; exact standing.snapshot
  down := by rw [kept.type]; exact standing.down

namespace PairOk

theorem pollEvents_none_of_in_out {events : PollEvents} (pollin : events.pollin = false)
    (pollout : events.pollout = false) : events = .none := by
  cases events
  simp_all [PollEvents.none]

theorem fail (ok : PairOk polled info)
    (waits : (∃ type, info.state = .segment type) ∨ ∃ type, info.state = .failed type) :
    ∃ after, info.fail = .ok after ∧ PairOk polled after ∧ Kept info after := by
  have alive := ok.alive
  rcases waits with ⟨type, state⟩ | ⟨type, state⟩
  all_goals
    refine ⟨{ info with state := .failed type }, ?_, ?_, rfl, rfl, ?_⟩
    · simp [SegmentInfo.fail, state, nextFailedState, bind, Except.bind, pure, Except.pure]
    · exact
        { ok with
          alive := by simpa [state, isSuccess] using alive
          quiet _ := .inr ⟨type, rfl⟩ }
    · simp [state, MessageState.type]

theorem unpolled (ok : PairOk polled info) : PairOk false info :=
  { ok with ready := nofun }

theorem restart (ok : PairOk polled info) (xlogrecptr restartState) :
    PairOk polled { info with xlogrecptr, restartState } :=
  { ok with }

theorem checkIfFailedDueToNormalRestart_eq (info : SegmentInfo) (msg : RestartMessage) :
    ∃ xlogrecptr restartState,
      info.checkIfFailedDueToNormalRestart msg = { info with xlogrecptr, restartState } := by
  match msg with
  | .nothing => exact ⟨_, _, rfl⟩
  | .inRecovery none => exact ⟨_, _, rfl⟩
  | .inRecovery (some replayed) =>
    simp only [checkIfFailedDueToNormalRestart]
    split
    · exact ⟨_, _, rfl⟩
    · exact ⟨_, _, rfl⟩
  | .inReset => exact ⟨_, _, rfl⟩

variable {type : MessageType}

theorem reconnect (ok : PairOk polled info) (state : info.state = .segment type) (conn) {pollEvents}
    (events : pollEvents.pollin = true → pollEvents.pollout = false) :
    PairOk false { info with conn := some conn, pollEvents } :=
  { ok with
    events
    unconnected := nofun
    quiet _ := .inl ⟨type, state⟩
    ready := nofun }

theorem ftsConnectStart (ok : PairOk true info) (state : info.state = .segment type)
    (unconnected : info.conn = none) (num started) :
    ∃ after, info.ftsConnectStart num started = .ok after ∧ PairOk false after ∧
      Kept info after := by
  have noEvents := (ok.unconnected unconnected).1
  cases started with
  | true =>
    refine ⟨_, rfl, ok.reconnect state _ ?_, rfl, rfl, rfl⟩
    simp [noEvents, PollEvents.none]
  | false =>
    have started : PairOk false { info with conn := some ⟨num, .bad, true⟩ } :=
      ok.reconnect state _ ok.events
    obtain ⟨after, failed, afterOk, kept⟩ := started.fail (.inl ⟨type, state⟩)
    exact ⟨after, failed, afterOk, kept.primary, kept.mirror, kept.type⟩

theorem ftsConnectPoll (ok : PairOk true info) (state : info.state = .segment type) {conn}
    (connected : info.conn = some conn) (noEvents : info.pollEvents = .none) (poll : ConnectPoll) :
    ∃ after, info.ftsConnectPoll conn poll = .ok after ∧ PairOk false after ∧ Kept info after := by
  have waiting : ∀ pollEvents, (pollEvents.pollin = true → pollEvents.pollout = false) →
        PairOk false { info with pollEvents } := by
    intro pollEvents events
    have again := ok.reconnect state conn events
    rwa [← connected] at again
  cases poll with
  | ok => exact ⟨_, rfl, ok.reconnect state _ nofun, rfl, rfl, rfl⟩
  | reading =>
    refine ⟨_, rfl, waiting _ ?_, rfl, rfl, rfl⟩
    simp [noEvents, PollEvents.none]
  | writing =>
    refine ⟨_, rfl, waiting _ ?_, rfl, rfl, rfl⟩
    simp [noEvents, PollEvents.none]
  | failed msg =>
    have lost : PairOk false { info with conn := some { conn with status := .bad } } :=
      ok.reconnect state _ ok.events
    obtain ⟨after, failed, afterOk, kept⟩ := lost.fail (.inl ⟨type, state⟩)
    obtain ⟨xlogrecptr, restartState, restarted⟩ :=
      checkIfFailedDueToNormalRestart_eq after msg
    refine ⟨{ after with xlogrecptr, restartState }, ?_, afterOk.restart _ _, ?_⟩
    · simp [SegmentInfo.ftsConnectPoll, failed, restarted, bind, Except.bind, pure, Except.pure]
    · exact ⟨kept.primary, kept.mirror, kept.type⟩

theorem ftsConnect (ok : PairOk true info) (num started poll) :
    ∃ after, info.ftsConnect num started poll = .ok after ∧ PairOk false after ∧
      Kept info after := by
  by_cases connected : info.connected = true
  · exact ⟨info, by simp [SegmentInfo.ftsConnect, connected], ok.unpolled, .refl info⟩
  have fresh := ok.restart info.xlogrecptr .notInRestart
  have freshKept : Kept info { info with restartState := .notInRestart } := ⟨rfl, rfl, rfl⟩
  cases state : info.state with
  | segment type =>
    cases connection : info.conn with
    | none =>
      obtain ⟨after, run, afterOk, kept⟩ :=
        fresh.ftsConnectStart state connection num started
      refine ⟨after, ?_, afterOk, kept.primary, kept.mirror, kept.type⟩
      rw [← run]
      simp [SegmentInfo.ftsConnect, connected, state, connection]
    | some conn =>
      by_cases ready : (info.pollRevents.pollout || info.pollRevents.pollin) = true
      · -- A connection that is not established is polled for one event at a time.
        have noEvents : info.pollEvents = .none := by
          by_contra events
          obtain ⟨pollin, pollout⟩ := ok.ready rfl events
          rcases (Bool.or_eq_true _ _).mp ready with written | read
          · exact connected (pollout written)
          · simp [pollin] at read
        obtain ⟨after, run, afterOk, kept⟩ :=
          fresh.ftsConnectPoll state connection noEvents poll
        refine ⟨after, ?_, afterOk, kept.primary, kept.mirror, kept.type⟩
        rw [← run]
        simp only [SegmentInfo.ftsConnect, connected, state, connection, ready,
          Bool.false_eq_true, ↓reduceIte]
      · refine ⟨_, ?_, fresh.unpolled, freshKept⟩
        simp only [SegmentInfo.ftsConnect, connected, state, connection, ready,
          Bool.false_eq_true, ↓reduceIte]
  | _ => exact ⟨info, by simp [SegmentInfo.ftsConnect, state], ok.unpolled, .refl info⟩

theorem fail_state (failed : info.fail = .ok after) : ∃ type, after.state = .failed type := by
  cases state : info.state <;>
    simp [SegmentInfo.fail, state, nextFailedState, bind, Except.bind, pure, Except.pure] at failed
  all_goals
    subst failed
    exact ⟨_, rfl⟩

theorem of_noEvents (ok : PairOk polled info) (noEvents : info.pollEvents = .none) :
    PairOk true info :=
  { ok with ready := fun _ events => absurd noEvents events }

theorem ftsPollReady (ok : PairOk false info) (events : info.pollEvents ≠ .none)
    (asked : (info.pollRevents.pollin = true → info.pollEvents.pollin = true) ∧
      (info.pollRevents.pollout = true → info.pollEvents.pollout = true)) :
    ∃ after, info.ftsPollReady = .ok after ∧ PairOk true after ∧ Kept info after ∧
      ((∃ type, after.state = .segment type) ∨ ∃ type, after.state = .failed type) := by
  have waits := ok.quiet events
  by_cases ready : ((info.pollRevents.pollin && info.pollEvents.pollin) ||
      (info.pollRevents.pollout && info.pollEvents.pollout)) = true
  · refine ⟨{ info with pollEvents := .none }, by simp only [SegmentInfo.ftsPollReady, ready,
      ↓reduceIte], ?_, ⟨rfl, rfl, rfl⟩, waits⟩
    exact { ok with
        events := nofun
        unconnected conn := absurd (ok.unconnected conn).1 events
        quiet none := absurd rfl none
        ready _ none := absurd rfl none }
  · -- What is reported was asked for, so neither reading nor writing is reported.
    have polledOk : PairOk true info := by
      refine { ok with ready := fun _ _ => ?_ }
      simp only [Bool.or_eq_true, Bool.and_eq_true, not_or, not_and] at ready
      have noIn : info.pollRevents.pollin = false := by
        by_contra reported
        have reported := Bool.not_eq_false _ ▸ reported
        exact ready.1 reported (asked.1 reported)
      exact ⟨noIn, fun reported => absurd (asked.2 reported) (ready.2 reported)⟩
    obtain ⟨after, failed, afterOk, kept⟩ := polledOk.fail waits
    simp only [SegmentInfo.ftsPollReady, ready, Bool.false_eq_true, ↓reduceIte]
    split
    · exact ⟨after, failed, afterOk, kept, .inr (fail_state failed)⟩
    split
    · exact ⟨after, failed, afterOk, kept, .inr (fail_state failed)⟩
    · exact ⟨info, rfl, polledOk, .refl info, waits⟩

theorem ftsPoll (ok : PairOk false info) (revents timedOut) :
    ∃ after, info.ftsPoll revents timedOut = .ok after ∧ PairOk true after ∧ Kept info after := by
  by_cases asked : (info.pollEvents.pollin || info.pollEvents.pollout) = true
  · have events : info.pollEvents ≠ .none := by
      intro none
      simp [none, PollEvents.none] at asked
    obtain ⟨reported, reportedDef⟩ := @exists_eq PollRevents { revents with
          pollin := revents.pollin && info.pollEvents.pollin
          pollout := revents.pollout && info.pollEvents.pollout }
    have polledOk : PairOk false { info with pollRevents := reported } :=
      { ok with
        revents := by
          subst reportedDef
          simp only [Bool.and_eq_true, Bool.and_eq_false_iff]
          exact fun pollin => .inr (ok.events pollin.2)
        unconnected conn := absurd (ok.unconnected conn).1 events
        ready := nofun }
    obtain ⟨mid, polled, middleOk, kept, waits⟩ := polledOk.ftsPollReady events (by
      subst reportedDef
      simp +contextual)
    simp only [SegmentInfo.ftsPoll, asked, ↓reduceIte, ← reportedDef, polled, bind, Except.bind,
      ftsCheckTimeout]
    split
    · obtain ⟨after, failed, afterOk, keptAgain⟩ := middleOk.fail waits
      exact ⟨after, failed, afterOk, keptAgain.primary.trans kept.primary,
        keptAgain.mirror.trans kept.mirror, keptAgain.type.trans kept.type⟩
    · exact ⟨mid, rfl, middleOk, kept.primary, kept.mirror, kept.type⟩
  · refine ⟨info, by simp only [SegmentInfo.ftsPoll, asked, Bool.false_eq_true, ↓reduceIte],
      ok.of_noEvents ?_, .refl info⟩
    simp only [Bool.or_eq_true, not_or, Bool.not_eq_true] at asked
    exact pollEvents_none_of_in_out asked.1 asked.2

def Addressed (info : SegmentInfo) (sent : List Message) : Prop :=
  ∀ message ∈ sent, info.state.type = some message.type ∧
    message.dbid = info.primary.dbid ∧ message.segindex = info.primary.segindex

theorem Addressed.nil (info) : Addressed info [] := nofun

theorem ftsSend (ok : PairOk true info) (sent) :
    ∃ after messages, info.ftsSend sent = .ok (after, messages) ∧ PairOk true after ∧
      Kept info after ∧ Addressed info messages := by
  have idle : ∃ after messages,
      (Except.ok (info, []) : Except FtsError (SegmentInfo × List Message)) =
        .ok (after, messages) ∧
      PairOk true after ∧ Kept info after ∧ Addressed info messages :=
    ⟨info, [], rfl, ok, .refl info, nofun⟩
  cases state : info.state with
  | segment type =>
    cases connection : info.conn with
    | none =>
      simp only [SegmentInfo.ftsSend, state, connection]
      exact idle
    | some conn =>
      simp only [SegmentInfo.ftsSend, state, connection]
      split
      · exact idle
      next writable =>
        simp only [Bool.or_eq_true, bne_iff_ne, Bool.not_eq_true', not_or, not_not] at writable
        have notRead : info.pollRevents.pollin = false := by
          by_contra read
          have written := ok.revents (Bool.not_eq_false _ ▸ read)
          simp [writable.2] at written
        split
        · refine ⟨_, _, rfl, ?_, ⟨rfl, rfl, by rw [state]⟩, ?_⟩
          · exact { ok with
                alive := by simpa [state] using ok.alive
                events _ := rfl
                unconnected := nofun
                quiet _ := .inl ⟨type, rfl⟩
                ready _ _ :=
                  ⟨notRead, fun _ => by simp [connected, writable.1.1]⟩ }
          · intro _ mem
            obtain rfl := List.mem_singleton.mp mem
            exact ⟨by rw [state]; rfl, rfl, rfl⟩
        · obtain ⟨after, failed, afterOk, kept⟩ := ok.fail (.inl ⟨type, state⟩)
          refine ⟨after, [], ?_, afterOk, kept, nofun⟩
          simp [failed, bind, Except.bind, pure, Except.pure]
  | _ =>
    simp only [SegmentInfo.ftsSend, state]
    exact idle

theorem ftsReceive (ok : PairOk true info) (out)
    (sound : ∀ resp, out = .response resp → resp.Sound) :
    ∃ after, info.ftsReceive out = .ok after ∧ PairOk true after ∧ Kept info after := by
  cases state : info.state with
  | segment type =>
    simp only [SegmentInfo.ftsReceive, state]
    split
    · exact ⟨info, rfl, ok, .refl info⟩
    next readable =>
      simp only [Bool.or_eq_true, Bool.not_eq_true', not_or] at readable
      -- A pair that reads has been polled and waits for no event.
      have noEvents : info.pollEvents = .none := by
        by_contra events
        have notRead := (ok.ready rfl events).1
        simp [readable.2] at notRead
      cases out with
      | failed => exact ok.fail (.inl ⟨type, state⟩)
      | busy => exact ⟨info, rfl, ok, .refl info⟩
      | response resp =>
        refine ⟨_, rfl, ?_, rfl, rfl, by rw [state]; rfl⟩
        exact { ok with
            alive := rfl
            up_of_inSync := (sound resp rfl).up_of_inSync
            quiet events := absurd noEvents events }
  | _ => exact ⟨info, by simp only [SegmentInfo.ftsReceive, state], ok, .refl info⟩

theorem retryForFtsFailed (ok : PairOk true info) (retries)
    (settled : info.state = .success .probe ∨ ∃ type, info.state = .failed type) :
    PairOk true (info.retryForFtsFailed retries) ∧ Kept info (info.retryForFtsFailed retries) := by
  by_cases exhausted : info.retryCount = retries
  · simp only [SegmentInfo.retryForFtsFailed, exhausted]
    exact ⟨ok, .refl info⟩
  · simp only [SegmentInfo.retryForFtsFailed, exhausted]
    constructor
    · exact
        { alive := by rcases settled with state | ⟨_ | _ | _, state⟩ <;> rw [state] <;> rfl
          up_of_inSync := nofun
          events := nofun
          revents := nofun
          unconnected _ := ⟨rfl, rfl⟩
          quiet events := absurd rfl events
          ready _ events := absurd rfl events }
    · refine ⟨rfl, rfl, ?_⟩
      rcases settled with state | ⟨_ | _ | _, state⟩ <;> rw [state] <;> rfl

theorem processRetry (ok : PairOk true info) (retries hasMirrors waited) :
    PairOk true (info.processRetry retries hasMirrors waited) ∧
      Kept info (info.processRetry retries hasMirrors waited) := by
  have same : PairOk true info ∧ Kept info info := ⟨ok, .refl info⟩
  cases state : info.state with
  | segment type => simpa only [SegmentInfo.processRetry, state] using same
  | responseProcessed => simpa only [SegmentInfo.processRetry, state] using same
  | failed type =>
    simpa only [SegmentInfo.processRetry, state] using
      ok.retryForFtsFailed retries (.inr ⟨type, state⟩)
  | success type =>
    cases type with
    | probe =>
      simp only [SegmentInfo.processRetry, state]
      split
      · exact ok.retryForFtsFailed retries (.inl state)
      · exact same
    | _ => simpa only [SegmentInfo.processRetry, state] using same
  | retryWait type =>
    have alive := ok.alive
    simp only [SegmentInfo.processRetry, state]
    split
    · refine ⟨?_, rfl, rfl, by rw [state]; rfl⟩
      exact { ok with
          alive := by simpa [state, isSuccess] using alive
          quiet _ := .inl ⟨type, rfl⟩ }
    · exact same

theorem reset (info : SegmentInfo) (unanswered : info.state.isSuccess = false) :
    PairOk true info.reset where
  alive := unanswered.symm
  up_of_inSync := nofun
  events := nofun
  revents := nofun
  unconnected _ := ⟨rfl, rfl⟩
  quiet events := absurd rfl events
  ready _ events := absurd rfl events

end PairOk

/-- Where the mode of a content comes from that is in sync after a body: it was in sync, or
the answer to a probe says so. -/
def Sourced (info : SegmentInfo) (primary primary' : SegmentConfig) : Prop :=
  primary'.inSync = true → primary'.dbid = primary.dbid ∧
    (primary.inSync = true ∨ info.state = .success .probe ∧ info.result.isInSync = true)

/-- What `processResponse` makes of the catalog and of a pair. -/
structure Settled (catalog : List SegmentConfig) (info : SegmentInfo)
    (primary mirror : SegmentConfig) (result : List SegmentConfig × SegmentInfo) : Prop where
  catalog : ∃ change, Rewrites change primary mirror ∧ result.1 = catalog.map change ∧
    ∀ row ∈ catalog, (change row).role ≠ row.role → row.inSync = true
  standing : ∃ primary' mirror', Standing result.1 result.2 primary' mirror' ∧
    Sourced info primary primary'
  segindex : result.2.primary.segindex = info.primary.segindex
  unanswered : result.2.state.isSuccess = false

namespace Standing

section

variable (standing : Standing cat info prim mir)
include standing

variable {state : MessageState}

theorem settled (next : state = .responseProcessed ∨ state = .segment .promote) :
    Settled cat info prim mir (cat, { info with state }) where
  catalog := ⟨id, .refl .., by simp, fun _ _ changed => absurd rfl changed⟩
  standing := by
    refine ⟨prim, mir, ⟨standing.recorded, standing.dbid, standing.segindex, ?_, ?_⟩,
      fun inSync => ⟨rfl, .inl inSync⟩⟩
    all_goals rcases next with rfl | rfl <;> nofun
  segindex := rfl
  unanswered := by rcases next with rfl | rfl <;> rfl

section

variable (dbids : (cat.map (·.dbid)).Nodup)
include dbids

theorem settled_keep (answered : info.state = .success .probe) {isMirrorAlive}
    (up : info.result.isInSync = true → isMirrorAlive = true)
    (next : state = .responseProcessed ∨ state = .segment .syncrepOff ∧ isMirrorAlive = false) :
    Settled cat info prim mir (cat.map
          (pairChange prim mir .primary .mirror info.result.isInSync true isMirrorAlive),
        { info with state }) where
  catalog := ⟨_, pairChange_rewrites, rfl, fun row mem changed =>
    absurd (standing.recorded.update_keep_role dbids info.result.isInSync isMirrorAlive mem)
      changed⟩
  standing := by
    refine ⟨_, _, ⟨standing.recorded.update_keep dbids up, standing.dbid, standing.segindex,
      ?_, ?_⟩, fun inSync => ⟨rfl, .inr ⟨answered, inSync⟩⟩⟩
    · rcases next with rfl | ⟨rfl, _⟩ <;> nofun
    · rcases next with rfl | ⟨rfl, down⟩
      · nofun
      · intro _
        refine ⟨down, ?_⟩
        by_contra inSync
        have alive := up (Bool.not_eq_false _ ▸ inSync)
        simp [down] at alive
  segindex := rfl
  unanswered := by rcases next with rfl | ⟨rfl, _⟩ <;> rfl

theorem settled_flip (snap : prim = info.primary ∧ mir = info.mirror) (inSync : prim.inSync) :
    Settled cat info prim mir (cat.map (pairChange prim mir .mirror .primary false false mir.alive),
        { info with
          state := .segment .promote, primary := info.mirror, mirror := info.primary }) where
  catalog := by
    refine ⟨_, pairChange_rewrites, rfl, fun row mem changed => ?_⟩
    -- Only the two rows of the pair change, and both are in sync.
    by_cases isPrim : row.dbid = prim.dbid
    · rwa [eq_of_dbid dbids mem standing.recorded.primary_mem isPrim]
    · by_cases isMirror : row.dbid = mir.dbid
      · rwa [eq_of_dbid dbids mem standing.recorded.mirror_mem isMirror, standing.recorded.mode]
      · rw [pairChange_rewrites.others row isPrim isMirror] at changed
        exact absurd rfl changed
  standing :=
    ⟨_, _, ⟨standing.recorded.update_flip dbids inSync, by rw [← snap.2],
      by rw [← snap.2], nofun, nofun⟩, nofun⟩
  segindex := by
    rw [← snap.1, ← snap.2]
    exact standing.recorded.mirror_segindex
  unanswered := rfl

theorem processProbeSuccess (ok : PairOk true info) (state : info.state = .success .probe) :
    ∃ res, info.processProbeSuccess cat true info.result.isMirrorAlive
        info.result.isInSync = .ok res ∧ Settled cat info prim mir res := by
  obtain ⟨rfl, rfl⟩ := standing.snapshot (by rw [state]; rfl)
  have alive : info.result.isPrimaryAlive := by rw [ok.alive, state]; rfl
  have update := @updateConfiguration_eq _ _ _ .primary .mirror info.result.isInSync true
    info.result.isMirrorAlive standing.recorded.primary_mem standing.recorded.mirror_mem
  simp only [processProbeSuccess, alive, update, bind, Except.bind, pure,
    Except.pure, Bool.not_true, Bool.false_eq_true, ↓reduceIte]
  split
  next blocked =>
    simp only [Bool.and_eq_true, Bool.not_eq_true'] at blocked
    split
    · exact ⟨_, rfl, standing.settled (.inl rfl)⟩
    · exact ⟨_, rfl, standing.settled_keep dbids state ok.up_of_inSync (.inr ⟨rfl, blocked.2⟩)⟩
  next =>
    split
    · exact ⟨_, rfl, standing.settled (.inr rfl)⟩
    · exact ⟨_, rfl, standing.settled_keep dbids state ok.up_of_inSync (.inl rfl)⟩

theorem processProbeFailed (ok : PairOk true info) (state : info.state = .failed .probe) :
    ∃ res, info.processProbeFailed cat true info.mirror.alive false = .ok res ∧
      Settled cat info prim mir res := by
  obtain ⟨rfl, rfl⟩ := standing.snapshot (by rw [state]; rfl)
  have dead : info.result.isPrimaryAlive = false := by rw [ok.alive, state]; rfl
  have update := @updateConfiguration_eq _ _ _ .mirror .primary false false info.mirror.alive
    standing.recorded.primary_mem standing.recorded.mirror_mem
  simp only [processProbeFailed, dead, update, bind, Except.bind, pure,
    Except.pure, Bool.true_and]
  split
  · exact ⟨_, rfl, standing.settled (.inl rfl)⟩
  split
  next inSync =>
    exact ⟨_, rfl, standing.settled_flip dbids ⟨rfl, rfl⟩
      (standing.recorded.mode.symm.trans inSync)⟩
  · exact ⟨_, rfl, standing.settled (.inl rfl)⟩

end

end

end Standing

/-- What a body makes of the catalog and of the pair whose turn it is. -/
structure VisitOk (catalog : List SegmentConfig) (info : SegmentInfo)
    (primary mirror : SegmentConfig) (polled : Bool) (visited : Visited) : Prop where
  catalog : ∃ change, Rewrites change primary mirror ∧ visited.catalog = catalog.map change ∧
    ∀ row ∈ catalog, (change row).role ≠ row.role → row.inSync = true
  standing : ∃ primary' mirror', Standing visited.catalog visited.info primary' mirror' ∧
    Sourced info primary primary'
  segindex : visited.info.primary.segindex = info.primary.segindex
  pair : PairOk polled visited.info
  sent : PairOk.Addressed info visited.sent

theorem VisitOk.of_kept (standing : Standing cat info prim mir)
    (pair : PairOk polled after) (kept : Kept info after) {sent}
    (addressed : PairOk.Addressed info sent) :
    VisitOk cat info prim mir polled ⟨cat, after, sent⟩ where
  catalog := ⟨id, .refl .., by simp, fun _ _ changed => absurd rfl changed⟩
  standing := ⟨prim, mir, standing.kept kept, fun inSync => ⟨rfl, .inl inSync⟩⟩
  segindex := by rw [kept.primary]
  pair := pair
  sent := addressed

theorem VisitOk.of_settled {res} (settled : Settled cat info prim mir res) :
    VisitOk cat info prim mir true ⟨res.1, res.2.reset, []⟩ where
  catalog := settled.catalog
  standing := by
    obtain ⟨prim', mir', standing, sourced⟩ := settled.standing
    exact ⟨prim', mir', standing.kept ⟨rfl, rfl, rfl⟩, sourced⟩
  segindex := settled.segindex
  pair := .reset res.2 settled.unanswered
  sent := nofun

theorem Standing.processResponse (standing : Standing cat info prim mir)
    (ok : PairOk true info) (dbids : (cat.map (·.dbid)).Nodup) :
    ∃ cat' after, info.processResponse cat true = .ok (cat', after) ∧
      VisitOk cat info prim mir true ⟨cat', after, []⟩ := by
  have waiting : VisitOk cat info prim mir true ⟨cat, info, []⟩ :=
    .of_kept standing ok (.refl info) nofun
  have processed : VisitOk cat info prim mir true
      ⟨cat, { info with state := .responseProcessed }.reset, []⟩ :=
    .of_settled (standing.settled (.inl rfl))
  have alive := ok.alive
  cases state : info.state with
  | success type =>
    cases type with
    | probe =>
      obtain ⟨res, run, settled⟩ := standing.processProbeSuccess dbids ok state
      refine ⟨_, _, ?_, .of_settled settled⟩
      simp [SegmentInfo.processResponse, state, alive, isSuccess, run, bind,
        Except.bind, pure, Except.pure]
    | _ =>
      refine ⟨_, _, ?_, processed⟩
      simp [SegmentInfo.processResponse, state, isSuccess, bind, Except.bind, pure, Except.pure]
  | failed type =>
    cases type with
    | probe =>
      obtain ⟨res, run, settled⟩ := standing.processProbeFailed dbids ok state
      refine ⟨_, _, ?_, .of_settled settled⟩
      simp [SegmentInfo.processResponse, state, alive, isSuccess,
        isFailed, run, bind, Except.bind, pure, Except.pure]
    | _ =>
      refine ⟨_, _, ?_, processed⟩
      simp [SegmentInfo.processResponse, state,
        isFailed, bind, Except.bind, pure, Except.pure]
  | _ =>
    refine ⟨_, _, ?_, waiting⟩
    simp [SegmentInfo.processResponse, state, isSuccess, isFailed]

/-- A pair has been polled before the body of every function but `ftsPoll`, and after the
body of every function but `ftsConnect`. -/
def LoopStep.polledBefore : LoopStep → Bool
  | .poll => false
  | _ => true

def LoopStep.polledAfter : LoopStep → Bool
  | .connect => false
  | _ => true

theorem Standing.visit (standing : Standing cat info prim mir) {step}
    (ok : PairOk step.polledBefore info) (dbids : (cat.map (·.dbid)).Nodup)
    {retries num out}
    (sound : ∀ resp, out = .receive (.response resp) → resp.Sound) {res}
    (run : info.visit retries num cat true step out = some res) :
    ∃ visited, res = .ok visited ∧ VisitOk cat info prim mir step.polledAfter visited := by
  cases step <;> cases out <;>
    simp only [SegmentInfo.visit, Option.some.injEq, reduceCtorEq] at run <;> subst run
  case connect.connect started poll =>
    obtain ⟨after, run, pair, kept⟩ := ok.ftsConnect num started poll
    exact ⟨_, by rw [run]; rfl, .of_kept standing pair kept (.nil info)⟩
  case poll.poll revents timedOut =>
    obtain ⟨after, run, pair, kept⟩ := ok.ftsPoll revents timedOut
    exact ⟨_, by rw [run]; rfl, .of_kept standing pair kept (.nil info)⟩
  case send.send sent =>
    obtain ⟨after, _, run, pair, kept, addressed⟩ := ok.ftsSend sent
    exact ⟨_, by rw [run]; rfl, .of_kept standing pair kept addressed⟩
  case receive.receive out =>
    obtain ⟨after, run, pair, kept⟩ := ok.ftsReceive out fun resp is => sound resp (by rw [is])
    exact ⟨_, by rw [run]; rfl, .of_kept standing pair kept (.nil info)⟩
  case retry.retry waited =>
    obtain ⟨pair, kept⟩ := ok.processRetry retries true waited
    exact ⟨_, rfl, .of_kept standing pair kept (.nil info)⟩
  case response.response =>
    obtain ⟨_, after, run, visitOk⟩ := standing.processResponse ok dbids
    exact ⟨_, by rw [run]; rfl, visitOk⟩

end Greengage.Fts
