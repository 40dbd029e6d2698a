import Greengage.Fts.Configuration
import Greengage.Fts.Connections
import Greengage.Fts.Failover

/-!
Contract: synchronous replication is in force where the catalog says in sync.

A content becomes in sync by the answer to a probe, and the switch that the answer speaks
of is thrown by a reload that comes later. So the catalog is right when a handler goes on
only after the reload, and only while the prober waits for it: then nothing switches
synchronous replication off between the answer and the update, nor as long as the content
is in sync.
-/

namespace Greengage.Fts

open List Prod Cluster Segment Option

open Foundations (Reachable guard_eq_some map_eq_ok)

/-- A segment on which commits wait for the mirror and nothing is about to change that. -/
structure InForce (segment : Segment) : Prop where
  defined : segment.syncStandbysDefined = true
  settled : segment.reloadRequested = false
  role : segment.isRoleMirror = false

def HandlerPhase.Sound : HandlerPhase → Prop
  | .received | .reporting => True
  | .enabling response | .responding response | .answered response => response.Sound

/-- What a response in sync to a probe stands for, at each phase of the handler. -/
def HandlerPhase.Backed (segment : Segment) : HandlerPhase → Prop
  | .received => True
  | .reporting => False
  | .enabling response => response.isInSync = true → segment.isRoleMirror = false
  | .responding response => response.isInSync = true → segment.isRoleMirror = false ∧
        (segment.syncStandbysDefined = true ∧ segment.reloadRequested = false ∨
          segment.synchronousStandbyNames = "*" ∧ segment.reloadRequested = true)
  | .answered response => response.isInSync = true → InForce segment

/-- A change of a segment that does not switch synchronous replication off. -/
structure Segment.Grows (segment after : Segment) : Prop where
  inForce : InForce segment → InForce after
  backed : ∀ phase, HandlerPhase.Backed segment phase → HandlerPhase.Backed after phase
  role : segment.isRoleMirror = false → after.isRoleMirror = false
  recovery : (segment.isRoleMirror = false → segment.inArchiveRecovery = false) →
    after.isRoleMirror = false → after.inArchiveRecovery = false

/-- How a pair stands to the process that handles its message. -/
structure PairLink (cluster : Cluster) (info : SegmentInfo) : Prop where
  answered : info.state = .success .probe → info.result.isInSync = true →
    InForce (cluster.segments info.primary.dbid)
  number : ∀ conn, info.conn = some conn → conn.number < cluster.prober.steps
  request : ∀ conn request, info.conn = some conn →
    cluster.requests conn.number info.primary.dbid = some request →
      conn.idle = false ∧ info.state.type = some request.type ∧
        (request.type = .probe → request.phase.Backed (cluster.segments info.primary.dbid))

/-- The invariant of a cluster whose handlers are prompt. -/
structure ClusterOk (initial : List SegmentConfig) (cluster : Cluster) : Prop where
  prober : ProberOk initial cluster.prober
  recovery : ∀ dbid, (cluster.segments dbid).isRoleMirror = false →
    (cluster.segments dbid).inArchiveRecovery = false
  noted : ∀ connection dbid, cluster.amMirror connection dbid = some false →
    (cluster.segments dbid).isRoleMirror = false
  sound : ∀ connection dbid request, cluster.requests connection dbid = some request →
    request.phase.Sound
  known : ∀ connection dbid request, cluster.requests connection dbid = some request →
    connection < cluster.prober.steps
  recorded : ∀ primary mirror, Recorded cluster.prober.catalog primary mirror →
    primary.inSync = true → InForce (cluster.segments primary.dbid)
  pairs : ∀ cycle, cluster.prober.cycle = some cycle → ∀ info ∈ cycle.infos, PairLink cluster info

variable {seg : Segment}

section

variable {after : Segment}

theorem Segment.Grows.walSenders (seg : Segment) (walsnds : List WalSnd) :
    seg.Grows { seg with walsnds } where
  inForce inForce := { inForce with }
  backed phase backed := by
    cases phase with
    | answered resp => exact fun inSync => { backed inSync with }
    | _ => exact backed
  role := id
  recovery := id

theorem Segment.Grows.reload (requested : seg.reloadRequested) : seg.Grows seg.reload where
  inForce inForce := by simp [inForce.settled] at requested
  backed phase backed := by
    cases phase with
    | answered resp =>
      intro inSync
      have settled := (backed inSync).settled
      simp [settled] at requested
    | responding resp =>
      intro inSync
      obtain ⟨role, ⟨_, settled⟩ | ⟨names, _⟩⟩ := backed inSync
      · simp [settled] at requested
      · exact ⟨role, .inl ⟨by simp [Segment.reload, names], rfl⟩⟩
    | _ => exact backed
  role := id
  recovery := id

theorem Segment.Grows.promoted (seg : Segment) : seg.Grows { seg with
        isRoleMirror := false, inArchiveRecovery := false, promoteSignaled := false } where
  inForce inForce := { inForce with role := rfl }
  backed phase backed := by
    cases phase with
    | answered resp => exact fun inSync => { backed inSync with role := rfl }
    | responding resp => exact fun inSync => ⟨rfl, (backed inSync).2⟩
    | enabling resp => exact fun _ => rfl
    | _ => exact backed
  role _ := rfl
  recovery _ _ := rfl

end

/-- What a step of a handler does on a segment without a pending reload. -/
structure Handled (request : Request) (segment after : Segment) (phase : HandlerPhase) :
    Prop where
  role : after.isRoleMirror = segment.isRoleMirror
  recovery : after.inArchiveRecovery = segment.inArchiveRecovery
  sound : request.phase.Sound → phase.Sound
  /-- Only the handler of `SYNCREP_OFF` and that of a promotion out of recovery switch
  synchronous replication off. -/
  inForce : request.type ≠ .syncrepOff → segment.inArchiveRecovery = false →
    InForce segment → InForce after
  backed : request.type = .probe → HandlerPhase.Backed segment request.phase →
    HandlerPhase.Backed after phase

section

variable {after : Segment} {amMirror retryNeeded : Bool} {request : Request} {phase : HandlerPhase}

theorem InForce.setSyncStandbysDefined (inForce : InForce seg) :
    seg.setSyncStandbysDefined = seg := by
  simp [Segment.setSyncStandbysDefined, inForce.defined]

theorem handleProbe_backed (noted : amMirror = false → seg.isRoleMirror = false)
    (settled : seg.reloadRequested = false) :
    HandlerPhase.Backed seg (if (seg.handleProbe amMirror retryNeeded).2 then
        .enabling (seg.handleProbe amMirror retryNeeded).1
      else .responding (seg.handleProbe amMirror retryNeeded).1) := by
  cases amMirror with
  | true => exact nofun
  | false =>
    have role := noted rfl
    cases enable : (seg.handleProbe false retryNeeded).2 with
    | true => exact fun _ => role
    | false =>
      intro inSync
      refine ⟨role, .inl ⟨?_, settled⟩⟩
      -- A mirror in sync is ready, so the switch was found on.
      by_contra off
      have off : seg.syncStandbysDefined = false := Bool.not_eq_true _ ▸ off
      have flag : (seg.getMirrorStatus retryNeeded).1.isSyncRepEnabled = false := off
      simp only [handleProbe, flag, Bool.false_eq_true, ↓reduceIte] at inSync enable
      split at enable
      · contradiction
      next notReady =>
        simp only [notReady] at inSync
        exact notReady (seg.getMirrorStatus_inSync retryNeeded inSync).2

theorem HandlerPhase.sound_next {resp} (sound : resp.Sound) (enable : Bool) :
    Sound (if enable then .enabling resp else .responding resp) := by
  cases enable <;> exact sound

theorem Request.advance_handled (noted : amMirror = false → seg.isRoleMirror = false)
    (settled : seg.reloadRequested = false)
    (taken : request.advance seg amMirror retryNeeded = some (after, phase)) :
    Handled request seg after phase := by
  obtain ⟨type, pre⟩ := request
  cases pre with
  | received =>
    cases type with
    | probe =>
      cases taken
      exact ⟨rfl, rfl,
        fun _ => HandlerPhase.sound_next (seg.handleProbe_sound amMirror retryNeeded) _,
        fun _ _ => id, fun _ _ => handleProbe_backed noted settled⟩
    | syncrepOff =>
      cases taken
      refine ⟨?_, ?_, fun _ => trivial, fun off => absurd rfl off, nofun⟩
      all_goals
        simp only [unsetSyncStandbysDefined]
        split <;> rfl
    | promote =>
      cases taken
      refine ⟨?role, ?recovery, fun _ => seg.handlePromote_sound amMirror, ?_, nofun⟩
      case role | recovery =>
        simp only [unsetSyncStandbysDefined]
        split_ifs <;> rfl
      · intro _ notRecovering inForce
        simpa [notRecovering] using inForce
  | enabling resp =>
    cases taken
    refine ⟨?role, ?recovery, id, fun _ _ inForce => ?_, fun _ backed inSync => ?_⟩
    case role | recovery =>
      simp only [setSyncStandbysDefined]
      split <;> rfl
    · rwa [inForce.setSyncStandbysDefined]
    · have role := backed inSync
      simp only [setSyncStandbysDefined]
      split
      next defined => exact ⟨role, .inl ⟨defined, settled⟩⟩
      · exact ⟨role, .inr ⟨rfl, rfl⟩⟩
  | reporting =>
    cases taken
    exact ⟨rfl, rfl, fun _ => seg.getMirrorStatus_sound retryNeeded, fun _ _ => id,
      fun _ => False.elim⟩
  | responding resp =>
    cases taken
    refine ⟨rfl, rfl, id, fun _ _ => id, fun _ backed inSync => ?_⟩
    obtain ⟨role, ⟨defined, _⟩ | ⟨_, requested⟩⟩ := backed inSync
    · exact ⟨defined, settled, role⟩
    · simp [settled] at requested
  | answered resp => simp [advance] at taken

end

variable {init : List SegmentConfig} {cluster : Cluster}

section

variable {after : Cluster} {info : SegmentInfo} {dbid : Nat}

theorem Segment.Grows.refl (seg : Segment) : seg.Grows seg :=
  ⟨id, fun _ => id, id, id⟩

theorem Cluster.update_grows (grows : (cluster.segments dbid).Grows seg) (dbid' : Nat) :
    (cluster.segments dbid').Grows ((cluster.update dbid seg).segments dbid') := by
  by_cases same : dbid' = dbid
  · subst same
    simpa [update] using grows
  · simpa [update, same] using Grows.refl _

theorem ClusterOk.update (ok : ClusterOk init cluster) (grows : (cluster.segments dbid).Grows seg) :
    ClusterOk init (cluster.update dbid seg) := by
  refine { ok with
    recovery dbid' := (update_grows grows dbid').recovery (ok.recovery dbid')
    noted _ _ noted := (update_grows grows _).role (ok.noted _ _ noted)
    recorded _ _ recorded inSync :=
      (update_grows grows _).inForce (ok.recorded _ _ recorded inSync)
    pairs cycle running info mem := ?_ }
  have link := ok.pairs cycle running info mem
  have pairGrows := update_grows grows info.primary.dbid
  refine ⟨fun state inSync => pairGrows.inForce (link.answered state inSync), link.number, ?_⟩
  intro conn request connection found
  obtain ⟨busy, type, backed⟩ := link.request conn request connection found
  exact ⟨busy, type, fun probe => pairGrows.backed _ (backed probe)⟩

theorem ProberOk.eq_of_dbid {prober} (ok : ProberOk init prober) {cycle}
    (running : prober.cycle = some cycle) {info info'} (mem : info ∈ cycle.infos)
    (mem' : info' ∈ cycle.infos) (same : info.primary.dbid = info'.primary.dbid) :
    info = info' := by
  have cycleOk := ok.cycle cycle running
  obtain ⟨prim, _, standing⟩ := cycleOk.standing info mem
  obtain ⟨prim', _, standing'⟩ := cycleOk.standing info' mem'
  have samePrimary : prim = prim' :=
    Fts.eq_of_dbid ok.mirrored.dbids standing.recorded.primary_mem standing'.recorded.primary_mem
      (by rw [standing.dbid, standing'.dbid, same])
  refine inj_on_of_nodup_map cycleOk.contents mem mem' ?_
  rw [← standing.segindex, ← standing'.segindex, samePrimary]

theorem ClusterOk.handle (ok : ClusterOk init cluster) {connection retryNeeded}
    (prompt : cluster.prompt (.handle connection dbid retryNeeded)) {retries}
    (taken : cluster.step retries (.handle connection dbid retryNeeded) = some after) :
    ClusterOk init after := by
  simp only [Cluster.prompt, isOpen, Bool.and_eq_true, Bool.not_eq_true',
    Option.any_eq_true, List.any_eq_true, beq_iff_eq] at prompt
  obtain ⟨⟨cycle, running, info, mem, ⟨conn, connected, rfl⟩, rfl⟩, settled⟩ := prompt
  obtain ⟨request, found, taken⟩ := bind_eq_some_iff.mp taken
  obtain ⟨_, started, taken⟩ := bind_eq_some_iff.mp taken
  obtain ⟨⟨seg, _⟩, advanced, taken⟩ := bind_eq_some_iff.mp taken
  cases taken
  have link := ok.pairs cycle running info mem
  obtain ⟨busy, type, backed⟩ := link.request conn request connected found
  have handled := Request.advance_handled
    (fun notMirror => ok.noted _ _ (notMirror ▸ started)) settled advanced
  have inForce : request.type ≠ .syncrepOff →
      InForce (cluster.segments info.primary.dbid) → InForce seg :=
    fun notOff pre => handled.inForce notOff (ok.recovery _ pre.role) pre
  have rest : ∀ dbid, dbid ≠ info.primary.dbid →
      (cluster.update info.primary.dbid seg).segments dbid = cluster.segments dbid :=
    fun dbid ne => by simp [Cluster.update, ne]
  have self : (cluster.update info.primary.dbid seg).segments info.primary.dbid = seg := by
    simp [Cluster.update]
  have kept (dbid) : ((cluster.update info.primary.dbid seg).segments dbid).isRoleMirror =
        (cluster.segments dbid).isRoleMirror ∧
      ((cluster.update info.primary.dbid seg).segments dbid).inArchiveRecovery =
        (cluster.segments dbid).inArchiveRecovery := by
    by_cases same : dbid = info.primary.dbid
    · rw [same, self]
      exact ⟨handled.role, handled.recovery⟩
    · rw [rest dbid same]
      exact ⟨rfl, rfl⟩
  constructor
  · exact ok.prober
  · intro dbid notMirror
    exact (kept dbid).2.trans (ok.recovery _ ((kept dbid).1.symm.trans notMirror))
  · intro _ dbid noted
    exact (kept dbid).1.trans (ok.noted _ _ noted)
  · intro connection dbid req' found'
    simp only at found'
    split at found'
    · cases found'
      exact handled.sound (ok.sound _ _ _ found)
    · exact ok.sound _ _ _ found'
  · intro connection dbid req' found'
    simp only at found'
    split at found'
    next same =>
      rw [same.1]
      exact ok.known _ _ _ found
    · exact ok.known _ _ _ found'
  · intro prim mir recorded inSync
    have pre := ok.recorded prim mir recorded inSync
    by_cases same : prim.dbid = info.primary.dbid
    · -- The content is in sync, so its message is not `SYNCREP_OFF`.
      rw [same] at pre ⊢
      simp only [self]
      refine inForce (fun off => ?_) pre
      obtain ⟨prim', _, standing⟩ := (ok.prober.cycle cycle running).standing info mem
      have samePrimary : prim = prim' :=
        eq_of_dbid ok.prober.mirrored.dbids recorded.primary_mem standing.recorded.primary_mem
          (same.trans standing.dbid.symm)
      have notInSync := (standing.down (type.trans (congrArg _ off))).2
      simp [← samePrimary, inSync] at notInSync
    · simp only [rest _ same]
      exact pre
  · intro _ running' info' mem'
    obtain rfl := some.inj (running.symm.trans running')
    have link' := ok.pairs cycle running info' mem'
    by_cases same : info'.primary.dbid = info.primary.dbid
    · obtain rfl := ok.prober.eq_of_dbid running mem' mem same
      constructor
      · intro state inSync
        simp only [self]
        refine inForce (fun off => ?_) (link.answered state inSync)
        rw [state, off] at type
        simp [MessageState.type] at type
      · exact link.number
      · intro conn' req' connected' found'
        obtain rfl := some.inj (connected.symm.trans connected')
        simp only [and_self, ↓reduceIte, some.injEq] at found'
        subst found'
        simp only [self]
        exact ⟨busy, type, fun probe => handled.backed probe (backed probe)⟩
    · constructor
      · simp only [rest _ same]
        exact link'.answered
      · exact link'.number
      · intro conn' req' connected' found'
        simp only [same, and_false] at found'
        simp only [rest _ same]
        exact link'.request conn' req' connected' found'

end

section

variable {after : Cluster} {retries : Nat} {prober : Prober}

theorem Prober.sentSince_append (pre messages) (same : prober.sent = messages ++ pre.sent) :
    prober.sentSince pre = messages := by
  simp [sentSince, same]

variable {out : Outcome} {cycle : Cycle}

theorem ClusterOk.recorded_visit (ok : ClusterOk init cluster) {info prim mir visited}
    (visit : Visit cluster.prober retries out prober cycle info prim mir visited)
    {prim' mir'} (recorded : Recorded prober.catalog prim' mir')
    (inSync : prim'.inSync) : InForce (cluster.segments prim'.dbid) := by
  have link := ok.pairs cycle visit.running info (mem_of_getElem? visit.found)
  obtain ⟨_, rewrites, changed, _⟩ := visit.visitOk.catalog
  obtain ⟨again, _, standing, sourced⟩ := visit.visitOk.standing
  have cat : prober.catalog = visited.catalog := by rw [visit.after]
  rw [cat] at recorded
  have againSegindex : again.segindex = prim.segindex := by
    rw [standing.segindex, visit.visitOk.segindex, visit.standing.segindex]
  by_cases same : prim'.segindex = prim.segindex
  · obtain ⟨rfl, _⟩ := standing.recorded.unique recorded (same.trans againSegindex.symm)
    obtain ⟨dbid, pre | ⟨state, answer⟩⟩ := sourced inSync
    · rw [dbid]
      exact ok.recorded prim mir visit.standing.recorded pre
    · rw [dbid, visit.standing.dbid]
      exact link.answered state answer
  · -- Another content is recorded as it was.
    have mem := recorded.primary_mem
    rw [changed] at mem
    obtain ⟨row, rowMember, is⟩ := mem_map.mp mem
    obtain ⟨_, oldMirror, segindex, pre⟩ := ok.prober.mirrored.pairs row rowMember
    have rowSegindex : row.segindex = prim'.segindex := by rw [← is, rewrites.segindex]
    have kept := visit.standing.recorded.rewrite_other pre ok.prober.mirrored.dbids rewrites
      (by rw [segindex, rowSegindex]; exact same)
    rw [← changed] at kept
    obtain ⟨rfl, _⟩ := kept.unique recorded (by rw [segindex, rowSegindex])
    exact ok.recorded prim' oldMirror pre inSync

theorem ClusterOk.visit (ok : ClusterOk init cluster)
    (sound : ∀ resp, out = .receive (.response resp) → resp.Sound)
    (answered : ∀ resp, out = .receive (.response resp) →
      resp.isInSync = true → ∀ cycle info, cluster.prober.current = some (cycle, info) →
        info.state = .segment .probe → InForce (cluster.segments info.primary.dbid))
    (taken : cluster.prober.visit retries out = some prober) :
    ClusterOk init { cluster with
        prober, requests := cluster.deliver (prober.sentSince cluster.prober) } := by
  obtain ⟨cycle, info, _, _, visited, visit⟩ := ok.prober.visit_cases sound taken
  have follows := visit_follows visit.run
  have steps : prober.steps = cluster.prober.steps + 1 := by rw [visit.after]
  have sent : prober.sentSince cluster.prober = visited.sent :=
    Prober.sentSince_append _ _ (by rw [visit.after])
  have mem := mem_of_getElem? visit.found
  have link := ok.pairs cycle visit.running info mem
  rw [sent]
  -- A request is new, or it was there.
  have delivered : ∀ connection dbid request,
      cluster.deliver visited.sent connection dbid = some request →
      (∃ msg ∈ visited.sent, msg.connection = connection ∧ msg.dbid = dbid ∧
        request = ⟨msg.type, .received⟩) ∨
      cluster.requests connection dbid = some request := by
    intro connection dbid request found
    simp only [deliver] at found
    split at found
    next msg there =>
      have fits := find?_some there
      simp only [Bool.and_eq_true, beq_iff_eq] at fits
      exact .inl ⟨msg, mem_of_find?_eq_some there, fits.1, fits.2, (some.inj found).symm⟩
    · exact .inr found
  constructor
  · exact (ok.prober.visit sound taken).1
  · exact ok.recovery
  · exact ok.noted
  · intro connection dbid request found
    rcases delivered connection dbid request found with ⟨msg, _, _, _, rfl⟩ | there
    · exact trivial
    · exact ok.sound _ _ _ there
  · intro connection dbid request found
    simp only [steps]
    rcases delivered connection dbid request found with ⟨msg, isSent, rfl, _, _⟩ | there
    · obtain ⟨pre, connected, num, _⟩ := follows.sent msg isSent
      have bound := link.number pre connected
      omega
    · have bound := ok.known _ _ _ there
      omega
  · exact fun prim' mir' recorded inSync => ok.recorded_visit visit recorded inSync
  · intro cycle' running' info' mem'
    have same : cycle' = { cycle with
        infos := cycle.infos.set cycle.index visited.info, index := cycle.index + 1 } := by
      rw [visit.after] at running'
      exact (some.inj running').symm
    subst same
    obtain ⟨_, there⟩ := getElem?_of_mem mem'
    rw [getElem?_set] at there
    split at there
    next same =>
      obtain ⟨_, rfl⟩ : cycle.index < cycle.infos.length ∧ visited.info = info' := by
        simpa using there
      constructor
      · intro success inSync
        obtain ⟨samePrimary, ⟨pre, res⟩ | ⟨resp, is, responseInSync, state⟩⟩ :=
          follows.answered success inSync
        · rw [samePrimary]
          exact link.answered pre res
        · rw [samePrimary]
          refine answered resp is responseInSync cycle info ?_ state
          simp [Prober.current, visit.running, visit.found]
      · intro conn connected
        simp only [steps]
        rcases follows.conn conn connected with ⟨pre, was, num, _⟩ | fresh
        · have bound := link.number pre was
          omega
        · omega
      · intro conn request connected found
        rcases delivered _ _ _ found with ⟨msg, isSent, connection, dbid, rfl⟩ | there
        · obtain ⟨pre, was, num, _, type, keptType, _, now⟩ := follows.sent msg isSent
          obtain rfl := some.inj (now.symm.trans connected)
          exact ⟨rfl, keptType.trans type, fun _ => trivial⟩
        · rcases follows.conn conn connected with ⟨pre, was, num, idle, samePrimary, type⟩ | fresh
          · rw [num, samePrimary] at there
            obtain ⟨busy, oldType, backed⟩ := link.request pre request was there
            rw [samePrimary]
            exact ⟨idle busy, type.trans oldType, backed⟩
          · have known := ok.known _ _ _ there
            omega
    next ne =>
      have oldMember := mem_of_getElem? there
      have link' := ok.pairs cycle visit.running info' oldMember
      refine ⟨link'.answered, fun conn connected => ?_, fun conn request connected found => ?_⟩
      · have bound := link'.number conn connected
        simp only [steps]
        omega
      · rcases delivered _ _ _ found with ⟨msg, isSent, _, dbid, _⟩ | old
        · -- The message went to the segment of the pair whose turn it was.
          obtain ⟨_, _, _, target, _⟩ := follows.sent msg isSent
          have cycleOk := ok.prober.cycle cycle visit.running
          obtain rfl := ok.prober.eq_of_dbid visit.running mem oldMember (target.symm.trans dbid)
          exact absurd rfl (cycleOk.apart visit.found there ne)
        · exact link'.request conn request connected old

theorem ClusterOk.moved (ok : ClusterOk init cluster) {next}
    (proberOk : ProberOk init { cluster.prober with cycle := next })
    (pairs : ∀ cycle, next = some cycle → ∀ info ∈ cycle.infos,
      (∃ pre, cluster.prober.cycle = some pre ∧ info ∈ pre.infos) ∨
        info.conn = none ∧ info.state = .segment .probe) :
    ClusterOk init { cluster with
        prober := { cluster.prober with cycle := next }
        requests := cluster.deliver
          (Prober.sentSince { cluster.prober with cycle := next } cluster.prober) } := by
  have none : Prober.sentSince { cluster.prober with cycle := next } cluster.prober = [] :=
    Prober.sentSince_append _ _ rfl
  rw [none]
  refine { ok with prober := proberOk, pairs := fun cycle running info mem => ?_ }
  rcases pairs cycle running info mem with ⟨pre, was, old⟩ | ⟨unconnected, state⟩
  · exact { ok.pairs pre was info old with }
  · exact ⟨by simp [state], by simp [unconnected], by simp [unconnected]⟩

theorem Cycle.loop_infos {next} (taken : cycle.loop = some next) : next.infos = cycle.infos := by
  obtain ⟨_, same⟩ := ite_none_left_eq_some.mp taken
  cases same
  rfl

theorem Cycle.advance_infos {next} (taken : cycle.advance = some next) :
    next.infos = cycle.infos := by
  obtain ⟨infos, _, step, _⟩ := cycle
  cases step with
  | response => exact loop_infos taken
  | connect | poll | send | receive | retry =>
    cases taken
    rfl

variable {event : ProberEvent}

theorem ClusterOk.prober_step (ok : ClusterOk init cluster)
    (taken : cluster.step retries (.prober event) = some after) : ClusterOk init after := by
  have moved : cluster.proberStep retries event = some after := by
    cases event with
    | answer seg retryNeeded => simp [step] at taken
    | begin | visit out | advance | inactive | stop => exact taken
  obtain ⟨prober, run, same⟩ := bind_eq_some_iff.mp moved
  cases same
  have proberOk := (ok.prober.step run).1
  cases event with
  | begin =>
    obtain ⟨_, rfl⟩ := guard_eq_some run
    refine ok.moved proberOk fun cycle started info mem => .inr ?_
    rw [Cycle.loop_infos started] at mem
    obtain ⟨_, _, rfl, _⟩ := ok.prober.mirrored.mem_init mem
    exact ⟨rfl, rfl⟩
  | visit out =>
    have noResponse : ∀ resp, out ≠ .receive (.response resp) := by
      rintro resp rfl
      simp [Prober.step] at run
    have visited : cluster.prober.visit retries out = some prober := by
      unfold Prober.step at run
      split at run <;> simp_all
    exact ok.visit (fun resp same => absurd same (noResponse resp))
      (fun resp same => absurd same (noResponse resp)) visited
  | answer seg retryNeeded => simp [step] at taken
  | advance =>
    obtain ⟨cycle, running, run⟩ := bind_eq_some_iff.mp run
    obtain ⟨_, rfl⟩ := guard_eq_some run
    exact ok.moved proberOk fun next moved info mem =>
      .inl ⟨cycle, running, Cycle.advance_infos moved ▸ mem⟩
  | inactive =>
    obtain ⟨cycle, running, run⟩ := bind_eq_some_iff.mp run
    obtain ⟨_, rfl⟩ := guard_eq_some run
    exact ok.moved proberOk fun next moved info mem =>
      .inl ⟨cycle, running, Cycle.loop_infos moved ▸ mem⟩
  | stop =>
    cases run
    exact ok.moved proberOk (by simp)

theorem visit_receive_sent {recv}
    (taken : cluster.prober.visit retries (.receive recv) = some prober) :
    prober.sent = cluster.prober.sent := by
  obtain ⟨_, _, taken⟩ := bind_eq_some_iff.mp taken
  obtain ⟨visited, run, taken⟩ := bind_eq_some_iff.mp taken
  cases visited with
  | error error => exact some.inj taken ▸ rfl
  | ok visited =>
    have silent : visited.sent = [] := by
      unfold SegmentInfo.visit at run
      split at run <;> simp_all
      obtain ⟨_, _, rfl⟩ := map_eq_ok run
      rfl
    exact some.inj taken ▸ by simp [silent]

theorem ClusterOk.receive (ok : ClusterOk init cluster)
    (taken : cluster.step retries .receive = some after) : ClusterOk init after := by
  obtain ⟨_, cur, taken⟩ := bind_eq_some_iff.mp taken
  obtain ⟨cycle, running, fetched⟩ := bind_eq_some_iff.mp cur
  obtain ⟨info, there, same⟩ := bind_eq_some_iff.mp fetched
  cases same
  obtain ⟨conn, connected, taken⟩ := bind_eq_some_iff.mp taken
  obtain ⟨request, found, taken⟩ := bind_eq_some_iff.mp taken
  split at taken
  next resp phase =>
    obtain ⟨prober, visited, same⟩ := bind_eq_some_iff.mp taken
    cases same
    have sound : resp.Sound := by
      have sound := ok.sound _ _ _ found
      rwa [phase] at sound
    have link := ok.pairs cycle running info (mem_of_getElem? there)
    obtain ⟨_, type, backed⟩ := link.request conn request connected found
    have answered : resp.isInSync = true → request.type = .probe →
        InForce (cluster.segments info.primary.dbid) := by
      intro inSync probe
      have backed := backed probe
      rw [phase] at backed
      exact backed inSync
    have sent : prober.sent = cluster.prober.sent := visit_receive_sent visited
    have next := ok.visit
      (fun _ same => (ReceiveOutcome.response.inj (Outcome.receive.inj same)) ▸ sound)
      (fun resp' same inSync cycle' info' now state => by
        cases same
        obtain ⟨_, rfl⟩ := mk.inj (some.inj (cur.symm.trans now))
        refine answered inSync ?_
        rw [state] at type
        exact (some.inj type).symm) visited
    rw [Prober.sentSince_append _ [] sent] at next
    exact { next with }
  · simp at taken

theorem ClusterOk.step (ok : ClusterOk init cluster) {event}
    (taken : cluster.promptStep retries event = some after) : ClusterOk init after := by
  obtain ⟨prompt, taken⟩ := ite_none_right_eq_some.mp taken
  cases event with
  | prober event => exact ok.prober_step taken
  | startup conn dbid =>
    obtain ⟨_, rfl⟩ := guard_eq_some taken
    refine { ok with noted := fun conn' dbid' noted => ?_, pairs := ?_ }
    · simp only at noted
      split at noted
      next same =>
        obtain ⟨_, rfl⟩ := same
        exact some.inj noted
      · exact ok.noted _ _ noted
    · exact fun cycle running info mem => { ok.pairs cycle running info mem with }
  | handle conn dbid retryNeeded => exact ok.handle prompt taken
  | receive => exact ok.receive taken
  | walSenders dbid walsnds =>
    cases taken
    exact ok.update (.walSenders _ walsnds)
  | reload dbid =>
    obtain ⟨requested, rfl⟩ := guard_eq_some taken
    exact ok.update (.reload requested)
  | promoted dbid =>
    obtain ⟨_, rfl⟩ := guard_eq_some taken
    exact ok.update (.promoted _)

end

/-- A cluster before the first cycle: the primaries are no mirrors, and synchronous
replication is in force where the catalog says in sync. -/
structure StartOk (catalog : List SegmentConfig) (segments : Nat → Segment) : Prop where
  mirrored : Mirrored catalog
  recovery : ∀ dbid, (segments dbid).isRoleMirror = false →
    (segments dbid).inArchiveRecovery = false
  inForce : ∀ primary mirror, Recorded catalog primary mirror → primary.inSync = true →
    InForce (segments primary.dbid)

/-- With handlers that wait for a reload and stop when the prober has given them up, commits
wait for the mirror on the primary of every content that the catalog has in sync. -/
theorem promptly_reachable_inForce (retries : Nat) {catalog : List SegmentConfig}
    {segments : Nat → Segment} (start : StartOk catalog segments) {cluster : Cluster}
    (reached : Reachable (Cluster.promptStep retries) (Cluster.start catalog segments) cluster)
    {primary mirror : SegmentConfig} (recorded : Recorded cluster.prober.catalog primary mirror)
    (inSync : primary.inSync = true) :
    (cluster.segments primary.dbid).syncStandbysDefined = true := by
  have ok : ClusterOk catalog cluster := by
    refine reached.invariant ?_ fun _ _ _ pre taken => pre.step taken
    exact
      { prober := ⟨start.mirrored, rfl, rfl, fun _ running => nomatch running⟩
        recovery := start.recovery
        noted := nofun
        sound := nofun
        known := nofun
        recorded := start.inForce
        pairs _ running := nomatch running }
  exact (ok.recorded primary mirror recorded inSync).defined

def caughtUp : List SegmentConfig :=
  [⟨2, 0, .primary, true, false⟩, ⟨3, 0, .mirror, true, false⟩]

def caughtUpSegments (dbid : Nat) : Segment where
  isRoleMirror := dbid != 2
  inArchiveRecovery := dbid != 2
  walsnds := if dbid = 2 then [⟨true, 1, .streaming, 1, true⟩] else []
  syncStandbysDefined := false
  synchronousStandbyNames := ""
  reloadRequested := false
  promoteSignaled := false

def passEvents (revents : PollRevents) (meanwhile : List ClusterEvent) (incoming : ClusterEvent) :
    List ClusterEvent :=
  [.prober (.visit (.connect true .ok)), .prober .advance,
    .prober (.visit (.poll revents false)), .prober .advance,
    .prober (.visit (.send true)), .prober .advance] ++ meanwhile ++
  [incoming, .prober .advance, .prober (.visit (.retry false)), .prober .advance,
    .prober (.visit .response)]

def probeEvents (handling : List ClusterEvent) : List ClusterEvent :=
  let busy := .prober (.visit (.receive .busy))
  .prober .begin :: passEvents ⟨false, true, false, false⟩ [] busy ++
  .prober .advance :: passEvents ⟨false, true, false, false⟩ handling busy ++
  .prober .advance :: passEvents ⟨true, false, false, false⟩ [] .receive

theorem caughtUp_recorded :
    Recorded caughtUp ⟨2, 0, .primary, true, false⟩ ⟨3, 0, .mirror, true, false⟩ :=
  ⟨.refl _, rfl, rfl, rfl, rfl, nofun⟩

theorem caughtUp_startOk : StartOk caughtUp caughtUpSegments where
  mirrored :=
    { dbids := by decide
      pairs row mem := by
        refine ⟨_, _, ?_, caughtUp_recorded⟩
        simp only [caughtUp, mem_cons, not_mem_nil, or_false] at mem
        rcases mem with rfl | rfl <;> rfl }
  recovery dbid role := role
  inForce prim mir recorded inSync := by
    have mem := recorded.primary_mem
    simp only [caughtUp, mem_cons, not_mem_nil, or_false] at mem
    rcases mem with rfl | rfl <;> simp at inSync

def pairView (cluster : Cluster) : List SegmentConfig × Bool :=
  (cluster.prober.catalog, (cluster.segments 2).syncStandbysDefined)

def streaming : List SegmentConfig :=
  [⟨2, 0, .primary, true, true⟩, ⟨3, 0, .mirror, true, true⟩]

theorem streaming_recorded :
    Recorded streaming ⟨2, 0, .primary, true, true⟩ ⟨3, 0, .mirror, true, true⟩ :=
  ⟨.refl _, rfl, rfl, rfl, rfl, fun _ => rfl⟩

/-- A handler that waits for its reload: the pair gets in sync, and commits wait. -/
theorem promptly_reachable_inForce_probe :
    ∃ cluster, Reachable (Cluster.promptStep 0) (Cluster.start caughtUp caughtUpSegments) cluster ∧
      cluster.prober.catalog = streaming ∧
      (cluster.segments 2).syncStandbysDefined = true := by
  have run : ((probeEvents [.startup 0 2, .handle 0 2 false, .handle 0 2 false, .reload 2,
      .handle 0 2 false]).foldlM (promptStep 0)
        (start caughtUp caughtUpSegments)).map pairView = some (streaming, true) := by
    decide +kernel
  obtain ⟨cluster, reach, view⟩ := Reachable.exists_of_run _ run
  have cat : cluster.prober.catalog = streaming := congrArg fst view
  exact ⟨cluster, reach, cat, promptly_reachable_inForce 0 caughtUp_startOk reach
    (cat ▸ streaming_recorded) rfl⟩

/-- The answer to a probe may come before the reload that it has requested: the pair gets in
sync while commits do not wait for the mirror. -/
theorem inSync_without_syncrep :
    ∃ cluster, Reachable (Cluster.step 0) (Cluster.start caughtUp caughtUpSegments) cluster ∧
      StartOk caughtUp caughtUpSegments ∧
      ∃ primary mirror, Recorded cluster.prober.catalog primary mirror ∧ primary.inSync = true ∧
        (cluster.segments primary.dbid).syncStandbysDefined = false := by
  have run : ((probeEvents [.startup 0 2, .handle 0 2 false, .handle 0 2 false,
      .handle 0 2 false]).foldlM (step 0)
        (start caughtUp caughtUpSegments)).map pairView = some (streaming, false) := by
    decide +kernel
  obtain ⟨cluster, reach, view⟩ := Reachable.exists_of_run _ run
  have cat : cluster.prober.catalog = streaming := congrArg fst view
  have recorded := streaming_recorded
  rw [← cat] at recorded
  exact ⟨cluster, reach, caughtUp_startOk, _, _, recorded, rfl, congrArg snd view⟩

end Greengage.Fts
