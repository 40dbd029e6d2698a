import Greengage.Foundations.Transition
import Greengage.Fts.Pairs

/-!
Contract: the prober keeps one live primary for every content.

A body changes one pair and the rows of its content; all other pairs keep their
standing, since a cycle has one pair for a content.
-/

namespace Greengage.Fts

open Option List Prober

open Foundations (Reachable guard_eq_some)

/-- Whether `ftsPoll` has seen a pair since `ftsConnect` has. -/
def Cycle.polled (cycle : Cycle) (position : Nat) : Bool :=
  match cycle.step with
  | .connect => cycle.index ≤ position
  | .poll => position < cycle.index
  | _ => true

structure CycleOk (catalog : List SegmentConfig) (cycle : Cycle) : Prop where
  hasMirrors : cycle.infos ≠ [] → cycle.hasMirrors = true
  contents : (cycle.infos.map (·.primary.segindex)).Nodup
  pairs : ∀ position info, cycle.infos[position]? = some info → PairOk (cycle.polled position) info
  standing : ∀ info ∈ cycle.infos, ∃ primary mirror, Standing catalog info primary mirror

def rowKeys (catalog : List SegmentConfig) : List (Nat × Nat) :=
  catalog.map fun row => (row.dbid, row.segindex)

structure ProberOk (initial : List SegmentConfig) (prober : Prober) : Prop where
  mirrored : Mirrored prober.catalog
  keys : rowKeys prober.catalog = rowKeys initial
  raised : prober.raised = []
  cycle : ∀ cycle, prober.cycle = some cycle → CycleOk prober.catalog cycle

section

variable {catalog : List SegmentConfig} {primary prim mirror mir : SegmentConfig}

theorem Recorded.ftsGetPeerSegment (recorded : Recorded catalog prim mir)
    (dbids : (catalog.map (·.dbid)).Nodup) :
    ftsGetPeerSegment catalog prim.segindex prim.dbid = some mir := by
  have dbidNe := recorded.dbid_ne dbids
  cases found : Fts.ftsGetPeerSegment catalog prim.segindex prim.dbid with
  | none =>
    have missing := find?_eq_none.mp found mir recorded.mirror_mem
    simp [recorded.mirror_segindex, dbidNe] at missing
  | some row =>
    have mem := mem_of_find?_eq_some found
    have fits := find?_some found
    simp only [Bool.and_eq_true, beq_iff_eq, bne_iff_ne] at fits
    rcases recorded.mem_iff.mp ⟨mem, fits.1⟩ with rfl | rfl
    · exact absurd rfl fits.2
    · rfl

theorem Recorded.hasMirrors (recorded : Recorded catalog prim mir) :
    catalog.length ≠ (catalog.map (·.segindex)).dedup.length := by
  intro same
  have sublist := dedup_sublist (catalog.map (·.segindex))
  have whole := sublist.eq_of_length (by rw [length_map, same])
  have nodup := dedup_eq_self.mp whole
  exact recorded.ne (inj_on_of_nodup_map nodup recorded.primary_mem recorded.mirror_mem
    recorded.mirror_segindex.symm)

theorem Mirrored.initPair (mirrored : Mirrored catalog) {hasMirrors row info}
    (mem : row ∈ catalog) (found : initPair catalog hasMirrors row = some info) :
    ∃ mir, info = .init row mir ∧ Recorded catalog row mir := by
  obtain ⟨role, found⟩ := ite_none_right_eq_some.mp found
  obtain ⟨prim, mir, segindex, recorded⟩ := mirrored.pairs row mem
  have isPrim : row = prim := by
    rcases recorded.mem_iff.mp ⟨mem, segindex.symm⟩ with same | same
    · exact same
    · rw [same, recorded.mirror_role] at role
      contradiction
  subst isPrim
  rw [recorded.ftsGetPeerSegment mirrored.dbids] at found
  exact ⟨mir, (some.inj found).symm, recorded⟩

theorem Mirrored.mem_init (mirrored : Mirrored catalog) {info}
    (mem : info ∈ (ftsWalRepInitProbeContext catalog).infos) :
    ∃ prim mir, info = .init prim mir ∧ Recorded catalog prim mir := by
  obtain ⟨row, rowMember, found⟩ := mem_filterMap.mp mem
  exact ⟨row, mirrored.initPair rowMember found⟩

theorem Mirrored.cycleOk (mirrored : Mirrored catalog) :
    CycleOk catalog (ftsWalRepInitProbeContext catalog) where
  hasMirrors some := by
    obtain ⟨info, mem⟩ := exists_mem_of_ne_nil _ some
    obtain ⟨prim, mir, _, recorded⟩ := mirrored.mem_init mem
    simp [ftsWalRepInitProbeContext, recorded.hasMirrors]
  contents := by
    refine pairwise_map.mpr (pairwise_filterMap.mpr
      ((pairwise_map.mp mirrored.dbids).imp_of_mem ?_))
    intro row row' mem mem' differ info found info' found' same
    obtain ⟨mir, rfl, recorded⟩ := mirrored.initPair mem found
    obtain ⟨mir', rfl, recorded'⟩ := mirrored.initPair mem' found'
    exact differ (congrArg _ (recorded'.unique recorded same).1)
  pairs pos info found := by
    obtain ⟨prim, mir, rfl, _⟩ := mirrored.mem_init (mem_of_getElem? found)
    exact
      { alive := rfl
        up_of_inSync := nofun
        events := nofun
        revents := nofun
        unconnected _ := ⟨rfl, rfl⟩
        quiet events := absurd rfl events
        ready _ events := absurd rfl events }
  standing info mem := by
    obtain ⟨prim, mir, rfl, recorded⟩ := mirrored.mem_init mem
    exact ⟨prim, mir, recorded, rfl, rfl, fun _ => ⟨rfl, rfl⟩, nofun⟩

end

section

variable {catalog init : List SegmentConfig} {cycle : Cycle} {prober after : Prober}
  {info : SegmentInfo} {retries : Nat} {out : Outcome}

section

variable (ok : CycleOk catalog cycle)
include ok

theorem CycleOk.loop {next} (polled : ∀ pos, cycle.polled pos = true)
    (taken : cycle.loop = some next) : CycleOk catalog next := by
  obtain ⟨_, same⟩ := ite_none_left_eq_some.mp taken
  cases same
  refine { ok with pairs := fun pos info found => ?_ }
  have pair := ok.pairs pos info found
  rw [polled pos] at pair
  simpa [Cycle.polled] using pair

theorem CycleOk.advance (last : cycle.infos.length ≤ cycle.index) {next}
    (taken : cycle.advance = some next) : CycleOk catalog next := by
  have bound : ∀ pos info, cycle.infos[pos]? = some info → pos < cycle.index :=
    fun pos info found =>
      Nat.lt_of_lt_of_le (List.getElem?_eq_some_iff.mp found).1 last
  obtain ⟨infos, _, step, index⟩ := cycle
  cases step with
  | response => exact ok.loop (fun _ => rfl) taken
  | connect | poll | send | receive | retry =>
    cases taken
    refine { ok with pairs := fun pos info found => ?_ }
    have pair := ok.pairs pos info found
    have pre := bound pos info found
    simpa [Cycle.polled, Nat.not_le.mpr pre, pre] using pair

theorem CycleOk.apart {pos pos' : Nat} {info info'}
    (there : cycle.infos[pos]? = some info) (there' : cycle.infos[pos']? = some info')
    (ne : pos ≠ pos') : info'.primary.segindex ≠ info.primary.segindex := by
  intro same
  obtain ⟨bound, atPosition⟩ := List.getElem?_eq_some_iff.mp there
  obtain ⟨bound', atPosition'⟩ := List.getElem?_eq_some_iff.mp there'
  refine ne ((@Nodup.getElem_inj_iff _ _ ok.contents _ (by simpa using bound) _
    (by simpa using bound')).mp ?_)
  rw [getElem_map, getElem_map, atPosition, atPosition', same]

theorem CycleOk.visit (mirrored : Mirrored catalog) (found : cycle.infos[cycle.index]? = some info)
    {prim mir} (standing : Standing catalog info prim mir) {visited}
    (visitOk : VisitOk catalog info prim mir cycle.step.polledAfter visited) :
    CycleOk visited.catalog { cycle with
        infos := cycle.infos.set cycle.index visited.info, index := cycle.index + 1 } := by
  obtain ⟨_, rewrites, changed, _⟩ := visitOk.catalog
  obtain ⟨bound, atIndex⟩ := List.getElem?_eq_some_iff.mp found
  have sameContents : (cycle.infos.set cycle.index visited.info).map (·.primary.segindex) =
      cycle.infos.map (·.primary.segindex) := by
    have unchanged := @set_getElem_self _ (cycle.infos.map (·.primary.segindex)) cycle.index
      (by rwa [length_map])
    rwa [getElem_map, atIndex, ← visitOk.segindex, ← map_set] at unchanged
  constructor
  · exact fun _ => ok.hasMirrors (ne_nil_of_length_pos (Nat.zero_lt_of_lt bound))
  · simp only [sameContents, ok.contents]
  · intro pos other there
    rw [getElem?_set] at there
    split at there
    next same =>
      obtain rfl : visited.info = other := by simpa using there
      subst same
      have pair := visitOk.pair
      obtain ⟨infos, hasMirrors, step, index⟩ := cycle
      cases step <;>
        simpa [Cycle.polled, LoopStep.polledAfter, Nat.not_succ_le_self] using pair
    next ne =>
      have pair := ok.pairs pos other there
      obtain ⟨infos, hasMirrors, step, index⟩ := cycle
      cases step with
      | connect =>
        have later : index + 1 ≤ pos ↔ index ≤ pos := by
          simp only at ne
          omega
        simpa only [Cycle.polled, later] using pair
      | poll =>
        have pre : pos < index + 1 ↔ pos < index := by
          simp only at ne
          omega
        simpa only [Cycle.polled, pre] using pair
      | _ => exact pair
  · intro other mem
    obtain ⟨pos, there⟩ := getElem?_of_mem mem
    rw [getElem?_set] at there
    split at there
    next same =>
      obtain rfl : visited.info = other := by simpa using there
      obtain ⟨prim', mir', again, _⟩ := visitOk.standing
      exact ⟨prim', mir', again⟩
    next ne =>
      obtain ⟨prim', mir', rest⟩ := ok.standing other (mem_of_getElem? there)
      refine ⟨prim', mir', ?_⟩
      -- The other pairs are of other contents.
      have recorded := standing.recorded.rewrite_other rest.recorded mirrored.dbids rewrites
        (by rw [rest.segindex, standing.segindex]; exact ok.apart found there ne)
      exact { rest with recorded := changed ▸ recorded }

end

/-- What a step of the prober can do to the catalog and to the messages. -/
structure StepOk (prober after : Prober) : Prop where
  /-- The role of a row changes only where the content is in sync. -/
  roles : ∀ row ∈ prober.catalog, ∀ row' ∈ after.catalog, row'.dbid = row.dbid →
    row'.role ≠ row.role → row.inSync = true
  /-- Synchronous replication is switched off only with a mirror that is recorded as down. -/
  sent : ∀ message, after.sent = message :: prober.sent → message.type = .syncrepOff →
    ∃ primary mirror, Recorded prober.catalog primary mirror ∧ primary.dbid = message.dbid ∧
      primary.segindex = message.segindex ∧ mirror.alive = false ∧ primary.inSync = false

theorem StepOk.of_same (mirrored : Mirrored prober.catalog)
    (catalog : after.catalog = prober.catalog) (sent : after.sent = prober.sent) :
    StepOk prober after where
  roles row mem row' mem' dbid changed := by
    rw [catalog] at mem'
    exact absurd (congrArg _ (eq_of_dbid mirrored.dbids mem' mem dbid)) changed
  sent msg same := by
    rw [sent] at same
    exact absurd same (ne_cons_self)

/-- What the body of a loop has been run on, and what it has made of it. -/
structure Visit (prober : Prober) (retries : Nat) (outcome : Outcome) (after : Prober)
    (cycle : Cycle) (info : SegmentInfo) (primary mirror : SegmentConfig) (visited : Visited) :
    Prop where
  running : prober.cycle = some cycle
  found : cycle.infos[cycle.index]? = some info
  standing : Standing prober.catalog info primary mirror
  run : info.visit retries prober.steps prober.catalog true cycle.step outcome = some (.ok visited)
  visitOk : VisitOk prober.catalog info primary mirror cycle.step.polledAfter visited
  after : after =
    { prober with
      catalog := visited.catalog
      cycle := some { cycle with
        infos := cycle.infos.set cycle.index visited.info, index := cycle.index + 1 }
      sent := visited.sent ++ prober.sent
      steps := prober.steps + 1 }

section

variable (ok : ProberOk init prober)
  (sound : ∀ resp, out = .receive (.response resp) → resp.Sound)
  (taken : prober.visit retries out = some after)
include ok sound taken

theorem ProberOk.visit_cases : ∃ cycle info prim mir visited,
      Visit prober retries out after cycle info prim mir visited := by
  obtain ⟨_, cur, taken⟩ := bind_eq_some_iff.mp taken
  obtain ⟨cycle, running, cur⟩ := bind_eq_some_iff.mp cur
  obtain ⟨info, found, cur⟩ := bind_eq_some_iff.mp cur
  cases cur
  obtain ⟨_, run, taken⟩ := bind_eq_some_iff.mp taken
  have cycleOk := ok.cycle cycle running
  obtain ⟨prim, mir, standing⟩ := cycleOk.standing info (mem_of_getElem? found)
  have hasMirrors : cycle.hasMirrors :=
    cycleOk.hasMirrors (ne_nil_of_mem (mem_of_getElem? found))
  have pair : PairOk cycle.step.polledBefore info := by
    have pair := cycleOk.pairs cycle.index info found
    cases step : cycle.step <;> simpa [Cycle.polled, step, LoopStep.polledBefore] using pair
  rw [hasMirrors] at run
  obtain ⟨visited, rfl, visitOk⟩ := standing.visit pair ok.mirrored.dbids sound run
  exact ⟨cycle, info, prim, mir, visited, running, found, standing, run, visitOk,
    (some.inj taken).symm⟩

theorem ProberOk.visit : ProberOk init after ∧ StepOk prober after := by
  obtain ⟨cycle, _, prim, mir, visited, running, found, standing, _, visitOk, rfl⟩ :=
    ok.visit_cases sound taken
  have cycleOk := ok.cycle cycle running
  obtain ⟨_, rewrites, changed, roles⟩ := visitOk.catalog
  constructor
  · obtain ⟨prim', _, again, _⟩ := visitOk.standing
    have segindex : prim'.segindex = prim.segindex := by
      rw [again.segindex, visitOk.segindex, standing.segindex]
    constructor
    · rw [changed]
      exact ok.mirrored.rewrite standing.recorded rewrites (changed ▸ again.recorded) segindex
    · rw [← ok.keys, changed]
      simp only [rowKeys, List.map_map, Function.comp_def, rewrites.dbid, rewrites.segindex]
    · exact ok.raised
    · intro _ same
      cases same
      exact cycleOk.visit ok.mirrored found standing visitOk
  · constructor
    · intro _ mem _ mem' dbid roleChanged
      rw [changed] at mem'
      obtain ⟨pre, beforeMember, rfl⟩ := mem_map.mp mem'
      rw [rewrites.dbid] at dbid
      obtain rfl := eq_of_dbid ok.mirrored.dbids beforeMember mem dbid
      exact roles pre beforeMember roleChanged
    · intro msg same type
      have single : visited.sent = [msg] :=
        append_cancel_right (same.trans (singleton_append).symm)
      obtain ⟨busy, dbid, segindex⟩ := visitOk.sent msg (by simp [single])
      obtain ⟨down, notInSync⟩ := standing.down (busy.trans (congrArg _ type))
      exact ⟨prim, mir, standing.recorded, standing.dbid.trans dbid.symm,
        standing.segindex.trans segindex.symm, down, notInSync⟩

end

theorem ProberOk.moved (ok : ProberOk init prober) {next}
    (cycleOk : ∀ cycle, next = some cycle → CycleOk prober.catalog cycle) :
    ProberOk init { prober with cycle := next } ∧ StepOk prober { prober with cycle := next } :=
  ⟨{ ok with cycle := cycleOk }, .of_same ok.mirrored rfl rfl⟩

theorem ProberOk.step (ok : ProberOk init prober) {event}
    (taken : prober.step retries event = some after) :
    ProberOk init after ∧ StepOk prober after := by
  cases event with
  | begin =>
    obtain ⟨_, rfl⟩ := guard_eq_some taken
    exact ok.moved fun cycle started => ok.mirrored.cycleOk.loop (fun _ => rfl) started
  | visit out =>
    have noResponse : ∀ resp, out ≠ .receive (.response resp) := by
      rintro resp rfl
      simp [Prober.step] at taken
    have visited : prober.visit retries out = some after := by
      unfold Prober.step at taken
      split at taken <;> simp_all
    exact ok.visit (fun resp same => absurd same (noResponse resp)) visited
  | answer seg retry =>
    obtain ⟨⟨_, _⟩, _, taken⟩ := bind_eq_some_iff.mp taken
    obtain ⟨type, _, taken⟩ := bind_eq_some_iff.mp taken
    refine ok.visit ?_ taken
    rintro resp ⟨⟩
    exact seg.answer_sound retry type
  | advance =>
    obtain ⟨cycle, running, taken⟩ := bind_eq_some_iff.mp taken
    obtain ⟨last, rfl⟩ := guard_eq_some taken
    exact ok.moved fun next moved => (ok.cycle cycle running).advance last moved
  | inactive =>
    obtain ⟨cycle, running, taken⟩ := bind_eq_some_iff.mp taken
    obtain ⟨step, rfl⟩ := guard_eq_some taken
    exact ok.moved fun next moved =>
      (ok.cycle cycle running).loop (fun pos => by simp [Cycle.polled, step]) moved
  | stop =>
    cases taken
    exact ok.moved nofun

end

/-- In every state that the prober gets to, from a mirrored configuration and whatever the
outcomes of its calls are: every content is recorded with one live primary and a mirror of
the same mode that is up if the mode is in sync, no error about the prober's own state was
raised, and the next step exchanges roles only in sync and switches synchronous
replication off only with the mirror recorded as down. -/
theorem reachable_configuration (retries : Nat) {catalog : List SegmentConfig}
    (mirrored : Mirrored catalog) {prober : Prober}
    (reached : Reachable (Prober.step retries) (Prober.start catalog) prober) :
    Mirrored prober.catalog ∧ rowKeys prober.catalog = rowKeys catalog ∧ prober.raised = [] ∧
      ∀ event after, prober.step retries event = some after → StepOk prober after := by
  have ok : ProberOk catalog prober := by
    refine reached.invariant ⟨mirrored, rfl, rfl, fun _ running => nomatch running⟩ ?_
    exact fun _ _ _ pre taken => (pre.step taken).1
  exact ⟨ok.mirrored, ok.keys, ok.raised, fun event after taken => (ok.step taken).2⟩

def onePair : List SegmentConfig :=
  [⟨2, 0, .primary, true, true⟩, ⟨3, 0, .mirror, true, true⟩]

def failoverEvents : List ProberEvent :=
  [.begin, .visit (.connect false .ok), .advance, .visit (.poll .none false), .advance,
    .visit (.send true), .advance, .visit (.receive .busy), .advance, .visit (.retry false),
    .advance, .visit .response]

theorem onePair_mirrored : Mirrored onePair where
  dbids := by decide
  pairs row mem := by
    refine ⟨⟨2, 0, .primary, true, true⟩, ⟨3, 0, .mirror, true, true⟩, ?_, ?_⟩
    · simp only [onePair, mem_cons, not_mem_nil, or_false] at mem
      rcases mem with rfl | rfl <;> rfl
    · exact ⟨.refl _, rfl, rfl, rfl, rfl, fun _ => rfl⟩

/-- A failover: the catalog is still mirrored after the roles have been exchanged. -/
theorem reachable_configuration_failover :
    ∃ prober, Reachable (Prober.step 0) (Prober.start onePair) prober ∧
      prober.catalog = [⟨2, 0, .mirror, false, false⟩, ⟨3, 0, .primary, true, false⟩] ∧
      Mirrored prober.catalog := by
  have run : (failoverEvents.foldlM (step 0) (start onePair)).map (·.catalog) =
      some [⟨2, 0, .mirror, false, false⟩, ⟨3, 0, .primary, true, false⟩] := by
    decide +kernel
  obtain ⟨prober, reach, catalog⟩ := Reachable.exists_of_run _ run
  exact ⟨prober, reach, catalog, (reachable_configuration 0 onePair_mirrored reach).1⟩

end Greengage.Fts
