import Greengage.Foundations.Results
import Greengage.Rebalance.Planner

/-!
Contract: what the planner computes before it orders the moves.

The allocator gives out a port of a host once, and never one that a segment has there. So over
the moves that a plan is made of, those that a detour replaces included, no target is used
twice and none is the location of a segment at the start. The moves are those of the segments
that a solution puts on another host, and a detour stops at a host that neither segment of the
pair goes to.
-/

namespace Greengage.Rebalance

open List

open Foundations (bind_eq_ok foldlM_invariant)

/-! ### The allocator -/

namespace PortAllocator

def Known (allocator : PortAllocator) (hostname : String) (port : Nat) : Prop :=
  port ∈ allocator.existingPorts hostname ∨ port ∈ allocator.plannedPorts hostname

def Extends (before after : PortAllocator) : Prop :=
  ∀ hostname port, before.Known hostname port → after.Known hostname port

structure Allocates (before after : PortAllocator) (hostname : String) (port : Nat) : Prop where
  fresh : ¬ before.Known hostname port
  known : after.Known hostname port
  extends_ : before.Extends after

variable {env : PortChecks} {alloc after : PortAllocator} {host : Host} {port : Nat}

theorem Extends.refl (alloc : PortAllocator) : alloc.Extends alloc :=
  fun _ _ => id

theorem Extends.trans {first snd third : PortAllocator} (one : first.Extends snd)
    (two : snd.Extends third) : first.Extends third :=
  fun hostname port known => two hostname port (one hostname port known)

theorem isPortAvailable_iff (hostname port) :
    alloc.isPortAvailable hostname port = true ↔ ¬ alloc.Known hostname port := by
  simp [isPortAvailable, Known]

theorem known_add (hostname port name other)
    (known : alloc.Known name other ∨ name = hostname ∧ other = port) :
    (alloc.addExisting hostname port).Known name other ∧
      (alloc.addPlanned hostname port).Known name other := by
  unfold Known addExisting addPlanned at *
  by_cases same : name = hostname
  · subst same
    simp only [Function.update_self, mem_cons]
    tauto
  · simpa [same] using known

variable {hostname : String}

theorem Allocates.of_addPlanned {mid : PortAllocator} (fresh : ¬ alloc.Known hostname port)
    (grown : alloc.Extends mid) :
    Allocates alloc (mid.addPlanned hostname port) hostname port where
  fresh := fresh
  known := (known_add _ _ _ _ (.inr ⟨rfl, rfl⟩)).2
  extends_ := grown.trans fun _ _ known => (known_add _ _ _ _ (.inl known)).2

theorem Allocates.of_extends {start pre after : PortAllocator} (grown : start.Extends pre)
    (allocated : Allocates pre after hostname port) :
    Allocates start after hostname port where
  fresh known := allocated.fresh (grown _ _ known)
  known := allocated.known
  extends_ := grown.trans allocated.extends_

theorem extends_of_checkPortOnHost {free}
    (checked : checkPortOnHost env alloc host port = .ok (free, after)) :
    alloc.Extends after := by
  unfold checkPortOnHost at checked
  repeat' split at checked
  all_goals cases checked
  all_goals exact Extends.refl alloc

theorem findVerifiedPort_spec {startPort attempts candidatePort : Nat}
    (found : findVerifiedPort env host startPort attempts candidatePort alloc = .ok (port, after)) :
    ¬ alloc.Known host.hostname port ∧ alloc.Extends after := by
  induction attempts generalizing candidatePort alloc with
  | zero => cases found
  | succ attempts ih =>
    unfold findVerifiedPort at found
    split at found
    · next available =>
      obtain ⟨⟨_, mid⟩, checked, rest⟩ := bind_eq_ok found
      have grown := extends_of_checkPortOnHost checked
      dsimp only at rest
      split at rest
      · cases rest
        exact ⟨(isPortAvailable_iff _ _).mp available, grown⟩
      · obtain ⟨fresh, later⟩ := ih rest
        have stepped := grown.trans fun _ _ known =>
          (known_add host.hostname candidatePort _ _ (.inl known)).1
        exact ⟨fun known => fresh (stepped _ _ known), stepped.trans later⟩
    · exact ih found

variable {preferredPort : Nat} {isMirror : Bool}

theorem findNextAvailablePort_spec
    (found : findNextAvailablePort env alloc host preferredPort isMirror = .ok (port, after)) :
    Allocates alloc after host.hostname port := by
  obtain ⟨⟨_, _⟩, searched, rest⟩ := bind_eq_ok found
  cases rest
  obtain ⟨fresh, grown⟩ := findVerifiedPort_spec searched
  -- setting a base port does not touch what is known
  split_ifs at fresh grown
  · exact .of_addPlanned fresh grown
  · exact .of_addPlanned fresh grown

theorem verifyAndAllocatePort_spec
    (found : verifyAndAllocatePort env alloc host preferredPort = .ok (port, after)) :
    ¬ alloc.Known host.hostname port ∧ alloc.Extends after := by
  -- the preferred port is one more candidate, before those of the search
  have search : verifyAndAllocatePort env alloc host preferredPort =
      findVerifiedPort env host (preferredPort + 1) (maxAttempts + 1) preferredPort alloc := by
    rw [findVerifiedPort, verifyAndAllocatePort]
  exact findVerifiedPort_spec (search.symm.trans found)

theorem allocatePort_spec {currentPort}
    (allocated : alloc.allocatePort env host currentPort isMirror = .ok (port, after)) :
    Allocates alloc after host.hostname port := by
  unfold allocatePort at allocated
  split at allocated
  · unfold allocatePortNewHost at allocated
    split at allocated
    · obtain ⟨⟨_, mid⟩, verified, rest⟩ := bind_eq_ok allocated
      cases rest
      obtain ⟨fresh, grown⟩ := verifyAndAllocatePort_spec verified
      exact .of_addPlanned fresh grown
    · exact findNextAvailablePort_spec allocated
  · unfold allocatePortExistingHost at allocated
    split at allocated
    · next available =>
      obtain ⟨⟨_, mid⟩, checked, rest⟩ := bind_eq_ok allocated
      have grown := extends_of_checkPortOnHost checked
      dsimp only at rest
      split at rest
      · cases rest
        exact .of_addPlanned ((isPortAvailable_iff _ _).mp available) grown
      · exact .of_extends grown (findNextAvailablePort_spec rest)
    · exact findNextAvailablePort_spec allocated

end PortAllocator

/-! ### The targets of the moves -/

variable {segments : Nat} {plan : Planner segments} {env : Surroundings segments}

/-- The targets that have been given out are different from each other and from where the
segments are at the start, and the allocator knows them all. -/
structure PortsOk (planner : Planner segments) (allocator : PortAllocator)
    (moves : List (LogicalMove segments)) : Prop where
  initial : ∀ content role, allocator.Known (planner.locations content role).1
    (planner.locations content role).2
  known : ∀ move ∈ moves, allocator.Known move.target.1 move.target.2
  once : (moves.map LogicalMove.target).Nodup
  fresh : ∀ move ∈ moves, ∀ content role, move.target ≠ planner.locations content role

variable {moves : List (LogicalMove segments)}

theorem PortsOk.append {pre after} (ok : PortsOk plan pre moves) (move : LogicalMove segments)
    (allocated : pre.Allocates after move.dstHost.hostname move.targetPort) :
    PortsOk plan after (moves ++ [move]) where
  initial cid role := allocated.extends_ _ _ (ok.initial cid role)
  known := forall_mem_append.mpr ⟨fun other old => allocated.extends_ _ _ (ok.known other old),
    forall_mem_singleton.mpr allocated.known⟩
  once := by
    rw [map_append, nodup_append]
    refine ⟨ok.once, nodup_singleton _, ?_⟩
    intro _ oldMember other newMember same
    obtain ⟨old, mem, rfl⟩ := mem_map.mp oldMember
    obtain rfl := mem_singleton.mp newMember
    have known := ok.known old mem
    rw [same] at known
    exact allocated.fresh known
  fresh other mem cid role := by
    rcases mem_append.mp mem with old | new
    · exact ok.fresh other old cid role
    · obtain rfl := mem_singleton.mp new
      intro same
      have known := ok.initial cid role
      rw [← same] at known
      exact allocated.fresh known

namespace Planner

variable {sol : Placement segments plan.targetCount}

theorem mem_segDbList (cid role) : plan.db cid role ∈ plan.segDbList := by
  refine mem_flatMap.mpr ⟨cid, mem_finRange cid, ?_⟩
  cases role with
  | primary => exact mem_cons_self
  | mirror => exact mem_cons_of_mem _ mem_cons_self

theorem exists_of_mem_segDbList {seg} (mem : seg ∈ plan.segDbList) :
    ∃ cid role, seg = plan.db cid role := by
  obtain ⟨cid, _, lt⟩ := mem_flatMap.mp mem
  rcases mem_cons.mp lt with rfl | second
  · exact ⟨cid, .primary, rfl⟩
  · obtain rfl := mem_singleton.mp second
    exact ⟨cid, .mirror, rfl⟩

variable {content cid : Fin segments}

theorem db_injective {cid' role role'} (same : plan.db cid role = plan.db cid' role') :
    cid = cid' ∧ role = role' :=
  plan.dbid_injective _ _ _ _ (congrArg Segment.dbid same)

theorem segDbList_nodup : plan.segDbList.Nodup := by
  refine nodup_flatMap.mpr ⟨fun cid _ => ?_, ?_⟩
  · refine nodup_cons.mpr ⟨fun mem => ?_, nodup_singleton _⟩
    obtain ⟨_, impossible⟩ := db_injective (mem_singleton.mp mem)
    cases impossible
  · refine (nodup_finRange segments).imp fun {cid other} ne => ?_
    intro _ first snd
    simp only [mem_cons, not_mem_nil, or_false] at first snd
    apply ne
    rcases first with rfl | rfl <;> rcases snd with same | same <;>
      exact (db_injective same).1

theorem portsOk_start : PortsOk plan plan.portAllocator [] where
  initial cid role := by
    refine .inl (mem_map.mpr ⟨plan.db cid role, mem_filter.mpr ⟨?_, ?_⟩, rfl⟩)
    · exact mem_segDbList cid role
    · exact decide_eq_true rfl
  known _ mem := absurd mem not_mem_nil
  once := nodup_nil
  fresh _ mem := absurd mem not_mem_nil

def assigned (planner : Planner segments) (solution : Placement segments planner.targetCount)
    (content : Fin segments) (role : Role) : String :=
  (planner.idToHost (planner.finalHostId solution content role)).hostname

theorem hostname_idToHost_hostId (cid role) :
    (plan.idToHost (plan.hostId cid role)).hostname = (plan.db cid role).hostname := by
  have found := findIdx_getElem (w := (plan.hostId cid role).isLt)
  exact of_decide_eq_true found

theorem idToHost_injective {id other}
    (same : (plan.idToHost id).hostname = (plan.idToHost other).hostname) : id = other := by
  have sorted : (plan.sortedHosts.map Host.hostname).Nodup :=
    ((perm_insertionSort _ plan.targetHosts).map _).nodup_iff.mpr plan.hostnames_nodup
  have injective := nodup_iff_injective_get.mp (Nodup.of_map _ sorted)
  have same := inj_on_of_nodup_map sorted (get_mem _ id) (get_mem _ other) same
  exact injective same

theorem hostId_eq_iff (cid role) : plan.hostId cid role = plan.finalHostId sol cid role ↔
      (plan.db cid role).hostname = plan.assigned sol cid role := by
  rw [← hostname_idToHost_hostId]
  exact ⟨fun same => congrArg (fun id => (plan.idToHost id).hostname) same,
    fun same => idToHost_injective same⟩

structure Planned (planner : Planner segments)
    (solution : Placement segments planner.targetCount) (among : List (Segment segments))
    (moves : List (LogicalMove segments)) : Prop where
  segs : moves.map LogicalMove.seg = among.filter fun seg =>
    seg.hostname ≠ planner.assigned solution seg.content seg.preferredRole
  target : ∀ move ∈ moves, move.dstHost.hostname =
    planner.assigned solution move.seg.content move.seg.preferredRole

theorem Planned.append {first snd rest} (one : Planned plan sol first moves)
    (two : Planned plan sol snd rest) :
    Planned plan sol (first ++ snd) (moves ++ rest) where
  segs := by rw [map_append, filter_append, one.segs, two.segs]
  target := forall_mem_append.mpr ⟨one.target, two.target⟩

theorem planSegment_spec {state after role done} (ok : PortsOk plan state.allocator state.moves)
    (pre : Planned plan sol done state.moves)
    (taken : plan.planSegment env sol state (plan.db cid role) = .ok after) :
    PortsOk plan after.allocator after.moves ∧
      Planned plan sol (done ++ [plan.db cid role]) after.moves := by
  have which : (if (plan.db cid role).isSegmentMirror then Role.mirror else Role.primary) =
      role := by
    rw [Segment.isSegmentMirror, plan.preferredRole_db]
    cases role with
    | primary => rfl
    | mirror => rfl
  unfold planSegment at taken
  dsimp only at taken
  rw [which, plan.content_db] at taken
  split_ifs at taken with moved
  · obtain ⟨⟨_, _⟩, allocated, rest⟩ := bind_eq_ok taken
    cases rest
    refine ⟨ok.append _ (PortAllocator.allocatePort_spec allocated), pre.append ⟨?_, ?_⟩⟩
    · have away := mt (hostId_eq_iff cid role).mpr moved
      simp [plan.content_db, plan.preferredRole_db, away]
    · intro _ mem
      obtain rfl := mem_singleton.mp mem
      rw [plan.content_db, plan.preferredRole_db]
      rfl
  · cases taken
    refine ⟨ok, ?_, pre.target⟩
    have stays := (hostId_eq_iff cid role).mp (not_not.mp moved)
    simp [pre.segs, plan.content_db, plan.preferredRole_db, stays]

theorem planSegments_spec {planned} (taken : plan.planSegments env sol = .ok planned) :
    PortsOk plan planned.allocator planned.moves ∧
      Planned plan sol plan.segDbList planned.moves := by
  have start : PortsOk plan plan.portAllocator [] ∧ Planned plan sol [] [] :=
    ⟨portsOk_start, rfl, fun _ mem => absurd mem not_mem_nil⟩
  refine foldlM_invariant (fun done state => PortsOk plan state.allocator state.moves ∧
    Planned plan sol done state.moves) ?_ start taken
  intro _ mem done _ _ kept body
  obtain ⟨_, _, rfl⟩ := exists_of_mem_segDbList mem
  exact planSegment_spec kept.1 kept.2 body

/-! ### Detours -/

/-- A host that a mirror may stop at. -/
structure Stop (planner : Planner segments) (pair : LogicalMove segments × LogicalMove segments)
    (host : Host) : Prop where
  mem : host ∈ planner.targetHosts
  inUse : host.status ≠ .decommissioned
  awayFromPrimary : host.hostname ≠ pair.1.dstHost.hostname
  awayFromMirror : host.hostname ≠ pair.2.dstHost.hostname

structure Detour (planner : Planner segments)
    (pair : LogicalMove segments × LogicalMove segments) (move : LogicalMove segments) :
    Prop where
  seg : move.seg = pair.2.seg
  stop : Stop planner pair move.dstHost

structure Return (pair : LogicalMove segments × LogicalMove segments)
    (move : LogicalMove segments) : Prop where
  content : move.seg.content = pair.2.seg.content
  role : move.seg.role = pair.2.seg.role
  preferredRole : move.seg.preferredRole = pair.2.seg.preferredRole
  dstHost : move.dstHost = pair.2.dstHost

theorem selectIntermediateHost_spec {pair host}
    (sel : plan.selectIntermediateHost env pair.1 pair.2 = .ok host) : Stop plan pair host := by
  unfold selectIntermediateHost at sel
  dsimp only at sel
  split at sel
  · cases sel
  · split at sel
    · cases sel
    · next best =>
      cases sel
      have mem := argmax_mem (Option.mem_def.mpr best)
      simp only [mem_filter, mem_cons, not_mem_nil, or_false, decide_eq_true_eq, not_or] at mem
      obtain ⟨⟨mem, status, first, second⟩, -⟩ := mem
      exact ⟨mem, by rcases status with is | is <;> rw [is] <;> decide, first, second⟩

/-- If only one of the hosts has the space, it is chosen. -/
theorem Stop.selected {pair host} (stop : Stop plan pair host) (env : Surroundings segments) :
    plan.selectIntermediateHost
      { env with score := fun _ other => if other = host then some 0 else none } pair.1 pair.2 =
        .ok host := by
  have mem : host ∈ plan.targetHosts.filter fun host => host.status ∈ [HostStatus.active, .new] ∧
      host.hostname ∉ [pair.1.dstHost.hostname, pair.2.dstHost.hostname] := by
    have status : host.status = .active ∨ host.status = .new := by
      cases is : host.status with
      | active => exact .inl rfl
      | new => exact .inr rfl
      | decommissioned => exact absurd is stop.inUse
    simp [stop.mem, status, stop.awayFromPrimary, stop.awayFromMirror]
  unfold selectIntermediateHost
  dsimp only
  rw [if_neg (by simpa using ne_nil_of_mem mem)]
  split
  · next none =>
    have empty := argmax_eq_none.mp none
    simpa using filter_eq_nil_iff.mp empty host mem
  · next other best =>
    have chosen := (mem_filter.mp (argmax_mem (Option.mem_def.mpr best))).2
    have same : other = host := by simpa using chosen
    rw [same]

/-- The phases for the pairs so far, and all moves that have got a port. -/
structure PhasesOk (planner : Planner segments) (planned : List (LogicalMove segments))
    (pairs : List (LogicalMove segments × LogicalMove segments)) (phases : Phases segments)
    (allocated : List (LogicalMove segments)) : Prop where
  ports : PortsOk planner phases.allocator allocated
  planned : planned ⊆ allocated
  phase1_mem : phases.phase1 ⊆ allocated
  phase3_mem : phases.phase3 ⊆ allocated
  phase1 : List.Forall₂ (Detour planner) pairs phases.phase1
  phase2 : phases.phase2 = pairs.map Prod.fst
  phase3 : List.Forall₂ Return pairs phases.phase3

variable {planned : List (LogicalMove segments)}
  {pairs : List (LogicalMove segments × LogicalMove segments)} {phases : Phases segments}

theorem decomposeSwapPair_spec {after allocated pair}
    (ok : PhasesOk plan planned pairs phases allocated)
    (taken : plan.decomposeSwapPair env phases pair = .ok after) :
    ∃ allocated, PhasesOk plan planned (pairs ++ [pair]) after allocated := by
  unfold decomposeSwapPair at taken
  dsimp only at taken
  split at taken
  · next attempt =>
    cases taken
    obtain ⟨host, sel, decomposed⟩ := bind_eq_ok attempt
    have stop := selectIntermediateHost_spec sel
    obtain ⟨⟨intermediatePort, mid⟩, first, rest⟩ := bind_eq_ok decomposed
    obtain ⟨⟨finalPort, last⟩, snd, rest⟩ := bind_eq_ok rest
    cases rest
    have one := PortAllocator.allocatePort_spec first
    have two := PortAllocator.allocatePort_spec snd
    let detour : LogicalMove segments := ⟨pair.2.seg, pair.2.srcHost, host,
      plan.datadirForSegment host pair.1.seg.content true, intermediatePort⟩
    let back : LogicalMove segments := ⟨{ pair.2.seg with
      hostname := host.hostname
      datadir := plan.datadirForSegment host pair.1.seg.content true
      port := intermediatePort }, host, pair.2.dstHost, pair.2.targetDatadir, finalPort⟩
    refine ⟨allocated ++ [detour] ++ [back], ?_⟩
    exact {
      ports := (ok.ports.append detour one).append back two
      planned move mem := by simp [ok.planned mem]
      phase1_mem move mem := by
        rcases mem_append.mp mem with old | new
        · simp [ok.phase1_mem old]
        · simp [mem_singleton.mp new, detour]
      phase3_mem move mem := by
        rcases mem_append.mp mem with old | new
        · simp [ok.phase3_mem old]
        · simp [mem_singleton.mp new, back]
      phase1 := rel_append ok.phase1 (.cons ⟨rfl, stop⟩ .nil)
      phase2 := by rw [map_append, ← ok.phase2]; rfl
      phase3 := rel_append ok.phase3 (.cons ⟨rfl, rfl, rfl, rfl⟩ .nil) }
  · cases taken
  · cases taken

theorem decomposeSwapPairs_spec {alloc} (ok : PortsOk plan alloc planned)
    (taken : plan.decomposeSwapPairs env alloc pairs = .ok phases) :
    ∃ allocated, PhasesOk plan planned pairs phases allocated := by
  have start : PhasesOk plan planned [] (⟨alloc, [], [], []⟩ : Phases segments) planned :=
    ⟨ok, Subset.refl _, nil_subset _, nil_subset _, .nil, rfl, .nil⟩
  refine foldlM_invariant (fun done phases =>
    ∃ allocated, PhasesOk plan planned done phases allocated) ?_ ⟨_, start⟩ taken
  intro _ _ done _ _ kept body
  obtain ⟨allocated, beforeOk⟩ := kept
  exact decomposeSwapPair_spec beforeOk body

end Planner

end Greengage.Rebalance
