import Greengage.Gdd.Building

/-!
Contract: what `GddCtxReduce` reports about a set of wait edges.
-/

namespace Greengage.Gdd

open List Greengage.Foundations Multiset

section

variable {seg : Ptr → SegId} {ctx after : GddCtx} {live kept : List Ptr}

theorem Linked.linkedEdges_described (link : Linked ctx seg live) :
    linkedEdges ctx = described ctx seg live := link.linkedEdges_eq

theorem Linked.gddCtxEmpty_iff (link : Linked ctx seg live) :
    gddCtxEmpty ctx = true ↔ linkedEdges ctx = 0 := by
  rw [link.linkedEdges_described, gddCtxEmpty, link.topIndeg, beq_iff_eq, described,
    coe_eq_zero, map_eq_nil_iff, ← length_eq_zero_iff]
  exact Int.natCast_eq_zero

theorem Reduces.isGreatest (reduces : Reduces Supported seg ctx live after kept)
    (done : SelfSupporting Supported (described ctx seg kept)) :
    IsGreatest {part | part ≤ described ctx seg live ∧ SelfSupporting Supported part}
      (linkedEdges after) := by
  rw [reduces.linked.linkedEdges_described, reduces.shrinks.described]
  exact reduces.peels.isGreatest supported_monotone done

theorem Linked.gddCtxReduce_spec (link : Linked ctx seg live) :
    (∃ fuel after, gddCtxReduce fuel ctx = some after) ∧
      ∀ fuel after, gddCtxReduce fuel ctx = some after → ∃ kept,
        Reduces Supported seg ctx live after kept ∧
        SelfSupporting Supported (described ctx seg kept) := by
  obtain ⟨le, after, kept, ret, reduces, done⟩ := gddCtxReduce_result link
  refine ⟨⟨le, after, ret⟩, fun fuel other otherReturned => ⟨kept, ?_, done⟩⟩
  obtain ⟨_, isState, rfl⟩ := Option.map_eq_some_iff.mp ret
  obtain ⟨_, isOther, rfl⟩ := Option.map_eq_some_iff.mp otherReturned
  rw [whileFuel_unique isOther isState]
  exact reduces

end

def IsCore (edges core : Multiset WaitEdge) : Prop :=
  IsGreatest {part | part ≤ edges ∧ SelfSupporting Supported part} core

/-! ### The unique fixpoint -/

def reduceSchedule (ctx : GddCtx) (schedule : List Ptr) : GddCtx :=
  schedule.foldl (fun ctx vert => (gddVertReduce ctx vert).1) ctx

variable {seg : Ptr → SegId}

theorem reduceSchedule_result (schedule) :
    ∀ {ctx live}, Linked ctx seg live →
      (∀ vert ∈ schedule, vert ∈ allVerts ctx) →
      ∃ kept, Reduces Supported seg ctx live (reduceSchedule ctx schedule) kept ∧
        (reduceSchedule ctx schedule).graphs = ctx.graphs := by
  induction schedule with
  | nil =>
    intro ctx live link _
    exact ⟨live, .refl link, rfl⟩
  | cons vert schedule ih =>
    intro ctx live link inAll
    obtain ⟨mid, first, -⟩ := gddVertReduce_result link (inAll vert (by simp))
    obtain ⟨kept, rest, sameGraphs⟩ := ih first.reduces.linked (by
      intro other mem
      have inBefore := inAll other (mem_cons_of_mem _ mem)
      unfold allVerts at inBefore ⊢
      rwa [first.graphs])
    exact ⟨kept, first.reduces.trans rest, sameGraphs.trans first.graphs⟩

variable {edges : List WaitEdge}

theorem reduceSchedule_isCore {schedule}
    (inAll : ∀ vert ∈ schedule, vert ∈ allVerts (buildCtx edges))
    (stable : ∀ vert ∈ allVerts (buildCtx edges),
      (gddVertReduce (reduceSchedule (buildCtx edges) schedule) vert).2 = false) :
    IsCore edges (linkedEdges (reduceSchedule (buildCtx edges) schedule)) := by
  obtain ⟨_, _, link, holds⟩ := buildCtx_linked edges
  obtain ⟨_, reduces, sameGraphs⟩ := reduceSchedule_result schedule link inAll
  have sameVerts : allVerts (reduceSchedule (buildCtx edges) schedule) =
      allVerts (buildCtx edges) := by
    unfold allVerts
    rw [sameGraphs]
  rw [← holds]
  apply reduces.isGreatest
  rw [← reduces.shrinks.described]
  apply reduces.linked.selfSupporting
  intro vert mem
  obtain ⟨_, _, settles⟩ := gddVertReduce_result reduces.linked mem
  exact settles (stable vert (sameVerts ▸ mem))

theorem buildCtx_reduced_isCore {fuel reduced}
    (ret : gddCtxReduce fuel (buildCtx edges) = some reduced) :
    IsCore edges (linkedEdges reduced) := by
  obtain ⟨_, _, link, holds⟩ := buildCtx_linked edges
  obtain ⟨_, reduces, done⟩ := link.gddCtxReduce_spec.2 fuel reduced ret
  rw [← holds]
  exact reduces.isGreatest done

def mutualWait (first second : DistributedTransactionId) : List WaitEdge :=
  [⟨0, first, second, true⟩, ⟨0, second, first, true⟩]

theorem mutualWait_selfSupporting (first snd) :
    SelfSupporting Supported (mutualWait first snd : Multiset WaitEdge) := by
  simp [SelfSupporting, Supported, mutualWait]

/-- `GddCtxReduce` returns and leaves the greatest self-supporting part of the
added edges. Neither the order of the additions nor the order of the visits
matters. -/
theorem gddCtxReduce_leaves_core (edges : List WaitEdge) :
    (∃ fuel reduced, gddCtxReduce fuel (buildCtx edges) = some reduced) ∧
    ∀ fuel reduced, gddCtxReduce fuel (buildCtx edges) = some reduced →
      IsGreatest {part | part ≤ (edges : Multiset WaitEdge) ∧ SelfSupporting Supported part}
        (linkedEdges reduced) ∧
      (∀ other otherFuel otherReduced, edges.Perm other →
        gddCtxReduce otherFuel (buildCtx other) = some otherReduced →
        linkedEdges otherReduced = linkedEdges reduced) ∧
      ∀ schedule : List Ptr, (∀ vert ∈ schedule, vert ∈ allVerts (buildCtx edges)) →
        (∀ vert ∈ allVerts (buildCtx edges),
          (gddVertReduce (reduceSchedule (buildCtx edges) schedule) vert).2 = false) →
        linkedEdges (reduceSchedule (buildCtx edges) schedule) = linkedEdges reduced := by
  obtain ⟨_, _, link, -⟩ := buildCtx_linked edges
  refine ⟨link.gddCtxReduce_spec.1, fun fuel reduced ret => ?_⟩
  have core := buildCtx_reduced_isCore ret
  refine ⟨core, ?_, ?_⟩
  · intro other otherFuel otherReduced perm otherReturned
    have otherCore := buildCtx_reduced_isCore otherReturned
    rw [← coe_eq_coe.mpr perm] at otherCore
    exact otherCore.unique core
  · intro schedule inAll stable
    exact (reduceSchedule_isCore inAll stable).unique core

theorem gddCtxReduce_leaves_mutualWait :
    ∃ fuel reduced, gddCtxReduce fuel (buildCtx (mutualWait 1 2)) = some reduced ∧
      linkedEdges reduced = mutualWait 1 2 := by
  obtain ⟨⟨fuel, reduced, ret⟩, spec⟩ := gddCtxReduce_leaves_core (mutualWait 1 2)
  obtain ⟨greatest, -⟩ := spec fuel reduced ret
  exact ⟨fuel, reduced, ret, greatest.unique
    ⟨⟨le_rfl, mutualWait_selfSupporting 1 2⟩, fun _ lt => lt.1⟩⟩

/-! ### Cycles -/

/-- `next` goes on where `edge` ends, on the same segment when `edge` is
dotted. -/
def Follows (edge next : WaitEdge) : Prop :=
  edge.holder = next.waiter ∧ (edge.solid = false → next.segid = edge.segid)

variable {walk : List WaitEdge}

theorem closedWalk_selfSupporting (closed : Cycle.Chain Follows (walk : Cycle WaitEdge)) :
    SelfSupporting Supported (walk.dedup : Multiset WaitEdge) := by
  intro edge mem
  have inWalk : edge ∈ walk := by simpa using mem
  have lift : ∀ {p : WaitEdge → Prop}, (∃ other ∈ walk, p other) →
      ∃ other ∈ (walk.dedup : Multiset WaitEdge), p other := by
    rintro p ⟨other, lt, holds⟩
    exact ⟨other, by simpa using lt, holds⟩
  obtain ⟨prev, inPrevious, fromPrevious⟩ := cycleChain_predecessor closed inWalk
  obtain ⟨next, inNext, toNext⟩ := cycleChain_successor closed inWalk
  refine ⟨⟨lift ⟨prev, inPrevious, fromPrevious.1⟩, lift ⟨edge, inWalk, rfl⟩⟩,
    ⟨lift ⟨edge, inWalk, rfl⟩, lift ⟨next, inNext, toNext.1.symm⟩⟩, fun dotted => ?_⟩
  exact lift ⟨next, inNext, toNext.1.symm, toNext.2 dotted⟩

theorem core_ne_zero_of_closedWalk {core} (isCore : IsCore edges core)
    (ne : walk ≠ []) (sub : ∀ edge ∈ walk, edge ∈ edges)
    (closed : Cycle.Chain Follows (walk : Cycle WaitEdge)) : core ≠ 0 := by
  have part : (walk.dedup : Multiset WaitEdge) ≤ core := by
    apply isCore.2
    refine ⟨?_, closedWalk_selfSupporting closed⟩
    rw [le_iff_subset (coe_nodup.mpr (nodup_dedup walk))]
    intro edge mem
    exact mem_coe.mpr (sub edge (by simpa using mem))
  obtain ⟨edge, inWalk⟩ := exists_mem_of_ne_nil walk ne
  intro empty
  have inCore : edge ∈ core := mem_of_le part (by simpa using inWalk)
  rw [empty] at inCore
  exact notMem_zero edge inCore

/-- `waiter` waits for `holder` on some segment. -/
def WaitsFor (edges : Multiset WaitEdge) (waiter holder : DistributedTransactionId) : Prop :=
  ∃ edge ∈ edges, edge.waiter = waiter ∧ edge.holder = holder

theorem SelfSupporting.exists_cycle {edges} (supporting : SelfSupporting Supported edges)
    (ne : edges ≠ 0) :
    ∃ cycle : List DistributedTransactionId, cycle ≠ [] ∧ cycle.Nodup ∧
      Cycle.Chain (WaitsFor edges) (cycle : Cycle DistributedTransactionId) := by
  -- walk along one out edge of each vertex that has one
  let Waiter := {vid // ∃ edge ∈ edges, edge.waiter = vid}
  have out : ∀ vert : Waiter, ∃ next : Waiter, WaitsFor edges vert.1 next.1 := by
    rintro ⟨vid, edge, mem, isWaiter⟩
    obtain ⟨-, ⟨-, next, inNext, isNext⟩, -⟩ := supporting edge mem
    exact ⟨⟨edge.holder, next, inNext, isNext⟩, edge, mem, isWaiter, rfl⟩
  choose step waits using out
  have finite : Finite Waiter := by
    have covered : ({vid | ∃ edge ∈ edges, edge.waiter = vid} : Set _).Finite := by
      apply (finite_toSet (edges.map WaitEdge.waiter)).subset
      rintro vid ⟨edge, mem, isWaiter⟩
      exact mem_map.mpr ⟨edge, mem, isWaiter⟩
    exact covered.to_subtype
  have := Fintype.ofFinite Waiter
  obtain ⟨edge, mem⟩ := exists_mem_of_ne_zero ne
  obtain ⟨_, -, periodic⟩ := @exists_periodic Waiter Finset.univ step
    ⟨edge.waiter, edge, mem, rfl⟩ (Finset.mem_univ _) (fun _ _ => Finset.mem_univ _)
  obtain ⟨orbitNonempty, orbitNodup, orbitChain⟩ := orbit_isCycle periodic
  refine ⟨_, (map_eq_nil_iff (f := Subtype.val)).not.mpr orbitNonempty,
    orbitNodup.map Subtype.val_injective, ?_⟩
  rw [← Cycle.map_coe, Cycle.chain_map]
  refine orbitChain.imp ?_
  rintro vert next rfl
  exact waits vert

/-- A vertex that no local out edge leaves has only solid in edges when the
linked edges support each other. -/
theorem Linked.sink_solid {ctx live} (link : Linked ctx seg live)
    (supporting : SelfSupporting Supported (described ctx seg live)) {vert edge}
    (inAll : vert ∈ allVerts ctx) (sink : (ctx.verts.cell vert).edgesOut = [])
    (mem : edge ∈ (ctx.verts.cell vert).edgesIn) : (ctx.edges.cell edge).solid = true := by
  obtain ⟨inLive, isTo⟩ := (link.mem_edgesIn inAll).mp mem
  exact link.solid_of_sink inAll ((link.edgesOut_eq_nil inAll).mp sink) inLive isTo
    (supporting _ (mem_coe.mpr (mem_map_of_mem inLive)))

/-- The reduction reports every closed walk the rules cannot break. What it
reports contains a directed cycle, and a vertex without out edges on its
segment is left with solid in edges only. -/
theorem gddCtxReduce_detects (edges : List WaitEdge) :
    ∃ fuel reduced, gddCtxReduce fuel (buildCtx edges) = some reduced ∧
      (gddCtxEmpty reduced = true ↔ linkedEdges reduced = 0) ∧
      (∀ walk : List WaitEdge, walk ≠ [] → (∀ edge ∈ walk, edge ∈ edges) →
        Cycle.Chain Follows (walk : Cycle WaitEdge) → gddCtxEmpty reduced = false) ∧
      (gddCtxEmpty reduced = false →
        ∃ cycle : List DistributedTransactionId, cycle ≠ [] ∧ cycle.Nodup ∧
          Cycle.Chain (WaitsFor (linkedEdges reduced)) (cycle : Cycle DistributedTransactionId)) ∧
      ∀ vert ∈ allVerts reduced, (reduced.verts.cell vert).edgesOut = [] →
        ∀ edge ∈ (reduced.verts.cell vert).edgesIn, (reduced.edges.cell edge).solid = true := by
  obtain ⟨_, _, link, -⟩ := buildCtx_linked edges
  obtain ⟨fuel, reduced, _, ret, reduces, done⟩ := gddCtxReduce_result link
  have core := buildCtx_reduced_isCore ret
  have emptyIff := reduces.linked.gddCtxEmpty_iff
  have nonempty_iff : gddCtxEmpty reduced = false ↔ linkedEdges reduced ≠ 0 := by
    rw [← Bool.not_eq_true, emptyIff]
  refine ⟨fuel, reduced, ret, emptyIff, ?_, ?_, ?_⟩
  · intro walk ne sub closed
    exact nonempty_iff.mpr (core_ne_zero_of_closedWalk core ne sub closed)
  · intro reported
    exact SelfSupporting.exists_cycle core.1.2 (nonempty_iff.mp reported)
  · intro vert inAll sink edge mem
    rw [← reduces.shrinks.described] at done
    exact reduces.linked.sink_solid done inAll sink mem

theorem gddCtxReduce_detects_mutualWait :
    ∃ fuel reduced, gddCtxReduce fuel (buildCtx (mutualWait 1 2)) = some reduced ∧
      gddCtxEmpty reduced = false := by
  obtain ⟨fuel, reduced, ret, -, walks, -⟩ := gddCtxReduce_detects (mutualWait 1 2)
  refine ⟨fuel, reduced, ret, walks (mutualWait 1 2) (by decide) (fun _ => id) ?_⟩
  rw [mutualWait, Cycle.chain_coe_cons]
  simp [Follows]

end Greengage.Gdd
