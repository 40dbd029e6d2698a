import Greengage.Foundations.Transition
import Greengage.Gdd.Breaking

/-!
Contract: what holds along every run of the deadlock detector's operations.
-/

namespace Greengage.Gdd

open Greengage.Foundations List

inductive GddOp where
  | addEdge (edge : WaitEdge)
  | reduce (fuel : Nat)
  | removeVid (vid : DistributedTransactionId)

/-- A reduction without enough fuel has not returned. -/
def gddStep (ctx : GddCtx) : GddOp → Option GddCtx
  | .addEdge edge => some (gddCtxAddEdge ctx edge.segid edge.waiter edge.holder edge.solid)
  | .reduce fuel => gddCtxReduce fuel ctx
  | .removeVid vid => some (gddCtxRemoveVid ctx vid)

/-- The edges in the `edgesOut` of all vertices on all segments. -/
def linkedOut (ctx : GddCtx) : List Ptr :=
  (allVerts ctx).flatMap fun vert => (ctx.verts.cell vert).edgesOut

def linkedIn (ctx : GddCtx) : List Ptr :=
  (allVerts ctx).flatMap fun vert => (ctx.verts.cell vert).edgesIn

/-- An edge is once in the `edgesOut` of its waiter and once in the `edgesIn`
of its holder, and in no other list. -/
structure DegreesOk (ctx : GddCtx) : Prop where
  once : (linkedOut ctx).Nodup ∧ (linkedIn ctx).Perm (linkedOut ctx)
  ends : ∀ vert ∈ allVerts ctx,
    (∀ edge ∈ (ctx.verts.cell vert).edgesOut, (ctx.edges.cell edge).from_ = vert) ∧
    ∀ edge ∈ (ctx.verts.cell vert).edgesIn, (ctx.edges.cell edge).to_ = vert
  outdeg : ∀ pair ∈ ctx.globals, (ctx.stats.cell pair.2).outdeg =
    (linkedOut ctx).countP fun edge => waiterId ctx edge == pair.1
  indeg : ∀ pair ∈ ctx.globals, (ctx.stats.cell pair.2).indeg =
    (linkedIn ctx).countP fun edge => holderId ctx edge == pair.1
  topOutdeg : ctx.topstat.outdeg = (linkedOut ctx).length
  topIndeg : ctx.topstat.indeg = (linkedIn ctx).length
  vids : ∀ graph ∈ ctx.graphs, (graph.2.verts.map fun vert => (ctx.verts.cell vert.2).id).Nodup

theorem Linked.degreesOk {ctx seg live} (link : Linked ctx seg live) : DegreesOk ctx := by
  have out : (linkedOut ctx).Perm live := by
    rw [linkedOut, flatMap_congr link.edgesOut]
    exact flatMap_filter_perm _ _ live link.vertPtrs fun edge inLive => (link.ends edge inLive).1
  have into : (linkedIn ctx).Perm live := by
    rw [linkedIn, flatMap_congr link.edgesIn]
    exact flatMap_filter_perm _ _ live link.vertPtrs fun edge inLive => (link.ends edge inLive).2.1
  refine ⟨⟨out.nodup_iff.mpr link.liveNodup, into.trans out.symm⟩, ?_, ?_, ?_, ?_, ?_, ?_⟩
  · intro vert inAll
    rw [link.edgesOut vert inAll, link.edgesIn vert inAll]
    constructor <;> exact fun edge mem => eq_of_beq (mem_filter.mp mem).2
  · intro pair inGlobals
    rw [link.outdeg pair inGlobals, out.countP_eq]
  · intro pair inGlobals
    rw [link.indeg pair inGlobals, into.countP_eq]
  · rw [link.topOutdeg, out.length_eq]
  · rw [link.topIndeg, into.length_eq]
  · intro graph inGraphs
    rw [map_congr_left fun vert inVerts => (link.vertIds graph inGraphs vert inVerts).1]
    exact link.vertKeys graph inGraphs

theorem Linked.step {ctx seg live after op} (link : Linked ctx seg live)
    (taken : gddStep ctx op = some after) : ∃ seg live, Linked after seg live := by
  cases op with
  | addEdge edge =>
    obtain ⟨seg, live, next, _⟩ := link.addEdge edge
    exact Option.some.inj taken ▸ ⟨seg, live, next⟩
  | reduce fuel =>
    obtain ⟨kept, reduces, _⟩ := link.gddCtxReduce_spec.2 fuel after taken
    exact ⟨seg, kept, reduces.linked⟩
  | removeVid vid =>
    obtain ⟨kept, removed, _⟩ := link.gddCtxRemoveVid_result vid
    exact Option.some.inj taken ▸ ⟨seg, kept, removed⟩

/-- Every counter agrees with the lists it counts, after any operations. -/
theorem reachable_degreesOk (ctx : GddCtx) (reach : Reachable gddStep gddCtxNew ctx) :
    DegreesOk ctx := by
  obtain ⟨_, _, start, _⟩ := buildCtx_linked []
  obtain ⟨_, _, link⟩ : ∃ seg live, Linked ctx seg live := by
    apply reach.invariant ⟨_, _, start⟩
    exact fun _ _ _ ⟨_, _, link⟩ => link.step
  exact link.degreesOk

theorem reachable_degreesOk_selfLoop : ∃ ctx,
    Reachable gddStep gddCtxNew ctx ∧ ctx.topstat.indeg = 1 ∧ DegreesOk ctx := by
  have run : ([.addEdge ⟨1, 5, 5, true⟩, .addEdge ⟨1, 5, 6, true⟩, .reduce 4].foldlM gddStep
      gddCtxNew).map (·.topstat.indeg) = some 1 := by decide +kernel
  obtain ⟨ctx, reach, left⟩ := Reachable.exists_of_run _ run
  exact ⟨ctx, reach, left, reachable_degreesOk ctx reach⟩

end Greengage.Gdd
