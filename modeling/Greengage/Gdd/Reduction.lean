import Greengage.Foundations.ClosedWalk
import Greengage.Gdd.Links

/-!
Contract: what `GddCtxReduce` leaves.
-/

namespace Greengage.Gdd

open Greengage.Foundations List

/-- Both ends of a kept edge have a kept in edge and a kept out edge on some
segment; the holder of a dotted edge has a kept out edge on the same segment. -/
def Supported (kept : Multiset WaitEdge) (edge : WaitEdge) : Prop :=
  ((∃ other ∈ kept, other.holder = edge.waiter) ∧ ∃ other ∈ kept, other.waiter = edge.waiter) ∧
  ((∃ other ∈ kept, other.holder = edge.holder) ∧ ∃ other ∈ kept, other.waiter = edge.holder) ∧
  (edge.solid = false → ∃ other ∈ kept, other.waiter = edge.holder ∧ other.segid = edge.segid)

theorem supported_monotone : MonotoneSupport Supported := by
  intro small large _ sub supported
  have lift : ∀ {p : WaitEdge → Prop}, (∃ other ∈ small, p other) → ∃ other ∈ large, p other := by
    rintro p ⟨other, mem, holds⟩
    exact ⟨other, Multiset.mem_of_le sub mem, holds⟩
  obtain ⟨⟨waiterIn, waiterOut⟩, ⟨holderIn, holderOut⟩, dotted⟩ := supported
  exact ⟨⟨lift waiterIn, lift waiterOut⟩, ⟨lift holderIn, lift holderOut⟩,
    fun isDotted => lift (dotted isDotted)⟩

variable {ctx : GddCtx} {seg : Ptr → SegId} {live : List Ptr} {key : BitVec 64}

/-! ### Removing an empty vertex -/

section

variable {graph : GddGraph}

theorem allVerts_perm_of_split {pre after} (split : ctx.graphs = pre ++ (key, graph) :: after) :
    (allVerts ctx).Perm (graph.verts.map Prod.snd ++
      (pre ++ after).flatMap fun pair => pair.2.verts.map Prod.snd) := by
  unfold allVerts
  rw [split, flatMap_append, flatMap_cons, flatMap_append, ← append_assoc, ← append_assoc]
  exact Perm.append_right _ perm_append_comm

theorem setGraphVerts_shrinks (verts) : Shrinks ctx (setGraphVerts ctx key verts) := by
  refine ⟨rfl, fun _ => rfl, ?_⟩
  simp only [setGraphVerts, map_map]
  apply map_congr_left
  intro _ _
  simp only [Function.comp]
  split <;> rfl

section

variable (linked link : Linked ctx seg live) (found : gddMapGet ctx.graphs key = some graph)
include link found

theorem Linked.forall_setGraphVerts {verts} {p : BitVec 64 × GddGraph → Prop}
    (old : ∀ pair ∈ ctx.graphs, p pair) (new : p (key, { graph with verts })) :
    ∀ pair ∈ (setGraphVerts ctx key verts).graphs, p pair := by
  obtain ⟨_, _, split, setSplit⟩ := link.graphs_split found
  rw [split] at old
  rw [setSplit]
  simp only [forall_mem_append, forall_mem_cons] at old ⊢
  exact ⟨old.1, new, old.2.2⟩

variable {pos : Nat} {pair : BitVec 64 × Ptr} (atPos : graph.verts[pos]? = some pair)
include atPos

/-- The vertices left after the vertex at `pos` is removed from its map. -/
theorem Linked.removeVert_perm : (allVerts ctx).Perm (pair.2 ::
      allVerts (setGraphVerts ctx key (gddMapIterDelete graph.verts pos))) := by
  obtain ⟨below, isPair⟩ := List.getElem?_eq_some_iff.mp atPos
  obtain ⟨_, _, split, setSplit⟩ := link.graphs_split found
  have rest := allVerts_perm_of_split (setSplit (gddMapIterDelete graph.verts pos))
  refine (allVerts_perm_of_split split).trans (trans ?_ (rest.symm.cons pair.2))
  rw [← cons_append]
  apply Perm.append_right
  have deleted := (gddMapIterDelete_perm below).map Prod.snd
  refine trans ?_ (deleted.symm.cons pair.2)
  have whole := (getElem_cons_eraseIdx_perm below).map Prod.snd
  rw [isPair] at whole
  exact whole.symm

theorem Linked.removeVert (noOut : (ctx.verts.cell pair.2).edgesOut = [])
    (noIn : (ctx.verts.cell pair.2).edgesIn = []) :
    Linked (setGraphVerts ctx key (gddMapIterDelete graph.verts pos)) seg live := by
  have below := (List.getElem?_eq_some_iff.mp atPos).1
  have perm := link.removeVert_perm found atPos
  have subset : ∀ vert ∈ allVerts (setGraphVerts ctx key (gddMapIterDelete graph.verts pos)),
      vert ∈ allVerts ctx := fun vert mem =>
    perm.mem_iff.mpr (mem_cons_of_mem _ mem)
  have pairMember : pair.2 ∈ allVerts ctx := perm.mem_iff.mpr (by simp)
  have deleted := gddMapIterDelete_perm below
  have inGraphs := gddMapGet_mem found
  have keepFrom := (link.edgesOut_eq_nil pairMember).mp noOut
  have keepTo := (link.edgesIn_eq_nil pairMember).mp noIn
  exact { link with
      graphKeys := by
        rw [(setGraphVerts_shrinks _).keys]
        exact link.graphKeys
      graphIds := link.forall_setGraphVerts found link.graphIds
        (link.graphIds (key, graph) inGraphs)
      vertPtrs := (nodup_cons.mp (perm.nodup_iff.mp link.vertPtrs)).2
      vertBelow vert mem := link.vertBelow vert (subset vert mem)
      vertKeys := by
        refine link.forall_setGraphVerts found link.vertKeys ?_
        rw [(deleted.map Prod.fst).nodup_iff]
        exact (link.vertKeys _ inGraphs).sublist ((eraseIdx_sublist _ _).map Prod.fst)
      vertIds := link.forall_setGraphVerts found link.vertIds fun vert inVerts =>
        link.vertIds _ inGraphs vert ((eraseIdx_sublist _ _).subset (deleted.mem_iff.mp inVerts))
      ends edge inLive := by
        obtain ⟨fromIn, toIn, sameSeg⟩ := link.ends edge inLive
        refine ⟨?_, ?_, sameSeg⟩
        · exact (mem_cons.mp (perm.mem_iff.mp fromIn)).resolve_left (keepFrom edge inLive)
        · exact (mem_cons.mp (perm.mem_iff.mp toIn)).resolve_left (keepTo edge inLive)
      edgesOut vert mem := link.edgesOut vert (subset vert mem)
      edgesIn vert mem := link.edgesIn vert (subset vert mem) }

end

end

/-! ### Deletions of unsupported edges -/

def describe (ctx : GddCtx) (seg : Ptr → SegId) (edge : Ptr) : WaitEdge :=
  waitEdge ctx (seg (ctx.edges.cell edge).from_) edge

def described (ctx : GddCtx) (seg : Ptr → SegId) (live : List Ptr) : Multiset WaitEdge :=
  live.map (describe ctx seg)

variable {after : GddCtx}

theorem Shrinks.described {pre} (shrinks : Shrinks pre after) (seg : Ptr → SegId) :
    described after seg = described pre seg := by
  funext live
  have same : describe after seg = describe pre seg := by
    funext edge
    simp only [describe, shrinks.waitEdge, shrinks.edges]
  rw [Gdd.described, same, Gdd.described]

/-- One or more deletions: the invariant is kept and every deleted edge was
unsupported when it was deleted. -/
structure Reduces (Ok : Multiset WaitEdge → WaitEdge → Prop) (seg : Ptr → SegId) (before : GddCtx) (live : List Ptr)
    (after : GddCtx) (kept : List Ptr) : Prop where
  linked : Linked after seg kept
  shrinks : Shrinks before after
  sublist : kept.Sublist live
  peels : Peels Ok (described before seg live) (described before seg kept)

section

variable {Ok : Multiset WaitEdge → WaitEdge → Prop}

theorem Reduces.refl (link : Linked ctx seg live) : Reduces Ok seg ctx live ctx live :=
  ⟨link, .refl ctx, .refl _, .refl _⟩

variable {kept : List Ptr}

theorem Reduces.trans {mid middleLive} (first : Reduces Ok seg ctx live mid middleLive)
    (snd : Reduces Ok seg mid middleLive after kept) : Reduces Ok seg ctx live after kept := by
  refine ⟨snd.linked, first.shrinks.trans snd.shrinks,
    snd.sublist.trans first.sublist, first.peels.trans ?_⟩
  rw [← first.shrinks.described seg]
  exact snd.peels

variable {edge : Ptr}

theorem Reduces.unsupported {next} (monotone : MonotoneSupport Ok)
    (reduces : Reduces Ok seg ctx live next kept)
    (none : ¬ Ok (described ctx seg live) (describe ctx seg edge)) :
    ¬ Ok (described next seg kept) (describe next seg edge) := by
  intro supported
  rw [reduces.shrinks.described] at supported
  exact none (monotone _ _ _ reduces.peels.le (by
    simpa [describe, reduces.shrinks.waitEdge, reduces.shrinks.edges] using supported))

theorem Linked.unlink_reduces (link : Linked ctx seg live) (mem : edge ∈ live)
    (unsupported : ¬ Ok (described ctx seg live) (describe ctx seg edge)) :
    Reduces Ok seg ctx live (Gdd.unlink ctx edge) (live.erase edge) := by
  refine ⟨link.unlink mem, unlink_shrinks ctx edge, erase_sublist, ?_⟩
  refine .step (Multiset.mem_map_of_mem _ (Multiset.mem_coe.mpr mem)) unsupported ?_
  have erased : (described ctx seg live).erase (describe ctx seg edge) =
      described ctx seg (live.erase edge) := by
    unfold described
    rw [← Multiset.map_coe, ← Multiset.map_coe, ← Multiset.coe_erase,
      Multiset.map_erase_of_mem _ _ (Multiset.mem_coe.mpr mem)]
  rw [erased]
  exact .refl _

/-- The part of a loop result that does not depend on the loop. -/
structure LoopResult (Ok : Multiset WaitEdge → WaitEdge → Prop) (seg : Ptr → SegId) (ctx : GddCtx) (live : List Ptr) (dirty : Bool)
    (result : GddCtx × Bool) (kept : List Ptr) : Prop where
  reduces : Reduces Ok seg ctx live result.1 kept
  graphs : result.1.graphs = ctx.graphs
  progress : result.2 = true → dirty = true ∨ kept.length < live.length
  clean : result.2 = false → result.1 = ctx ∧ kept = live ∧ dirty = false

theorem LoopResult.refl (link : Linked ctx seg live) (dirty) :
    LoopResult Ok seg ctx live dirty (ctx, dirty) live :=
  ⟨.refl link, rfl, Or.inl, fun isClean => ⟨rfl, rfl, isClean⟩⟩

theorem LoopResult.cons (link : Linked ctx seg live) (mem : edge ∈ live)
    (unsupported : ¬ Ok (described ctx seg live) (describe ctx seg edge)) {dirty res}
    (rest : LoopResult Ok seg (unlink ctx edge) (live.erase edge) true res kept) :
    LoopResult Ok seg ctx live dirty res kept := by
  have first := link.unlink_reduces mem unsupported
  refine ⟨first.trans rest.reduces, rest.graphs, fun _ => Or.inr ?_, fun isClean => ?_⟩
  · have := length_erase_of_mem mem
    have := length_pos_of_mem mem
    have := rest.reduces.sublist.length_le
    omega
  · have := (rest.clean isClean).2.2
    contradiction

theorem unlinkInEdges_result (monotone : MonotoneSupport Ok) (skip : GddEdge → Bool) (vert : Ptr)
    (rest : List Ptr) :
    ∀ {ctx} {live : List Ptr} (seen : List Ptr) (dirty : Bool),
      Linked ctx seg live → vert ∈ allVerts ctx →
      (ctx.verts.cell vert).edgesIn = seen ++ rest →
      (∀ edge ∈ rest, skip (ctx.edges.cell edge) = false →
        ¬ Ok (described ctx seg live) (describe ctx seg edge)) →
      ∃ kept, LoopResult Ok seg ctx live dirty (unlinkInEdges skip ctx seen rest dirty) kept ∧
        ((unlinkInEdges skip ctx seen rest dirty).1.verts.cell vert).edgesIn =
          seen ++ rest.filter (fun edge => skip (ctx.edges.cell edge)) := by
  induction rest with
  | nil =>
    intro ctx live seen dirty link _ list _
    exact ⟨live, .refl link dirty, by simpa [unlinkInEdges] using list⟩
  | cons edge rest ih =>
    intro ctx live seen dirty link inAll list bad
    cases held : skip (ctx.edges.cell edge) with
    | true =>
      obtain ⟨kept, res, left⟩ := ih (seen ++ [edge]) dirty link inAll
        (by simpa using list) fun other mem => bad other (mem_cons_of_mem _ mem)
      refine ⟨kept, ?_, ?_⟩
      · simpa [unlinkInEdges, held] using res
      · simpa [unlinkInEdges, held] using left
    | false =>
      obtain ⟨inLive, isTo⟩ := (link.mem_edgesIn inAll).mp (list ▸ mem_append_cons_self)
      have nodup : (seen ++ edge :: rest).Nodup := by
        rw [← list, link.edgesIn vert inAll]
        exact link.liveNodup.filter _
      have out : edge ∉ seen := by
        intro inSeen
        exact (nodup_append.mp nodup).2.2 edge inSeen edge (by simp) rfl
      have erased : (seen ++ edge :: rest).erase edge = seen ++ rest := by
        rw [erase_append_right _ out, erase_cons_head]
      have inPlace : gddEdgeUnlink ctx edge none (some ⟨seen, edge :: rest⟩) =
          unlink ctx edge := by
        apply gddEdgeUnlink_eq_unlink
        · intro iter impossible
          cases impossible
        · intro iter isIter
          cases isIter
          rw [isTo, list, erased]
          rfl
      have unsupported := bad edge (by simp) held
      have first := link.unlink_reduces inLive unsupported
      obtain ⟨kept, res, left⟩ := ih seen true (link.unlink inLive) (by rwa [unlink_allVerts])
        (by rw [unlink_edgesIn, if_pos isTo, list, erased]) fun other mem notHeld =>
          first.unsupported monotone (bad other (mem_cons_of_mem _ mem) notHeld)
      refine ⟨kept, ?_, ?_⟩
      · simp only [unlinkInEdges, held, inPlace]
        exact .cons link inLive unsupported res
      · simp only [unlinkInEdges, inPlace]
        simpa [held] using left

theorem unlinkOutEdges_result (monotone : MonotoneSupport Ok) (vert : Ptr) (rest : List Ptr) :
    ∀ {ctx live} (dirty : Bool), Linked ctx seg live → vert ∈ allVerts ctx →
      (ctx.verts.cell vert).edgesOut = rest →
      (∀ edge ∈ rest, ¬ Ok (described ctx seg live) (describe ctx seg edge)) →
      ∃ kept, LoopResult Ok seg ctx live dirty (unlinkOutEdges ctx rest dirty) kept ∧
        ((unlinkOutEdges ctx rest dirty).1.verts.cell vert).edgesOut = [] := by
  induction rest with
  | nil =>
    intro ctx live dirty link _ list _
    exact ⟨live, .refl link dirty, list⟩
  | cons edge rest ih =>
    intro ctx live dirty link inAll list bad
    obtain ⟨inLive, isFrom⟩ := (link.mem_edgesOut inAll).mp (list ▸ mem_cons_self)
    have inPlace : gddEdgeUnlink ctx edge (some ⟨[], edge :: rest⟩) none = unlink ctx edge := by
      apply gddEdgeUnlink_eq_unlink
      · intro iter isIter
        cases isIter
        rw [isFrom, list, erase_cons_head]
        rfl
      · intro iter impossible
        cases impossible
    have unsupported := bad edge (by simp)
    have first := link.unlink_reduces inLive unsupported
    obtain ⟨kept, res, left⟩ := ih true (link.unlink inLive) (by rwa [unlink_allVerts])
      (by rw [unlink_edgesOut, if_pos isFrom, list, erase_cons_head]) fun other mem =>
        first.unsupported monotone (bad other (mem_cons_of_mem _ mem))
    refine ⟨kept, ?_, ?_⟩
    · simp only [unlinkOutEdges, inPlace]
      exact .cons link inLive unsupported res
    · simpa only [unlinkOutEdges, inPlace] using left

variable {vert : Ptr}

private theorem progress_trans {middleLive : List Ptr} {dirty changed done : Bool}
    (middleSub : middleLive.Sublist live) (keptSub : kept.Sublist middleLive)
    (first : changed = true → dirty = true ∨ middleLive.length < live.length)
    (rest : done = true → changed = true ∨ kept.length < middleLive.length) :
    done = true → dirty = true ∨ kept.length < live.length := by
  intro isFinished
  have := middleSub.length_le
  have := keptSub.length_le
  rcases rest isFinished with old | shorter
  · exact (first old).imp_right fun shorter => by omega
  · exact Or.inr (by omega)

theorem gddVertUnlinkAll_result (monotone : MonotoneSupport Ok) (link : Linked ctx seg live)
    (inAll : vert ∈ allVerts ctx)
    (bad : ∀ edge ∈ live, (ctx.edges.cell edge).from_ = vert ∨ (ctx.edges.cell edge).to_ = vert →
      ¬ Ok (described ctx seg live) (describe ctx seg edge)) :
    ∃ kept, LoopResult Ok seg ctx live false (gddVertUnlinkAll ctx vert) kept ∧
      ∀ edge ∈ kept, (ctx.edges.cell edge).from_ ≠ vert ∧ (ctx.edges.cell edge).to_ ≠ vert := by
  obtain ⟨middleLive, inResult, inLeft⟩ := unlinkInEdges_result monotone (fun _ => false) vert
    (ctx.verts.cell vert).edgesIn [] false link inAll (by simp) (by
      intro edge mem _
      obtain ⟨inLive, isTo⟩ := (link.mem_edgesIn inAll).mp mem
      exact bad edge inLive (Or.inr isTo))
  unfold gddVertUnlinkAll
  generalize unlinkInEdges (fun _ => false) ctx [] (ctx.verts.cell vert).edgesIn false = mid
    at inResult inLeft ⊢
  obtain ⟨mid, middleDirty⟩ := mid
  obtain ⟨reduces, sameGraphs, progress, clean⟩ := inResult
  simp only at reduces sameGraphs progress clean inLeft ⊢
  have middleIn : vert ∈ allVerts mid := by
    simpa [allVerts, sameGraphs] using inAll
  obtain ⟨kept, outResult, outLeft⟩ := unlinkOutEdges_result monotone vert
    (mid.verts.cell vert).edgesOut middleDirty reduces.linked middleIn rfl (by
      intro edge mem
      obtain ⟨inMiddle, isFrom⟩ := (reduces.linked.mem_edgesOut middleIn).mp mem
      rw [reduces.shrinks.edges] at isFrom
      exact reduces.unsupported monotone
        (bad edge (reduces.sublist.subset inMiddle) (Or.inl isFrom)))
  have finalIn : vert ∈ allVerts (unlinkOutEdges mid (mid.verts.cell vert).edgesOut
      middleDirty).1 := by
    simpa [allVerts, outResult.graphs] using middleIn
  refine ⟨kept, ⟨reduces.trans outResult.reduces, outResult.graphs.trans sameGraphs,
    progress_trans reduces.sublist outResult.reduces.sublist progress outResult.progress, ?_⟩, ?_⟩
  · intro isClean
    obtain ⟨sameCtx, sameLive, inClean⟩ := outResult.clean isClean
    obtain ⟨sameCtx', sameLive', -⟩ := clean inClean
    exact ⟨sameCtx.trans sameCtx', sameLive.trans sameLive', rfl⟩
  · intro edge mem
    have noOut := (outResult.reduces.linked.edgesOut_eq_nil finalIn).mp outLeft edge mem
    rw [filter_false, append_nil, reduces.linked.edgesIn_eq_nil middleIn] at inLeft
    have noIn := inLeft edge (outResult.reduces.sublist.subset mem)
    rw [(reduces.trans outResult.reduces).shrinks.edges] at noOut
    exact ⟨noOut, reduces.shrinks.edges ▸ noIn⟩

/-- The support rules hold at a vertex for every linked edge that touches it. -/
structure Settled (ctx : GddCtx) (live : List Ptr) (vert : Ptr) : Prop where
  globalDegrees : ∀ edge ∈ live,
    (ctx.edges.cell edge).from_ = vert ∨ (ctx.edges.cell edge).to_ = vert →
      (∃ other ∈ live, holderId ctx other = (ctx.verts.cell vert).id) ∧
      ∃ other ∈ live, waiterId ctx other = (ctx.verts.cell vert).id
  localDegree : ∀ edge ∈ live, (ctx.edges.cell edge).to_ = vert →
    (ctx.edges.cell edge).solid = false → ∃ other ∈ live, (ctx.edges.cell other).from_ = vert

theorem Shrinks.settled_iff (shrinks : Shrinks ctx after) :
    Settled after live vert ↔ Settled ctx live vert := by
  constructor
  all_goals
    rintro ⟨globalDegrees, localDegree⟩
    refine ⟨?_, ?_⟩
    · simpa only [shrinks.edges, shrinks.waiterId, shrinks.holderId, shrinks.ids]
        using globalDegrees
    · simpa only [shrinks.edges] using localDegree

theorem settled_of_untouched (same : ∀ edge ∈ live,
      (ctx.edges.cell edge).from_ ≠ vert ∧ (ctx.edges.cell edge).to_ ≠ vert) :
    Settled ctx live vert := by
  constructor
  · intro edge mem touches
    rcases touches with isFrom | isTo
    · exact absurd isFrom (same edge mem).1
    · exact absurd isTo (same edge mem).2
  · intro edge mem isTo
    exact absurd isTo (same edge mem).2

theorem Linked.selfSupporting (link : Linked ctx seg live)
    (settled : ∀ vert ∈ allVerts ctx, Settled ctx live vert) :
    SelfSupporting Supported (described ctx seg live) := by
  intro waitEdge mem
  obtain ⟨edge, inLive, rfl⟩ := mem_map.mp (show waitEdge ∈
    Multiset.map (describe ctx seg) (live : Multiset Ptr) from mem)
  have lift : ∀ {p : WaitEdge → Prop} {other : Ptr}, other ∈ live → p (describe ctx seg other) →
      ∃ found ∈ described ctx seg live, p found := fun inOther holds =>
    ⟨_, Multiset.mem_coe.mpr (mem_map_of_mem inOther), holds⟩
  obtain ⟨fromIn, toIn, sameSeg⟩ := link.ends edge inLive
  obtain ⟨⟨_, intoLive, isInto⟩, ⟨_, outLive, isOut⟩⟩ :=
    (settled _ fromIn).globalDegrees edge inLive (Or.inl rfl)
  obtain ⟨⟨_, intoLive', isInto'⟩, ⟨_, outLive', isOut'⟩⟩ :=
    (settled _ toIn).globalDegrees edge inLive (Or.inr rfl)
  refine ⟨⟨lift intoLive isInto, lift outLive isOut⟩,
    ⟨lift intoLive' isInto', lift outLive' isOut'⟩, fun dotted => ?_⟩
  obtain ⟨_, nextLive, isNext⟩ := (settled _ toIn).localDegree edge inLive rfl dotted
  refine lift nextLive ⟨?_, ?_⟩
  · simp only [describe, waitEdge, waiterId, holderId, isNext]
  · simp only [describe, waitEdge, isNext, sameSeg]

theorem exists_of_countP_ne_zero {keep} {count : Int} (counts : count = live.countP keep)
    (nonzero : count ≠ 0) : ∃ edge ∈ live, keep edge := by
  apply countP_pos_iff.mp
  omega

theorem Linked.global_counts (link : Linked ctx seg live) (inLive : edge ∈ live)
    (touches : (ctx.edges.cell edge).from_ = vert ∨ (ctx.edges.cell edge).to_ = vert) :
    (ctx.stats.cell (ctx.verts.cell vert).global).outdeg =
        live.countP (fun other => waiterId ctx other == (ctx.verts.cell vert).id) ∧
      (ctx.stats.cell (ctx.verts.cell vert).global).indeg =
        live.countP (fun other => holderId ctx other == (ctx.verts.cell vert).id) := by
  have bound : ((ctx.verts.cell vert).id, (ctx.verts.cell vert).global) ∈ ctx.globals := by
    rcases touches with isFrom | isTo
    · subst isFrom
      exact link.boundFrom edge inLive
    · subst isTo
      exact link.boundTo edge inLive
  exact ⟨link.outdeg _ bound, link.indeg _ bound⟩

theorem Linked.solid_of_sink (link : Linked ctx seg live) (inAll : vert ∈ allVerts ctx)
    (noOut : ∀ other ∈ live, (ctx.edges.cell other).from_ ≠ vert) (inLive : edge ∈ live)
    (isTo : (ctx.edges.cell edge).to_ = vert)
    (supported : Supported (described ctx seg live) (describe ctx seg edge)) :
    (ctx.edges.cell edge).solid = true := by
  by_contra notSolid
  obtain ⟨_, inFound, sameVid, sameSegid⟩ := supported.2.2 (eq_false_of_ne_true notSolid)
  obtain ⟨other, inOther, rfl⟩ := mem_map.mp (Multiset.mem_coe.mp inFound)
  apply noOut other inOther
  -- an out edge of the same id on the same segment starts at this very vertex
  apply link.vert_unique (link.ends other inOther).1 inAll
  · rw [← isTo, (link.ends edge inLive).2.2]
    exact sameSegid
  · rw [← isTo]
    exact sameVid

/-- `gddVertReduce` deletes unsupported edges only; when it reports no deletion
the vertex is settled. -/
theorem gddVertReduce_result (link : Linked ctx seg live) (inAll : vert ∈ allVerts ctx) :
    ∃ kept, LoopResult Supported seg ctx live false (gddVertReduce ctx vert) kept ∧
      ((gddVertReduce ctx vert).2 = false → Settled ctx live vert) := by
  unfold gddVertReduce
  by_cases global : (ctx.stats.cell (ctx.verts.cell vert).global).indeg = 0 ∨
      (ctx.stats.cell (ctx.verts.cell vert).global).outdeg = 0
  · simp only [global]
    obtain ⟨kept, res, untouched⟩ := gddVertUnlinkAll_result supported_monotone link inAll (by
      intro edge inLive touches supported
      obtain ⟨outCount, inCount⟩ := link.global_counts inLive touches
      have none_of_zero : ∀ {keep : Ptr → Bool} {count : Int}, count = live.countP keep →
          count = 0 → ∀ other ∈ live, keep other = false := by
        intro keep count _ zero other inOther
        have noCount : live.countP keep = 0 := by omega
        simpa using countP_eq_zero.mp noCount other inOther
      obtain ⟨⟨waiterIn, _⟩, ⟨_, holderOut⟩, -⟩ := supported
      have absent : ∀ {p : WaitEdge → Prop}, (∃ found ∈ described ctx seg live, p found) →
          ∃ other ∈ live, p (describe ctx seg other) := by
        rintro p ⟨found, mem, holds⟩
        obtain ⟨other, inOther, rfl⟩ := mem_map.mp (Multiset.mem_coe.mp mem)
        exact ⟨other, inOther, holds⟩
      -- whichever counter is zero, one of the four required edges would have to be counted by it
      rcases global with zero | zero
      · have noIn := none_of_zero inCount zero
        rcases touches with isFrom | isTo
        · obtain ⟨other, inOther, isInto⟩ := absent waiterIn
          simp_all [describe, waitEdge, waiterId]
        · have := noIn edge inLive
          simp_all [holderId]
      · have noOut := none_of_zero outCount zero
        rcases touches with isFrom | isTo
        · have := noOut edge inLive
          simp_all [waiterId]
        · obtain ⟨other, inOther, _⟩ := absent holderOut
          simp_all [describe, waitEdge, holderId])
    refine ⟨kept, res, fun isClean => ?_⟩
    obtain ⟨-, sameLive, -⟩ := res.clean isClean
    subst sameLive
    exact settled_of_untouched untouched
  · simp only [global]
    obtain ⟨indegNonzero, outdegNonzero⟩ := not_or.mp global
    have globalDegrees : ∀ edge ∈ live,
        (ctx.edges.cell edge).from_ = vert ∨ (ctx.edges.cell edge).to_ = vert →
          (∃ other ∈ live, holderId ctx other = (ctx.verts.cell vert).id) ∧
          ∃ other ∈ live, waiterId ctx other = (ctx.verts.cell vert).id := by
      intro edge inLive touches
      obtain ⟨outCount, inCount⟩ := link.global_counts inLive touches
      constructor
      · simpa using exists_of_countP_ne_zero inCount indegNonzero
      · simpa using exists_of_countP_ne_zero outCount outdegNonzero
    by_cases sink : gddVertGetOutDegree ctx vert = 0
    · simp only [sink]
      have noOut : ∀ other ∈ live, (ctx.edges.cell other).from_ ≠ vert := by
        rwa [gddVertGetOutDegree, length_eq_zero_iff, link.edgesOut_eq_nil inAll] at sink
      obtain ⟨kept, res, left⟩ := unlinkInEdges_result supported_monotone GddEdge.solid vert
        (ctx.verts.cell vert).edgesIn [] false link inAll (by simp) (by
          intro edge mem dotted supported
          obtain ⟨inLive, isTo⟩ := (link.mem_edgesIn inAll).mp mem
          simp [link.solid_of_sink inAll noOut inLive isTo supported] at dotted)
      refine ⟨kept, res, fun isClean => ⟨globalDegrees, ?_⟩⟩
      intro edge inLive isTo dotted
      obtain ⟨sameCtx, -, -⟩ := res.clean isClean
      rw [sameCtx] at left
      have inList := (link.mem_edgesIn inAll).mpr ⟨inLive, isTo⟩
      rw [left, nil_append, mem_filter, dotted] at inList
      exact absurd inList.2 (by decide)
    · simp only [sink]
      refine ⟨live, .refl link false, fun _ => ⟨globalDegrees, ?_⟩⟩
      intro edge _ _ _
      rw [gddVertGetOutDegree, length_eq_zero_iff, link.edgesOut_eq_nil inAll] at sink
      push Not at sink
      exact sink

end

/-! ### The reduction loop -/

theorem mem_allVerts_of_graph {graph} (found : gddMapGet ctx.graphs key = some graph) {pair}
    (mem : pair ∈ graph.verts) : pair.2 ∈ allVerts ctx :=
  mem_flatMap.mpr ⟨_, gddMapGet_mem found, mem_map_of_mem mem⟩

theorem Linked.gddMapGet_setGraphVerts {graph} (link : Linked ctx seg live)
    (found : gddMapGet ctx.graphs key = some graph) (verts) :
    gddMapGet (setGraphVerts ctx key verts).graphs key = some { graph with verts := verts } ∧
      ∀ other ≠ key, gddMapGet (setGraphVerts ctx key verts).graphs other =
        gddMapGet ctx.graphs other := by
  obtain ⟨_, _, split, setSplit⟩ := link.graphs_split found
  constructor
  · apply gddMapGet_of_mem
    · rw [(setGraphVerts_shrinks verts).keys]
      exact link.graphKeys
    · rw [setSplit]
      simp
  · intro other ne
    have skip : ((key : BitVec 64) == other) = false := by
      rw [beq_eq_false_iff_ne]
      exact ne.symm
    rw [setSplit, split]
    simp [gddMapGet, skip]

/-- What the inner loop over the vertices of one graph does. -/
structure VertsResult (seg : Ptr → SegId) (key : BitVec 64) (ctx : GddCtx) (live : List Ptr)
    (pos : Nat) (dirty : Bool) (result : GddCtx × Bool) (kept : List Ptr) : Prop where
  reduces : Reduces Supported seg ctx live result.1 kept
  found : ∃ graph, gddMapGet result.1.graphs key = some graph
  others : ∀ other ≠ key, gddMapGet result.1.graphs other = gddMapGet ctx.graphs other
  progress : result.2 = true → dirty = true ∨ kept.length < live.length
  clean : result.2 = false → kept = live ∧ dirty = false ∧
    (∀ i < pos, (graphVerts result.1 key)[i]? = (graphVerts ctx key)[i]?) ∧
    ∀ i pair, pos ≤ i → (graphVerts result.1 key)[i]? = some pair → Settled ctx live pair.2

theorem reduceVerts_result (key fuel) :
    ∀ {ctx} {live : List Ptr} {graph} (pos : Nat) (dirty : Bool),
      Linked ctx seg live → gddMapGet ctx.graphs key = some graph →
      fuel + pos = graph.verts.length →
      ∃ kept, VertsResult seg key ctx live pos dirty (reduceVerts key fuel ctx pos dirty) kept := by
  induction fuel with
  | zero =>
    intro ctx live graph pos dirty link found covered
    refine ⟨live, .refl link, ⟨graph, found⟩, fun _ _ => rfl, Or.inl, fun isClean =>
      ⟨rfl, isClean, fun _ _ => rfl, ?_⟩⟩
    intro i pair le atPos
    simp only [reduceVerts, graphVerts_eq found] at atPos
    obtain ⟨below, -⟩ := List.getElem?_eq_some_iff.mp atPos
    omega
  | succ fuel ih =>
    intro ctx live graph pos dirty link found covered
    have below : pos < graph.verts.length := by omega
    have atPos : graph.verts[pos]? = some graph.verts[pos] := getElem?_eq_getElem below
    generalize graph.verts[pos] = pair at atPos
    have inAll : pair.2 ∈ allVerts ctx :=
      mem_allVerts_of_graph found (mem_of_getElem? atPos)
    obtain ⟨middleLive, step, settles⟩ := gddVertReduce_result link inAll
    unfold reduceVerts
    simp only [graphVerts_eq found, atPos]
    generalize gddVertReduce ctx pair.2 = mid at step settles ⊢
    obtain ⟨mid, changed⟩ := mid
    obtain ⟨reduces, sameGraphs, progress, clean⟩ := step
    have middleFound : gddMapGet mid.graphs key = some graph := by rw [sameGraphs, found]
    have sameVerts : graphVerts mid key = graph.verts := graphVerts_eq middleFound
    have progress : (dirty || changed) = true → dirty = true ∨ middleLive.length < live.length :=
      fun either => ((Bool.or_eq_true _ _).mp either).imp_right fun isChanged =>
        (progress isChanged).resolve_left Bool.false_ne_true
    by_cases empty : gddVertGetInDegree mid pair.2 = 0 ∧ gddVertGetOutDegree mid pair.2 = 0
    · simp only [empty, and_self, if_true, sameVerts]
      have removed := reduces.linked.removeVert middleFound atPos
        (length_eq_zero_iff.mp empty.2) (length_eq_zero_iff.mp empty.1)
      obtain ⟨setFound, setOthers⟩ := reduces.linked.gddMapGet_setGraphVerts middleFound
        (gddMapIterDelete graph.verts pos)
      obtain ⟨kept, res⟩ := ih pos (dirty || changed) removed setFound (by
        simp only [(gddMapIterDelete_perm below).length_eq, length_eraseIdx_of_lt below]
        omega)
      refine ⟨kept, ?_, res.found, ?_, ?_, ?_⟩
      · refine reduces.trans (Reduces.trans ?_ res.reduces)
        exact ⟨removed, setGraphVerts_shrinks _, .refl _, .refl _⟩
      · intro other ne
        rw [res.others other ne, setOthers other ne, sameGraphs]
      · exact progress_trans reduces.sublist res.reduces.sublist progress res.progress
      · intro isClean
        obtain ⟨sameLive, wasClean, front, rest⟩ := res.clean isClean
        obtain ⟨notDirty, notChanged⟩ := Bool.or_eq_false_iff.mp wasClean
        obtain ⟨sameCtx, sameMiddle, -⟩ := clean notChanged
        subst sameCtx sameMiddle
        refine ⟨sameLive, notDirty, fun i pre => ?_, fun i other le atI => ?_⟩
        · rw [front i pre, graphVerts_eq setFound, gddMapIterDelete_getElem? below pre,
            graphVerts_eq found]
        · exact (setGraphVerts_shrinks _).settled_iff.mp (rest i other le atI)
    · simp only [empty, if_false]
      obtain ⟨kept, res⟩ := ih (pos + 1) (dirty || changed) reduces.linked middleFound (by omega)
      refine ⟨kept, reduces.trans res.reduces, res.found, ?_, ?_, ?_⟩
      · intro other ne
        rw [res.others other ne, sameGraphs]
      · exact progress_trans reduces.sublist res.reduces.sublist progress res.progress
      · intro isClean
        obtain ⟨sameLive, wasClean, front, rest⟩ := res.clean isClean
        obtain ⟨notDirty, notChanged⟩ := Bool.or_eq_false_iff.mp wasClean
        obtain ⟨sameCtx, sameMiddle, -⟩ := clean notChanged
        subst sameCtx sameMiddle
        refine ⟨sameLive, notDirty, fun i pre => front i (by omega), fun i other le atI => ?_⟩
        rcases lt_or_ge pos i with later | _
        · exact rest i other later atI
        · have isPos : i = pos := by omega
          rw [isPos, front pos (by omega), graphVerts_eq found, atPos, Option.some.injEq] at atI
          subst atI
          exact settles notChanged

structure PassResult (seg : Ptr → SegId) (keys : List (BitVec 64)) (ctx : GddCtx)
    (live : List Ptr) (dirty : Bool) (result : GddCtx × Bool) (kept : List Ptr) : Prop where
  reduces : Reduces Supported seg ctx live result.1 kept
  others : ∀ other ∉ keys, gddMapGet result.1.graphs other = gddMapGet ctx.graphs other
  progress : result.2 = true → dirty = true ∨ kept.length < live.length
  clean : result.2 = false → kept = live ∧ dirty = false ∧
    ∀ key ∈ keys, ∀ pair ∈ graphVerts result.1 key, Settled ctx live pair.2

theorem reduceGraphs_result (keys) :
    ∀ {ctx live} (dirty : Bool), keys.Nodup → Linked ctx seg live →
      (∀ key ∈ keys, ∃ graph, gddMapGet ctx.graphs key = some graph) →
      ∃ kept, PassResult seg keys ctx live dirty
        (keys.foldl (fun state key => reduceVerts key (graphVerts state.1 key).length state.1 0
          state.2) (ctx, dirty)) kept := by
  induction keys with
  | nil =>
    intro ctx live dirty _ link _
    exact ⟨live, .refl link, fun _ _ => rfl, Or.inl, fun isClean => ⟨rfl, isClean, by simp⟩⟩
  | cons key keys ih =>
    intro ctx live dirty nodup link found
    obtain ⟨fresh, restNodup⟩ := nodup_cons.mp nodup
    obtain ⟨graph, graphFound⟩ := found key (by simp)
    obtain ⟨middleLive, first⟩ := reduceVerts_result key (graphVerts ctx key).length 0 dirty
      link graphFound (by rw [graphVerts_eq graphFound]; rfl)
    rw [foldl_cons]
    generalize reduceVerts key (graphVerts ctx key).length ctx 0 dirty = mid at first ⊢
    obtain ⟨mid, middleDirty⟩ := mid
    have ne : ∀ other ∈ keys, other ≠ key := fun other mem same =>
      fresh (same ▸ mem)
    obtain ⟨kept, rest⟩ := ih middleDirty restNodup first.reduces.linked (by
      intro other mem
      rw [first.others other (ne other mem)]
      exact found other (mem_cons_of_mem _ mem))
    refine ⟨kept, first.reduces.trans rest.reduces, ?_, progress_trans first.reduces.sublist
      rest.reduces.sublist first.progress rest.progress, ?_⟩
    · intro other out
      rw [mem_cons, not_or] at out
      rw [rest.others other out.2, first.others other out.1]
    · intro isClean
      obtain ⟨sameKept, middleClean, restSettled⟩ := rest.clean isClean
      obtain ⟨sameMiddle, notDirty, -, settled⟩ := first.clean middleClean
      refine ⟨sameKept.trans sameMiddle, notDirty, ?_⟩
      intro other mem pair inVerts
      rcases mem_cons.mp mem with isKey | inKeys
      · subst isKey
        rw [graphVerts, rest.others other fresh, ← graphVerts] at inVerts
        obtain ⟨i, atI⟩ := mem_iff_getElem?.mp inVerts
        exact settled i pair (Nat.zero_le _) atI
      · have inMiddle := restSettled other inKeys pair inVerts
        rw [sameMiddle] at inMiddle
        exact first.reduces.shrinks.settled_iff.mp inMiddle

/-- One pass of the `while (dirty)` loop: progress, or all edges support each
other. -/
theorem reducePass_result (link : Linked ctx seg live) :
    ∃ kept, Reduces Supported seg ctx live (reducePass ctx).1 kept ∧
      ((reducePass ctx).2 = true → kept.length < live.length) ∧
      ((reducePass ctx).2 = false → kept = live ∧
        SelfSupporting Supported (described ctx seg live)) := by
  obtain ⟨kept, res⟩ := reduceGraphs_result (ctx.graphs.map Prod.fst) false link.graphKeys link (by
      intro _ mem
      obtain ⟨pair, inGraphs, rfl⟩ := mem_map.mp mem
      exact ⟨pair.2, gddMapGet_of_mem link.graphKeys inGraphs⟩)
  refine ⟨kept, res.reduces, fun isDirty => ?_, fun isClean => ?_⟩
  · rcases res.progress isDirty with _ | shorter
    · contradiction
    · exact shorter
  · obtain ⟨sameLive, -, settled⟩ := res.clean isClean
    refine ⟨sameLive, ?_⟩
    subst sameLive
    have after := res.reduces.linked
    rw [← res.reduces.shrinks.described]
    apply after.selfSupporting
    intro _ mem
    rw [res.reduces.shrinks.settled_iff]
    obtain ⟨graph, inGraphs, inVerts⟩ := mem_flatMap.mp mem
    obtain ⟨pair, inPairs, rfl⟩ := mem_map.mp inVerts
    apply settled graph.1 _ pair
    · rw [graphVerts_eq (gddMapGet_of_mem after.graphKeys inGraphs)]
      exact inPairs
    · rw [← res.reduces.shrinks.keys]
      exact mem_map_of_mem inGraphs

/-- `GddCtxReduce` returns; what it leaves is peeled from what it got and
supports itself. -/
theorem gddCtxReduce_result (link : Linked ctx seg live) :
    ∃ fuel after kept, gddCtxReduce fuel ctx = some after ∧ Reduces Supported seg ctx live after kept ∧
      SelfSupporting Supported (described ctx seg kept) := by
  let Inv : GddCtx × Bool → Prop := fun state => ∃ kept, Reduces Supported seg ctx live state.1 kept ∧
    (state.2 = false → SelfSupporting Supported (described ctx seg kept))
  have initial : Inv (ctx, true) := ⟨live, .refl link, by simp⟩
  obtain ⟨res, ret, ⟨kept, reduces, done⟩, stopped⟩ :=
    @whileFuel_terminates _ Prod.snd (fun state => some (reducePass state.1)) Inv
      (fun state => state.1.topstat.indeg.toNat + state.2.toNat) (by
        rintro ⟨state, _⟩ ⟨_, first, -⟩ isDirty
        obtain ⟨kept, pass, progress, clean⟩ := reducePass_result first.linked
        refine ⟨_, rfl, ⟨kept, first.trans pass, fun isClean => ?_⟩, ?_⟩
        · obtain ⟨sameLive, supporting⟩ := clean isClean
          rw [sameLive, ← first.shrinks.described]
          exact supporting
        · have pre := first.linked.topIndeg
          have after := pass.linked.topIndeg
          have := pass.sublist.length_le
          simp only at isDirty pre after
          subst isDirty
          cases flag : (reducePass state).2 with
          | true =>
            have := progress flag
            simp only [pre]
            omega
          | false =>
            simp only [Bool.toNat_true, Bool.toNat_false]
            omega) (ctx, true) initial
  exact ⟨ctx.topstat.indeg.toNat + true.toNat + 1, res.1, kept,
    congrArg (Option.map Prod.fst) ret, reduces, done stopped⟩

end Greengage.Gdd
