import Greengage.Gdd.Detection

/-!
Contract: `GddCtxBreakDeadLock`.

The loop depends on the chosen 64-bit id surviving the `int` return type of
`gddCtxGetMaxVid`.
-/

namespace Greengage.Gdd

open Option List Greengage.Foundations Or Multiset

/-! ### Removing a vertex id -/

def Touches (vid : DistributedTransactionId) (edge : WaitEdge) : Prop :=
  edge.waiter = vid ∨ edge.holder = vid

instance (vid : DistributedTransactionId) : DecidablePred (Touches vid) := fun _ =>
  inferInstanceAs (Decidable (_ ∨ _))

def Avoids (vid : DistributedTransactionId) (_ : Multiset WaitEdge) (edge : WaitEdge) : Prop :=
  ¬ Touches vid edge

theorem avoids_monotone (vid) : MonotoneSupport (Avoids vid) :=
  fun _ _ _ _ => id

variable {seg : Ptr → SegId} {ctx : GddCtx} {live : List Ptr}

section

variable {key : BitVec 64} {graph : GddGraph}

theorem Linked.mem_graph_of_seg (link : Linked ctx seg live)
    (found : gddMapGet ctx.graphs key = some graph) {vert} (inAll : vert ∈ allVerts ctx)
    (sameSeg : seg vert = graph.id) : ∃ pair ∈ graph.verts, pair.2 = vert := by
  obtain ⟨other, inGraphs, inVerts⟩ := mem_flatMap.mp inAll
  obtain ⟨pair, inPairs, rfl⟩ := mem_map.mp inVerts
  have sameId := (link.vertIds other inGraphs pair inPairs).2.symm.trans sameSeg
  have isKey : other.1 = key := by
    rw [link.graphIds other inGraphs, sameId]
    exact (link.graphIds (key, graph) (gddMapGet_mem found)).symm
  have same := inj_on_of_nodup_map link.graphKeys inGraphs (gddMapGet_mem found) isKey
  exact ⟨pair, by rw [same] at inPairs; exact inPairs, rfl⟩

/-- Removing an id from one graph deletes edges of this id only, and leaves
none of them on the segment. -/
theorem gddGraphRemoveVid_result (vid) (link : Linked ctx seg live)
    (found : gddMapGet ctx.graphs key = some graph) :
    ∃ kept, Reduces (Avoids vid) seg ctx live (gddGraphRemoveVid ctx key vid) kept ∧
      (∀ edge ∈ kept, ∀ vert,
        (ctx.edges.cell edge).from_ = vert ∨ (ctx.edges.cell edge).to_ = vert →
          seg vert = graph.id → (ctx.verts.cell vert).id ≠ vid) ∧
      ∀ other old, gddMapGet ctx.graphs other = some old →
        ∃ next, gddMapGet (gddGraphRemoveVid ctx key vid).graphs other = some next ∧
          next.id = old.id := by
  unfold gddGraphRemoveVid
  rw [graphVerts_eq found]
  have endIn : ∀ edge ∈ live, ∀ vert,
      (ctx.edges.cell edge).from_ = vert ∨ (ctx.edges.cell edge).to_ = vert →
        vert ∈ allVerts ctx := by
    rintro edge inLive vert (rfl | rfl)
    · exact (link.ends edge inLive).1
    · exact (link.ends edge inLive).2.1
  cases search : graph.verts.findIdx? fun pair => (ctx.verts.cell pair.2).id == vid with
  | none =>
    rw [findIdx?_eq_none_iff] at search
    refine ⟨live, .refl link, ?_, fun _ old isOld => ⟨old, isOld, rfl⟩⟩
    intro edge inLive vert isEnd sameSeg
    obtain ⟨pair, inPairs, rfl⟩ :=
      link.mem_graph_of_seg found (endIn edge inLive vert isEnd) sameSeg
    simpa using search pair inPairs
  | some pos =>
    obtain ⟨below, isVid, -⟩ := findIdx?_eq_some_iff_getElem.mp search
    have atPos : graph.verts[pos]? = some graph.verts[pos] := getElem?_eq_getElem below
    generalize graph.verts[pos] = pair at atPos isVid
    have isVid : (ctx.verts.cell pair.2).id = vid := by simpa using isVid
    simp only [atPos]
    have inAll := mem_allVerts_of_graph found (mem_of_getElem? atPos)
    obtain ⟨kept, res, same⟩ := gddVertUnlinkAll_result (avoids_monotone vid) link inAll (by
        intro edge _ touches avoids
        apply avoids
        rcases touches with isFrom | isTo
        · exact inl (by simpa only [describe, waitEdge, waiterId, isFrom] using isVid)
        · exact inr (by simpa only [describe, waitEdge, holderId, isTo] using isVid))
    obtain ⟨reduces, sameGraphs, -, -⟩ := res
    generalize (gddVertUnlinkAll ctx pair.2).1 = mid at reduces sameGraphs ⊢
    have middleFound : gddMapGet mid.graphs key = some graph := by rw [sameGraphs, found]
    have middleIn := mem_allVerts_of_graph middleFound (mem_of_getElem? atPos)
    rw [graphVerts_eq middleFound]
    have noOut := (reduces.linked.edgesOut_eq_nil middleIn).mpr fun edge inKept =>
      reduces.shrinks.edges ▸ (same edge inKept).1
    have noIn := (reduces.linked.edgesIn_eq_nil middleIn).mpr fun edge inKept =>
      reduces.shrinks.edges ▸ (same edge inKept).2
    have removed := reduces.linked.removeVert middleFound atPos noOut noIn
    obtain ⟨setFound, setOthers⟩ := reduces.linked.gddMapGet_setGraphVerts middleFound
      (gddMapIterDelete graph.verts pos)
    refine ⟨kept, reduces.trans ⟨removed, setGraphVerts_shrinks _, .refl _, .refl _⟩, ?_, ?_⟩
    · intro edge inKept vert isEnd sameSeg sameVid
      -- the vertex of this id on this segment is the one that was removed
      have isPair : vert = pair.2 := by
        apply link.vert_unique (endIn edge (reduces.sublist.subset inKept) vert isEnd) inAll
        · rw [sameSeg]
          exact (link.vertIds _ (gddMapGet_mem found) pair (mem_of_getElem? atPos)).2.symm
        · rw [sameVid, isVid]
      subst isPair
      rcases isEnd with isFrom | isTo
      · exact (same edge inKept).1 isFrom
      · exact (same edge inKept).2 isTo
    · intro other old isOld
      by_cases isKey : other = key
      · subst isKey
        rw [found, some.injEq] at isOld
        subst isOld
        exact ⟨_, setFound, rfl⟩
      · rw [setOthers other isKey, sameGraphs]
        exact ⟨old, isOld, rfl⟩

theorem removeVid_fold_result (vid) (keys : List (BitVec 64)) :
    ∀ {ctx live}, Linked ctx seg live →
      (∀ key ∈ keys, ∃ graph, gddMapGet ctx.graphs key = some graph) →
      ∃ kept, Reduces (Avoids vid) seg ctx live
          (keys.foldl (fun ctx key => gddGraphRemoveVid ctx key vid) ctx) kept ∧
        ∀ edge ∈ kept, ∀ key ∈ keys, ∀ graph, gddMapGet ctx.graphs key = some graph →
          ∀ vert, (ctx.edges.cell edge).from_ = vert ∨ (ctx.edges.cell edge).to_ = vert →
            seg vert = graph.id → (ctx.verts.cell vert).id ≠ vid := by
  induction keys with
  | nil =>
    intro ctx live link _
    exact ⟨live, .refl link, by simp⟩
  | cons key keys ih =>
    intro ctx live link found
    obtain ⟨graph, isGraph⟩ := found key (by simp)
    obtain ⟨middleLive, first, firstClear, stays⟩ := gddGraphRemoveVid_result vid link isGraph
    obtain ⟨kept, rest, restClear⟩ := ih first.linked (by
      intro other mem
      obtain ⟨old, isOld⟩ := found other (mem_cons_of_mem _ mem)
      obtain ⟨next, isNext, -⟩ := stays other old isOld
      exact ⟨next, isNext⟩)
    refine ⟨kept, first.trans rest, ?_⟩
    intro edge inKept other mem old isOld vert isEnd sameSeg
    rcases mem_cons.mp mem with isKey | inKeys
    · subst isKey
      rw [isGraph, some.injEq] at isOld
      subst isOld
      exact firstClear edge (rest.sublist.subset inKept) vert isEnd sameSeg
    · obtain ⟨next, isNext, sameId⟩ := stays other old isOld
      rw [← first.shrinks.ids]
      exact restClear edge inKept other inKeys next isNext vert
        (by rw [first.shrinks.edges]; exact isEnd) (sameSeg.trans sameId.symm)

/-- `gddCtxRemoveVid` removes exactly the edges of the id. -/
theorem Linked.gddCtxRemoveVid_result (link : Linked ctx seg live) (vid) :
    ∃ kept, Linked (gddCtxRemoveVid ctx vid) seg kept ∧ linkedEdges (gddCtxRemoveVid ctx vid) =
        (linkedEdges ctx).filter fun edge => ¬ Touches vid edge := by
  obtain ⟨kept, reduces, clear⟩ := removeVid_fold_result vid (ctx.graphs.map Prod.fst) link (by
    intro _ mem
    obtain ⟨pair, inGraphs, rfl⟩ := mem_map.mp mem
    exact ⟨pair.2, gddMapGet_of_mem link.graphKeys inGraphs⟩)
  have endClear : ∀ edge ∈ kept, ∀ vert,
      (ctx.edges.cell edge).from_ = vert ∨ (ctx.edges.cell edge).to_ = vert →
        vert ∈ allVerts ctx → (ctx.verts.cell vert).id ≠ vid := by
    intro edge inKept vert isEnd inAll
    obtain ⟨graph, inGraphs, inVerts⟩ := mem_flatMap.mp inAll
    obtain ⟨pair, inPairs, rfl⟩ := mem_map.mp inVerts
    exact clear edge inKept graph.1 (mem_map_of_mem inGraphs) graph.2
      (gddMapGet_of_mem link.graphKeys inGraphs) pair.2 isEnd
      (link.vertIds graph inGraphs pair inPairs).2
  have done : SelfSupporting (Avoids vid) (described ctx seg kept) := by
    intro _ mem
    obtain ⟨edge, inKept, rfl⟩ := mem_map.mp (mem_coe.mp mem)
    obtain ⟨fromIn, toIn, -⟩ := link.ends edge (reduces.sublist.subset inKept)
    rintro (isWaiter | isHolder)
    · exact endClear edge inKept _ (inl rfl) fromIn isWaiter
    · exact endClear edge inKept _ (inr rfl) toIn isHolder
  refine ⟨kept, reduces.linked, ?_⟩
  have greatest := reduces.peels.isGreatest (avoids_monotone vid) done
  change linkedEdges ((ctx.graphs.map Prod.fst).foldl _ ctx) = _
  rw [reduces.linked.linkedEdges_described, reduces.shrinks.described, link.linkedEdges_described]
  refine greatest.unique ⟨⟨filter_le _ _, fun edge mem => ?_⟩, ?_⟩
  · exact (Multiset.mem_filter.mp mem).2
  · rintro _ ⟨sub, avoiding⟩
    exact le_filter.mpr ⟨sub, avoiding⟩

end

/-! ### The chosen id -/

def edgeIds (ctx : GddCtx) : Set DistributedTransactionId :=
  {vid | ∃ vert ∈ allVerts ctx,
    (gddVertGetInDegree ctx vert ≠ 0 ∨ gddVertGetOutDegree ctx vert ≠ 0) ∧
      (ctx.verts.cell vert).id = vid}

theorem Linked.mem_edgeIds_iff (link : Linked ctx seg live) (vid) :
    vid ∈ edgeIds ctx ↔ ∃ edge ∈ linkedEdges ctx, Touches vid edge := by
  rw [link.linkedEdges_described]
  constructor
  · rintro ⟨_, inAll, hasEdge, rfl⟩
    simp only [gddVertGetInDegree, gddVertGetOutDegree, ne_eq, length_eq_zero_iff,
      link.edgesIn_eq_nil inAll, link.edgesOut_eq_nil inAll, not_forall, not_not] at hasEdge
    rcases hasEdge with ⟨edge, inLive, isTo⟩ | ⟨edge, inLive, isFrom⟩
    · refine ⟨_, mem_coe.mpr (mem_map_of_mem inLive), inr ?_⟩
      simp only [describe, waitEdge, holderId, isTo]
    · refine ⟨_, mem_coe.mpr (mem_map_of_mem inLive), inl ?_⟩
      simp only [describe, waitEdge, waiterId, isFrom]
  · rintro ⟨edge, mem, touches⟩
    obtain ⟨edge, inLive, rfl⟩ := mem_map.mp (mem_coe.mp mem)
    obtain ⟨fromIn, toIn, -⟩ := link.ends edge inLive
    rcases touches with isWaiter | isHolder
    · refine ⟨_, fromIn, inr ?_, isWaiter⟩
      rw [gddVertGetOutDegree, ne_eq, length_eq_zero_iff]
      exact ne_nil_of_mem ((link.mem_edgesOut fromIn).mpr ⟨inLive, rfl⟩)
    · refine ⟨_, toIn, inl ?_, isHolder⟩
      rw [gddVertGetInDegree, ne_eq, length_eq_zero_iff]
      exact ne_nil_of_mem ((link.mem_edgesIn toIn).mpr ⟨inLive, rfl⟩)

private theorem foldl_max_spec (has : Ptr → Prop) [DecidablePred has]
    (id : Ptr → DistributedTransactionId) (verts : List Ptr) :
    ∀ start, start ≤ verts.foldl (fun best vert =>
        if has vert then if id vert < best then best else id vert else best) start ∧
      (∀ vert ∈ verts, has vert → id vert ≤ verts.foldl (fun best vert =>
        if has vert then if id vert < best then best else id vert else best) start) ∧
      (verts.foldl (fun best vert =>
          if has vert then if id vert < best then best else id vert else best) start = start ∨
        ∃ vert ∈ verts, has vert ∧ id vert = verts.foldl (fun best vert =>
          if has vert then if id vert < best then best else id vert else best) start) := by
  induction verts with
  | nil =>
    intro start
    exact ⟨BitVec.le_refl start, by simp, inl rfl⟩
  | cons vert verts ih =>
    intro start
    rw [List.foldl_cons]
    generalize isNext : (if has vert then if id vert < start then start else id vert
      else start) = next
    have fromStart : start ≤ next ∧ (has vert → id vert ≤ next) ∧
        (next = start ∨ has vert ∧ id vert = next) := by
      subst isNext
      split
      case isTrue has =>
        split
        case isTrue below => exact ⟨BitVec.le_refl _, fun _ => BitVec.le_of_lt below, inl rfl⟩
        case isFalse notBelow =>
          exact ⟨BitVec.not_lt.mp notBelow, fun _ => BitVec.le_refl _, inr ⟨has, rfl⟩⟩
      case isFalse hasNot =>
        exact ⟨BitVec.le_refl _, fun has => absurd has hasNot, inl rfl⟩
    obtain ⟨grows, above, reach⟩ := ih next
    refine ⟨BitVec.le_trans fromStart.1 grows, ?_, ?_⟩
    · intro other mem hasOther
      rcases mem_cons.mp mem with isVert | inVerts
      · subst isVert
        exact BitVec.le_trans (fromStart.2.1 hasOther) grows
      · exact above other inVerts hasOther
    · rcases reach with same | ⟨other, inVerts, hasOther, isOther⟩
      · rcases fromStart.2.2 with isStart | ⟨hasVert, isVert⟩
        · exact inl (same.trans isStart)
        · exact inr ⟨vert, by simp, hasVert, isVert.trans same.symm⟩
      · exact inr ⟨other, mem_cons_of_mem _ inVerts, hasOther, isOther⟩

/-- `gddCtxGetMaxVid` truncates the largest id of a vertex with an edge. -/
theorem gddCtxGetMaxVid_spec (ne : (edgeIds ctx).Nonempty) :
    ∃ vid, IsGreatest (edgeIds ctx) vid ∧ gddCtxGetMaxVid ctx = vid.setWidth 32 := by
  obtain ⟨_, vert, inAll, hasEdge, rfl⟩ := ne
  obtain ⟨-, above, reach⟩ := foldl_max_spec
    (fun vert => gddVertGetInDegree ctx vert ≠ 0 ∨ gddVertGetOutDegree ctx vert ≠ 0)
    (fun vert => (ctx.verts.cell vert).id) (allVerts ctx) 0
  refine ⟨_, ⟨?_, ?_⟩, rfl⟩
  · rcases reach with isZero | ⟨other, inOther, hasOther, isOther⟩
    · refine ⟨vert, inAll, hasEdge, BitVec.le_antisymm (above vert inAll hasEdge) ?_⟩
      rw [isZero, BitVec.le_def]
      exact Nat.zero_le _
    · exact ⟨other, inOther, hasOther, isOther⟩
  · rintro _ ⟨other, inOther, hasOther, rfl⟩
    exact above other inOther hasOther

variable {vid : DistributedTransactionId}

theorem gddCtxGetMaxVid_eq (greatest : IsGreatest (edgeIds ctx) vid) :
    gddCtxGetMaxVid ctx = vid.setWidth 32 := by
  obtain ⟨_, otherGreatest, isOther⟩ := gddCtxGetMaxVid_spec ⟨vid, greatest.1⟩
  rw [isOther, BitVec.le_antisymm (greatest.2 otherGreatest.1) (otherGreatest.2 greatest.1)]

/-- The id is not changed by the return type `int` of `gddCtxGetMaxVid`. -/
def FitsInt (vid : DistributedTransactionId) : Prop := (vid.setWidth 32).signExtend 64 = vid

instance (vid : DistributedTransactionId) : Decidable (FitsInt vid) :=
  inferInstanceAs (Decidable (_ = _))

def LargestId (edges : Multiset WaitEdge) (vid : DistributedTransactionId) : Prop :=
  IsGreatest {other | ∃ edge ∈ edges, Touches other edge} vid

/-! ### The loop -/

/-- A run of the loop that always removes the largest id of a vertex with an
edge. -/
inductive RemovesLargest : GddCtx → List DistributedTransactionId → GddCtx → Prop
  | stop (ctx : GddCtx) : RemovesLargest ctx [] ctx
  | step {ctx next final : GddCtx} {vid : DistributedTransactionId}
      {vids : List DistributedTransactionId} {fuel : Nat}
      (greatest : IsGreatest (edgeIds ctx) vid)
      (reduced : gddCtxReduce fuel (gddCtxRemoveVid ctx vid) = some next)
      (rest : RemovesLargest next vids final) : RemovesLargest ctx (vid :: vids) final

/-- `GddCtxBreakDeadLock` returns with an empty graph and a strictly decreasing
list of ids, each the largest at its time. -/
def BreaksSoundly (ctx : GddCtx) : Prop :=
  ∃ fuel final vids, gddCtxBreakDeadLock fuel ctx = some (final, vids) ∧
    gddCtxEmpty final = true ∧ vids.Pairwise (· > ·) ∧ RemovesLargest ctx vids final

variable {fuel : Nat} {reduced : GddCtx}

theorem gddCtxReduce_mono {more} (le : fuel ≤ more)
    (ret : gddCtxReduce fuel ctx = some reduced) : gddCtxReduce more ctx = some reduced := by
  unfold gddCtxReduce at *
  obtain ⟨_, isState, rfl⟩ := map_eq_some_iff.mp ret
  rw [whileFuel_mono (fun _ _ => id) le isState, map_some]

theorem gddCtxReduce_unique {fuel' left right} (leftReturned : gddCtxReduce fuel ctx = some left)
    (rightReturned : gddCtxReduce fuel' ctx = some right) : left = right := by
  have leftMax := gddCtxReduce_mono (le_max_left fuel fuel') leftReturned
  have rightMax := gddCtxReduce_mono (le_max_right fuel fuel') rightReturned
  rw [leftMax] at rightMax
  exact some.inj rightMax

theorem breakStep_iff {state next} : breakStep fuel state = some next ↔ ∃ ctx, gddCtxReduce fuel
          (gddCtxRemoveVid state.1 ((gddCtxGetMaxVid state.1).signExtend 64)) = some ctx ∧
        (ctx, state.2 ++ [(gddCtxGetMaxVid state.1).signExtend 64]) = next :=
  map_eq_some_iff

theorem breakStep_mono {more} (le : fuel ≤ more) (state next)
    (runs : breakStep fuel state = some next) : breakStep more state = some next := by
  obtain ⟨ctx, isCtx, isNext⟩ := breakStep_iff.mp runs
  exact breakStep_iff.mpr ⟨ctx, gddCtxReduce_mono le isCtx, isNext⟩

theorem Linked.largestId_iff (link : Linked ctx seg live) (vid) :
    LargestId (linkedEdges ctx) vid ↔ IsGreatest (edgeIds ctx) vid := by
  have same : {other | ∃ edge ∈ linkedEdges ctx, Touches other edge} = edgeIds ctx :=
    Set.ext fun other => (link.mem_edgeIds_iff other).symm
  rw [LargestId, same]

theorem Linked.round (link : Linked ctx seg live) (vid) :
    (∃ fuel next, gddCtxReduce fuel (gddCtxRemoveVid ctx vid) = some next) ∧
      ∀ fuel next, gddCtxReduce fuel (gddCtxRemoveVid ctx vid) = some next →
        (∃ kept, Linked next seg kept) ∧
        IsCore ((linkedEdges ctx).filter fun edge => ¬ Touches vid edge) (linkedEdges next) := by
  obtain ⟨_, removed, left⟩ := link.gddCtxRemoveVid_result vid
  refine ⟨removed.gddCtxReduce_spec.1, fun fuel next ret => ?_⟩
  obtain ⟨kept, reduces, done⟩ := removed.gddCtxReduce_spec.2 fuel next ret
  refine ⟨⟨kept, reduces.linked⟩, ?_⟩
  rw [← left, removed.linkedEdges_described]
  exact reduces.isGreatest done

theorem below_largest {edges core} (largest : LargestId edges vid)
    (isCore : IsCore (edges.filter fun edge => ¬ Touches vid edge) core) :
    core ≤ edges ∧ core.card < edges.card ∧
      ∀ other, (∃ edge ∈ core, Touches other edge) → other < vid := by
  have sub : core ≤ edges := isCore.1.1.trans (filter_le _ _)
  have avoids (edge) (mem : edge ∈ core) : ¬ Touches vid edge := (mem_filter.mp (mem_of_le isCore.1.1 mem)).2
  obtain ⟨⟨edge, mem, touches⟩, upper⟩ := largest
  refine ⟨sub, card_lt_card (lt_of_le_of_ne sub ?_), ?_⟩
  · rintro rfl
    exact avoids edge mem touches
  · rintro other ⟨found, inCore, touchesOther⟩
    have := upper ⟨found, mem_of_le sub inCore, touchesOther⟩
    have ne : other ≠ vid := by
      rintro rfl
      exact avoids found inCore touchesOther
    bv_omega

private theorem not_empty_iff (link : Linked ctx seg live) :
    (!gddCtxEmpty ctx) = true ↔ linkedEdges ctx ≠ 0 := by
  rw [Bool.not_eq_true', ← Bool.not_eq_true, link.gddCtxEmpty_iff]

theorem Linked.edgeIds_nonempty (link : Linked ctx seg live) (ne : linkedEdges ctx ≠ 0) :
    (edgeIds ctx).Nonempty := by
  obtain ⟨edge, mem⟩ := exists_mem_of_ne_zero ne
  exact ⟨edge.waiter, (link.mem_edgeIds_iff _).mpr ⟨edge, mem, inl rfl⟩⟩

/-- When every largest id fits, the loop returns as it should. The induction is
on the number of edges. -/
theorem Linked.breaks_of_fits (link : Linked ctx seg live)
    (supporting : SelfSupporting Supported (linkedEdges ctx))
    (fits : ∀ part ≤ linkedEdges ctx, SelfSupporting Supported part → ∀ vid, LargestId part vid →
      FitsInt vid) :
    ∃ fuel final vids, (∀ old, whileFuel (fun state => !gddCtxEmpty state.1) (breakStep fuel) fuel
        (ctx, old) = some (final, old ++ vids)) ∧
      gddCtxEmpty final = true ∧ vids.Pairwise (· > ·) ∧ RemovesLargest ctx vids final ∧
      ∀ vid ∈ vids, ∃ edge ∈ linkedEdges ctx, Touches vid edge := by
  induction size : (linkedEdges ctx).card using Nat.strong_induction_on generalizing ctx live with
  | _ _ ih =>
    cases empty : gddCtxEmpty ctx with
    | true =>
      refine ⟨1, ctx, [], fun old => ?_, empty, .nil, .stop ctx, by simp⟩
      rw [whileFuel_stop (by simp [empty]), append_nil]
    | false =>
      have ne := (not_empty_iff link).mp (by simp [empty])
      obtain ⟨vid, greatest, isMax⟩ := gddCtxGetMaxVid_spec (link.edgeIds_nonempty ne)
      have largest := (link.largestId_iff vid).mpr greatest
      have fit := fits _ le_rfl supporting vid largest
      obtain ⟨⟨stepFuel, next, reduced⟩, spec⟩ := link.round vid
      obtain ⟨⟨_, nextLinked⟩, isCore⟩ := spec stepFuel next reduced
      obtain ⟨sub, smaller, below⟩ := below_largest largest isCore
      obtain ⟨restFuel, final, vids, rest, isEmpty, decreasing, removes, touched⟩ :=
        ih _ (size ▸ smaller) nextLinked isCore.1.2 (fun part le => fits part (le.trans sub)) rfl
      refine ⟨max stepFuel restFuel + 1, final, vid :: vids, fun old => ?_, isEmpty, ?_,
        .step greatest reduced removes, ?_⟩
      · have runs : breakStep (max stepFuel restFuel + 1) (ctx, old) =
            some (next, old ++ [vid]) := by
          have chosen : (gddCtxGetMaxVid ctx).signExtend 64 = vid := by rw [isMax]; exact fit
          apply breakStep_mono (Nat.le_succ_of_le (le_max_left stepFuel restFuel))
          refine breakStep_iff.mpr ⟨next, ?_, ?_⟩
          · simp only [chosen, reduced]
          · simp only [chosen]
        rw [whileFuel_step (by simp [empty]) runs, append_cons old vid vids]
        exact whileFuel_mono (breakStep_mono (Nat.le_succ_of_le (le_max_right _ _)))
          (le_max_right _ _) (rest _)
      · rw [pairwise_cons]
        exact ⟨fun other mem => below other (touched other mem), decreasing⟩
      · intro other mem
        rcases mem_cons.mp mem with isVid | inVids
        · subst isVid
          exact largest.1
        · obtain ⟨edge, inNext, touches⟩ := touched other inVids
          exact ⟨edge, mem_of_le sub inNext, touches⟩

theorem whileFuel_appends {inner start final}
    (ret : whileFuel (fun state => !gddCtxEmpty state.1) (breakStep inner) fuel start =
      some final) : ∃ more, final.2 = start.2 ++ more := by
  refine (@whileFuel_invariant _ _ _ (fun state => ∃ more, state.2 = start.2 ++ more) ?_ _ _ _
    ⟨[], (append_nil _).symm⟩ ret).1
  rintro state _ ⟨more, same⟩ _ runs
  obtain ⟨_, -, rfl⟩ := breakStep_iff.mp runs
  exact ⟨more ++ [_], by rw [same, append_assoc]⟩

/-- A run that removed the largest ids shows that they all fit. The induction
is on the removals. -/
theorem RemovesLargest.fits {vids final} (removes : RemovesLargest ctx vids final) :
    ∀ {live}, Linked ctx seg live → gddCtxEmpty final = true →
      ∀ {inner fuel old}, whileFuel (fun state => !gddCtxEmpty state.1) (breakStep inner) fuel
        (ctx, old) = some (final, old ++ vids) →
      ∀ part ≤ linkedEdges ctx, SelfSupporting Supported part → ∀ vid, LargestId part vid →
        FitsInt vid := by
  induction removes with
  | stop ctx =>
    intro live link isEmpty inner fuel old _ part sub _ vid largest
    obtain ⟨edge, mem, -⟩ := largest.1
    rw [link.gddCtxEmpty_iff.mp isEmpty] at sub
    exact absurd (mem_of_le sub mem) (notMem_zero edge)
  | @step ctx next final vid vids stepFuel greatest reduced removes ih =>
    intro live link isEmpty inner fuel old ret part sub supporting other largest
    have cont : (!gddCtxEmpty ctx) := by
      rw [not_empty_iff link]
      obtain ⟨edge, mem, -⟩ := (link.mem_edgeIds_iff vid).mp greatest.1
      intro empty
      exact notMem_zero edge (empty ▸ mem)
    cases fuel with
    | zero => simp [whileFuel] at ret
    | succ fuel =>
      simp only [whileFuel, cont, if_true, bind_eq_some_iff] at ret
      obtain ⟨state, runs, ret⟩ := ret
      obtain ⟨_, isActual, rfl⟩ := breakStep_iff.mp runs
      simp only [gddCtxGetMaxVid_eq greatest] at isActual ret
      obtain ⟨_, appended⟩ := whileFuel_appends ret
      rw [append_assoc, append_cancel_left_eq, singleton_append, cons.injEq] at appended
      obtain ⟨fit, -⟩ := appended
      have fit : (vid.setWidth 32).signExtend 64 = vid := fit.symm
      rw [fit] at isActual ret
      rw [gddCtxReduce_unique isActual reduced, append_cons old vid vids] at ret
      obtain ⟨⟨_, nextLinked⟩, isCore⟩ := (link.round vid).2 stepFuel next reduced
      by_cases isVid : other = vid
      · rw [isVid]
        exact fit
      · -- a part without the largest id survives the removal
        refine ih nextLinked isEmpty ret part (isCore.2 ⟨?_, supporting⟩) supporting other largest
        refine le_filter.mpr ⟨sub, fun edge mem touches => isVid ?_⟩
        apply BitVec.le_antisymm
        · obtain ⟨found, inPart, touchesOther⟩ := largest.1
          exact ((link.largestId_iff vid).mpr greatest).2
            ⟨found, mem_of_le sub inPart, touchesOther⟩
        · exact largest.2 ⟨edge, mem, touches⟩

/-- Breaking the deadlocks of a reduced context is sound exactly when the
largest id of every self-supporting part of the edges fits an `int`. -/
theorem gddCtxBreakDeadLock_sound_iff (edges : List WaitEdge) {fuel : Nat} {reduced : GddCtx}
    (returned : gddCtxReduce fuel (buildCtx edges) = some reduced) :
    BreaksSoundly reduced ↔ ∀ part ≤ (edges : Multiset WaitEdge), SelfSupporting Supported part →
        ∀ vid, LargestId part vid → FitsInt vid := by
  obtain ⟨_, _, built, -⟩ := buildCtx_linked edges
  obtain ⟨_, reduces, -⟩ := built.gddCtxReduce_spec.2 fuel reduced returned
  have core := buildCtx_reduced_isCore returned
  constructor
  · rintro ⟨inner, final, vids, run, isEmpty, -, removes⟩ part sub supporting
    exact removes.fits reduces.linked isEmpty run part (core.2 ⟨sub, supporting⟩) supporting
  · intro fits
    obtain ⟨inner, final, vids, run, isEmpty, decreasing, removes, -⟩ :=
      reduces.linked.breaks_of_fits core.1.2 fun part sub =>
        fits part (sub.trans core.1.1)
    exact ⟨inner, final, vids, run [], isEmpty, decreasing, removes⟩

/-- When no edge touches the truncated largest id, every round leaves the same
edges and the loop never returns. -/
theorem gddCtxBreakDeadLock_diverges (link : Linked ctx seg live)
    (supporting : SelfSupporting Supported (linkedEdges ctx))
    (largest : LargestId (linkedEdges ctx) vid)
    (absent : ∀ edge ∈ linkedEdges ctx, ¬ Touches ((vid.setWidth 32).signExtend 64) edge) (fuel) :
    gddCtxBreakDeadLock fuel ctx = none := by
  by_contra returns
  obtain ⟨final, ret⟩ := ne_none_iff_exists'.mp returns
  let Inv : GddCtx × List DistributedTransactionId → Prop := fun state =>
    (∃ live, Linked state.1 seg live) ∧ linkedEdges state.1 = linkedEdges ctx
  obtain ⟨⟨⟨_, finalLinked⟩, same⟩, stopped⟩ := @whileFuel_invariant _ _ _ Inv (by
    rintro state _ ⟨⟨_, stateLinked⟩, sameEdges⟩ _ runs
    obtain ⟨actual, isActual, rfl⟩ := breakStep_iff.mp runs
    rw [← sameEdges, stateLinked.largestId_iff] at largest
    rw [gddCtxGetMaxVid_eq largest] at isActual
    obtain ⟨nextLinked, isCore⟩ := (stateLinked.round _).2 fuel actual isActual
    refine ⟨nextLinked, ?_⟩
    rw [sameEdges, filter_eq_self.mpr absent] at isCore
    exact isCore.unique ⟨⟨le_rfl, supporting⟩, fun part lt => lt.1⟩) _ _ _
    ⟨⟨live, link⟩, rfl⟩ ret
  obtain ⟨edge, mem, -⟩ := largest.1
  have empty : gddCtxEmpty final.1 := by simpa using stopped
  rw [finalLinked.gddCtxEmpty_iff.mp empty] at same
  rw [← same] at mem
  exact notMem_zero edge mem

theorem mutualWait_reduced (first second)
    (ret : gddCtxReduce fuel (buildCtx (mutualWait first second)) = some reduced) :
    linkedEdges reduced = mutualWait first second :=
  (buildCtx_reduced_isCore ret).unique
    ⟨⟨le_rfl, mutualWait_selfSupporting first second⟩, fun _ lt => lt.1⟩

theorem gddCtxBreakDeadLock_sound_smallIds :
    ∃ fuel reduced, gddCtxReduce fuel (buildCtx (mutualWait 1 2)) = some reduced ∧
      BreaksSoundly reduced := by
  obtain ⟨seg, live, built, -⟩ := buildCtx_linked (mutualWait 1 2)
  obtain ⟨fuel, reduced, ret⟩ := built.gddCtxReduce_spec.1
  refine ⟨fuel, reduced, ret, (gddCtxBreakDeadLock_sound_iff _ ret).mpr ?_⟩
  intro part sub _ vid largest
  obtain ⟨edge, mem, touches⟩ := largest.1
  have inWait : edge ∈ mutualWait 1 2 := mem_of_le sub mem
  have isSmall : vid = 1 ∨ vid = 2 := by
    simp only [mutualWait, List.mem_cons, not_mem_nil, or_false] at inWait
    rcases inWait with rfl | rfl <;> rcases touches with rfl | rfl <;> simp
  rcases isSmall with rfl | rfl <;> decide

theorem gddCtxBreakDeadLock_never_returns :
    ∃ fuel reduced, gddCtxReduce fuel (buildCtx (mutualWait 0x80000000 0x80000001)) = some reduced ∧
      gddCtxEmpty reduced = false ∧ ∀ breakFuel, gddCtxBreakDeadLock breakFuel reduced = none := by
  obtain ⟨seg, live, built, -⟩ := buildCtx_linked (mutualWait 0x80000000 0x80000001)
  obtain ⟨fuel, reduced, ret⟩ := built.gddCtxReduce_spec.1
  obtain ⟨kept, reduces, -⟩ := built.gddCtxReduce_spec.2 fuel reduced ret
  have left := mutualWait_reduced _ _ ret
  refine ⟨fuel, reduced, ret, ?_, fun breakFuel => ?_⟩
  · rw [← Bool.not_eq_true, reduces.linked.gddCtxEmpty_iff, left]
    simp [mutualWait]
  · refine @gddCtxBreakDeadLock_diverges seg reduced kept 0x80000001 reduces.linked ?_ ?_ ?_
      breakFuel
    · rw [left]
      exact mutualWait_selfSupporting _ _
    · rw [left]
      simp only [mutualWait]
      refine ⟨⟨_, mem_coe.mpr mem_cons_self, inr rfl⟩, ?_⟩
      rintro other ⟨edge, mem, touches⟩
      simp only [mem_coe, List.mem_cons, not_mem_nil, or_false] at mem
      rcases mem with rfl | rfl <;> rcases touches with rfl | rfl <;> decide
    · rw [left]
      simp [mutualWait, Touches]

/-- Whenever the loop returns, every deadlock of the added edges has lost a
transaction. -/
theorem gddCtxBreakDeadLock_resolves {edges : List WaitEdge} {inner final}
    (ret : gddCtxReduce fuel (buildCtx edges) = some reduced)
    (broken : gddCtxBreakDeadLock inner reduced = some final) {part} (ne : part ≠ 0)
    (sub : part ≤ (edges : Multiset WaitEdge)) (supporting : SelfSupporting Supported part) :
    ∃ vid ∈ final.2, ∃ edge ∈ part, Touches vid edge := by
  obtain ⟨seg, _, built, -⟩ := buildCtx_linked edges
  obtain ⟨_, reduces, -⟩ := built.gddCtxReduce_spec.2 fuel reduced ret
  -- The graph keeps a part that no removed id touches.
  obtain ⟨⟨⟨_, link⟩, keeps⟩, stops⟩ := @whileFuel_invariant _ _ _ (fun state =>
    (∃ live, Linked state.1 seg live) ∧
      ((∃ vid ∈ state.2, ∃ edge ∈ part, Touches vid edge) ∨ part ≤ linkedEdges state.1)) (by
      rintro state next ⟨⟨_, link⟩, keeps⟩ - runs
      obtain ⟨ctx, isCtx, rfl⟩ := breakStep_iff.mp runs
      obtain ⟨isLinked, isCore⟩ := (link.round _).2 _ _ isCtx
      refine ⟨isLinked, ?_⟩
      rcases keeps with ⟨vid, mem, hit⟩ | kept
      · exact inl ⟨vid, mem_append_left _ mem, hit⟩
      · by_contra! lost
        exact lost.2 (isCore.2 ⟨le_filter.mpr ⟨kept, lost.1 _ (by simp)⟩, supporting⟩)) _ _ _
    ⟨⟨_, reduces.linked⟩, inr ((buildCtx_reduced_isCore ret).2 ⟨sub, supporting⟩)⟩ broken
  rw [link.gddCtxEmpty_iff.mp (by simpa using stops)] at keeps
  exact keeps.resolve_right fun kept => ne (Multiset.le_zero.mp kept)

theorem gddCtxBreakDeadLock_resolves_mutualWait : ∃ final,
    (gddCtxReduce 3 (buildCtx (mutualWait 1 2))).bind (gddCtxBreakDeadLock 3) = some final ∧
      final.2 = [2] ∧
      ∃ vid ∈ final.2, ∃ edge ∈ (mutualWait 1 2 : Multiset WaitEdge), Touches vid edge := by
  have eval : ((gddCtxReduce 3 (buildCtx (mutualWait 1 2))).bind (gddCtxBreakDeadLock 3)).map
      Prod.snd = some [2] := by decide +kernel
  obtain ⟨final, run, isFinal⟩ := map_eq_some_iff.mp eval
  obtain ⟨_, ret, broken⟩ := bind_eq_some_iff.mp run
  exact ⟨final, run, isFinal, gddCtxBreakDeadLock_resolves ret broken (by simp [mutualWait]) le_rfl
    (mutualWait_selfSupporting 1 2)⟩

end Greengage.Gdd
