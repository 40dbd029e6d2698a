import Greengage.Gdd.Reduction

/-!
Contract: contexts built by `GddCtxAddEdge`.
-/

namespace Greengage.Gdd

open Function List Greengage.Foundations Heap

theorem segKey_injective : Injective segKey := by
  intro _ _ same
  have sameInt := congrArg BitVec.toInt same
  rw [segKey, segKey, BitVec.toInt_signExtend_of_le (by decide),
    BitVec.toInt_signExtend_of_le (by decide)] at sameInt
  exact BitVec.eq_of_toInt_eq sameInt

structure Extends (live : List Ptr) (ctx : GddCtx) (seg : Ptr → SegId) (next : GddCtx)
    (nextSeg : Ptr → SegId) : Prop where
  edges : ∀ edge ∈ live, next.edges.cell edge = ctx.edges.cell edge
  verts : ∀ vert ∈ allVerts ctx, vert ∈ allVerts next ∧ nextSeg vert = seg vert ∧
    (next.verts.cell vert).id = (ctx.verts.cell vert).id

section

variable {ctx next : GddCtx} {seg nextSeg : Ptr → SegId} {live : List Ptr}

theorem Extends.refl : Extends live ctx seg ctx seg :=
  ⟨fun _ _ => rfl, fun _ mem => ⟨mem, rfl, rfl⟩⟩

theorem Extends.trans {last lastSeg} (first : Extends live ctx seg next nextSeg)
    (snd : Extends live next nextSeg last lastSeg) : Extends live ctx seg last lastSeg := by
  constructor
  · intro edge mem
    rw [snd.edges edge mem, first.edges edge mem]
  · intro vert mem
    obtain ⟨inNext, sameSeg, sameId⟩ := first.verts vert mem
    obtain ⟨inLast, sameSeg', sameId'⟩ := snd.verts vert inNext
    exact ⟨inLast, sameSeg'.trans sameSeg, sameId'.trans sameId⟩

theorem Extends.described (extends_ : Extends live ctx seg next nextSeg)
    (link : Linked ctx seg live) : described next nextSeg live = described ctx seg live := by
  unfold Gdd.described
  congr 1
  apply map_congr_left
  intro edge mem
  obtain ⟨fromIn, toIn, -⟩ := link.ends edge mem
  simp only [describe, waitEdge, waiterId, holderId, extends_.edges edge mem,
    (extends_.verts _ fromIn).2.1, (extends_.verts _ fromIn).2.2, (extends_.verts _ toIn).2.2]

/-! ### Graphs and vertices -/

variable {key : BitVec 64}

private theorem nodup_concat_key {α : Type} {map} (keys : (map.map Prod.fst).Nodup)
    (fresh : key ∉ map.map Prod.fst) (ptr : α) :
    ((gddMapSetUnsafe map key ptr).map Prod.fst).Nodup := by
  rw [gddMapSetUnsafe, map_append]
  exact Nodup.append keys (nodup_singleton _) (by simpa using fresh)

theorem forall_mem_concat {α : Type} {items : List α} {last : α} {p : α → Prop}
    (old : ∀ item ∈ items, p item) (new : p last) : ∀ item ∈ items ++ [last], p item :=
  forall_mem_append.mpr ⟨old, forall_mem_singleton.mpr new⟩

theorem Linked.getGraph (link : Linked ctx seg live) (segid) :
    Linked (gddCtxGetGraph ctx segid) seg live ∧
      Extends live ctx seg (gddCtxGetGraph ctx segid) seg ∧
      ∃ graph, gddMapGet (gddCtxGetGraph ctx segid).graphs (segKey segid) = some graph ∧
        graph.id = segid := by
  unfold gddCtxGetGraph
  cases found : gddMapGet ctx.graphs (segKey segid) with
  | some graph =>
    refine ⟨link, .refl, graph, found, segKey_injective ?_⟩
    exact (link.graphIds _ (gddMapGet_mem found)).symm
  | none =>
    have fresh := gddMapGet_none found
    have sameVerts : allVerts { ctx with
        graphs := gddMapSetUnsafe ctx.graphs (segKey segid) (gddGraphNew segid) } =
          allVerts ctx := by
      simp [allVerts, gddMapSetUnsafe, gddGraphNew]
    have keys := nodup_concat_key link.graphKeys fresh (gddGraphNew segid)
    refine ⟨?_, ⟨fun _ _ => rfl, fun vert mem => ⟨sameVerts ▸ mem, rfl, rfl⟩⟩, _,
      gddMapGet_of_mem keys (mem_append_right _ (mem_singleton.mpr rfl)), rfl⟩
    exact { link with
        graphKeys := keys
        graphIds := forall_mem_concat link.graphIds rfl
        vertPtrs := by rw [sameVerts]; exact link.vertPtrs
        vertBelow := by rw [sameVerts]; exact link.vertBelow
        vertKeys := forall_mem_concat link.vertKeys nodup_nil
        vertIds := forall_mem_concat link.vertIds fun _ inVerts => absurd inVerts not_mem_nil
        ends := by rw [sameVerts]; exact link.ends
        edgesOut := by rw [sameVerts]; exact link.edgesOut
        edgesIn := by rw [sameVerts]; exact link.edgesIn }

theorem Linked.frame (link : Linked ctx seg live) {verts edges}
    (sameVert : ∀ vert ∈ allVerts ctx, verts.cell vert = ctx.verts.cell vert)
    (sameEdge : ∀ edge ∈ live, edges.cell edge = ctx.edges.cell edge)
    (vertsNext : ctx.verts.next ≤ verts.next) (edgesNext : ctx.edges.next ≤ edges.next) :
    Linked { ctx with verts, edges } seg live := by
  have sameFrom (edge) (inLive : edge ∈ live) : waiterId { ctx with verts, edges } edge = waiterId ctx edge := by
    simp only [waiterId, sameEdge edge inLive, sameVert _ (link.ends edge inLive).1]
  have sameTo (edge) (inLive : edge ∈ live) : holderId { ctx with verts, edges } edge = holderId ctx edge := by
    simp only [holderId, sameEdge edge inLive, sameVert _ (link.ends edge inLive).2.1]
  exact { link with
      liveBelow edge inLive := lt_of_lt_of_le (link.liveBelow edge inLive) edgesNext
      vertBelow vert mem := lt_of_lt_of_le (link.vertBelow vert mem) vertsNext
      vertIds pair inGraphs vert inVerts := by
        simp only [sameVert _ (mem_flatMap.mpr ⟨pair, inGraphs, mem_map_of_mem inVerts⟩)]
        exact link.vertIds pair inGraphs vert inVerts
      ends edge inLive := by
        simp only [sameEdge edge inLive]
        exact link.ends edge inLive
      edgesOut vert mem := by
        simp only [sameVert vert mem, link.edgesOut vert mem]
        apply filter_congr
        intro edge inLive
        rw [sameEdge edge inLive]
      edgesIn vert mem := by
        simp only [sameVert vert mem, link.edgesIn vert mem]
        apply filter_congr
        intro edge inLive
        rw [sameEdge edge inLive]
      boundFrom edge inLive := by
        simp only [sameFrom edge inLive, sameEdge edge inLive, sameVert _ (link.ends edge inLive).1]
        exact link.boundFrom edge inLive
      boundTo edge inLive := by
        simp only [sameTo edge inLive, sameEdge edge inLive, sameVert _ (link.ends edge inLive).2.1]
        exact link.boundTo edge inLive
      outdeg pair mem := by
        rw [link.outdeg pair mem, countP_congr]
        intro edge inLive
        rw [sameFrom edge inLive]
      indeg pair mem := by
        rw [link.indeg pair mem, countP_congr]
        intro edge inLive
        rw [sameTo edge inLive] }

variable {graph : GddGraph} {vid : DistributedTransactionId} {vert : Ptr}

theorem Linked.insertVert (link : Linked ctx seg live)
    (found : gddMapGet ctx.graphs key = some graph) (fresh : vid ∉ graph.verts.map Prod.fst)
    (out : vert ∉ allVerts ctx) (below : vert < ctx.verts.next)
    (isNew : ctx.verts.cell vert = gddVertNew vid) :
    Linked (setGraphVerts ctx key (gddMapSetUnsafe graph.verts vid vert))
        (update seg vert graph.id) live ∧
      (allVerts (setGraphVerts ctx key (gddMapSetUnsafe graph.verts vid vert))).Perm
        (vert :: allVerts ctx) := by
  obtain ⟨_, _, split, setSplit⟩ := link.graphs_split found
  have perm : (allVerts (setGraphVerts ctx key (gddMapSetUnsafe graph.verts vid vert))).Perm
      (vert :: allVerts ctx) := by
    refine (allVerts_perm_of_split (setSplit _)).trans ?_
    refine trans ?_ ((allVerts_perm_of_split split).symm.cons vert)
    simp only [gddMapSetUnsafe, map_append]
    rw [← cons_append]
    exact (perm_append_singleton _ _).append_right _
  have sameSeg (other) (mem : other ∈ allVerts ctx) : update seg vert graph.id other = seg other := update_of_ne (ne_of_mem_of_not_mem mem out) _ _
  have noEdge (side : GddEdge → Ptr)
      (inAll : ∀ edge ∈ live, side (ctx.edges.cell edge) ∈ allVerts ctx) :
      live.filter (fun edge => side (ctx.edges.cell edge) == vert) = [] :=
    filter_eq_nil_iff.mpr fun edge inLive touches =>
      out (beq_iff_eq.mp touches ▸ inAll edge inLive)
  have onVerts {p : Ptr → Prop} (old : ∀ other ∈ allVerts ctx, p other) (new : p vert) :
      ∀ other ∈ allVerts (setGraphVerts ctx key (gddMapSetUnsafe graph.verts vid vert)),
        p other := by
    intro other mem
    exact forall_mem_cons.mpr ⟨new, old⟩ other (perm.mem_iff.mp mem)
  have oldIds : ∀ pair ∈ ctx.graphs, ∀ other ∈ pair.2.verts,
      (ctx.verts.cell other.2).id = other.1 ∧ update seg vert graph.id other.2 = pair.2.id := by
    intro pair inGraphs other inVerts
    rw [sameSeg _ (mem_flatMap.mpr ⟨pair, inGraphs, mem_map_of_mem inVerts⟩)]
    exact link.vertIds pair inGraphs other inVerts
  refine ⟨?_, perm⟩
  exact { link with
      graphKeys := by
        rw [(setGraphVerts_shrinks _).keys]
        exact link.graphKeys
      graphIds := link.forall_setGraphVerts found link.graphIds
        (link.graphIds (key, graph) (gddMapGet_mem found))
      vertPtrs := perm.nodup_iff.mpr (nodup_cons.mpr ⟨out, link.vertPtrs⟩)
      vertBelow := onVerts link.vertBelow below
      vertKeys := link.forall_setGraphVerts found link.vertKeys
        (nodup_concat_key (link.vertKeys _ (gddMapGet_mem found)) fresh vert)
      vertIds := link.forall_setGraphVerts found oldIds (forall_mem_concat
        (oldIds _ (gddMapGet_mem found)) ⟨congrArg GddVert.id isNew, update_self _ _ _⟩)
      ends edge inLive := by
        obtain ⟨fromIn, toIn, same⟩ := link.ends edge inLive
        refine ⟨perm.mem_iff.mpr (mem_cons_of_mem _ fromIn),
          perm.mem_iff.mpr (mem_cons_of_mem _ toIn), ?_⟩
        change update seg vert graph.id (ctx.edges.cell edge).to_ =
          update seg vert graph.id (ctx.edges.cell edge).from_
        rw [sameSeg _ fromIn, sameSeg _ toIn, same]
      edgesOut := onVerts link.edgesOut ((congrArg GddVert.edgesOut isNew).trans
        (noEdge GddEdge.from_ fun edge inLive => (link.ends edge inLive).1).symm)
      edgesIn := onVerts link.edgesIn ((congrArg GddVert.edgesIn isNew).trans
        (noEdge GddEdge.to_ fun edge inLive => (link.ends edge inLive).2.1).symm) }

theorem Linked.getVert (link : Linked ctx seg live)
    (found : gddMapGet ctx.graphs key = some graph) (vid) :
    ∃ nextSeg, Linked (gddGraphGetVert ctx key vid).1 nextSeg live ∧
      Extends live ctx seg (gddGraphGetVert ctx key vid).1 nextSeg ∧
      (gddGraphGetVert ctx key vid).2 ∈ allVerts (gddGraphGetVert ctx key vid).1 ∧
      nextSeg (gddGraphGetVert ctx key vid).2 = graph.id ∧
      ((gddGraphGetVert ctx key vid).1.verts.cell (gddGraphGetVert ctx key vid).2).id = vid ∧
      ∃ nextGraph, gddMapGet (gddGraphGetVert ctx key vid).1.graphs key = some nextGraph ∧
        nextGraph.id = graph.id := by
  unfold gddGraphGetVert
  rw [graphVerts_eq found]
  cases vertFound : gddMapGet graph.verts vid with
  | some vert =>
    have inGraph := gddMapGet_mem vertFound
    obtain ⟨isId, isSeg⟩ := link.vertIds _ (gddMapGet_mem found) _ inGraph
    exact ⟨seg, link, .refl, mem_allVerts_of_graph found inGraph, isSeg, isId, graph, found, rfl⟩
  | none =>
    have out : ctx.verts.next ∉ allVerts ctx := fun mem =>
      lt_irrefl _ (link.vertBelow _ mem)
    have isNew := alloc_cell_new ctx.verts (gddVertNew vid)
    have old (vert) (mem : vert ∈ allVerts ctx) :
        (ctx.verts.alloc (gddVertNew vid)).cell vert = ctx.verts.cell vert :=
      alloc_cell_old _ _ (link.vertBelow vert mem)
    have alloc := link.frame old (fun _ _ => rfl) (Nat.le_succ _) le_rfl
    obtain ⟨inserted, perm⟩ := alloc.insertVert found (gddMapGet_none vertFound) out
      (Nat.lt_succ_self _) isNew
    refine ⟨_, inserted, ⟨fun _ _ => rfl, ?_⟩, perm.mem_iff.mpr (mem_cons_self),
      update_self _ _ _, congrArg GddVert.id isNew, _,
      (alloc.gddMapGet_setGraphVerts found _).1, rfl⟩
    intro vert mem
    refine ⟨perm.mem_iff.mpr (mem_cons_of_mem _ mem),
      update_of_ne (ne_of_mem_of_not_mem mem out) _ _, ?_⟩
    exact congrArg GddVert.id (old vert mem)

/-! ### Statistics -/

theorem Linked.getGlobalStat (link : Linked ctx seg live) (vid) :
    Linked (gddCtxGetGlobalStat ctx vid).1 seg live ∧
      (vid, (gddCtxGetGlobalStat ctx vid).2) ∈ (gddCtxGetGlobalStat ctx vid).1.globals ∧
      (∀ pair ∈ ctx.globals, pair ∈ (gddCtxGetGlobalStat ctx vid).1.globals) ∧
      (gddCtxGetGlobalStat ctx vid).1.verts = ctx.verts ∧
      (gddCtxGetGlobalStat ctx vid).1.edges = ctx.edges ∧
      (gddCtxGetGlobalStat ctx vid).1.graphs = ctx.graphs := by
  unfold gddCtxGetGlobalStat
  cases found : gddMapGet ctx.globals vid with
  | some global =>
    exact ⟨link, gddMapGet_mem found, fun _ => id, rfl, rfl, rfl⟩
  | none =>
    have fresh := gddMapGet_none found
    have subset : ∀ pair ∈ ctx.globals,
        pair ∈ gddMapSetUnsafe ctx.globals vid ctx.stats.next := fun _ mem =>
      mem_append_left _ mem
    have freshWaiter : ∀ edge ∈ live, waiterId ctx edge ≠ vid := by
      rintro edge inLive rfl
      exact fresh (mem_map_of_mem (link.boundFrom edge inLive))
    have freshHolder : ∀ edge ∈ live, holderId ctx edge ≠ vid := by
      rintro edge inLive rfl
      exact fresh (mem_map_of_mem (link.boundTo edge inLive))
    have oldStat (pair) (mem : pair ∈ ctx.globals) : (ctx.stats.alloc (gddStatInit vid)).cell pair.2 =
        ctx.stats.cell pair.2 := alloc_cell_old _ _ (link.globalBelow pair mem)
    refine ⟨?_, mem_append_right _ (mem_singleton.mpr rfl), subset, rfl, rfl, rfl⟩
    exact { link with
        globalKeys := nodup_concat_key link.globalKeys fresh _
        globalPtrs := by
          rw [gddMapSetUnsafe, map_append]
          refine Nodup.append link.globalPtrs (nodup_singleton _) ?_
          simp only [map_cons, map_nil, disjoint_singleton, mem_map, not_exists, not_and]
          intro pair mem
          exact ne_of_lt (link.globalBelow pair mem)
        globalBelow := forall_mem_concat
          (fun pair inOld => Nat.lt_succ_of_lt (link.globalBelow pair inOld)) (Nat.lt_succ_self _)
        boundFrom edge inLive := subset _ (link.boundFrom edge inLive)
        boundTo edge inLive := subset _ (link.boundTo edge inLive)
        outdeg := by
          refine forall_mem_concat (fun pair inOld => ?_) ?_
          · simp only [oldStat pair inOld]
            exact link.outdeg pair inOld
          · have none : live.countP (fun edge => waiterId ctx edge == vid) = 0 := by
              simpa using freshWaiter
            simp only [alloc_cell_new, gddStatInit]
            exact_mod_cast none.symm
        indeg := by
          refine forall_mem_concat (fun pair inOld => ?_) ?_
          · simp only [oldStat pair inOld]
            exact link.indeg pair inOld
          · have none : live.countP (fun edge => holderId ctx edge == vid) = 0 := by
              simpa using freshHolder
            simp only [alloc_cell_new, gddStatInit]
            exact_mod_cast none.symm }

def bindGlobal (global : Ptr) (record : GddVert) : GddVert := { record with global := global }

theorem gddVertBindStats_proj {β : Type} (proj : GddVert → β)
    (kept : ∀ global record, proj (bindGlobal global record) = proj record) (ctx vert global other) :
    proj ((gddVertBindStats ctx vert global).verts.cell other) = proj (ctx.verts.cell other) :=
  modify_proj proj ctx.verts vert (bindGlobal global) (kept global) other

theorem gddVertBindStats_global (ctx vert global other) :
    ((gddVertBindStats ctx vert global).verts.cell other).global =
      if other = vert then global else (ctx.verts.cell other).global := by
  simp only [gddVertBindStats, modify_cell, eq_comm]
  split <;> rfl

theorem Linked.bindStats (link : Linked ctx seg live) {global}
    (bound : ((ctx.verts.cell vert).id, global) ∈ ctx.globals) :
    Linked (gddVertBindStats ctx vert global) seg live := by
  have sameId := gddVertBindStats_proj GddVert.id (fun _ _ => rfl) ctx vert global
  have sameFrom : waiterId (gddVertBindStats ctx vert global) = waiterId ctx :=
    funext fun edge => sameId _
  have sameTo : holderId (gddVertBindStats ctx vert global) = holderId ctx :=
    funext fun edge => sameId _
  exact { link with
      vertIds pair inGraphs other inVerts := by
        rw [sameId]
        exact link.vertIds pair inGraphs other inVerts
      edgesOut other mem := by
        rw [gddVertBindStats_proj GddVert.edgesOut fun _ _ => rfl]
        exact link.edgesOut other mem
      edgesIn other mem := by
        rw [gddVertBindStats_proj GddVert.edgesIn fun _ _ => rfl]
        exact link.edgesIn other mem
      boundFrom edge inLive := by
        rw [sameFrom, gddVertBindStats_global]
        split
        case isTrue same =>
          rw [waiterId]
          exact (congrArg (fun other => (ctx.verts.cell other).id) same) ▸ bound
        case isFalse => exact link.boundFrom edge inLive
      boundTo edge inLive := by
        rw [sameTo, gddVertBindStats_global]
        split
        case isTrue same =>
          rw [holderId]
          exact (congrArg (fun other => (ctx.verts.cell other).id) same) ▸ bound
        case isFalse => exact link.boundTo edge inLive
      outdeg := by
        rw [sameFrom]
        exact link.outdeg
      indeg := by
        rw [sameTo]
        exact link.indeg }

def Bound (ctx : GddCtx) (vert : Ptr) : Prop :=
  ((ctx.verts.cell vert).id, (ctx.verts.cell vert).global) ∈ ctx.globals

/-- `gddCtxGetGlobalStat` followed by `gddVertBindStats`. -/
def bindToStat (ctx : GddCtx) (vert : Ptr) (vid : DistributedTransactionId) : GddCtx :=
  gddVertBindStats (gddCtxGetGlobalStat ctx vid).1 vert (gddCtxGetGlobalStat ctx vid).2

theorem Linked.bindVert (link : Linked ctx seg live) (isId : (ctx.verts.cell vert).id = vid) :
    Linked (bindToStat ctx vert vid) seg live ∧ Bound (bindToStat ctx vert vid) vert ∧
      (∀ other, Bound ctx other → Bound (bindToStat ctx vert vid) other) ∧
      (bindToStat ctx vert vid).edges = ctx.edges ∧
      (bindToStat ctx vert vid).graphs = ctx.graphs ∧
      ∀ other, ((bindToStat ctx vert vid).verts.cell other).id = (ctx.verts.cell other).id := by
  obtain ⟨stat, mem, subset, sameVerts, sameEdges, sameGraphs⟩ := link.getGlobalStat vid
  unfold bindToStat
  generalize gddCtxGetGlobalStat ctx vid = step at *
  obtain ⟨next, global⟩ := step
  have sameId := gddVertBindStats_proj GddVert.id (fun _ _ => rfl) next vert global
  have isBound : Bound (gddVertBindStats next vert global) vert := by
    unfold Bound
    rw [sameId, gddVertBindStats_global, if_pos rfl, sameVerts, isId]
    exact mem
  refine ⟨stat.bindStats (by rw [sameVerts, isId]; exact mem), isBound, ?_, sameEdges,
    sameGraphs, fun other => (sameId other).trans (by rw [sameVerts])⟩
  intro other wasBound
  by_cases same : other = vert
  · subst same
    exact isBound
  · unfold Bound
    rw [sameId, gddVertBindStats_global, if_neg same, sameVerts]
    exact subset _ wasBound

/-! ### Linking an edge -/

def addOut (edge : Ptr) (vert : GddVert) : GddVert :=
  { vert with edgesOut := vert.edgesOut ++ [edge] }

def addIn (edge : Ptr) (vert : GddVert) : GddVert :=
  { vert with edgesIn := vert.edgesIn ++ [edge] }

theorem gddEdgeLink_verts (ctx edge) :
    (gddEdgeLink ctx edge).verts = (ctx.verts.modify (ctx.edges.cell edge).from_
      (addOut edge)).modify (ctx.edges.cell edge).to_ (addIn edge) := rfl

theorem gddEdgeLink_stats (ctx edge) : (gddEdgeLink ctx edge).stats =
      (ctx.stats.modify (ctx.verts.cell (ctx.edges.cell edge).from_).global (addOutdeg 1)).modify
        (ctx.verts.cell (ctx.edges.cell edge).to_).global (addIndeg 1) := rfl

theorem gddEdgeLink_proj {β : Type} (proj : GddVert → β)
    (keptOut : ∀ edge record, proj (addOut edge record) = proj record)
    (keptIn : ∀ edge record, proj (addIn edge record) = proj record) (ctx edge vert) :
    proj ((gddEdgeLink ctx edge).verts.cell vert) = proj (ctx.verts.cell vert) := by
  rw [gddEdgeLink_verts, modify_proj proj _ _ _ (keptIn edge),
    modify_proj proj _ _ _ (keptOut edge)]

theorem gddEdgeLink_edgesOut (ctx edge vert) :
    ((gddEdgeLink ctx edge).verts.cell vert).edgesOut = (ctx.verts.cell vert).edgesOut ++
      if (ctx.edges.cell edge).from_ = vert then [edge] else [] := by
  rw [gddEdgeLink_verts, modify_proj GddVert.edgesOut _ _ (addIn edge) fun _ => rfl]
  rw [modify_cell]
  split <;> simp [addOut]

theorem gddEdgeLink_edgesIn (ctx edge vert) :
    ((gddEdgeLink ctx edge).verts.cell vert).edgesIn = (ctx.verts.cell vert).edgesIn ++
      if (ctx.edges.cell edge).to_ = vert then [edge] else [] := by
  rw [← modify_proj GddVert.edgesIn ctx.verts (ctx.edges.cell edge).from_ (addOut edge)
    (fun _ => rfl), gddEdgeLink_verts]
  rw [modify_cell]
  split <;> simp [addIn]

theorem gddEdgeLink_outdeg (ctx edge stat) :
    ((gddEdgeLink ctx edge).stats.cell stat).outdeg = (ctx.stats.cell stat).outdeg +
      if (ctx.verts.cell (ctx.edges.cell edge).from_).global = stat then 1 else 0 := by
  rw [gddEdgeLink_stats, modify_proj GddStat.outdeg _ _ (addIndeg 1) fun _ => rfl]
  rw [modify_cell]
  split <;> simp [addOutdeg]

theorem gddEdgeLink_indeg (ctx edge stat) :
    ((gddEdgeLink ctx edge).stats.cell stat).indeg = (ctx.stats.cell stat).indeg +
      if (ctx.verts.cell (ctx.edges.cell edge).to_).global = stat then 1 else 0 := by
  rw [← modify_proj GddStat.indeg ctx.stats
    (ctx.verts.cell (ctx.edges.cell edge).from_).global (addOutdeg 1) (fun _ => rfl),
    gddEdgeLink_stats]
  rw [modify_cell]
  split <;> simp [addIndeg]

theorem gddEdgeLink_extends (ctx) (seg : Ptr → SegId) (live edge) :
    Extends live ctx seg (gddEdgeLink ctx edge) seg :=
  ⟨fun _ _ => rfl, fun vert mem => ⟨mem, rfl,
    gddEdgeLink_proj GddVert.id (fun _ _ => rfl) (fun _ _ => rfl) ctx edge vert⟩⟩

private theorem filter_singleton_of_iff {keep : Ptr → Bool} {edge : Ptr} {P : Prop} [Decidable P]
    (agrees : keep edge = true ↔ P) : (if P then [edge] else []) = [edge].filter keep := by
  by_cases kept : P
  · rw [if_pos kept, filter_cons_of_pos (agrees.mpr kept), filter_nil]
  · rw [if_neg kept, filter_cons_of_neg (mt agrees.mp kept), filter_nil]

theorem Linked.link (link : Linked ctx seg live) {edge : Ptr} (fresh : edge ∉ live)
    (below : edge < ctx.edges.next)
    (ends : (ctx.edges.cell edge).from_ ∈ allVerts ctx ∧ (ctx.edges.cell edge).to_ ∈ allVerts ctx ∧
      seg (ctx.edges.cell edge).to_ = seg (ctx.edges.cell edge).from_)
    (boundFrom : (waiterId ctx edge, (ctx.verts.cell (ctx.edges.cell edge).from_).global) ∈
      ctx.globals)
    (boundTo : (holderId ctx edge, (ctx.verts.cell (ctx.edges.cell edge).to_).global) ∈
      ctx.globals) :
    Linked (gddEdgeLink ctx edge) seg (live ++ [edge]) := by
  have sameId := gddEdgeLink_proj GddVert.id (fun _ _ => rfl) (fun _ _ => rfl) ctx edge
  have sameGlobal := gddEdgeLink_proj GddVert.global (fun _ _ => rfl) (fun _ _ => rfl) ctx edge
  have sameFrom : waiterId (gddEdgeLink ctx edge) = waiterId ctx := funext fun _ => sameId _
  have sameTo : holderId (gddEdgeLink ctx edge) = holderId ctx := funext fun _ => sameId _
  exact { link with
      liveNodup := Nodup.append link.liveNodup (nodup_singleton _)
        (disjoint_singleton.mpr fresh)
      liveBelow := forall_mem_concat link.liveBelow below
      vertIds pair inGraphs vert inVerts := by
        rw [sameId]
        exact link.vertIds pair inGraphs vert inVerts
      ends := forall_mem_concat link.ends ends
      edgesOut vert mem := by
        rw [gddEdgeLink_edgesOut, link.edgesOut vert mem, filter_append]
        congr 1
        exact filter_singleton_of_iff beq_iff_eq
      edgesIn vert mem := by
        rw [gddEdgeLink_edgesIn, link.edgesIn vert mem, filter_append]
        congr 1
        exact filter_singleton_of_iff beq_iff_eq
      boundFrom := by
        rw [sameFrom]
        simp only [sameGlobal]
        exact forall_mem_concat link.boundFrom boundFrom
      boundTo := by
        rw [sameTo]
        simp only [sameGlobal]
        exact forall_mem_concat link.boundTo boundTo
      outdeg pair mem := by
        have sameKey := pair_key_iff link.globalKeys link.globalPtrs boundFrom mem
        rw [gddEdgeLink_outdeg, link.outdeg pair mem, sameFrom, countP_append, countP_singleton]
        simp only [sameKey, beq_iff_eq]
        split <;> simp
      indeg pair mem := by
        have sameKey := pair_key_iff link.globalKeys link.globalPtrs boundTo mem
        rw [gddEdgeLink_indeg, link.indeg pair mem, sameTo, countP_append, countP_singleton]
        simp only [sameKey, beq_iff_eq]
        split <;> simp
      topOutdeg := by
        have old := link.topOutdeg
        simp only [gddEdgeLink, addIndeg, addOutdeg, length_append, length_singleton]
        omega
      topIndeg := by
        have old := link.topIndeg
        simp only [gddEdgeLink, addIndeg, addOutdeg, length_append, length_singleton]
        omega }

/-! ### Adding an edge -/

theorem Linked.makeEdge (link : Linked ctx seg live)
    (found : gddMapGet ctx.graphs key = some graph) (from_ to_ solid) :
    ∃ nextSeg, Linked (gddGraphMakeEdge ctx key from_ to_ solid).1 nextSeg live ∧
      Extends live ctx seg (gddGraphMakeEdge ctx key from_ to_ solid).1 nextSeg ∧
      (gddGraphMakeEdge ctx key from_ to_ solid).2 ∉ live ∧
      (gddGraphMakeEdge ctx key from_ to_ solid).2 <
        (gddGraphMakeEdge ctx key from_ to_ solid).1.edges.next ∧
      ∃ vfrom vto, (gddGraphMakeEdge ctx key from_ to_ solid).1.edges.cell
          (gddGraphMakeEdge ctx key from_ to_ solid).2 = ⟨solid, vfrom, vto⟩ ∧
        vfrom ∈ allVerts (gddGraphMakeEdge ctx key from_ to_ solid).1 ∧
        vto ∈ allVerts (gddGraphMakeEdge ctx key from_ to_ solid).1 ∧
        nextSeg vfrom = graph.id ∧ nextSeg vto = graph.id ∧
        ((gddGraphMakeEdge ctx key from_ to_ solid).1.verts.cell vfrom).id = from_ ∧
        ((gddGraphMakeEdge ctx key from_ to_ solid).1.verts.cell vto).id = to_ := by
  obtain ⟨_, first, firstExtends, fromIn, fromSeg, fromId, _, firstFound, sameId⟩ :=
    link.getVert found from_
  obtain ⟨nextSeg, snd, secondExtends, toIn, toSeg, toId, -⟩ := first.getVert firstFound to_
  obtain ⟨fromIn', fromSeg', fromId'⟩ := secondExtends.verts _ fromIn
  unfold gddGraphMakeEdge
  simp only
  generalize gddGraphGetVert ctx key from_ = step at *
  obtain ⟨mid, vfrom⟩ := step
  generalize gddGraphGetVert mid key to_ = step at *
  obtain ⟨last, vto⟩ := step
  have old (edge) (inLive : edge ∈ live) :
      (last.edges.alloc ⟨solid, vfrom, vto⟩).cell edge = last.edges.cell edge :=
    alloc_cell_old _ _ (snd.liveBelow edge inLive)
  refine ⟨nextSeg, snd.frame (fun _ _ => rfl) old le_rfl (Nat.le_succ _),
    (firstExtends.trans secondExtends).trans ⟨old, fun vert mem => ⟨mem, rfl, rfl⟩⟩,
    fun inLive => lt_irrefl _ (snd.liveBelow _ inLive), Nat.lt_succ_self _, vfrom, vto,
    alloc_cell_new _ _, fromIn', toIn, fromSeg'.trans fromSeg, toSeg.trans sameId,
    fromId'.trans fromId, toId⟩

theorem gddCtxAddEdge_eq (ctx segid from_ to_ solid) : gddCtxAddEdge ctx segid from_ to_ solid =
      let made := gddGraphMakeEdge (gddCtxGetGraph ctx segid) (segKey segid) from_ to_ solid
      let first := bindToStat made.1 (made.1.edges.cell made.2).from_ from_
      gddEdgeLink (bindToStat first (first.edges.cell made.2).to_ to_) made.2 := by
  have sameEdges (ctx vid) : (gddCtxGetGlobalStat ctx vid).1.edges = ctx.edges := by
    unfold gddCtxGetGlobalStat
    split <;> rfl
  simp only [gddCtxAddEdge, bindToStat, sameEdges]

theorem Linked.addEdge (link : Linked ctx seg live) (edge) : ∃ nextSeg nextLive,
      Linked (gddCtxAddEdge ctx edge.segid edge.waiter edge.holder edge.solid) nextSeg nextLive ∧
      described (gddCtxAddEdge ctx edge.segid edge.waiter edge.holder edge.solid) nextSeg nextLive =
        edge ::ₘ described ctx seg live := by
  obtain ⟨first, firstExtends, _, found, isSegid⟩ := link.getGraph edge.segid
  obtain ⟨nextSeg, madeLinked, madeExtends, fresh, below, vfrom, vto, record, fromIn, toIn, fromSeg,
    toSeg, fromId, toId⟩ := first.makeEdge found edge.waiter edge.holder edge.solid
  rw [gddCtxAddEdge_eq]
  generalize gddGraphMakeEdge (gddCtxGetGraph ctx edge.segid) (segKey edge.segid) edge.waiter
    edge.holder edge.solid = step at *
  obtain ⟨made, ptr⟩ := step
  simp only at *
  obtain ⟨snd, boundFrom, -, sameEdges, sameGraphs, sameId⟩ := madeLinked.bindVert fromId
  obtain ⟨third, boundTo, stillBound, sameEdges', sameGraphs', sameId'⟩ :=
    snd.bindVert ((sameId vto).trans toId)
  have boundFrom := stillBound vfrom boundFrom
  rw [record]
  simp only [sameEdges, record] at sameEdges' ⊢
  generalize bindToStat (bindToStat made vfrom edge.waiter) vto edge.holder = bound at *
  have boundVerts : allVerts bound = allVerts made := by
    simp only [allVerts, sameGraphs', sameGraphs]
  have boundExtends : Extends live made nextSeg bound nextSeg :=
    ⟨fun other _ => by rw [sameEdges'], fun vert mem =>
      ⟨boundVerts ▸ mem, rfl, (sameId' vert).trans (sameId vert)⟩⟩
  have linkExtends := gddEdgeLink_extends bound nextSeg live ptr
  have overall := ((firstExtends.trans madeExtends).trans boundExtends).trans linkExtends
  have boundRecord : bound.edges.cell ptr = ⟨edge.solid, vfrom, vto⟩ := by rw [sameEdges', record]
  refine ⟨nextSeg, live ++ [ptr], third.link fresh (sameEdges' ▸ below) ?_ ?_ ?_, ?_⟩
  · rw [boundRecord, boundVerts, toSeg, fromSeg]
    exact ⟨fromIn, toIn, rfl⟩
  · simp only [waiterId, boundRecord]
    exact boundFrom
  · simp only [holderId, boundRecord]
    exact boundTo
  · have isEdge : describe (gddEdgeLink bound ptr) nextSeg ptr = edge := by
      have sameId'' := gddEdgeLink_proj GddVert.id (fun _ _ => rfl) (fun _ _ => rfl) bound ptr
      have linkedRecord : (gddEdgeLink bound ptr).edges.cell ptr = _ := boundRecord
      simp only [describe, waitEdge, waiterId, holderId, linkedRecord, sameId'', sameId', sameId,
        fromId, toId, fromSeg, isSegid]
    rw [← overall.described link, described, map_append, ← Multiset.coe_add, described,
      map_singleton, isEdge, Multiset.coe_singleton, add_comm, Multiset.singleton_add]

end

def buildCtx (edges : List WaitEdge) : GddCtx :=
  edges.foldl (fun ctx edge => gddCtxAddEdge ctx edge.segid edge.waiter edge.holder edge.solid)
    gddCtxNew

theorem buildCtx_linked (edges) :
    ∃ seg live, Linked (buildCtx edges) seg live ∧ described (buildCtx edges) seg live = edges := by
  induction edges using reverseRecOn with
  | nil =>
    refine ⟨fun _ => 0, [], ?_, rfl⟩
    constructor <;> simp [buildCtx, gddCtxNew, allVerts, gddStatInit]
  | append_singleton edges edge ih =>
    obtain ⟨seg, live, link, holds⟩ := ih
    obtain ⟨nextSeg, nextLive, nextLinked, nextHolds⟩ := link.addEdge edge
    unfold buildCtx at *
    rw [foldl_append]
    refine ⟨nextSeg, nextLive, nextLinked, nextHolds.trans ?_⟩
    rw [holds, Multiset.cons_coe, Multiset.coe_eq_coe]
    exact (perm_append_singleton edge edges).symm

end Greengage.Gdd
