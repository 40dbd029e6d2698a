import Greengage.Foundations.Peeling
import Greengage.Gdd.Detector
import Mathlib.Data.List.Dedup

/-!
Contract: the bookkeeping invariant of the deadlock detector.

The list `live` and the segment assignment `seg` are ghost state: the source
stores neither.
-/

namespace Greengage.Gdd

open List Greengage.Foundations Heap GddVert Prod

/-- A wait relation: on segment `segid`, `waiter` waits for `holder`. -/
structure WaitEdge where
  segid : SegId
  waiter : DistributedTransactionId
  holder : DistributedTransactionId
  solid : Bool
deriving DecidableEq

section

variable (ctx : GddCtx)

def waiterId (edge : Ptr) : DistributedTransactionId :=
  (ctx.verts.cell (ctx.edges.cell edge).from_).id

def holderId (edge : Ptr) : DistributedTransactionId :=
  (ctx.verts.cell (ctx.edges.cell edge).to_).id

def waitEdge (segid : SegId) (edge : Ptr) : WaitEdge :=
  ⟨segid, waiterId ctx edge, holderId ctx edge, (ctx.edges.cell edge).solid⟩

def linkedEdges : Multiset WaitEdge :=
  ctx.graphs.flatMap fun pair => pair.2.verts.flatMap fun vert =>
    (ctx.verts.cell vert.2).edgesOut.map (waitEdge ctx pair.2.id)

end

/-- The bookkeeping invariant. A vertex without edges may still be unbound from
its statistics. -/
structure Linked (ctx : GddCtx) (seg : Ptr → SegId) (live : List Ptr) : Prop where
  liveNodup : live.Nodup
  liveBelow : ∀ edge ∈ live, edge < ctx.edges.next
  graphKeys : (ctx.graphs.map Prod.fst).Nodup
  graphIds : ∀ pair ∈ ctx.graphs, pair.1 = segKey pair.2.id
  vertPtrs : (allVerts ctx).Nodup
  vertBelow : ∀ vert ∈ allVerts ctx, vert < ctx.verts.next
  vertKeys : ∀ pair ∈ ctx.graphs, (pair.2.verts.map Prod.fst).Nodup
  vertIds : ∀ pair ∈ ctx.graphs, ∀ vert ∈ pair.2.verts,
    (ctx.verts.cell vert.2).id = vert.1 ∧ seg vert.2 = pair.2.id
  ends : ∀ edge ∈ live, (ctx.edges.cell edge).from_ ∈ allVerts ctx ∧
    (ctx.edges.cell edge).to_ ∈ allVerts ctx ∧
    seg (ctx.edges.cell edge).to_ = seg (ctx.edges.cell edge).from_
  edgesOut : ∀ vert ∈ allVerts ctx, (ctx.verts.cell vert).edgesOut =
    live.filter fun edge => (ctx.edges.cell edge).from_ == vert
  edgesIn : ∀ vert ∈ allVerts ctx, (ctx.verts.cell vert).edgesIn =
    live.filter fun edge => (ctx.edges.cell edge).to_ == vert
  globalKeys : (ctx.globals.map Prod.fst).Nodup
  globalPtrs : (ctx.globals.map Prod.snd).Nodup
  globalBelow : ∀ pair ∈ ctx.globals, pair.2 < ctx.stats.next
  boundFrom : ∀ edge ∈ live,
    (waiterId ctx edge, (ctx.verts.cell (ctx.edges.cell edge).from_).global) ∈ ctx.globals
  boundTo : ∀ edge ∈ live,
    (holderId ctx edge, (ctx.verts.cell (ctx.edges.cell edge).to_).global) ∈ ctx.globals
  outdeg : ∀ pair ∈ ctx.globals,
    (ctx.stats.cell pair.2).outdeg = live.countP fun edge => waiterId ctx edge == pair.1
  indeg : ∀ pair ∈ ctx.globals,
    (ctx.stats.cell pair.2).indeg = live.countP fun edge => holderId ctx edge == pair.1
  topOutdeg : ctx.topstat.outdeg = live.length
  topIndeg : ctx.topstat.indeg = live.length

/-- What unlinking edges and removing vertices never change. -/
structure Shrinks (before after : GddCtx) : Prop where
  edges : after.edges = before.edges
  ids : ∀ vert, (after.verts.cell vert).id = (before.verts.cell vert).id
  keys : after.graphs.map Prod.fst = before.graphs.map Prod.fst

theorem Shrinks.refl (ctx) : Shrinks ctx ctx := ⟨rfl, fun _ => rfl, rfl⟩

theorem Shrinks.trans {first snd third} (left : Shrinks first snd)
    (right : Shrinks snd third) : Shrinks first third :=
  ⟨right.edges.trans left.edges, fun vert => (right.ids vert).trans (left.ids vert),
    right.keys.trans left.keys⟩

section

variable {pre after : GddCtx} (shrinks : Shrinks pre after)
include shrinks

theorem Shrinks.waiterId (edge) : waiterId after edge = waiterId pre edge := by
  simp only [Gdd.waiterId, shrinks.edges, shrinks.ids]

theorem Shrinks.holderId (edge) : holderId after edge = holderId pre edge := by
  simp only [Gdd.holderId, shrinks.edges, shrinks.ids]

theorem Shrinks.waitEdge (segid edge) : waitEdge after segid edge = waitEdge pre segid edge := by
  simp only [Gdd.waitEdge, shrinks.waiterId, shrinks.holderId, shrinks.edges]

end

/-! ### Unlinking one edge -/

def dropOut (edge : Ptr) (vert : GddVert) : GddVert :=
  { vert with edgesOut := vert.edgesOut.erase edge }

def dropIn (edge : Ptr) (vert : GddVert) : GddVert :=
  { vert with edgesIn := vert.edgesIn.erase edge }

section

variable (ctx : GddCtx) (edge : Ptr)

def unlink : GddCtx := gddEdgeUnlink ctx edge none none

theorem gddEdgeUnlink_eq_unlink {fromiter toiter}
    (fromAgrees : ∀ iter ∈ fromiter, iter.delete.list =
      (ctx.verts.cell (ctx.edges.cell edge).from_).edgesOut.erase edge)
    (toAgrees : ∀ iter ∈ toiter, iter.delete.list =
      (ctx.verts.cell (ctx.edges.cell edge).to_).edgesIn.erase edge) :
    gddEdgeUnlink ctx edge fromiter toiter = unlink ctx edge := by
  have fromSame : gddEdgeUnlinkFrom ctx edge fromiter = gddEdgeUnlinkFrom ctx edge none := by
    cases fromiter with
    | none => rfl
    | some iter =>
      have same := fromAgrees iter rfl
      simp [gddEdgeUnlinkFrom, Heap.modify, same]
  unfold unlink gddEdgeUnlink
  rw [fromSame]
  cases toiter with
  | none => rfl
  | some iter =>
    have same := toAgrees iter rfl
    have kept := modify_proj edgesIn ctx.verts (ctx.edges.cell edge).from_
      (dropOut edge) (fun _ => rfl)
      (ctx.edges.cell edge).to_
    simp only [Heap.modify, dropOut] at kept
    simp [gddEdgeUnlinkTo, gddEdgeUnlinkFrom, Heap.modify, same, kept]

@[simp] theorem unlink_edges : (unlink ctx edge).edges = ctx.edges := rfl

@[simp] theorem unlink_allVerts : allVerts (unlink ctx edge) = allVerts ctx := rfl

@[simp] theorem unlink_topOutdeg : (unlink ctx edge).topstat.outdeg = ctx.topstat.outdeg - 1 := rfl

@[simp] theorem unlink_topIndeg : (unlink ctx edge).topstat.indeg = ctx.topstat.indeg - 1 := rfl

theorem unlink_verts : (unlink ctx edge).verts =
    (ctx.verts.modify (ctx.edges.cell edge).from_ (dropOut edge)).modify
      (ctx.edges.cell edge).to_ (dropIn edge) := rfl

theorem unlink_stats : (unlink ctx edge).stats =
    (ctx.stats.modify (ctx.verts.cell (ctx.edges.cell edge).from_).global (addOutdeg (-1))).modify
      (ctx.verts.cell (ctx.edges.cell edge).to_).global (addIndeg (-1)) := by
  rw [← modify_proj global ctx.verts (ctx.edges.cell edge).from_ (dropOut edge)
    (fun _ => rfl) (ctx.edges.cell edge).to_]
  rfl

@[simp] theorem unlink_id (vert) :
    ((unlink ctx edge).verts.cell vert).id = (ctx.verts.cell vert).id := by
  rw [unlink_verts, modify_proj GddVert.id _ _ (dropIn edge) fun _ => rfl,
    modify_proj GddVert.id _ _ (dropOut edge) fun _ => rfl]

@[simp] theorem unlink_global (vert) :
    ((unlink ctx edge).verts.cell vert).global = (ctx.verts.cell vert).global := by
  rw [unlink_verts, modify_proj global _ _ (dropIn edge) fun _ => rfl,
    modify_proj global _ _ (dropOut edge) fun _ => rfl]

theorem unlink_edgesOut (vert) : ((unlink ctx edge).verts.cell vert).edgesOut =
      if (ctx.edges.cell edge).from_ = vert then (ctx.verts.cell vert).edgesOut.erase edge
      else (ctx.verts.cell vert).edgesOut := by
  rw [unlink_verts, modify_proj edgesOut _ _ (dropIn edge) fun _ => rfl]
  rw [modify_cell]
  split <;> rfl

theorem unlink_edgesIn (vert) : ((unlink ctx edge).verts.cell vert).edgesIn =
      if (ctx.edges.cell edge).to_ = vert then (ctx.verts.cell vert).edgesIn.erase edge
      else (ctx.verts.cell vert).edgesIn := by
  rw [← modify_proj edgesIn ctx.verts (ctx.edges.cell edge).from_ (dropOut edge)
    (fun _ => rfl), unlink_verts]
  rw [modify_cell]
  split <;> rfl

theorem unlink_outdeg (stat) : ((unlink ctx edge).stats.cell stat).outdeg =
      if (ctx.verts.cell (ctx.edges.cell edge).from_).global = stat
      then (ctx.stats.cell stat).outdeg - 1 else (ctx.stats.cell stat).outdeg := by
  rw [unlink_stats, modify_proj GddStat.outdeg _ _ (addIndeg (-1)) fun _ => rfl]
  rw [modify_cell]
  split <;> rfl

theorem unlink_indeg (stat) : ((unlink ctx edge).stats.cell stat).indeg =
      if (ctx.verts.cell (ctx.edges.cell edge).to_).global = stat
      then (ctx.stats.cell stat).indeg - 1 else (ctx.stats.cell stat).indeg := by
  rw [← modify_proj GddStat.indeg ctx.stats
    (ctx.verts.cell (ctx.edges.cell edge).from_).global (addOutdeg (-1)) (fun _ => rfl),
    unlink_stats]
  rw [modify_cell]
  split <;> rfl

theorem unlink_shrinks : Shrinks ctx (unlink ctx edge) := ⟨rfl, unlink_id ctx edge, rfl⟩

end

/-! ### Consequences of the invariant -/

variable {α : Type}

theorem pair_key_iff {β : Type} {pairs : List (α × β)} (keys : (pairs.map fst).Nodup)
    (vals : (pairs.map snd).Nodup) {left right : α × β} (leftMember : left ∈ pairs)
    (rightMember : right ∈ pairs) : left.2 = right.2 ↔ left.1 = right.1 := by
  constructor
  · intro same
    rw [inj_on_of_nodup_map vals leftMember rightMember same]
  · intro same
    rw [inj_on_of_nodup_map keys leftMember rightMember same]

private theorem filter_erase [DecidableEq α] (keep : α → Bool) (list : List α) (a : α) :
    (list.erase a).filter keep =
      if keep a then (list.filter keep).erase a else list.filter keep := by
  rw [← erase_filter]
  split
  case isTrue kept => rfl
  case isFalse dropped =>
    apply erase_of_not_mem
    simp [dropped]

private theorem countP_erase_int [DecidableEq α] (keep : α → Bool) {list : List α} {a : α}
    (mem : a ∈ list) :
    ((list.erase a).countP keep : Int) =
      if keep a then (list.countP keep : Int) - 1 else list.countP keep := by
  rw [countP_erase]
  by_cases kept : keep a = true
  · have gtZero : 0 < list.countP keep := countP_pos_iff.mpr ⟨a, mem, kept⟩
    simp only [mem, kept, and_self, if_true]
    omega
  · simp [kept]

variable {seg : Ptr → SegId} {live : List Ptr}

section

variable {ctx : GddCtx}

section

variable (link : Linked ctx seg live) {vert edge : Ptr} (inAll : vert ∈ allVerts ctx)
include link inAll

theorem Linked.mem_edgesOut : edge ∈ (ctx.verts.cell vert).edgesOut ↔
    edge ∈ live ∧ (ctx.edges.cell edge).from_ = vert := by
  rw [link.edgesOut vert inAll, mem_filter, beq_iff_eq]

theorem Linked.mem_edgesIn : edge ∈ (ctx.verts.cell vert).edgesIn ↔
    edge ∈ live ∧ (ctx.edges.cell edge).to_ = vert := by
  rw [link.edgesIn vert inAll, mem_filter, beq_iff_eq]

theorem Linked.edgesOut_eq_nil : (ctx.verts.cell vert).edgesOut = [] ↔
    ∀ edge ∈ live, (ctx.edges.cell edge).from_ ≠ vert := by
  simp [eq_nil_iff_forall_not_mem, link.mem_edgesOut inAll]

theorem Linked.edgesIn_eq_nil : (ctx.verts.cell vert).edgesIn = [] ↔
    ∀ edge ∈ live, (ctx.edges.cell edge).to_ ≠ vert := by
  simp [eq_nil_iff_forall_not_mem, link.mem_edgesIn inAll]

end

theorem Linked.unlink (link : Linked ctx seg live) {edge} (mem : edge ∈ live) :
    Linked (unlink ctx edge) seg (live.erase edge) := { link with
  liveNodup := link.liveNodup.erase edge
  liveBelow other inLive := link.liveBelow other (mem_of_mem_erase inLive)
  vertIds pair inGraphs vert inVerts := by
    rw [unlink_id]
    exact link.vertIds pair inGraphs vert inVerts
  ends other inLive := link.ends other (mem_of_mem_erase inLive)
  edgesOut vert inAll := by
    rw [unlink_edgesOut, link.edgesOut vert inAll, filter_erase]
    simp only [unlink_edges, beq_iff_eq]
  edgesIn vert inAll := by
    rw [unlink_edgesIn, link.edgesIn vert inAll, filter_erase]
    simp only [unlink_edges, beq_iff_eq]
  boundFrom other inLive := by
    rw [(unlink_shrinks ctx edge).waiterId, unlink_global]
    exact link.boundFrom other (mem_of_mem_erase inLive)
  boundTo other inLive := by
    rw [(unlink_shrinks ctx edge).holderId, unlink_global]
    exact link.boundTo other (mem_of_mem_erase inLive)
  outdeg pair inGlobals := by
    have sameKey := pair_key_iff link.globalKeys link.globalPtrs (link.boundFrom edge mem) inGlobals
    simp only [(unlink_shrinks ctx edge).waiterId]
    rw [unlink_outdeg, countP_erase_int _ mem, link.outdeg pair inGlobals]
    simp only [sameKey, beq_iff_eq]
  indeg pair inGlobals := by
    have sameKey := pair_key_iff link.globalKeys link.globalPtrs (link.boundTo edge mem) inGlobals
    simp only [(unlink_shrinks ctx edge).holderId]
    rw [unlink_indeg, countP_erase_int _ mem, link.indeg pair inGlobals]
    simp only [sameKey, beq_iff_eq]
  topOutdeg := by
    have gtZero := length_pos_of_mem mem
    rw [unlink_topOutdeg, link.topOutdeg, length_erase_of_mem mem]
    omega
  topIndeg := by
    have gtZero := length_pos_of_mem mem
    rw [unlink_topIndeg, link.topIndeg, length_erase_of_mem mem]
    omega }

theorem Linked.vert_unique (link : Linked ctx seg live) {left right}
    (leftMember : left ∈ allVerts ctx) (rightMember : right ∈ allVerts ctx)
    (sameSeg : seg left = seg right)
    (sameId : (ctx.verts.cell left).id = (ctx.verts.cell right).id) : left = right := by
  simp only [allVerts, mem_flatMap, mem_map] at leftMember rightMember
  obtain ⟨leftGraph, leftIn, leftVert, leftInVerts, rfl⟩ := leftMember
  obtain ⟨rightGraph, rightIn, rightVert, rightInVerts, rfl⟩ := rightMember
  obtain ⟨leftId, leftSeg⟩ := link.vertIds leftGraph leftIn leftVert leftInVerts
  obtain ⟨rightId, rightSeg⟩ := link.vertIds rightGraph rightIn rightVert rightInVerts
  have sameGraph : leftGraph = rightGraph := by
    apply inj_on_of_nodup_map link.graphKeys leftIn rightIn
    rw [link.graphIds leftGraph leftIn, link.graphIds rightGraph rightIn, ← leftSeg,
      ← rightSeg, sameSeg]
  subst sameGraph
  have sameVert : leftVert = rightVert := by
    apply inj_on_of_nodup_map (link.vertKeys leftGraph leftIn) leftInVerts rightInVerts
    rw [← leftId, ← rightId, sameId]
  rw [sameVert]

/-- Grouping a list by a key that takes its values in `keys` loses nothing. -/
theorem flatMap_filter_perm {β : Type} [DecidableEq β] (key : α → β) :
    ∀ (keys : List β) (list : List α), keys.Nodup → (∀ a ∈ list, key a ∈ keys) →
      (keys.flatMap fun k => list.filter fun a => key a == k).Perm list := by
  intro keys
  induction keys with
  | nil =>
    intro list _ covered
    have empty : list = [] := eq_nil_iff_forall_not_mem.mpr fun a mem => by
      simpa using covered a mem
    simp [empty]
  | cons first rest ih =>
    intro list nodup covered
    obtain ⟨fresh, restNodup⟩ := nodup_cons.mp nodup
    let others := list.filter fun a => !(key a == first)
    have regroup : (rest.flatMap fun k => list.filter fun a => key a == k) =
        rest.flatMap fun k => others.filter fun a => key a == k := by
      apply flatMap_congr
      intro k inRest
      rw [filter_filter]
      apply filter_congr
      intro a _
      by_cases same : key a = k
      · have ne : key a ≠ first := fun equal => fresh (equal ▸ same ▸ inRest)
        simp [same, same ▸ ne]
      · simp [same]
    have smaller := ih others restNodup (by
      intro a mem
      simp only [others, mem_filter, Bool.not_eq_true', beq_eq_false_iff_ne] at mem
      exact (mem_cons.mp (covered a mem.1)).resolve_left mem.2)
    rw [flatMap_cons, regroup]
    exact (Perm.append_left _ smaller).trans (filter_append_perm _ list)

theorem Linked.linkedEdges_eq (link : Linked ctx seg live) : linkedEdges ctx =
      (live.map fun edge => waitEdge ctx (seg (ctx.edges.cell edge).from_) edge :
        Multiset WaitEdge) := by
  unfold linkedEdges
  rw [Multiset.coe_eq_coe]
  have bySeg : (ctx.graphs.flatMap fun pair => pair.2.verts.flatMap fun vert =>
      (ctx.verts.cell vert.2).edgesOut.map (waitEdge ctx pair.2.id)) =
      (allVerts ctx).flatMap fun vert => (live.filter fun edge =>
        (ctx.edges.cell edge).from_ == vert).map fun edge =>
          waitEdge ctx (seg (ctx.edges.cell edge).from_) edge := by
    unfold allVerts
    rw [flatMap_assoc]
    apply flatMap_congr
    intro pair inGraphs
    rw [flatMap_map]
    apply flatMap_congr
    intro vert inVerts
    have inAll : vert.2 ∈ allVerts ctx :=
      mem_flatMap.mpr ⟨pair, inGraphs, mem_map_of_mem inVerts⟩
    rw [link.edgesOut vert.2 inAll]
    apply map_congr_left
    intro edge inList
    have isFrom : (ctx.edges.cell edge).from_ = vert.2 := by
      simpa using (mem_filter.mp inList).2
    rw [isFrom, (link.vertIds pair inGraphs vert inVerts).2]
  rw [bySeg, ← map_flatMap]
  apply Perm.map
  exact flatMap_filter_perm _ _ live link.vertPtrs fun edge inLive =>
    (link.ends edge inLive).1

end

/-! ### Array maps -/

variable {map : GddMap α} {key : BitVec 64}

theorem gddMapGet_mem {ptr} (found : gddMapGet map key = some ptr) : (key, ptr) ∈ map := by
  simp only [gddMapGet, Option.map_eq_some_iff] at found
  obtain ⟨pair, isFound, rfl⟩ := found
  have sameKey : pair.1 = key := by simpa using find?_some isFound
  rw [← sameKey]
  exact mem_of_find?_eq_some isFound

theorem gddMapGet_none (missing : gddMapGet map key = none) : key ∉ map.map fst := by
  simp only [gddMapGet, Option.map_eq_none_iff, find?_eq_none, beq_iff_eq] at missing
  intro mem
  obtain ⟨pair, inMap, sameKey⟩ := mem_map.mp mem
  exact missing pair inMap sameKey

theorem gddMapGet_of_mem {ptr} (keys : (map.map fst).Nodup) (mem : (key, ptr) ∈ map) :
    gddMapGet map key = some ptr := by
  cases found : gddMapGet map key with
  | none => exact absurd (mem_map_of_mem mem) (gddMapGet_none found)
  | some other =>
    have same := inj_on_of_nodup_map keys (gddMapGet_mem found) mem rfl
    rw [(mk.inj same).2]

variable {pos : Nat}

/-- Moving the last pair into the hole deletes exactly the pair at `pos`. -/
theorem gddMapIterDelete_perm (below : pos < map.length) :
    (gddMapIterDelete map pos).Perm (map.eraseIdx pos) := by
  have ne : map ≠ [] := ne_nil_of_length_pos (by omega)
  obtain ⟨front, last, rfl⟩ : ∃ front last, map = front ++ [last] :=
    ⟨_, _, (dropLast_append_getLast ne).symm⟩
  simp only [gddMapIterDelete, getLast?_concat]
  rcases lt_or_ge pos front.length with lt | _
  · rw [set_append_left _ _ lt, dropLast_concat, eraseIdx_append_of_lt_length lt]
    exact (set_perm_cons_eraseIdx lt last).trans (perm_append_singleton _ _).symm
  · have isLast : pos = front.length := by
      rw [length_append, length_singleton] at below
      omega
    subst isLast
    simp [eraseIdx_append_of_length_le]

theorem gddMapIterDelete_getElem? {other} (below : pos < map.length) (pre : other < pos) :
    (gddMapIterDelete map pos)[other]? = map[other]? := by
  have ne : map ≠ [] := ne_nil_of_length_pos (by omega)
  rw [gddMapIterDelete, getLast?_eq_getLast_of_ne_nil ne]
  rw [getElem?_dropLast, if_pos (by simp; omega), getElem?_set_ne (by omega)]

section

variable {ctx : GddCtx} {graph : GddGraph}

theorem Linked.graphs_split (link : Linked ctx seg live)
    (found : gddMapGet ctx.graphs key = some graph) :
    ∃ pre after, ctx.graphs = pre ++ (key, graph) :: after ∧
      ∀ verts, (setGraphVerts ctx key verts).graphs =
        pre ++ (key, { graph with verts := verts }) :: after := by
  obtain ⟨pre, after, split⟩ := append_of_mem (gddMapGet_mem found)
  refine ⟨pre, after, split, fun verts => ?_⟩
  have keys := link.graphKeys
  rw [split, map_append, map_cons, nodup_middle, nodup_cons] at keys
  have rest (pair) (mem : pair ∈ pre ++ after) : (pair.1 == key) = false := by
    rw [beq_eq_false_iff_ne]
    intro sameKey
    apply keys.1
    rw [← map_append]
    exact mem_map.mpr ⟨pair, mem, sameKey⟩
  have same : ∀ list : GddMap GddGraph, (∀ pair ∈ list, (pair.1 == key) = false) →
      (list.map fun pair => if pair.1 == key then (pair.1, { pair.2 with verts := verts })
        else pair) = list := by
    intro list ne
    conv_rhs => rw [← map_id list]
    apply map_congr_left
    intro pair mem
    simp [ne pair mem]
  simp only [setGraphVerts, split, map_append, map_cons, beq_self_eq_true, if_true]
  rw [same pre fun pair mem => rest pair (mem_append_left _ mem),
    same after fun pair mem => rest pair (mem_append_right _ mem)]

theorem graphVerts_eq (found : gddMapGet ctx.graphs key = some graph) :
    graphVerts ctx key = graph.verts := by
  simp [graphVerts, found]

end

end Greengage.Gdd
