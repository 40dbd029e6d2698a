import Greengage.Foundations.Heap
import Greengage.Foundations.Loop

/-!
Contract: the global deadlock detector of `src/backend/utils/gdd/gdddetector.c`.

Owns: the context with its per-segment graphs, vertices, edges and degree
counters; adding an edge; the reduction loop; breaking a deadlock. Vertices,
edges and statistics are heap records reached through addresses, as the
pointers of the source are. Vertex ids and map keys are 64-bit words, segment
ids are 32-bit integers that are sign extended when they serve as map keys.

Does not own: the collection of the wait edges, the validation of transactions
and the `data` fields, which the detector never reads. Degree counters are
integers without an upper bound.
-/

namespace Greengage.Gdd

open Greengage.Foundations

abbrev DistributedTransactionId := BitVec 64

/-- The C type `int` of a segment id. -/
abbrev SegId := BitVec 32

/-- Address of a heap record. -/
abbrev Ptr := Nat

/-- A `GddMap`: an array of key and pointer pairs. -/
abbrev GddMap (α : Type) := List (BitVec 64 × α)

def gddMapGet {α : Type} (map : GddMap α) (key : BitVec 64) : Option α :=
  (map.find? fun pair => pair.1 == key).map Prod.snd

def gddMapSetUnsafe {α : Type} (map : GddMap α) (key : BitVec 64) (ptr : α) : GddMap α :=
  map ++ [(key, ptr)]

/-- `gdd_map_iter_delete`: the last pair moves into the hole at `pos`. -/
def gddMapIterDelete {α : Type} (map : GddMap α) (pos : Nat) : GddMap α :=
  match map.getLast? with
  | none => map
  | some last => (map.set pos last).dropLast

structure GddStat where
  id : DistributedTransactionId
  indeg : Int
  outdeg : Int
deriving DecidableEq

structure GddEdge where
  solid : Bool
  from_ : Ptr
  to_ : Ptr
deriving DecidableEq

/-- A vertex on one segment. `global` is the address of its statistics. -/
structure GddVert where
  id : DistributedTransactionId
  global : Ptr
  edgesIn : List Ptr
  edgesOut : List Ptr
deriving DecidableEq

structure GddGraph where
  id : SegId
  verts : GddMap Ptr
deriving DecidableEq

structure GddCtx where
  topstat : GddStat
  globals : GddMap Ptr
  graphs : GddMap GddGraph
  stats : Heap GddStat
  verts : Heap GddVert
  edges : Heap GddEdge

def gddStatInit (vid : DistributedTransactionId) : GddStat := ⟨vid, 0, 0⟩

/-- `global` is bound later, by `gddVertBindStats`. -/
def gddVertNew (id : DistributedTransactionId) : GddVert := ⟨id, 0, [], []⟩

def gddGraphNew (id : SegId) : GddGraph := ⟨id, []⟩

def gddCtxNew : GddCtx where
  topstat := gddStatInit 0
  globals := []
  graphs := []
  stats := .empty (gddStatInit 0)
  verts := .empty (gddVertNew 0)
  edges := .empty ⟨false, 0, 0⟩

/-- A segment id used as a map key: `int` converts to `uint64`. -/
def segKey (segid : SegId) : BitVec 64 := segid.signExtend 64

/-! ### Adding an edge -/

def gddCtxGetGraph (ctx : GddCtx) (segid : SegId) : GddCtx :=
  match gddMapGet ctx.graphs (segKey segid) with
  | some _ => ctx
  | none => { ctx with
      graphs := gddMapSetUnsafe ctx.graphs (segKey segid) (gddGraphNew segid) }

def gddCtxGetGlobalStat (ctx : GddCtx) (vid : DistributedTransactionId) : GddCtx × Ptr :=
  match gddMapGet ctx.globals vid with
  | some global => (ctx, global)
  | none =>
    ({ ctx with
        stats := ctx.stats.alloc (gddStatInit vid)
        globals := gddMapSetUnsafe ctx.globals vid ctx.stats.next }, ctx.stats.next)

/-- Replace the vertex map of the graph stored under `key`. -/
def setGraphVerts (ctx : GddCtx) (key : BitVec 64) (verts : GddMap Ptr) : GddCtx :=
  { ctx with
    graphs := ctx.graphs.map fun pair =>
      if pair.1 == key then (pair.1, { pair.2 with verts := verts }) else pair }

/-- The vertex map of the graph stored under `key`. -/
def graphVerts (ctx : GddCtx) (key : BitVec 64) : GddMap Ptr :=
  match gddMapGet ctx.graphs key with
  | some graph => graph.verts
  | none => []

/-- The vertex with id `vid` of a graph, created when it is seen for the first
time. -/
def gddGraphGetVert (ctx : GddCtx) (key : BitVec 64) (vid : DistributedTransactionId) :
    GddCtx × Ptr :=
  match gddMapGet (graphVerts ctx key) vid with
  | some vert => (ctx, vert)
  | none =>
    (setGraphVerts { ctx with verts := ctx.verts.alloc (gddVertNew vid) } key
      (gddMapSetUnsafe (graphVerts ctx key) vid ctx.verts.next), ctx.verts.next)

def gddGraphMakeEdge (ctx : GddCtx) (key : BitVec 64)
    (from_ to_ : DistributedTransactionId) (solid : Bool) : GddCtx × Ptr :=
  let (ctx, vfrom) := gddGraphGetVert ctx key from_
  let (ctx, vto) := gddGraphGetVert ctx key to_
  ({ ctx with edges := ctx.edges.alloc ⟨solid, vfrom, vto⟩ }, ctx.edges.next)

def gddVertBindStats (ctx : GddCtx) (vert global : Ptr) : GddCtx :=
  { ctx with verts := ctx.verts.modify vert fun record => { record with global := global } }

def addOutdeg (amount : Int) (stat : GddStat) : GddStat :=
  { stat with outdeg := stat.outdeg + amount }

def addIndeg (amount : Int) (stat : GddStat) : GddStat :=
  { stat with indeg := stat.indeg + amount }

/-- Link an edge to its vertices and count it. -/
def gddEdgeLink (ctx : GddCtx) (edge : Ptr) : GddCtx :=
  let record := ctx.edges.cell edge
  let ctx := { ctx with topstat := addIndeg 1 (addOutdeg 1 ctx.topstat) }
  let ctx := { ctx with
    stats := ctx.stats.modify (ctx.verts.cell record.from_).global (addOutdeg 1) }
  let ctx := { ctx with
    stats := ctx.stats.modify (ctx.verts.cell record.to_).global (addIndeg 1) }
  let ctx := { ctx with
    verts := ctx.verts.modify record.from_ fun vert =>
      { vert with edgesOut := vert.edgesOut ++ [edge] } }
  { ctx with
    verts := ctx.verts.modify record.to_ fun vert =>
      { vert with edgesIn := vert.edgesIn ++ [edge] } }

/-- Add an edge to one local graph. -/
def gddCtxAddEdge (ctx : GddCtx) (segid : SegId) (from_ to_ : DistributedTransactionId)
    (solid : Bool) : GddCtx :=
  let ctx := gddCtxGetGraph ctx segid
  let (ctx, edge) := gddGraphMakeEdge ctx (segKey segid) from_ to_ solid
  let (ctx, global) := gddCtxGetGlobalStat ctx from_
  let ctx := gddVertBindStats ctx (ctx.edges.cell edge).from_ global
  let (ctx, global) := gddCtxGetGlobalStat ctx to_
  let ctx := gddVertBindStats ctx (ctx.edges.cell edge).to_ global
  gddEdgeLink ctx edge

/-! ### Unlinking edges -/

/-- A `GddListIter`: the cells before the current one, and the current cell
with all cells after it. -/
structure GddListIter where
  seen : List Ptr
  rest : List Ptr

def GddListIter.list (iter : GddListIter) : List Ptr := iter.seen ++ iter.rest

/-- `gdd_list_iter_delete`: drop the current cell; the loop goes on with the
cell after it. -/
def GddListIter.delete (iter : GddListIter) : GddListIter := ⟨iter.seen, iter.rest.tail⟩

/-- Unlink an edge from its from vertex. Without an iterator the edge is
searched in the list. -/
def gddEdgeUnlinkFrom (ctx : GddCtx) (edge : Ptr) (fromiter : Option GddListIter) : GddCtx :=
  let vert := (ctx.edges.cell edge).from_
  let ctx := { ctx with topstat := addOutdeg (-1) ctx.topstat }
  let ctx := { ctx with stats := ctx.stats.modify (ctx.verts.cell vert).global (addOutdeg (-1)) }
  { ctx with
    verts := ctx.verts.modify vert fun record =>
      { record with
        edgesOut := match fromiter with
          | some iter => iter.delete.list
          | none => record.edgesOut.erase edge } }

/-- Unlink an edge from its to vertex. -/
def gddEdgeUnlinkTo (ctx : GddCtx) (edge : Ptr) (toiter : Option GddListIter) : GddCtx :=
  let vert := (ctx.edges.cell edge).to_
  let ctx := { ctx with topstat := addIndeg (-1) ctx.topstat }
  let ctx := { ctx with stats := ctx.stats.modify (ctx.verts.cell vert).global (addIndeg (-1)) }
  { ctx with
    verts := ctx.verts.modify vert fun record =>
      { record with
        edgesIn := match toiter with
          | some iter => iter.delete.list
          | none => record.edgesIn.erase edge } }

def gddEdgeUnlink (ctx : GddCtx) (edge : Ptr) (fromiter toiter : Option GddListIter) : GddCtx :=
  gddEdgeUnlinkTo (gddEdgeUnlinkFrom ctx edge fromiter) edge toiter

/-- `gdd_vert_foreach_in_edge` with a body that unlinks every edge `skip` does
not hold back. `seen` holds the cells the loop has passed and kept. -/
def unlinkInEdges (skip : GddEdge → Bool) : GddCtx → List Ptr → List Ptr → Bool → GddCtx × Bool
  | ctx, _, [], dirty => (ctx, dirty)
  | ctx, seen, edge :: rest, dirty =>
    if skip (ctx.edges.cell edge) then
      unlinkInEdges skip ctx (seen ++ [edge]) rest dirty
    else
      unlinkInEdges skip (gddEdgeUnlink ctx edge none (some ⟨seen, edge :: rest⟩)) seen rest true

/-- `gdd_vert_foreach_out_edge` with a body that unlinks every edge. -/
def unlinkOutEdges : GddCtx → List Ptr → Bool → GddCtx × Bool
  | ctx, [], dirty => (ctx, dirty)
  | ctx, edge :: rest, _ =>
    unlinkOutEdges (gddEdgeUnlink ctx edge (some ⟨[], edge :: rest⟩) none) rest true

def gddVertUnlinkAll (ctx : GddCtx) (vert : Ptr) : GddCtx × Bool :=
  let (ctx, dirty) := unlinkInEdges (fun _ => false) ctx [] (ctx.verts.cell vert).edgesIn false
  unlinkOutEdges ctx (ctx.verts.cell vert).edgesOut dirty

def gddVertGetInDegree (ctx : GddCtx) (vert : Ptr) : Nat := (ctx.verts.cell vert).edgesIn.length

def gddVertGetOutDegree (ctx : GddCtx) (vert : Ptr) : Nat := (ctx.verts.cell vert).edgesOut.length

def gddVertReduce (ctx : GddCtx) (vert : Ptr) : GddCtx × Bool :=
  let global := ctx.stats.cell (ctx.verts.cell vert).global
  if global.indeg = 0 ∨ global.outdeg = 0 then
    gddVertUnlinkAll ctx vert
  else if gddVertGetOutDegree ctx vert = 0 then
    unlinkInEdges GddEdge.solid ctx [] (ctx.verts.cell vert).edgesIn false
  else
    (ctx, false)

/-- The inner loop of `gdd_ctx_foreach_vert` over the vertices of the graph
stored under `key`. Each iteration either advances `pos` or shortens the map,
so the initial length of the map bounds the iterations. -/
def reduceVerts (key : BitVec 64) : Nat → GddCtx → Nat → Bool → GddCtx × Bool
  | 0, ctx, _, dirty => (ctx, dirty)
  | fuel + 1, ctx, pos, dirty =>
    match (graphVerts ctx key)[pos]? with
    | none => (ctx, dirty)
    | some pair =>
      let (ctx, changed) := gddVertReduce ctx pair.2
      -- an empty vertex is removed even when its last edge went in another vertex's turn
      if gddVertGetInDegree ctx pair.2 = 0 ∧ gddVertGetOutDegree ctx pair.2 = 0 then
        reduceVerts key fuel (setGraphVerts ctx key (gddMapIterDelete (graphVerts ctx key) pos)) pos
          (dirty || changed)
      else
        reduceVerts key fuel ctx (pos + 1) (dirty || changed)

/-- One execution of the body of the `while (dirty)` loop. -/
def reducePass (ctx : GddCtx) : GddCtx × Bool :=
  (ctx.graphs.map Prod.fst).foldl
    (fun state key => reduceVerts key (graphVerts state.1 key).length state.1 0 state.2)
    (ctx, false)

def gddCtxReduce (fuel : Nat) (ctx : GddCtx) : Option GddCtx :=
  (whileFuel Prod.snd (fun state => some (reducePass state.1)) fuel (ctx, true)).map Prod.fst

def gddCtxEmpty (ctx : GddCtx) : Bool := ctx.topstat.indeg == 0

/-- The ids of all vertices in all graphs, in the order of
`gdd_ctx_foreach_vert`. -/
def allVerts (ctx : GddCtx) : List Ptr :=
  ctx.graphs.flatMap fun pair => pair.2.verts.map Prod.snd

/-- The largest id of a vertex with an edge. The C function returns `int`. -/
def gddCtxGetMaxVid (ctx : GddCtx) : BitVec 32 :=
  let maxvid := (allVerts ctx).foldl (fun (maxvid : DistributedTransactionId) vert =>
      if gddVertGetInDegree ctx vert ≠ 0 ∨ gddVertGetOutDegree ctx vert ≠ 0 then
        if (ctx.verts.cell vert).id < maxvid then maxvid else (ctx.verts.cell vert).id
      else maxvid) 0
  maxvid.setWidth 32

/-- Remove the vertex with id `vid` from the graph stored under `key`. The
loop breaks at the first such vertex. -/
def gddGraphRemoveVid (ctx : GddCtx) (key : BitVec 64) (vid : DistributedTransactionId) :
    GddCtx :=
  match (graphVerts ctx key).findIdx? fun pair => (ctx.verts.cell pair.2).id == vid with
  | none => ctx
  | some pos =>
    match (graphVerts ctx key)[pos]? with
    | none => ctx
    | some pair =>
      let ctx := (gddVertUnlinkAll ctx pair.2).1
      setGraphVerts ctx key (gddMapIterDelete (graphVerts ctx key) pos)

/-- Remove the vertices with id `vid` on all local graphs. -/
def gddCtxRemoveVid (ctx : GddCtx) (vid : DistributedTransactionId) : GddCtx :=
  (ctx.graphs.map Prod.fst).foldl (fun ctx key => gddGraphRemoveVid ctx key vid) ctx

/-- The body of the loop of `GddCtxBreakDeadLock`. The chosen `int` converts
back to a `DistributedTransactionId`. -/
def breakStep (fuel : Nat) (state : GddCtx × List DistributedTransactionId) :
    Option (GddCtx × List DistributedTransactionId) :=
  let maxvid := (gddCtxGetMaxVid state.1).signExtend 64
  (gddCtxReduce fuel (gddCtxRemoveVid state.1 maxvid)).map fun ctx => (ctx, state.2 ++ [maxvid])

def gddCtxBreakDeadLock (fuel : Nat) (ctx : GddCtx) :
    Option (GddCtx × List DistributedTransactionId) :=
  whileFuel (fun state => !gddCtxEmpty state.1) (breakStep fuel) fuel (ctx, [])

end Greengage.Gdd
