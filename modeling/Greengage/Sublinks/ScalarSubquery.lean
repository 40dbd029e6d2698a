import Mathlib.Data.List.Dedup

/-!
Contract: the rewriting of a correlated scalar subquery into a join with a grouped subquery,
`convert_EXPR_to_join`.

For `SELECT ... FROM T WHERE e op (SELECT agg FROM inner joins WHERE q)` the subquery is grouped
by the inner sides of the correlated equalities of `q`, and `T` is joined with the groups. If the
inner rows that match a row of `T` are a group, the two queries agree in every database instance
exactly when the comparison with the aggregate over no rows is true for no row of `T`. The groups
are made under the collations of the inner sides, the equalities have their own.

Owns the walk over the join tree and its quals, the checks before it, and the rows both queries
return. A qual that is built up with `make_and_qual` is the list of its conjuncts.

Does not own vars of `T` in the target, the levels of vars, and the catalog: an operator carries
its merge join family, which has an equality for each of its types.
-/

namespace Greengage.Sublinks

open List

/-- A B-tree operator family. For a collation, `canon` takes to one value what its equality takes
as equal. -/
structure OpFamily (V : Type) where
  canon : Nat → V → V

/-- A strict operator, for each collation. The family is the first one of
`get_mergejoin_opfamilies`. -/
structure Operator (V : Type) where
  apply : Nat → V → V → Option Bool
  mergejoin : Option (OpFamily V)
  apply_eq : ∀ family, mergejoin = some family → ∀ collation a b,
    apply collation a b = some true ↔ family.canon collation a = family.canon collation b

def Operator.eval {V : Type} (op : Operator V) (collation : Nat) (left right : Option V) :
    Option Bool :=
  left.bind fun a => right.bind fun b => op.apply collation a b

/-- A condition over a row of `T` and a row of the inner joins, by the levels of its vars. An AND
is its first argument and the others; `opExpr` has an outer and an inner side, which is on the
left if it is `commuted`, and the collation of the operator and of the inner side. -/
inductive Qual (T R V : Type)
  | andExpr (arg rest : Qual T R V)
  | inner (cond : R → Option Bool)
  | opExpr (op : Operator V) (inputcollid : Nat) (commuted : Bool) (outerExpr : T → Option V)
      (innerExpr : R → Option V) (exprCollation : Nat)
  | outer (cond : T → R → Option Bool)

/-- An item of a FROM list. -/
inductive JoinTree (T R V : Type)
  | rangeTblRef
  | joinExpr (inner : Bool) (larg rarg : JoinTree T R V) (quals : Option (Qual T R V))

/-- A correlated equality, with the equality to group its inner side by. -/
structure Correlation (T R V : Type) where
  op : Operator V
  family : OpFamily V
  inputcollid : Nat
  commuted : Bool
  outerExpr : T → Option V
  innerExpr : R → Option V
  exprCollation : Nat
  mergejoin_eq : op.mergejoin = some family

/-- `ConvertSubqueryToJoinContext`. A correlation is an entry of `joinQual`, `groupClause` and
`targetList` at once. -/
structure Context (T R V : Type) where
  correlations : List (Correlation T R V)
  innerQual : List (R → Option Bool)

/-- The subquery. `aggExpr` is its target, an expression over aggregates of the inner rows. -/
structure Subselect (T R V : Type) where
  fromlist : List (JoinTree T R V)
  whereQuals : Option (Qual T R V)
  aggExpr : List R → Option V
  returnsSet : Bool := false
  setOperations : Bool := false
  correlatedFunction : Bool := false
  havingQual : Bool := false
  hasAggs : Bool := true
  limit : Bool := false
  groupClause : Bool := false
  targetListLength : Nat := 1

/-- `SELECT ... FROM T WHERE e op (subselect)`. -/
structure ScalarQuery (T R V : Type) where
  testExpr : T → Option V
  op : Operator V
  inputcollid : Nat
  subselect : Subselect T R V

variable {T R V : Type}

namespace Qual

/-- `contain_vars_of_level_or_above` with level 1. -/
def outerVars : Qual T R V → Bool
  | .andExpr arg rest => arg.outerVars || rest.outerVars
  | .inner _ => false
  | .opExpr .. | .outer _ => true

def and3 : Option Bool → Option Bool → Option Bool
  | some false, _ | _, some false => some false
  | some true, right => right
  | none, _ => none

def evalOp (op : Operator V) (inputcollid : Nat) (commuted : Bool) (outer inner : Option V) :
    Option Bool :=
  if commuted then op.eval inputcollid inner outer else op.eval inputcollid outer inner

def eval (t : T) (r : R) : Qual T R V → Option Bool
  | .andExpr arg rest => and3 (arg.eval t r) (rest.eval t r)
  | .inner cond => cond r
  | .opExpr op inputcollid commuted outerExpr innerExpr _ =>
    evalOp op inputcollid commuted (outerExpr t) (innerExpr r)
  | .outer cond => cond t r

end Qual

/-- All quals of a join tree. A row of inner joins is a row of the product that passes them. -/
def JoinTree.quals : JoinTree T R V → List (Qual T R V)
  | .rangeTblRef => []
  | .joinExpr _ larg rarg quals => larg.quals ++ rarg.quals ++ quals.toList

def Subselect.quals (subselect : Subselect T R V) : List (Qual T R V) :=
  subselect.fromlist.flatMap JoinTree.quals ++ subselect.whereQuals.toList

namespace Context

/-- `SubqueryToJoinWalker`. It is `none` where `safeToConvert` becomes false, which ends the
conversion. -/
def subqueryToJoinWalker (context : Context T R V) : Qual T R V → Option (Context T R V)
  | .andExpr arg rest =>
    (context.subqueryToJoinWalker arg).bind fun walked => walked.subqueryToJoinWalker rest
  | .inner cond => some { context with innerQual := context.innerQual ++ [cond] }
  | .opExpr op inputcollid commuted outerExpr innerExpr exprCollation =>
    match mergejoin : op.mergejoin with
    | none => none
    | some family => some { context with
        correlations := context.correlations ++
          [⟨op, family, inputcollid, commuted, outerExpr, innerExpr, exprCollation, mergejoin⟩] }
  | .outer _ => none

def walkQuals (context : Context T R V) : Option (Qual T R V) → Option (Context T R V)
  | none => context
  | some node => context.subqueryToJoinWalker node

/-- `ProcessSubqueryToJoin_walker`. -/
def processSubqueryToJoin (context : Context T R V) : JoinTree T R V → Option (Context T R V)
  | .rangeTblRef => context
  | .joinExpr inner larg rarg quals =>
    if inner then
      ((context.processSubqueryToJoin larg).bind fun left =>
        left.processSubqueryToJoin rarg).bind fun right => right.walkQuals quals
    else none

end Context

/-- `safe_to_convert_EXPR`, with the context it fills. -/
def Subselect.safeToConvertExpr (subselect : Subselect T R V) : Option (Context T R V) :=
  if subselect.fromlist.isEmpty || subselect.returnsSet || subselect.setOperations ||
      !subselect.quals.any Qual.outerVars || subselect.correlatedFunction ||
      subselect.havingQual || !subselect.hasAggs || subselect.limit || subselect.groupClause ||
      subselect.targetListLength != 1 then none
  else
    (subselect.fromlist.foldlM Context.processSubqueryToJoin ⟨[], []⟩).bind fun context =>
      context.walkQuals subselect.whereQuals

namespace Correlation

def holds (correlation : Correlation T R V) (outer inner : Option V) : Bool :=
  Qual.evalOp correlation.op correlation.inputcollid correlation.commuted outer inner == some true

/-- What a value is grouped by. All nulls are in one group. -/
def key (correlation : Correlation T R V) : Option V → Option V :=
  Option.map (correlation.family.canon correlation.exprCollation)

end Correlation

namespace Context

variable (context : Context T R V)

def passes (r : R) : Bool := context.innerQual.all (· r == some true)

/-- The columns of the target list that the groups are made by. -/
def targets (r : R) : List (Option V) :=
  context.correlations.map fun correlation => correlation.innerExpr r

def keys (r : R) : List (Option V) :=
  context.correlations.map fun correlation => correlation.key (correlation.innerExpr r)

/-- The target list of a group is that of its first row. -/
def groupTargets (group : List R) : List (Option V) := (group.head?.map context.targets).getD []

/-- The rows of the grouped subquery: the target list of each group and its aggregate. Without a group clause there is one, also over no rows. -/
def groups [DecidableEq V] (aggExpr : List R → Option V) (rows : List R) :
    List (List (Option V) × Option V) :=
  if context.correlations.isEmpty then [([], aggExpr rows)]
  else (rows.map context.keys).dedup.map fun keys =>
    (context.groupTargets (rows.filter (context.keys · = keys)),
      aggExpr (rows.filter (context.keys · = keys)))

/-- The join qual, between a row of `T` and the target list of a group. -/
def joinQual (t : T) (targets : List (Option V)) : Bool :=
  (context.correlations.zip targets).all fun entry => entry.1.holds (entry.1.outerExpr t) entry.2

/-- The join qual for an inner row. -/
def joins (t : T) (r : R) : Bool := context.joinQual t (context.targets r)

/-- The collations of the equalities and of the groups take the same values as equal. -/
def CollationsAgree : Prop :=
  ∀ correlation ∈ context.correlations, ∀ a b,
    correlation.family.canon correlation.inputcollid a =
        correlation.family.canon correlation.inputcollid b ↔
      correlation.family.canon correlation.exprCollation a =
        correlation.family.canon correlation.exprCollation b

/-- The inner rows that match a row of `T` are a group. -/
def GroupsByMatch : Prop :=
  ∀ t r r', context.passes r = true → context.passes r' = true → context.joins t r = true →
    (context.joins t r' = true ↔ context.keys r' = context.keys r)

end Context

namespace ScalarQuery

variable [DecidableEq V] (query : ScalarQuery T R V)

def passes (t : T) (value : Option V) : Bool :=
  query.op.eval query.inputcollid (query.testExpr t) value == some true

/-- The rows the subquery aggregates over, for a row of `T`. -/
def matched (innerRows : List R) (t : T) : List R :=
  innerRows.filter fun r => query.subselect.quals.all (·.eval t r == some true)

def rows (outerRows : List T) (innerRows : List R) : List T :=
  outerRows.filter fun t => query.passes t (query.subselect.aggExpr (query.matched innerRows t))

/-- The rows of the join with the groups, with the comparison above it. -/
def joinRows (context : Context T R V) (outerRows : List T) (innerRows : List R) : List T :=
  outerRows.flatMap fun t =>
    ((context.groups query.subselect.aggExpr (innerRows.filter context.passes)).filter fun group =>
      context.joinQual t group.1 && query.passes t group.2).map fun _ => t

/-- `convert_EXPR_to_join`, as the rows of the query it makes. -/
def convertExprToJoin : Option (List T → List R → List T) :=
  query.subselect.safeToConvertExpr.map query.joinRows

/-- The rewritten query returns the rows of the original one, in every database instance. -/
def KeepsResult : Prop :=
  ∀ join, query.convertExprToJoin = some join →
    ∀ outerRows innerRows, (join outerRows innerRows).Perm (query.rows outerRows innerRows)

end ScalarQuery

/-! ### What the walk collects -/

theorem Qual.and3_eq_true {left right} :
    and3 left right = some true ↔ left = some true ∧ right = some true := by
  rcases left with _ | _ | _ <;> rcases right with _ | _ | _ <;> simp [and3]

/-- The context holds what the quals say about a row of `T` and an inner row. -/
structure Collects (context : Context T R V) (quals : List (Qual T R V)) : Prop where
  holds : ∀ t r, ((∀ correlation ∈ context.correlations,
      correlation.holds (correlation.outerExpr t) (correlation.innerExpr r) = true) ∧
      ∀ cond ∈ context.innerQual, cond r = some true) ↔
    ∀ node ∈ quals, node.eval t r = some true
  correlated : context.correlations = [] → ∀ node ∈ quals, node.outerVars = false

namespace Collects

variable {context walked : Context T R V} {quals : List (Qual T R V)}

section

variable (collects : Collects context quals)
include collects

theorem subqueryToJoinWalker (node) (taken : context.subqueryToJoinWalker node = some walked) :
    Collects walked (quals ++ [node]) := by
  induction node generalizing context walked quals with
  | andExpr arg rest ofArg ofRest =>
    obtain ⟨_, first, second⟩ := Option.bind_eq_some_iff.mp taken
    have both := ofRest (ofArg collects first) second
    refine ⟨fun t r => ?_, fun none => ?_⟩
    · simp [both.holds, or_imp, forall_and, Qual.eval, Qual.and3_eq_true]
    · simpa [or_imp, forall_and, Qual.outerVars] using both.correlated none
  | inner cond =>
    cases taken
    refine ⟨fun t r => ?_, fun none => ?_⟩
    · simp only [forall_mem_append, forall_mem_singleton, ← collects.holds, and_assoc, Qual.eval]
    · simpa [or_imp, forall_and, Qual.outerVars] using collects.correlated none
  | opExpr op inputcollid commuted outerExpr innerExpr exprCollation =>
    rw [Context.subqueryToJoinWalker] at taken
    split at taken
    · cases taken
    · cases taken
      refine ⟨fun t r => ?_, by simp⟩
      simp only [forall_mem_append, forall_mem_singleton, ← collects.holds,
        Correlation.holds, beq_iff_eq]
      tauto
  | outer cond => cases taken

theorem walkQuals {node} (taken : context.walkQuals node = some walked) :
    Collects walked (quals ++ node.toList) := by
  cases node with
  | none => simpa using Option.some.inj taken ▸ collects
  | some node => exact collects.subqueryToJoinWalker node taken

theorem processSubqueryToJoin (jtree) (taken : context.processSubqueryToJoin jtree = some walked) :
    Collects walked (quals ++ jtree.quals) := by
  induction jtree generalizing context walked quals with
  | rangeTblRef => simpa [JoinTree.quals] using Option.some.inj taken ▸ collects
  | joinExpr inner larg rarg on ofLeft ofRight =>
    rw [Context.processSubqueryToJoin] at taken
    split_ifs at taken
    obtain ⟨_, isRight, taken⟩ := Option.bind_eq_some_iff.mp taken
    obtain ⟨_, isLeft, isRight⟩ := Option.bind_eq_some_iff.mp isRight
    simpa [JoinTree.quals] using (ofRight (ofLeft collects isLeft) isRight).walkQuals taken

theorem fromlist (items : List (JoinTree T R V))
    (taken : items.foldlM Context.processSubqueryToJoin context = some walked) :
    Collects walked (quals ++ items.flatMap JoinTree.quals) := by
  induction items generalizing context quals with
  | nil => simpa using Option.some.inj taken ▸ collects
  | cons item rest ih =>
    obtain ⟨_, first, others⟩ := Option.bind_eq_some_iff.mp taken
    simpa using ih (collects.processSubqueryToJoin item first) others

end

end Collects

theorem Subselect.safeToConvertExpr_collects {subselect : Subselect T R V} {context : Context T R V}
    (safe : subselect.safeToConvertExpr = some context) :
    Collects context subselect.quals ∧ context.correlations ≠ [] := by
  rw [safeToConvertExpr] at safe
  split_ifs at safe with unfit
  obtain ⟨_, isItems, walked⟩ := Option.bind_eq_some_iff.mp safe
  have start : Collects (⟨[], []⟩ : Context T R V) [] := by constructor <;> simp
  have collects := (start.fromlist _ isItems).walkQuals walked
  refine ⟨collects, fun none => ?_⟩
  simp only [Bool.or_eq_true, not_or, Bool.not_eq_true, Bool.not_eq_false'] at unfit
  obtain ⟨node, mem, outer⟩ := any_eq_true.mp unfit.1.1.1.1.1.1.2
  simp [collects.correlated none node mem] at outer

namespace Correlation

variable (correlation : Correlation T R V) {outer inner : Option V}

theorem holds_iff : correlation.holds outer inner = true ↔
    inner.map (correlation.family.canon correlation.inputcollid) =
      outer.map (correlation.family.canon correlation.inputcollid) ∧ outer ≠ none := by
  have applies := correlation.op.apply_eq _ correlation.mergejoin_eq
  rcases outer with _ | a <;> rcases inner with _ | b <;> cases which : correlation.commuted <;>
    simp [holds, Qual.evalOp, which, Operator.eval, applies]
  exact eq_comm

end Correlation

namespace Context

variable {context : Context T R V} {t : T} {r r' : R} {rows : List R}

theorem joins_iff : context.joins t r = true ↔ ∀ correlation ∈ context.correlations,
    correlation.holds (correlation.outerExpr t) (correlation.innerExpr r) = true := by
  rw [joins, joinQual, targets, ← map_prod_left_eq_zip, all_map, all_eq_true]
  rfl

theorem CollationsAgree.groupsByMatch (agree : context.CollationsAgree) :
    context.GroupsByMatch := by
  intro t r r' _ _ joined
  have same (correlation) (mem : correlation ∈ context.correlations) (x y : Option V) :
      x.map (correlation.family.canon correlation.inputcollid) =
          y.map (correlation.family.canon correlation.inputcollid) ↔
        correlation.key x = correlation.key y := by
    rcases x with _ | a <;> rcases y with _ | b <;>
      simp [Correlation.key, agree correlation mem]
  simp only [joins_iff, Correlation.holds_iff] at joined ⊢
  constructor
  · intro other
    refine map_congr_left fun correlation mem => (same correlation mem _ _).mp ?_
    rw [(other correlation mem).1, (joined correlation mem).1]
  · intro keys correlation mem
    have equal := (same correlation mem _ _).mpr (map_inj_left.mp keys correlation mem)
    exact ⟨equal.trans (joined correlation mem).1, (joined correlation mem).2⟩

variable [DecidableEq V]

theorem exists_target (context : Context T R V) (mem : r ∈ rows) :
    ∃ first ∈ rows, context.keys first = context.keys r ∧
      context.groupTargets (rows.filter (context.keys · = context.keys r)) =
        context.targets first := by
  have isIn : r ∈ rows.filter (context.keys · = context.keys r) :=
    mem_filter.mpr ⟨mem, decide_eq_true rfl⟩
  obtain ⟨first, rest, is⟩ := exists_cons_of_ne_nil (ne_nil_of_mem isIn)
  have isFirst : first ∈ rows.filter (context.keys · = context.keys r) := is ▸ mem_cons_self
  obtain ⟨inRows, same⟩ := mem_filter.mp isFirst
  refine ⟨first, inRows, of_decide_eq_true same, ?_⟩
  rw [groupTargets, is]
  rfl

/-- A row of `T` is joined with one group, or with none if no inner row matches it. -/
theorem filter_groups (grouped : context.correlations ≠ []) (byMatch : context.GroupsByMatch)
    (passing : ∀ r ∈ rows, context.passes r = true) (aggExpr : List R → Option V) (t) :
    ((context.groups aggExpr rows).filter fun group => context.joinQual t group.1).map Prod.snd =
      if (rows.filter (context.joins t)).isEmpty then []
      else [aggExpr (rows.filter (context.joins t))] := by
  rw [groups, if_neg (by simpa using grouped), filter_map, map_map]
  by_cases some : ∃ r ∈ rows, context.joins t r = true
  · obtain ⟨r, mem, joined⟩ := some
    have matching {other} (isIn : other ∈ rows) :=
      byMatch t r other (passing r mem) (passing other isIn) joined
    have only : (rows.map context.keys).dedup.filter (fun keys =>
        context.joinQual t (context.groupTargets (rows.filter (context.keys · = keys)))) =
          [context.keys r] := by
      refine perm_singleton.mp ((perm_ext_iff_of_nodup ((nodup_dedup _).filter _)
        (nodup_singleton _)).mpr fun keys => ?_)
      rw [mem_filter, mem_dedup, mem_map, mem_singleton]
      constructor
      · rintro ⟨⟨other, isIn, rfl⟩, isJoined⟩
        obtain ⟨first, isFirst, same, is⟩ := context.exists_target isIn
        rw [is] at isJoined
        rw [← same]
        exact (matching isFirst).mp isJoined
      · rintro rfl
        obtain ⟨first, isFirst, same, is⟩ := context.exists_target mem
        refine ⟨⟨r, mem, rfl⟩, ?_⟩
        rw [is]
        exact (matching isFirst).mpr same
    have group : rows.filter (context.keys · = context.keys r) = rows.filter (context.joins t) :=
      filter_congr fun other isIn => Bool.eq_iff_iff.mpr (by simp [matching isIn])
    have ne : rows.filter (context.joins t) ≠ [] :=
      ne_nil_of_mem (mem_filter.mpr ⟨mem, joined⟩)
    rw [if_neg (by simpa using ne), ← group]
    exact congrArg (map _) only
  · have none : rows.filter (context.joins t) = [] := by simpa using some
    rw [none]
    refine map_eq_nil_iff.mpr (filter_eq_nil_iff.mpr fun keys isKeys => ?_)
    obtain ⟨r, mem, rfl⟩ := mem_map.mp (mem_dedup.mp isKeys)
    obtain ⟨first, isFirst, -, is⟩ := context.exists_target mem
    rw [Function.comp_apply, is]
    exact filter_eq_nil_iff.mp none first isFirst

end Context

/-! ### When the result is kept -/

namespace ScalarQuery

variable {query : ScalarQuery T R V} {context : Context T R V}

/-- The inner rows that a row of `T` is joined with are those the subquery aggregates over. -/
theorem filter_passes (collects : Collects context query.subselect.quals) (innerRows t) :
    (innerRows.filter context.passes).filter (context.joins t) = query.matched innerRows t := by
  rw [filter_filter, matched]
  refine filter_congr fun r _ => ?_
  rw [Bool.eq_iff_iff, Bool.and_eq_true, Context.joins_iff, Context.passes, all_eq_true,
    all_eq_true]
  simp only [beq_iff_eq, ← collects.holds]

variable [DecidableEq V]

theorem joinRows_eq (collects : Collects context query.subselect.quals)
    (grouped : context.correlations ≠ []) (byMatch : context.GroupsByMatch)
    (outerRows innerRows) : query.joinRows context outerRows innerRows =
      outerRows.filter fun t => !(query.matched innerRows t).isEmpty &&
        query.passes t (query.subselect.aggExpr (query.matched innerRows t)) := by
  have vals (t) := Context.filter_groups grouped byMatch
    (fun r mem => (mem_filter.mp mem).2 : ∀ r ∈ innerRows.filter context.passes, _)
    query.subselect.aggExpr t
  simp only [filter_passes collects] at vals
  unfold joinRows
  generalize context.groups query.subselect.aggExpr (innerRows.filter context.passes) = groups
    at vals
  have one (t) : (groups.filter fun group =>
      context.joinQual t group.1 && query.passes t group.2).map (fun _ => t) =
      (((groups.filter fun group => context.joinQual t group.1).map Prod.snd).filter
        (query.passes t)).map fun _ => t := by
    rw [filter_map, map_map, filter_filter]
    simp only [Bool.and_comm]
    rfl
  induction outerRows with
  | nil => rfl
  | cons t rest ih =>
    rw [flatMap_cons, ih, one, vals, filter_cons]
    by_cases empty : (query.matched innerRows t).isEmpty = true
    · simp [empty]
    · cases passing : query.passes t (query.subselect.aggExpr (query.matched innerRows t)) <;>
        simp [empty, passing]

/-- Equality of values, and an aggregate that only a single row has. -/
def equalTo (query : ScalarQuery T R V) (value : V) : ScalarQuery T R V where
  testExpr _ := some value
  op := ⟨fun _ a b => some (a == b), none, by simp⟩
  inputcollid := 0
  subselect := { query.subselect with
    aggExpr := fun rows => if rows.length = 1 then some value else none }

theorem passes_equalTo {value t rows} : (query.equalTo value).passes t
    ((query.equalTo value).subselect.aggExpr rows) = decide (rows.length = 1) := by
  by_cases one : rows.length = 1 <;> simp [passes, equalTo, Operator.eval, one]

/-- A group that is not what a row of `T` matches is seen by an aggregate. -/
theorem not_keepsResult_equalTo (safe : query.subselect.safeToConvertExpr = some context)
    (mixed : ¬ context.GroupsByMatch) : ∃ value, ¬ (query.equalTo value).KeepsResult := by
  obtain ⟨collects, grouped⟩ := Subselect.safeToConvertExpr_collects safe
  unfold Context.GroupsByMatch at mixed
  push Not at mixed
  obtain ⟨t, r, r', passing, passing', joined, differ⟩ := mixed
  obtain ⟨correlation, rest, is⟩ := exists_cons_of_ne_nil grouped
  have held := Context.joins_iff.mp joined correlation (is ▸ mem_cons_self)
  obtain ⟨value, -⟩ := Option.ne_none_iff_exists'.mp (correlation.holds_iff.mp held).2
  refine ⟨value, fun keeps => ?_⟩
  have converted : (query.equalTo value).convertExprToJoin =
      some ((query.equalTo value).joinRows context) := congrArg (Option.map _) safe
  have same := (keeps _ converted [t] [r, r']).length_eq
  have matched : (query.equalTo value).matched [r, r'] t = [r, r'].filter (context.joins t) := by
    have all := filter_passes (show Collects context (query.equalTo value).subselect.quals
      from collects) [r, r'] t
    rw [← all]
    simp [passing, passing']
  have both : [r, r'].filter context.passes = [r, r'] := by simp [passing, passing']
  change context.joinQual t (context.targets r) = true at joined
  rcases differ with ⟨joined', apart⟩ | ⟨unjoined, equal⟩
  · change context.joinQual t (context.targets r') = true at joined'
    have groups (agg : List R → Option V) : context.groups agg [r, r'] =
        [(context.targets r, agg [r]), (context.targets r', agg [r'])] := by
      rw [Context.groups, if_neg (by simpa using grouped), map_cons, map_cons, map_nil,
        dedup_cons_of_notMem (by simpa using apart.symm)]
      simp [Context.groupTargets, apart, apart.symm]
    simp [joinRows, rows, matched, both, groups, filter_cons, joined, joined', passes_equalTo,
      Context.joins] at same
  · change context.joinQual t (context.targets r') ≠ true at unjoined
    have groups (agg : List R → Option V) : context.groups agg [r, r'] =
        [(context.targets r, agg [r, r'])] := by
      rw [Context.groups, if_neg (by simpa using grouped), map_cons, map_cons, map_nil,
        dedup_cons_of_mem (by simp [equal])]
      simp [Context.groupTargets, equal]
    simp [joinRows, rows, matched, both, groups, joined, unjoined, passes_equalTo,
      Context.joins] at same

/-- Equality of numbers, in a family with one collation that takes even numbers as equal to the
next ones. -/
def numberEq : Operator Nat where
  apply collation a b := some (if collation = 1 then a / 2 == b / 2 else a == b)
  mergejoin := some ⟨fun collation a => if collation = 1 then a / 2 else a⟩
  apply_eq := by
    rintro _ ⟨⟩ collation a b
    by_cases collated : collation = 1 <;> simp [collated]

/-- `SELECT ... FROM T WHERE 0 = (SELECT count(*) FROM R WHERE T.b = R.y)`, for tables of one
column. -/
def countIsZero : ScalarQuery Nat Nat Nat where
  testExpr _ := some 0
  op := numberEq
  inputcollid := 0
  subselect :=
    { fromlist := [.rangeTblRef]
      whereQuals := some (.opExpr numberEq 0 false some some 0)
      aggExpr := fun rows => some rows.length }

/-- `SELECT ... FROM T WHERE 7 = (SELECT 7 * count(*) / count(*) FROM R WHERE T.b COLLATE ... = R.y)`. -/
def collatedJoin : ScalarQuery Nat Nat Nat where
  testExpr _ := some 7
  op := numberEq
  inputcollid := 0
  subselect :=
    { fromlist := [.rangeTblRef]
      whereQuals := some (.opExpr numberEq 1 false some some 0)
      aggExpr := fun rows => if rows = [] then none else some 7 }

end ScalarQuery

end Greengage.Sublinks
