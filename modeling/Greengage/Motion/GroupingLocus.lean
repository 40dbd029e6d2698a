import Mathlib.Data.List.Forall2

/-!
Contract: grouping in place, `choose_grouping_locus` and `cdbpathlocus_collocates_tlist`.

Does not own: the locus of a motion that is found to be needed, and where the classes and the
locus of a path come from. The locus is truthful about the rows of the path.
-/

namespace Greengage.Motion.Grouping

/-- `isConstant` is `CdbEquivClassIsConstant`. -/
structure EquivalenceClass where
  members : List Nat
  isConstant : Bool
  sortref : Nat

structure DistributionKey (Family : Type) where
  eclasses : List EquivalenceClass
  opfamily : Family

inductive Locus (Family : Type)
  | entry
  | singleQE
  | outerQuery
  | general
  | segmentGeneral
  | replicated
  | hashed (distkeys : List (DistributionKey Family))
  | hashedOJ (distkeys : List (DistributionKey Family))
  | strewn

/-- A target entry with the equality operator it is grouped by. -/
structure GroupColumn (Operator : Type) where
  expr : Nat
  ressortgroupref : Nat
  eqop : Operator

variable {Operator Family Hash V : Type}

/-- Some expression of the class is in the target list. -/
def EquivalenceClass.found (eclass : EquivalenceClass) (tlist : List (GroupColumn Operator)) :
    Bool :=
  if eclass.sortref ≠ 0 then tlist.any (·.ressortgroupref == eclass.sortref)
  else eclass.members.any fun expr => tlist.any (·.expr == expr)

namespace Locus

def isBottleneck : Locus Family → Bool
  | entry | outerQuery | singleQE => true
  | _ => false

def isHashedOnTlist (locus : Locus Family) (tlist : List (GroupColumn Operator))
    (ignoreConstants : Bool) : Bool :=
  match locus with
  | hashed distkeys | hashedOJ distkeys => distkeys.all fun key => key.eclasses.all fun eclass =>
      ignoreConstants && eclass.isConstant || eclass.found tlist
  | strewn => false
  | _ => true

/-- `need_redistribute` of `choose_grouping_locus`. -/
def needRedistribute (locus : Locus Family) (tlist : List (GroupColumn Operator)) : Bool :=
  if locus.isBottleneck then false
  else if tlist.isEmpty then true
  else match locus with
    | hashedOJ _ => true
    | locus => !locus.isHashedOnTlist tlist true

def collocatesTlist (locus : Locus Family) (tlist : List (GroupColumn Operator)) : Bool :=
  if locus.isBottleneck then true
  else if tlist.isEmpty then false
  else match locus with
    | hashed distkeys => (hashed distkeys).isHashedOnTlist tlist true
    | _ => false

def opfamilies : Locus Family → List Family
  | hashed distkeys | hashedOJ distkeys => distkeys.map (·.opfamily)
  | _ => []

end Locus

/-! ### Rows -/

/-- A row gives a value to each expression, or NULL. -/
abbrev Row (V : Type) := Nat → Option V

/-- The rows of a path, each with the segments that hold it. -/
structure Path (V : Type) where
  numsegments : Nat
  holds : Row V → Nat → Prop

variable (hash : Family → Option V → Hash) (equal : Operator → V → V → Prop)

/-- Every expression of a key's classes can be used to compute the hash value of the key. -/
structure KeyHash (row : Row V) (key : DistributionKey Family) (value : Hash) : Prop where
  computed : ∃ eclass ∈ key.eclasses, eclass.members ≠ []
  same : ∀ eclass ∈ key.eclasses, ∀ expr ∈ eclass.members, hash key.opfamily (row expr) = value

/-- What the classes of a locus say about some rows: a constant hashes to one value in all of
them, and a class with a reference stands for the target entry of that reference. -/
structure ClassesHold (rows : Row V → Prop) (distkeys : List (DistributionKey Family))
    (tlist : List (GroupColumn Operator)) : Prop where
  constant : ∀ row row', rows row → rows row' → ∀ key ∈ distkeys, ∀ eclass ∈ key.eclasses,
    eclass.isConstant → ∀ expr ∈ eclass.members,
      hash key.opfamily (row expr) = hash key.opfamily (row' expr)
  referenced : ∀ row, rows row → ∀ key ∈ distkeys, ∀ eclass ∈ key.eclasses, eclass.sortref ≠ 0 →
    ∀ column ∈ tlist, column.ressortgroupref = eclass.sortref → ∀ expr ∈ eclass.members,
      hash key.opfamily (row expr) = hash key.opfamily (row column.expr)

def Path.Has (path : Path V) (row : Row V) : Prop := ∃ seg, path.holds row seg

/-- What a locus says about the rows of a path. A row of a `HashedOJ` path with a NULL in its key
may be anywhere. -/
def Truthful (path : Path V) (tlist : List (GroupColumn Operator)) : Locus Family → Prop
  | .entry | .singleQE | .outerQuery => ∃ only, ∀ row seg, path.holds row seg → seg = only
  | .general | .segmentGeneral | .replicated =>
    ∀ row seg, path.holds row seg → ∀ other < path.numsegments, path.holds row other
  | .hashed distkeys => ClassesHold hash path.Has distkeys tlist ∧
    ∃ place : List Hash → Nat, ∀ row seg, path.holds row seg →
      ∃ values, List.Forall₂ (KeyHash hash row) distkeys values ∧ seg = place values
  | .hashedOJ distkeys => ClassesHold hash path.Has distkeys tlist ∧
    ∃ place : List Hash → Nat, ∀ row seg, path.holds row seg →
      (∀ key ∈ distkeys, ∀ eclass ∈ key.eclasses, ∀ expr ∈ eclass.members, row expr ≠ none) →
      ∃ values, List.Forall₂ (KeyHash hash row) distkeys values ∧ seg = place values
  | .strewn => True

/-- Grouping equality, in which NULLs are equal. -/
def GroupColumn.Equal (column : GroupColumn Operator) (row row' : Row V) : Prop :=
  match row column.expr, row' column.expr with
  | some value, some value' => equal column.eqop value value'
  | none, none => True
  | _, _ => False

/-- Values that an operator finds equal have one hash value under a family. -/
def Respects (op : Operator) (opfamily : Family) : Prop :=
  ∀ value value', equal op value value' → hash opfamily (some value) = hash opfamily (some value')

/-- Two rows of one group, of which the classes of the locus are true, have the same hash values
for the keys of the locus. -/
def Locus.GroupsByHash (tlist : List (GroupColumn Operator)) : Locus Family → Prop
  | hashed distkeys => ∀ row row' values values',
    ClassesHold hash (fun one => one = row ∨ one = row') distkeys tlist →
    List.Forall₂ (KeyHash hash row) distkeys values →
    List.Forall₂ (KeyHash hash row') distkeys values' →
    (∀ column ∈ tlist, column.Equal equal row row') → values = values'
  | _ => True

/-- Rows of one group are on one segment, or every segment has all rows. -/
def WholeGroups (path : Path V) (tlist : List (GroupColumn Operator)) : Prop :=
  (∀ row seg row' seg', path.holds row seg → path.holds row' seg' →
    (∀ column ∈ tlist, column.Equal equal row row') → seg = seg') ∨
  ∀ row seg, path.holds row seg → ∀ other < path.numsegments, path.holds row other

section

variable {hash equal} {tlist : List (GroupColumn Operator)} {row row' : Row V}

theorem GroupColumn.Equal.hash_eq {column : GroupColumn Operator} {opfamily : Family}
    (equals : column.Equal equal row row') (respects : Respects hash equal column.eqop opfamily) :
    hash opfamily (row column.expr) = hash opfamily (row' column.expr) := by
  unfold Equal at equals
  split at equals
  next left right => rw [left, right, respects _ _ equals]
  next left right => rw [left, right]
  next => exact equals.elim

theorem KeyHash.unique : Relator.RightUnique (@KeyHash Family Hash V hash row) := by
  intro key value value' left right
  obtain ⟨eclass, isClass, some⟩ := left.computed
  obtain ⟨expr, isMember⟩ := List.exists_mem_of_ne_nil _ some
  rw [← left.same eclass isClass expr isMember, right.same eclass isClass expr isMember]

theorem hashed_values_eq {distkeys : List (DistributionKey Family)} {values values' : List Hash}
    (left : List.Forall₂ (KeyHash hash row) distkeys values)
    (right : List.Forall₂ (KeyHash hash row') distkeys values')
    (same : ∀ key ∈ distkeys, ∀ value value', KeyHash hash row key value →
      KeyHash hash row' key value' → value = value') : values = values' := by
  induction left generalizing values' with
  | nil =>
    cases right
    rfl
  | cons first _ ih =>
    cases right with
    | cons first' rest' =>
      rw [List.forall_mem_cons] at same
      rw [same.1 _ _ first first', ih rest' same.2]

variable (equals : ∀ column ∈ tlist, column.Equal equal row row')
include equals

/-- A key whose classes are constant or in the target list has one hash value in a group. -/
theorem KeyHash.eq {distkeys : List (DistributionKey Family)} {key : DistributionKey Family}
    {value value' : Hash} (mem : key ∈ distkeys)
    (classes : ClassesHold hash (fun one => one = row ∨ one = row') distkeys tlist)
    (respects : ∀ column ∈ tlist, Respects hash equal column.eqop key.opfamily)
    (found : ∀ eclass ∈ key.eclasses, eclass.isConstant ∨ eclass.found tlist)
    (left : KeyHash hash row key value) (right : KeyHash hash row' key value') :
    value = value' := by
  obtain ⟨eclass, isClass, some⟩ := left.computed
  obtain ⟨expr, isMember⟩ := List.exists_mem_of_ne_nil _ some
  have same := left.same eclass isClass
  have same' := right.same eclass isClass
  rcases found eclass isClass with constant | found
  · rw [← same expr isMember, ← same' expr isMember]
    exact classes.constant row row' (.inl rfl) (.inr rfl) key mem eclass isClass constant expr
      isMember
  · unfold EquivalenceClass.found at found
    split_ifs at found with referenced
    · obtain ⟨column, isColumn, is⟩ := List.any_eq_true.1 found
      have values (one) (isOne : one = row ∨ one = row') := classes.referenced one isOne key mem
        eclass isClass referenced column isColumn (beq_iff_eq.1 is) expr isMember
      rw [← same expr isMember, ← same' expr isMember, values row (.inl rfl),
        values row' (.inr rfl)]
      exact (equals column isColumn).hash_eq (respects column isColumn)
    · obtain ⟨expr, isMember, found⟩ := List.any_eq_true.1 found
      obtain ⟨column, isColumn, is⟩ := List.any_eq_true.1 found
      rw [← same expr isMember, ← same' expr isMember, ← beq_iff_eq.1 is]
      exact (equals column isColumn).hash_eq (respects column isColumn)

end

section

variable {hash equal} {tlist : List (GroupColumn Operator)} {locus : Locus Family}

theorem groupsByHash_of_respects
    (respects : ∀ opfamily ∈ locus.opfamilies, ∀ column ∈ tlist,
      Respects hash equal column.eqop opfamily)
    (inPlace : locus.needRedistribute tlist = false ∨ locus.collocatesTlist tlist = true) :
    locus.GroupsByHash hash equal tlist := by
  cases locus with
  | hashed distkeys =>
    have found : (Locus.hashed distkeys).isHashedOnTlist tlist true := by
      simp only [Locus.needRedistribute, Locus.collocatesTlist, Locus.isBottleneck] at inPlace
      split_ifs at inPlace <;> simp_all
    simp only [Locus.isHashedOnTlist, List.all_eq_true, Bool.or_eq_true] at found
    simp only [Locus.opfamilies, List.forall_mem_map] at respects
    intro row row' values values' classes hashes hashes' equals
    exact hashed_values_eq hashes hashes' fun key mem _ _ left right =>
      left.eq equals mem classes (respects key mem) (found key mem) right
  | _ => trivial

/-- Neither function answers for a `HashedOJ` or a `Strewn` path. -/
theorem wholeGroups_of_groupsByHash {path : Path V} (truthful : Truthful hash path tlist locus)
    (groups : locus.GroupsByHash hash equal tlist)
    (inPlace : locus.needRedistribute tlist = false ∨ locus.collocatesTlist tlist = true) :
    WholeGroups equal path tlist := by
  cases locus with
  | entry | singleQE | outerQuery =>
    obtain ⟨only, all⟩ := truthful
    exact .inl fun _ _ _ _ isAt isAt' _ => (all _ _ isAt).trans (all _ _ isAt').symm
  | general | segmentGeneral | replicated => exact .inr truthful
  | hashed distkeys =>
    obtain ⟨classes, place, placed⟩ := truthful
    refine .inl fun row seg row' seg' isAt isAt' equals => ?_
    obtain ⟨values, hashes, rfl⟩ := placed row seg isAt
    obtain ⟨values', hashes', rfl⟩ := placed row' seg' isAt'
    have among : ∀ one, one = row ∨ one = row' → path.Has one := by
      rintro _ (rfl | rfl)
      · exact ⟨_, isAt⟩
      · exact ⟨_, isAt'⟩
    rw [groups row row' values values' ⟨?_, ?_⟩ hashes hashes' equals]
    · exact fun one other isOne isOther =>
        classes.constant one other (among one isOne) (among other isOther)
    · exact fun one isOne => classes.referenced one (among one isOne)
  | hashedOJ | strewn =>
    simp [Locus.needRedistribute, Locus.collocatesTlist, Locus.isBottleneck,
      Locus.isHashedOnTlist] at inPlace

/-- Two rows of one group with different hash values, on two segments. -/
theorem exists_split (splits : ¬ locus.GroupsByHash hash equal tlist) :
    ∃ path, Truthful hash path tlist locus ∧ ¬ WholeGroups equal path tlist := by
  classical
  cases locus with
  | hashed distkeys =>
    simp only [Locus.GroupsByHash, not_forall] at splits
    obtain ⟨row, row', values, values', classes, hashes, hashes', equals, differ⟩ := splits
    have different : row ≠ row' := by
      rintro rfl
      exact differ (KeyHash.unique.forall₂ hashes hashes')
    let path : Path V := ⟨2, fun one seg => one = row ∧ seg = 0 ∨ one = row' ∧ seg = 1⟩
    have among : path.Has = fun one => one = row ∨ one = row' := by
      funext one
      simp [Path.Has, path, exists_or]
    refine ⟨path, ⟨among ▸ classes, fun hashed => if hashed = values then 0 else 1, ?_⟩, ?_⟩
    · rintro _ seg (⟨rfl, rfl⟩ | ⟨rfl, rfl⟩)
      · exact ⟨values, hashes, by simp⟩
      · exact ⟨values', hashes', by simp [Ne.symm differ]⟩
    · rintro (whole | whole)
      · exact Nat.zero_ne_one
          (whole row 0 row' 1 (.inl ⟨rfl, rfl⟩) (.inr ⟨rfl, rfl⟩) equals)
      · rcases whole row 0 (.inl ⟨rfl, rfl⟩) 1 Nat.one_lt_two with ⟨_, is⟩ | ⟨same, _⟩
        · cases is
        · exact different same
  | _ => exact absurd trivial splits

end

/-- A path that is distributed and grouped by one column, with two values that are grouped
together and hashed apart. -/
theorem not_groupsByHash {op : Operator} {opfamily : Family} {value value' : V}
    (equals : equal op value value')
    (apart : hash opfamily (some value) ≠ hash opfamily (some value')) :
    ¬ (Locus.hashed [⟨[⟨[0], false, 0⟩], opfamily⟩]).GroupsByHash hash equal [⟨0, 0, op⟩] := by
  intro groups
  have same := groups (fun _ => some value) (fun _ => some value') [hash opfamily (some value)]
    [hash opfamily (some value')] ⟨by simp, by simp⟩ (.cons ⟨by simp, by simp⟩ .nil)
    (.cons ⟨by simp, by simp⟩ .nil) (by simpa [GroupColumn.Equal] using equals)
  exact apart (List.head_eq_of_cons_eq same)

/-- For a locus and a target list, grouping in place sees whole groups in all paths exactly when
grouping equality on the list gives the keys of the locus one hash value. For all paths that are
distributed by keys of some families and all target lists that are grouped by some operators it
does exactly when values that are equal under one of the operators have one hash value under each
of the families. The functions never compare the two. -/
theorem grouping_wholeGroups_iff (operators : Operator → Prop) (families : Family → Prop) :
    (∀ (locus : Locus Family) (tlist : List (GroupColumn Operator)), tlist ≠ [] →
      (locus.needRedistribute tlist = false ∨ locus.collocatesTlist tlist = true) →
      ((∀ path, Truthful hash path tlist locus → WholeGroups equal path tlist) ↔
        locus.GroupsByHash hash equal tlist)) ∧
    ((∀ (locus : Locus Family) (tlist : List (GroupColumn Operator)) (path : Path V), tlist ≠ [] →
      (∀ column ∈ tlist, operators column.eqop) →
      (∀ opfamily ∈ locus.opfamilies, families opfamily) → Truthful hash path tlist locus →
      (locus.needRedistribute tlist = false ∨ locus.collocatesTlist tlist = true) →
      WholeGroups equal path tlist) ↔
    ∀ op opfamily, operators op → families opfamily → Respects hash equal op opfamily) := by
  refine ⟨fun locus tlist _ inPlace => ⟨fun whole => ?_, fun groups path truthful =>
    wholeGroups_of_groupsByHash truthful groups inPlace⟩, ?_, ?_⟩
  · by_contra splits
    obtain ⟨path, truthful, split⟩ := exists_split splits
    exact split (whole path truthful)
  · intro whole op opfamily isOp isFamily value value' equals
    by_contra apart
    obtain ⟨path, truthful, split⟩ := exists_split (not_groupsByHash hash equal equals apart)
    apply split
    apply whole _ _ path (List.cons_ne_nil _ _) _ _ truthful (.inl rfl)
    · simpa using isOp
    · simpa [Locus.opfamilies] using isFamily
  · intro respects locus tlist path _ isOp isFamily truthful inPlace
    refine wholeGroups_of_groupsByHash truthful (groupsByHash_of_respects ?_ inPlace) inPlace
    intro opfamily among column isColumn
    exact respects _ _ (isOp column isColumn) (isFamily opfamily among)

/-- Numbers grouped by an equality that ignores the last binary digit and hashed to
themselves. -/
theorem grouping_splits_group : ∃ path : Path Nat,
    Truthful (fun (_ : Unit) value => value) path [⟨0, 0, ()⟩] (.hashed [⟨[⟨[0], false, 0⟩], ()⟩]) ∧
    ((.hashed [⟨[⟨[0], false, 0⟩], ()⟩] : Locus Unit).needRedistribute
      [(⟨0, 0, ()⟩ : GroupColumn Unit)] = false) ∧
    ¬ WholeGroups (fun (_ : Unit) value value' => value / 2 = value' / 2) path [⟨0, 0, ()⟩] := by
  obtain ⟨path, truthful, split⟩ := exists_split (@not_groupsByHash Unit Unit (Option Nat) Nat
    (fun _ => id) (fun _ value value' => value / 2 = value' / 2) () () 2 3 rfl (by simp))
  exact ⟨path, truthful, rfl, split⟩

end Greengage.Motion.Grouping
