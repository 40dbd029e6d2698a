import Greengage.Foundations.Results
import Greengage.Orca.Intervals
import Mathlib.Data.List.Sort

/-!
Contract: how ORCA derives an interval from a scalar expression over one column.

Does not own: whether those are the values that satisfy the expression.

A datum that is a constant NULL is compared as one below all values, as the comparator does.
A subexpression that the derivation has no rule for is given by its value alone; the source
returns a null pointer for it. A comparison whose operator is not in the operator family, an
array comparison with an operator that has no rule, and an identifier under a cast are such.
-/

namespace Greengage.Orca

open List CRange

open Foundations (bind_eq_ok)
open ERangeInclusion

/-! ### Expressions and their values -/

/-- The truth values of SQL. -/
inductive Truth where
  | isFalse
  | isNull
  | isTrue
  deriving DecidableEq

namespace Truth

def not : Truth → Truth
  | isFalse => isTrue
  | isNull => isNull
  | isTrue => isFalse

def and : Truth → Truth → Truth
  | isFalse, _ => isFalse
  | _, isFalse => isFalse
  | isTrue, isTrue => isTrue
  | _, _ => isNull

def or : Truth → Truth → Truth
  | isTrue, _ => isTrue
  | _, isTrue => isTrue
  | isFalse, isFalse => isFalse
  | _, _ => isNull

def ofBool (b : Bool) : Truth := if b then isTrue else isFalse

def qualifies (inferNullsAs : Bool) : Truth → Bool
  | isFalse => false
  | isNull => inferNullsAs
  | isTrue => true

variable {inferNullsAs : Bool} {left right : Truth}

theorem qualifies_and : (left.and right).qualifies inferNullsAs = true ↔
      left.qualifies inferNullsAs = true ∧ right.qualifies inferNullsAs = true := by
  cases left <;> cases right <;> simp [and, qualifies]

theorem qualifies_or : (left.or right).qualifies inferNullsAs = true ↔
      left.qualifies inferNullsAs = true ∨ right.qualifies inferNullsAs = true := by
  cases left <;> cases right <;> simp [or, qualifies]

theorem qualifies_not :
    left.not.qualifies inferNullsAs = true ↔ ¬ left.qualifies (!inferNullsAs) = true := by
  cases left <;> simp [not, qualifies]

theorem qualifies_ofBool {b} : (ofBool b).qualifies inferNullsAs = b := by
  cases b <;> rfl

end Truth

/-- `IMDType::ECmpType`, without the comparisons that are other expressions here. -/
inductive ECmpType where
  | ecmptEq
  | ecmptNEq
  | ecmptL
  | ecmptLEq
  | ecmptG
  | ecmptGEq
  deriving DecidableEq

def ECmpType.holds {β : Type} [LinearOrder β] : ECmpType → β → β → Bool
  | ecmptEq, left, right => left = right
  | ecmptNEq, left, right => left ≠ right
  | ecmptL, left, right => left < right
  | ecmptLEq, left, right => left ≤ right
  | ecmptG, left, right => right < left
  | ecmptGEq, left, right => right ≤ left

inductive EBooleanTest where
  | ebtIsTrue
  | ebtIsNotTrue
  | ebtIsFalse
  | ebtIsNotFalse
  | ebtIsUnknown
  | ebtIsNotUnknown
  deriving DecidableEq

inductive EArrCmpType where
  | earrcmpAny
  | earrcmpAll
  deriving DecidableEq

/-- The scalar expressions over one column. A constant NULL is `none`. -/
inductive ScalarExpr (α : Type) where
  | unknown (truth : Option α → Truth)
  | ident
  | const (value : Option Bool)
  | cmp (cmpType : ECmpType) (datum : Option α)
  | isDistinctFrom (datum : Option α)
  | arrayCmp (earrcmpt : EArrCmpType) (cmpType : ECmpType) (elements : List (Option α))
  | nullTest (child : ScalarExpr α)
  | booleanTest (ebt : EBooleanTest) (child : ScalarExpr α)
  | boolNot (child : ScalarExpr α)
  | boolAnd (first : ScalarExpr α) (rest : List (ScalarExpr α))
  | boolOr (first : ScalarExpr α) (rest : List (ScalarExpr α))

/-- The column: a boolean one has two values. -/
inductive Column (α : Type) [LinearOrder α] where
  | bool (lower upper : α) (less : lower < upper)
  | other

variable {α : Type} [LinearOrder α]

def Column.Valid : Column α → Option α → Prop
  | .bool lower upper _, some value => value = lower ∨ value = upper
  | _, _ => True

def Column.columnType : Column α → ColumnType (WithBot α)
  | .bool lower upper less => .etiBool lower upper (WithBot.coe_lt_coe.mpr less)
  | .other => .other

def evalCmp (cmpType : ECmpType) : Option α → Option α → Truth
  | some left, some right => .ofBool (cmpType.holds left right)
  | _, _ => .isNull

def evalBooleanTest : EBooleanTest → Truth → Bool
  | .ebtIsTrue, truth => truth = .isTrue
  | .ebtIsNotTrue, truth => truth ≠ .isTrue
  | .ebtIsFalse, truth => truth = .isFalse
  | .ebtIsNotFalse, truth => truth ≠ .isFalse
  | .ebtIsUnknown, truth => truth = .isNull
  | .ebtIsNotUnknown, truth => truth ≠ .isNull

def Column.truth : Column α → Option α → Truth
  | _, none => .isNull
  | .bool _ upper _, some value => .ofBool (value = upper)
  | .other, some _ => .isFalse

def evalArrayCmp (earrcmpt : EArrCmpType) (cmpType : ECmpType) (elements : List (Option α))
    (value : Option α) : Truth :=
  match earrcmpt with
  | .earrcmpAny => elements.foldr (fun element => (evalCmp cmpType value element).or) .isFalse
  | .earrcmpAll => elements.foldr (fun element => (evalCmp cmpType value element).and) .isTrue

namespace ScalarExpr

mutual

/-- The value of an expression at a value of the column. -/
def eval (column : Column α) (value : Option α) : ScalarExpr α → Truth
  | unknown truth => truth value
  | ident => column.truth value
  | const none => .isNull
  | const (some b) => .ofBool b
  | cmp cmpType datum => evalCmp cmpType value datum
  | isDistinctFrom datum => .ofBool (value ≠ datum)
  | arrayCmp earrcmpt cmpType elements => evalArrayCmp earrcmpt cmpType elements value
  | nullTest child => .ofBool (child.eval column value = .isNull)
  | booleanTest ebt child => .ofBool (evalBooleanTest ebt (child.eval column value))
  | boolNot child => (child.eval column value).not
  | boolAnd first rest => (first.eval column value).and (evalAnd column value rest)
  | boolOr first rest => (first.eval column value).or (evalOr column value rest)

def evalAnd (column : Column α) (value : Option α) : List (ScalarExpr α) → Truth
  | [] => .isTrue
  | child :: rest => (child.eval column value).and (evalAnd column value rest)

def evalOr (column : Column α) (value : Option α) : List (ScalarExpr α) → Truth
  | [] => .isFalse
  | child :: rest => (child.eval column value).or (evalOr column value rest)

end

def Qualifies (column : Column α) (expr : ScalarExpr α) (inferNullsAs : Bool)
    (value : Option α) : Prop :=
  (expr.eval column value).qualifies inferNullsAs = true

instance (column : Column α) (expr : ScalarExpr α) (inferNullsAs : Bool) (value : Option α) :
    Decidable (expr.Qualifies column inferNullsAs value) :=
  inferInstanceAs (Decidable (_ = true))

end ScalarExpr

/-! ### The derivation -/

/-- An interval over datums that may be NULL. -/
abbrev Interval (α : Type) := CConstraintInterval (WithBot α)

/-- The derivation uses a null pointer and does not return. -/
inductive Fault where
  | nullDereference
  deriving DecidableEq

/-- The constructor of a range from a comparison. A comparison that is not listed there, of
which `EcmptNEq` is the only one here, gives the range without ends. -/
def rangeFromCmp {δ : Type} (cmpType : ECmpType) (datum : δ) : CRange δ :=
  match cmpType with
  | .ecmptEq => ⟨some datum, eriIncluded, some datum, eriIncluded⟩
  | .ecmptL => ⟨none, eriExcluded, some datum, eriExcluded⟩
  | .ecmptLEq => ⟨none, eriExcluded, some datum, eriIncluded⟩
  | .ecmptG => ⟨some datum, eriExcluded, none, eriExcluded⟩
  | .ecmptGEq => ⟨some datum, eriIncluded, none, eriExcluded⟩
  | .ecmptNEq => ⟨none, eriExcluded, none, eriExcluded⟩

def pciRangeFromColConstCmp {δ : Type} (cmpType : ECmpType) (datum : δ) : List (CRange δ) :=
  match cmpType with
  | .ecmptNEq => [rangeFromCmp .ecmptL datum, rangeFromCmp .ecmptG datum]
  | _ => [rangeFromCmp cmpType datum]

def datumOf (datum : Option α) : WithBot α := datum

def deduplicate (pdatumPrev : α) : List α → List α
  | [] => []
  | datum :: rest =>
    if datum = pdatumPrev then deduplicate pdatumPrev rest else datum :: deduplicate datum rest

/-- `CDatumSortedSet`: the elements that are not NULL, sorted and without duplicates. -/
def datumSortedSet (elements : List (Option α)) : List α :=
  match (elements.filterMap id).insertionSort (· ≤ ·) with
  | [] => []
  | datum :: rest => datum :: deduplicate datum rest

def notInRanges {δ : Type} (pprevdatum : Option δ) : List δ → Except Fault (List (CRange δ))
  | [] =>
    match pprevdatum with
    | none => .error .nullDereference
    | some last => .ok [⟨some last, eriExcluded, none, eriExcluded⟩]
  | datum :: rest => do
      let ranges ← notInRanges (some datum) rest
      .ok (⟨pprevdatum, eriExcluded, some datum, eriExcluded⟩ :: ranges)

/-- `PcnstrIntervalFromScalarArrayCmp`. It does not look at whether the comparison is with ANY
or with ALL elements, nor at whether there is a NULL among them. -/
def pcnstrIntervalFromScalarArrayCmp (cmpType : ECmpType) (elements : List (Option α))
    (inferNullsAs : Bool) : Except Fault (Option (Interval α)) :=
  if elements.isEmpty then .ok none
  else
    let datums := (datumSortedSet elements).map WithBot.some
    match cmpType with
    | .ecmptEq => .ok (some ⟨datums.map (rangeFromCmp .ecmptEq), inferNullsAs⟩)
    | .ecmptNEq => do
        let ranges ← notInRanges none datums
        .ok (some ⟨ranges, inferNullsAs⟩)
    | _ => .ok none

/-- `PciIntervalFromScalarNullAndUnknownTest`: only for an identifier. -/
def pciIntervalFromScalarNullAndUnknownTest : ScalarExpr α → Option (Interval α)
  | .ident => some ⟨[], true⟩
  | _ => none

/-- `PciIntervalFromScalarIdent`, on a boolean column. -/
def pciIntervalFromScalarIdent (column : Column α) (inferNullsAs : Bool) : Option (Interval α) :=
  match column with
  | .bool _ upper _ => some ⟨[rangeFromCmp .ecmptEq (WithBot.some upper)], inferNullsAs⟩
  | .other => none

def pciIntervalFromScalarIDF (column : Column α) : Option α → Interval α
  | none => CConstraintInterval.pciComplement column.columnType ⟨[], true⟩
  | some datum => ⟨pciRangeFromColConstCmp .ecmptNEq (WithBot.some datum), true⟩

/-- One turn of the loop in `PciIntervalFromScalarBoolAnd`. -/
def andStep (pci pciChild : Option (Interval α)) : Option (Interval α) :=
  match pci, pciChild with
  | some pci, some pciChild => some (pci.pciIntersect pciChild)
  | none, some pciChild => some pciChild
  | pci, none => pci

/-- One turn of the loop in `PciIntervalFromScalarBoolOr`. -/
def unionPairs : List (Interval α) → List (Interval α)
  | pci1 :: pci2 :: rest => pci1.pciUnion pci2 :: unionPairs rest
  | rest => rest

theorem length_unionPairs_le (intervals : List (Interval α)) :
    (unionPairs intervals).length ≤ intervals.length := by
  fun_induction unionPairs intervals with
  | case1 first second rest ih =>
    simp only [length_cons]
    omega
  | case2 => exact le_rfl

def unionInPairs : List (Interval α) → Option (Interval α)
  | [] => none
  | [pci] => some pci
  | pci1 :: pci2 :: rest => unionInPairs (unionPairs (pci1 :: pci2 :: rest))
termination_by intervals => intervals.length
decreasing_by
  have shorter := length_unionPairs_le rest
  simp only [unionPairs, length_cons]
  omega

mutual

/-- `PciIntervalFromScalarExpr`. The flag says whether array comparisons are converted. -/
def pciIntervalFromScalarExpr (column : Column α) (arrays : Bool) :
    ScalarExpr α → Bool → Except Fault (Option (Interval α))
  | .unknown _, _ => .ok none
  | .ident, inferNullsAs => .ok (pciIntervalFromScalarIdent column inferNullsAs)
  | .const (some true), _ => .ok (some (.pciUnbounded column.columnType true))
  | .const _, _ => .ok (some ⟨[], false⟩)
  | .cmp cmpType datum, inferNullsAs =>
    .ok (some ⟨pciRangeFromColConstCmp cmpType (datumOf datum), inferNullsAs⟩)
  | .isDistinctFrom datum, _ => .ok (some (pciIntervalFromScalarIDF column datum))
  | .arrayCmp _ cmpType elements, inferNullsAs =>
    if arrays then pcnstrIntervalFromScalarArrayCmp cmpType elements inferNullsAs
    else .ok none
  | .nullTest child, _ => .ok (pciIntervalFromScalarNullAndUnknownTest child)
  | .booleanTest ebt child, _ =>
    match ebt with
    | .ebtIsTrue => pciIntervalFromScalarExpr column arrays child false
    | .ebtIsNotFalse => pciIntervalFromScalarExpr column arrays child true
    | .ebtIsNotTrue => do
        let pciChild ← pciIntervalFromScalarExpr column arrays child false
        .ok (pciChild.map (.pciComplement column.columnType))
    | .ebtIsFalse => do
        let pciChild ← pciIntervalFromScalarExpr column arrays child true
        .ok (pciChild.map (.pciComplement column.columnType))
    | .ebtIsUnknown => .ok (pciIntervalFromScalarNullAndUnknownTest child)
    | .ebtIsNotUnknown =>
      .ok ((pciIntervalFromScalarNullAndUnknownTest child).map (.pciComplement column.columnType))
  | .boolNot child, inferNullsAs => do
      let pciChild ← pciIntervalFromScalarExpr column arrays child (!inferNullsAs)
      .ok (pciChild.map (.pciComplement column.columnType))
  | .boolAnd first rest, inferNullsAs => do
      let pci ← pciIntervalFromScalarExpr column arrays first inferNullsAs
      andLoop column arrays rest inferNullsAs pci
  | .boolOr first rest, inferNullsAs => do
      match ← pciIntervalFromScalarExpr column arrays first inferNullsAs with
      | none => .ok none
      | some pci => do
          let children ← orChildren column arrays rest inferNullsAs
          .ok (children.bind fun children => unionInPairs (pci :: children))

/-- The loop of `PciIntervalFromScalarBoolAnd`: a child without an interval is passed over. -/
def andLoop (column : Column α) (arrays : Bool) :
    List (ScalarExpr α) → Bool → Option (Interval α) → Except Fault (Option (Interval α))
  | [], _, pci => .ok pci
  | child :: rest, inferNullsAs, pci => do
      let pciChild ← pciIntervalFromScalarExpr column arrays child inferNullsAs
      andLoop column arrays rest inferNullsAs (andStep pci pciChild)

/-- The first loop of `PciIntervalFromScalarBoolOr`: a child without an interval ends it. -/
def orChildren (column : Column α) (arrays : Bool) :
    List (ScalarExpr α) → Bool → Except Fault (Option (List (Interval α)))
  | [], _ => .ok (some [])
  | child :: rest, inferNullsAs => do
      match ← pciIntervalFromScalarExpr column arrays child inferNullsAs with
      | none => .ok none
      | some pci => do
          let children ← orChildren column arrays rest inferNullsAs
          .ok (children.map (pci :: ·))

end

/-! ### The intervals of comparisons -/

theorem ECmpType.holds_coe (cmpType : ECmpType) (left right : α) :
    cmpType.holds (left : WithBot α) (right : WithBot α) = cmpType.holds left right := by
  cases cmpType <;> simp [holds]

section

variable {δ : Type} [LinearOrder δ]

theorem has_pciRangeFromColConstCmp (cmpType : ECmpType) (value datum : δ) :
    (∃ range ∈ pciRangeFromColConstCmp cmpType datum, range.Has value) ↔
      cmpType.holds value datum = true := by
  cases cmpType <;>
    simp [pciRangeFromColConstCmp, rangeFromCmp, Has, FollowsLeft,
      PrecedesRight, ECmpType.holds]
  rw [and_comm, ← le_antisymm_iff]

theorem sorted_pciRangeFromColConstCmp (cmpType : ECmpType) (datum : δ) (fIncludesNull : Bool) :
    (CConstraintInterval.mk (pciRangeFromColConstCmp cmpType datum) fIncludesNull).Sorted := by
  constructor <;>
    cases cmpType <;>
    simp [pciRangeFromColConstCmp, rangeFromCmp, Proper, fDisjointLeft]

/-- The ranges that leave out a list of datums have the values after the last datum passed that
are not in the list. -/
theorem notInRanges_spec {pprevdatum : Option δ} {datums : List δ} {ranges : List (CRange δ)}
    (increasing : datums.Pairwise (· < ·))
    (after : ∀ prev, pprevdatum = some prev → ∀ datum ∈ datums, prev < datum)
    (ran : notInRanges pprevdatum datums = .ok ranges) :
    Foundations.Ordered low high ranges ∧ Foundations.Above low
        (mk pprevdatum eriExcluded none eriExcluded).low ranges ∧
      ∀ value, (∃ range ∈ ranges, range.Has value) ↔
        (∀ prev, pprevdatum = some prev → prev < value) ∧ value ∉ datums := by
  induction datums generalizing pprevdatum ranges with
  | nil =>
    cases pprevdatum with
    | none => cases ran
    | some last =>
      cases ran
      refine ⟨Foundations.ordered_cons.mpr ⟨?_, by simp, Foundations.ordered_nil⟩, ?_, ?_⟩
      · simp [low, high]
      · exact Foundations.above_cons.mpr ⟨le_rfl, Foundations.above_nil⟩
      · simp [Has, FollowsLeft, PrecedesRight]
  | cons datum rest ih =>
    obtain ⟨others, isOthers, ran⟩ := bind_eq_ok ran
    cases ran
    rw [pairwise_cons] at increasing
    obtain ⟨ordered, above, has⟩ := ih increasing.2 (by rintro _ ⟨⟩; exact increasing.1) isOthers
    have proper : (mk pprevdatum eriExcluded (some datum) eriExcluded).low <
        (mk pprevdatum eriExcluded (some datum) eriExcluded).high := by
      cases pprevdatum with
      | none => simp [low, high]
      | some prev =>
        have less := after prev rfl datum (by simp)
        simp [low, high, less]
    have aboveDatum : Foundations.Above low
        (mk pprevdatum eriExcluded (some datum) eriExcluded).high others := by
      apply above.of_le
      simp [low, high]
    have orderedAll := Foundations.ordered_cons.mpr ⟨proper, aboveDatum, ordered⟩
    refine ⟨orderedAll, orderedAll.above le_rfl, ?_⟩
    intro value
    simp only [mem_cons, exists_eq_or_imp, has]
    simp only [Has, Option.some.injEq, forall_eq', not_or]
    have first : (mk pprevdatum eriExcluded (some datum) eriExcluded).FollowsLeft value ↔
        ∀ prev, pprevdatum = some prev → prev < value := by
      cases pprevdatum <;> simp [FollowsLeft]
    rw [first]
    constructor
    · rintro (⟨follows, less⟩ | ⟨greater, other⟩)
      · refine ⟨follows, less.ne, fun mem => ?_⟩
        exact absurd (increasing.1 value mem) less.not_gt
      · refine ⟨fun prev isPrevious => ?_, greater.ne', other⟩
        exact (after prev isPrevious datum (by simp)).trans greater
    · rintro ⟨follows, other, notLater⟩
      rcases lt_or_gt_of_ne other with less | greater
      · exact .inl ⟨follows, less⟩
      · exact .inr ⟨greater, notLater⟩

end

theorem deduplicate_spec {prev : α} {datums : List α}
    (sorted : (prev :: datums).Pairwise (· ≤ ·)) :
    (prev :: deduplicate prev datums).Pairwise (· < ·) ∧
      ∀ value, value ∈ prev :: deduplicate prev datums ↔ value ∈ prev :: datums := by
  induction datums generalizing prev with
  | nil => simp [deduplicate]
  | cons datum rest ih =>
    rw [pairwise_cons] at sorted
    unfold deduplicate
    split_ifs with same
    · subst same
      obtain ⟨increasing, members⟩ := ih sorted.2
      exact ⟨increasing, fun value => by rw [members]; simp⟩
    · obtain ⟨increasing, members⟩ := ih sorted.2
      have less : prev < datum :=
        lt_of_le_of_ne (sorted.1 datum (by simp)) (symm same)
      refine ⟨pairwise_cons.mpr ⟨fun value member => ?_, increasing⟩, fun value => ?_⟩
      · rcases mem_cons.mp member with rfl | member
        · exact less
        · exact less.trans ((pairwise_cons.mp increasing).1 value member)
      · rw [mem_cons, members, ← mem_cons]

theorem datumSortedSet_spec (elements : List (Option α)) :
    (datumSortedSet elements).Pairwise (· < ·) ∧
      ∀ value, value ∈ datumSortedSet elements ↔ some value ∈ elements := by
  have sorted : ((elements.filterMap id).insertionSort (· ≤ ·)).Pairwise (· ≤ ·) :=
    pairwise_insertionSort (· ≤ ·) (elements.filterMap id)
  have members (value) : value ∈ (elements.filterMap id).insertionSort (· ≤ ·) ↔
      some value ∈ elements := by
    simp
  unfold datumSortedSet
  split
  · rename_i empty
    rw [empty] at members
    exact ⟨.nil, members⟩
  · rename_i datum rest isSorted
    rw [isSorted] at sorted members
    obtain ⟨increasing, same⟩ := deduplicate_spec sorted
    exact ⟨increasing, fun value => (same value).trans (members value)⟩

/-! ### The intervals of expressions -/

omit [LinearOrder α] in
theorem ScalarExpr.children_induction {P : ScalarExpr α → Prop}
    (unknown : ∀ truth, P (.unknown truth)) (ident : P .ident) (const : ∀ value, P (.const value))
    (cmp : ∀ cmpType datum, P (.cmp cmpType datum))
    (isDistinctFrom : ∀ datum, P (.isDistinctFrom datum))
    (arrayCmp : ∀ earrcmpt cmpType elements, P (.arrayCmp earrcmpt cmpType elements))
    (nullTest : ∀ child, P child → P (.nullTest child))
    (booleanTest : ∀ ebt child, P child → P (.booleanTest ebt child))
    (boolNot : ∀ child, P child → P (.boolNot child))
    (boolAnd : ∀ first rest, (∀ child ∈ first :: rest, P child) → P (.boolAnd first rest))
    (boolOr : ∀ first rest, (∀ child ∈ first :: rest, P child) → P (.boolOr first rest)) :
    ∀ expr, P expr :=
  @rec α P (fun children => ∀ child ∈ children, P child) unknown ident const cmp
    isDistinctFrom arrayCmp nullTest booleanTest boolNot
    (fun first rest ofFirst ofRest => boolAnd first rest (forall_mem_cons.mpr ⟨ofFirst, ofRest⟩))
    (fun first rest ofFirst ofRest => boolOr first rest (forall_mem_cons.mpr ⟨ofFirst, ofRest⟩))
    (by simp) (fun _ _ ofHead ofTail => forall_mem_cons.mpr ⟨ofHead, ofTail⟩)

namespace CConstraintInterval

def Admits (this : Interval α) (value : Option α) : Prop := this.Has (value.map WithBot.some)

variable {this pci : Interval α} {column : Column α} {value : Option α}

theorem domain_of_valid (valid : column.Valid value) (known)
    (isKnown : value.map some = some known) : column.columnType.Domain known := by
  obtain ⟨value, rfl, rfl⟩ := Option.map_eq_some_iff.mp isKnown
  cases column with
  | bool lower upper less => exact valid.imp (congrArg _) (congrArg _)
  | other => trivial

theorem admits_pciComplement (sorted : this.Sorted) (valid : column.Valid value) :
    (this.pciComplement column.columnType).Admits value ↔ ¬ this.Admits value :=
  pciComplement_has sorted (domain_of_valid valid)

theorem admits_pciUnbounded (valid : column.Valid value) :
    (pciUnbounded column.columnType true).Admits value := by
  cases value with
  | none => cases column <;> rfl
  | some known => exact pciUnbounded_has (domain_of_valid valid known rfl)

variable {fIncludesNull : Bool}

theorem admits_null {ranges} :
    (mk ranges fIncludesNull).Admits (none : Option α) ↔ fIncludesNull = true :=
  Iff.rfl

theorem admits_cmp (cmpType : ECmpType) (datum : WithBot α) (fIncludesNull : Bool) (known : α) :
    (mk (pciRangeFromColConstCmp cmpType datum) fIncludesNull).Admits
      (some known) ↔ cmpType.holds (known : WithBot α) datum = true :=
  has_pciRangeFromColConstCmp cmpType _ _

theorem sorted_empty :
    (mk ([] : List (CRange (WithBot α))) fIncludesNull).Sorted :=
  ⟨by simp, .nil⟩

end CConstraintInterval

open CConstraintInterval

variable {intervals : List (Interval α)}

theorem unionPairs_spec (sorted : ∀ pci ∈ intervals, pci.Sorted) :
    (∀ pci ∈ unionPairs intervals, pci.Sorted) ∧
      ∀ value, (∃ pci ∈ unionPairs intervals, pci.Admits value) ↔
        ∃ pci ∈ intervals, pci.Admits value := by
  fun_induction unionPairs intervals with
  | case1 first second rest ih =>
    simp only [forall_mem_cons] at sorted
    obtain ⟨sortedFirst, sortedSecond, sortedRest⟩ := sorted
    obtain ⟨sortedPairs, has⟩ := ih sortedRest
    refine ⟨forall_mem_cons.mpr ⟨pciUnion_sorted sortedFirst sortedSecond, sortedPairs⟩,
      fun value => ?_⟩
    simp only [mem_cons, exists_eq_or_imp, has]
    rw [Admits, pciUnion_has sortedFirst sortedSecond, or_assoc]
    rfl
  | case2 => exact ⟨sorted, fun _ => Iff.rfl⟩

theorem unionInPairs_spec (sorted : ∀ pci ∈ intervals, pci.Sorted) (nonempty : intervals ≠ []) :
    ∃ union, unionInPairs intervals = some union ∧ union.Sorted ∧
      ∀ value, union.Admits value ↔ ∃ pci ∈ intervals, pci.Admits value := by
  fun_induction unionInPairs intervals with
  | case1 => exact absurd rfl nonempty
  | case2 pci => exact ⟨pci, rfl, by simpa using sorted⟩
  | case3 first second rest ih =>
    obtain ⟨sortedPairs, has⟩ := unionPairs_spec sorted
    obtain ⟨union, isUnion, sortedUnion, hasUnion⟩ := ih sortedPairs (by simp [unionPairs])
    exact ⟨union, isUnion, sortedUnion, fun value => (hasUnion value).trans (has value)⟩

variable {pci : Option (Interval α)} {results : List (Option (Interval α))} {meet : Interval α}

theorem foldl_andStep_spec (sorted : ∀ interval, pci = some interval → interval.Sorted)
    (sortedResults : ∀ result ∈ results, ∀ interval, result = some interval → interval.Sorted)
    (isMeet : results.foldl andStep pci = some meet) :
    meet.Sorted ∧ ∀ value, meet.Admits value ↔
      (∀ interval, pci = some interval → interval.Admits value) ∧
        ∀ result ∈ results, ∀ interval, result = some interval → interval.Admits value := by
  induction results generalizing pci with
  | nil =>
    subst isMeet
    simpa using sorted
  | cons result rest ih =>
    obtain ⟨sortedResult, sortedRest⟩ := forall_mem_cons.mp sortedResults
    rw [foldl_cons] at isMeet
    cases result with
    | none =>
      have same : andStep pci none = pci := by cases pci <;> rfl
      rw [same] at isMeet
      obtain ⟨sortedMeet, has⟩ := ih sorted sortedRest isMeet
      exact ⟨sortedMeet, fun value => by simp [has]⟩
    | some interval =>
      have sortedInterval := sortedResult interval rfl
      cases pci with
      | none =>
        obtain ⟨sortedMeet, has⟩ := ih (by rintro _ ⟨⟩; exact sortedInterval) sortedRest isMeet
        refine ⟨sortedMeet, fun value => ?_⟩
        rw [has]
        simp [andStep]
      | some pci =>
        have sortedPci := sorted pci rfl
        obtain ⟨sortedMeet, has⟩ := ih
          (by rintro _ ⟨⟩; exact pciIntersect_sorted sortedPci sortedInterval) sortedRest isMeet
        refine ⟨sortedMeet, fun value => ?_⟩
        have both : (pci.pciIntersect interval).Admits value ↔
            pci.Admits value ∧ interval.Admits value :=
          pciIntersect_has sortedPci sortedInterval _
        rw [has]
        simp [andStep, both, and_assoc]

theorem isSome_foldl_andStep : (results.foldl andStep pci).isSome = true ↔
      pci.isSome = true ∨ ∃ result ∈ results, result.isSome = true := by
  induction results generalizing pci with
  | nil => simp
  | cons result rest ih =>
    rw [foldl_cons, ih]
    cases pci <;> cases result <;> simp [andStep]

section

variable {column : Column α} {arrays inferNullsAs : Bool} {first : ScalarExpr α}
  {rest children : List (ScalarExpr α)} {result : Option (Interval α)}

/-- The derivation returns the result for the expression. -/
abbrev Derives (column : Column α) (arrays inferNullsAs : Bool)
    (expr : ScalarExpr α) (result : Option (Interval α)) : Prop :=
  pciIntervalFromScalarExpr column arrays expr inferNullsAs = .ok result

theorem andLoop_eq_ok
    (ran : andLoop column arrays children inferNullsAs pci = .ok result) :
    ∃ results, Forall₂ (Derives column arrays inferNullsAs) children results ∧
      result = results.foldl andStep pci := by
  induction children generalizing pci with
  | nil =>
    cases ran
    exact ⟨[], .nil, rfl⟩
  | cons child rest ih =>
    obtain ⟨own, isOwn, ran⟩ := bind_eq_ok ran
    obtain ⟨results, derived, isResult⟩ := ih ran
    exact ⟨own :: results, .cons isOwn derived, isResult⟩

theorem boolAnd_eq_ok
    (ran : Derives column arrays inferNullsAs (.boolAnd first rest) result) :
    ∃ results, Forall₂ (Derives column arrays inferNullsAs) (first :: rest) results ∧
      result = results.foldl andStep none := by
  refine andLoop_eq_ok (Eq.trans ?_ ran)
  have step : ∀ pci : Option (Interval α), andStep none pci = pci := by
    intro pci
    cases pci <;> rfl
  rw [pciIntervalFromScalarExpr, andLoop]
  simp only [step]

theorem orChildren_eq_ok {result}
    (ran : orChildren column arrays children inferNullsAs = .ok result) :
    (result = none ∧ ∃ child ∈ children, Derives column arrays inferNullsAs child none) ∨
      ∃ intervals, result = some intervals ∧
        Forall₂ (Derives column arrays inferNullsAs) children (intervals.map some) := by
  induction children generalizing result with
  | nil =>
    cases ran
    exact .inr ⟨[], rfl, .nil⟩
  | cons child rest ih =>
    obtain ⟨own, isOwn, ran⟩ := bind_eq_ok ran
    cases own with
    | none =>
      cases ran
      exact .inl ⟨rfl, child, mem_cons_self, isOwn⟩
    | some interval =>
      obtain ⟨others, isOthers, ran⟩ := bind_eq_ok ran
      cases ran
      rcases ih isOthers with ⟨rfl, other, mem, derives⟩ | ⟨intervals, rfl, derived⟩
      · exact .inl ⟨rfl, other, mem_cons_of_mem _ mem, derives⟩
      · exact .inr ⟨interval :: intervals, rfl, .cons isOwn derived⟩

theorem boolOr_eq_ok
    (ran : Derives column arrays inferNullsAs (.boolOr first rest) result) :
    (result = none ∧ ∃ child ∈ first :: rest,
        Derives column arrays inferNullsAs child none) ∨
      ∃ intervals ≠ [], result = unionInPairs intervals ∧
        Forall₂ (Derives column arrays inferNullsAs) (first :: rest)
          (intervals.map some) := by
  obtain ⟨own, isOwn, ran⟩ := bind_eq_ok ran
  cases own with
  | none =>
    cases ran
    exact .inl ⟨rfl, first, mem_cons_self, isOwn⟩
  | some interval =>
    obtain ⟨others, isOthers, ran⟩ := bind_eq_ok ran
    cases ran
    rcases orChildren_eq_ok isOthers with ⟨rfl, other, mem, derives⟩ | ⟨intervals, rfl, derived⟩
    · exact .inl ⟨rfl, other, mem_cons_of_mem _ mem, derives⟩
    · exact .inr ⟨interval :: intervals, by simp, rfl, .cons isOwn derived⟩

end

end Greengage.Orca
