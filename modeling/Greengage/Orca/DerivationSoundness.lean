import Greengage.Orca.Derivation

/-!
Contract: which rows the derived intervals lose.

The interval of an expression is what the derivation reads of it (`reads`). `Loses` and `Gains`
follow a value from the places where this differs from its meaning, a constant NULL, a comparison
with NULL, an array comparison read as IN or NOT IN over the elements that are not NULL, and a
conjunct passed over, up to the root; a negation turns the one into the other. An interval
excludes a row that qualifies exactly if the row is lost in this sense.
-/

namespace Greengage.Orca

open List ScalarExpr Truth Except

open Foundations (bind_eq_ok exists_of_forall₂)
open CConstraintInterval

variable {α : Type} [LinearOrder α]

/-! ### What is read of an expression -/

def readsArray (cmpType : ECmpType) (elements : List (Option α)) (known : α) : Bool :=
  match cmpType with
  | .ecmptEq => some known ∈ elements
  | _ => some known ∉ elements

namespace ScalarExpr

def isIdent : ScalarExpr α → Bool
  | ident => true
  | _ => false

section

variable (column : Column α) (arrays : Bool) (value : Option α)

mutual

/-- The derivation has a rule for the expression. -/
def hasInterval : ScalarExpr α → Bool
  | unknown _ => false
  | ident => match column with
    | .bool .. => true
    | .other => false
  | const _ | cmp _ _ | isDistinctFrom _ => true
  | arrayCmp _ cmpType elements =>
    arrays && !elements.isEmpty && (cmpType = .ecmptEq || cmpType = .ecmptNEq)
  | nullTest child => child.isIdent
  | booleanTest ebt child =>
    match ebt with
    | .ebtIsUnknown | .ebtIsNotUnknown => child.isIdent
    | _ => hasInterval child
  | boolNot child => hasInterval child
  | boolAnd first rest => hasInterval first || (haveInterval rest).any id
  | boolOr first rest => hasInterval first && (haveInterval rest).all id

def haveInterval : List (ScalarExpr α) → List Bool
  | [] => []
  | child :: rest => hasInterval child :: haveInterval rest

end

mutual

/-- Whether the expression, as it is read, has the value: a constant NULL is false, a NULL that is
compared with is a datum below all values, an array comparison is IN or NOT IN over the elements
that are not NULL, and a conjunct without a rule is left out. -/
def reads : ScalarExpr α → Bool → Bool
  | const none, _ => false
  | cmp cmpType datum, inferNullsAs =>
    value.elim inferNullsAs fun known => cmpType.holds (known : WithBot α) (datumOf datum)
  | arrayCmp earrcmpt cmpType elements, inferNullsAs =>
    value.elim ((evalArrayCmp earrcmpt cmpType elements none).qualifies inferNullsAs) fun known =>
      readsArray cmpType elements known
  | booleanTest ebt child, inferNullsAs =>
    match ebt with
    | .ebtIsTrue => reads child false
    | .ebtIsNotFalse => reads child true
    | .ebtIsNotTrue => !reads child false
    | .ebtIsFalse => !reads child true
    | ebt => ((booleanTest ebt child).eval column value).qualifies inferNullsAs
  | boolNot child, inferNullsAs => !reads child (!inferNullsAs)
  | boolAnd first rest, inferNullsAs =>
    (!first.hasInterval column arrays || reads first inferNullsAs) &&
      (readEach rest inferNullsAs).all fun (ruled, read) => !ruled || read
  | boolOr first rest, inferNullsAs =>
    reads first inferNullsAs || (readEach rest inferNullsAs).any (·.2)
  | expr, inferNullsAs => (expr.eval column value).qualifies inferNullsAs

/-- Which of the expressions have a rule, and what is read of each. -/
def readEach : List (ScalarExpr α) → Bool → List (Bool × Bool)
  | [], _ => []
  | child :: rest, inferNullsAs =>
    (child.hasInterval column arrays, reads child inferNullsAs) :: readEach rest inferNullsAs

end

end

end ScalarExpr

section

variable {column : Column α} {arrays inferNullsAs : Bool} {value : Option α}
  {first : ScalarExpr α} {rest : List (ScalarExpr α)}

theorem haveInterval_eq_map (children : List (ScalarExpr α)) :
    haveInterval column arrays children = children.map (hasInterval column arrays) := by
  induction children with
  | nil => rfl
  | cons child rest ih => rw [haveInterval, ih, map_cons]

theorem readEach_eq_map (children : List (ScalarExpr α)) :
    readEach column arrays value children inferNullsAs = children.map fun child =>
      (child.hasInterval column arrays, child.reads column arrays value inferNullsAs) := by
  induction children with
  | nil => rfl
  | cons child rest ih => rw [readEach, ih, map_cons]

theorem hasInterval_boolAnd : (boolAnd first rest).hasInterval column arrays = true ↔
      ∃ child ∈ first :: rest, child.hasInterval column arrays = true := by
  simp [hasInterval, haveInterval_eq_map]

theorem hasInterval_boolOr : (boolOr first rest).hasInterval column arrays = true ↔
      ∀ child ∈ first :: rest, child.hasInterval column arrays = true := by
  simp [hasInterval, haveInterval_eq_map]

theorem reads_boolAnd : (boolAnd first rest).reads column arrays value inferNullsAs = true ↔
      ∀ child ∈ first :: rest, child.hasInterval column arrays = true →
        child.reads column arrays value inferNullsAs = true := by
  simp [reads, readEach_eq_map, ← imp_iff_not_or, ← Bool.not_eq_true]

theorem reads_boolOr : (boolOr first rest).reads column arrays value inferNullsAs = true ↔
      ∃ child ∈ first :: rest, child.reads column arrays value inferNullsAs = true := by
  simp [reads, readEach_eq_map]

theorem qualifies_boolAnd : (boolAnd first rest).Qualifies column inferNullsAs value ↔
      ∀ child ∈ first :: rest, child.Qualifies column inferNullsAs value := by
  have all (children) : (evalAnd column value children).qualifies inferNullsAs = true ↔
        ∀ child ∈ children, child.Qualifies column inferNullsAs value := by
    induction children with
    | nil => simp [evalAnd, qualifies]
    | cons child rest ih =>
      rw [evalAnd, qualifies_and, ih, forall_mem_cons]
      rfl
  rw [Qualifies, eval, qualifies_and, all, forall_mem_cons]
  rfl

theorem qualifies_boolOr : (boolOr first rest).Qualifies column inferNullsAs value ↔
      ∃ child ∈ first :: rest, child.Qualifies column inferNullsAs value := by
  have some_ (children) : (evalOr column value children).qualifies inferNullsAs = true ↔
        ∃ child ∈ children, child.Qualifies column inferNullsAs value := by
    induction children with
    | nil => simp [evalOr, qualifies]
    | cons child rest ih =>
      rw [evalOr, qualifies_or, ih]
      simp [Qualifies]
  rw [Qualifies, eval, qualifies_or, some_]
  simp [Qualifies]

end

/-! ### The interval has the values that are read -/

/-- There is an interval if there is a rule, and it has the values that are read. -/
structure Reading (column : Column α) (arrays inferNullsAs : Bool)
    (expr : ScalarExpr α) (result : Option (Interval α)) : Prop where
  isSome : result.isSome = expr.hasInterval column arrays
  sorted : ∀ interval, result = some interval → interval.Sorted
  admits : ∀ interval, result = some interval → ∀ value, column.Valid value →
    (interval.Admits value ↔ expr.reads column arrays value inferNullsAs = true)

section

variable {column : Column α} {arrays inferNullsAs : Bool} {child expr : ScalarExpr α}
  {result : Option (Interval α)} {interval : Interval α} {value : Option α}

theorem Reading.of_some (ruled : expr.hasInterval column arrays = true)
    (sorted : interval.Sorted) (admits : ∀ value, column.Valid value →
      (interval.Admits value ↔ expr.reads column arrays value inferNullsAs = true)) :
    Reading column arrays inferNullsAs expr (some interval) where
  isSome := ruled.symm
  sorted := by
    rintro _ ⟨⟩
    exact sorted
  admits := by
    rintro _ ⟨⟩
    exact admits

theorem Reading.of_none (unruled : expr.hasInterval column arrays = false) :
    Reading column arrays inferNullsAs expr none :=
  ⟨unruled.symm, nofun, nofun⟩

section

variable {inferChild : Bool} (reading : Reading column arrays inferChild child result)
  (ruled : expr.hasInterval column arrays = child.hasInterval column arrays)

include reading ruled

theorem Reading.same (reads : ∀ value, expr.reads column arrays value inferNullsAs =
      child.reads column arrays value inferChild) :
    Reading column arrays inferNullsAs expr result where
  isSome := reading.isSome.trans ruled.symm
  sorted := reading.sorted
  admits := by simpa only [reads] using reading.admits

theorem Reading.complement (reads : ∀ value,
      expr.reads column arrays value inferNullsAs =
        !child.reads column arrays value inferChild) :
    Reading column arrays inferNullsAs expr
      (result.map (.pciComplement column.columnType)) := by
  cases result with
  | none => exact .of_none (ruled.trans reading.isSome.symm)
  | some interval =>
    have sorted := reading.sorted interval rfl
    refine .of_some (ruled.trans reading.isSome.symm) (pciComplement_sorted _ sorted) ?_
    intro value valid
    rw [admits_pciComplement sorted valid, reading.admits interval rfl value valid, reads,
      Bool.not_eq_true, Bool.not_eq_true']

end

/-- The intervals of the conjuncts that have one. -/
theorem Reading.admits_iff (reading : Reading column arrays inferNullsAs expr result)
    (valid : column.Valid value) :
    (∀ interval, result = some interval → interval.Admits value) ↔
      (expr.hasInterval column arrays = true →
        expr.reads column arrays value inferNullsAs = true) := by
  rw [← reading.isSome]
  cases result with
  | none => simp
  | some interval => simp [reading.admits interval rfl value valid]

theorem not_admits_empty {fIncludesNull known} :
    ¬ (mk [] fIncludesNull : Interval α).Admits (some known) := by
  rintro ⟨_, mem, -⟩
  cases mem

theorem admits_nullTest :
    (mk [] true : Interval α).Admits value ↔ value = none := by
  cases value with
  | none => exact ⟨fun _ => rfl, fun _ => rfl⟩
  | some known => simp [not_admits_empty]

theorem truth_eq_isNull : column.truth value = .isNull ↔ value = none := by
  cases value with
  | none => cases column <;> simp [Column.truth]
  | some known =>
    cases column with
    | bool lower upper less =>
      simp only [Column.truth, ofBool]
      split_ifs <;> simp
    | other => simp [Column.truth]

theorem reading_nullTest (inferNullsAs : Bool) : Reading column arrays inferNullsAs
      (.nullTest child) (pciIntervalFromScalarNullAndUnknownTest child) := by
  cases child with
  | ident =>
    refine .of_some rfl sorted_empty fun value _ => ?_
    simp [reads, eval, qualifies_ofBool, admits_nullTest, truth_eq_isNull]
  | _ => exact .of_none rfl

variable {earrcmpt : EArrCmpType} {cmpType : ECmpType} {elements : List (Option α)}

theorem evalArrayCmp_null (ne : elements ≠ []) :
    evalArrayCmp earrcmpt cmpType elements none = .isNull := by
  obtain ⟨element, rest, rfl⟩ := exists_cons_of_ne_nil ne
  clear ne
  induction rest generalizing element with
  | nil => cases earrcmpt <;> cases element <;> rfl
  | cons next rest ih =>
    have later := ih next
    cases earrcmpt
    all_goals
      simp only [evalArrayCmp, foldr_cons] at later ⊢
      rw [later]
      cases element <;> rfl

theorem reading_arrayCmp (ran : Derives column arrays inferNullsAs
      (.arrayCmp earrcmpt cmpType elements) result) :
    Reading column arrays inferNullsAs (.arrayCmp earrcmpt cmpType elements) result := by
  obtain ⟨increasing, members⟩ := datumSortedSet_spec elements
  have increasingDatums : ((datumSortedSet elements).map WithBot.some).Pairwise (· < ·) := by
    rw [pairwise_map]
    exact increasing.imp WithBot.coe_lt_coe.mpr
  have membersDatums : ∀ known : α, (known : WithBot α) ∈
      (datumSortedSet elements).map WithBot.some ↔ some known ∈ elements := by
    intro known
    rw [← members known, mem_map]
    simp
  rw [Derives, pciIntervalFromScalarExpr, pcnstrIntervalFromScalarArrayCmp] at ran
  split_ifs at ran with converted empty
  · cases ran
    exact .of_none (by simp [hasInterval, empty])
  · have nonempty : elements ≠ [] := by simpa using empty
    have of_known {ranges} (ruled : cmpType = .ecmptEq ∨ cmpType = .ecmptNEq)
        (sorted : (mk ranges inferNullsAs : Interval α).Sorted)
        (admits : ∀ known, (mk ranges inferNullsAs : Interval α).Admits (some known) ↔
          readsArray cmpType elements known = true) : Reading column arrays inferNullsAs
            (.arrayCmp earrcmpt cmpType elements) (some ⟨ranges, inferNullsAs⟩) := by
      refine .of_some (by simpa [hasInterval, converted, nonempty] using ruled) sorted ?_
      intro value _
      cases value with
      | none => rw [reads, Option.elim_none, evalArrayCmp_null nonempty, admits_null, qualifies]
      | some known => exact admits known
    cases cmpType with
    | ecmptEq =>
      cases ran
      refine of_known (.inl rfl) ⟨?_, ?_⟩ fun known => ?_
      · simp [rangeFromCmp, CRange.Proper]
      · rw [pairwise_map]
        refine increasingDatums.imp fun less => ?_
        simp [rangeFromCmp, CRange.fDisjointLeft, less]
      · simp only [readsArray, decide_eq_true_eq, ← membersDatums known]
        constructor
        · rintro ⟨_, mem, follows, precedes⟩
          obtain ⟨_, isDatum, rfl⟩ := mem_map.mp mem
          rw [le_antisymm precedes follows]
          exact isDatum
        · intro mem
          exact ⟨_, mem_map_of_mem mem, le_refl _, le_refl _⟩
    | ecmptNEq =>
      obtain ⟨_, isRanges, ran⟩ := bind_eq_ok ran
      cases ran
      obtain ⟨ordered, -, has⟩ := notInRanges_spec increasingDatums (by simp) isRanges
      refine of_known (.inr rfl) (sorted_iff.mpr ordered) fun known => ?_
      simp only [readsArray, decide_eq_true_eq, ← membersDatums known]
      exact (has _).trans (by simp)
    | _ =>
      cases ran
      exact .of_none (by simp [hasInterval])
  · cases ran
    exact .of_none (by simp [hasInterval, converted])

section

variable {first : ScalarExpr α} {rest : List (ScalarExpr α)}
  (readings : ∀ child ∈ first :: rest, ∀ result,
    Derives column arrays inferNullsAs child result →
      Reading column arrays inferNullsAs child result)

include readings

theorem forall₂_reading {results}
    (derived : Forall₂ (Derives column arrays inferNullsAs) (first :: rest) results) :
    Forall₂ (Reading column arrays inferNullsAs) (first :: rest) results :=
  ((forall₂_and_left _ _).mpr ⟨readings, derived⟩).imp fun _ _ both => both.1 _ both.2

theorem reading_boolAnd
    (ran : Derives column arrays inferNullsAs (.boolAnd first rest) result) :
    Reading column arrays inferNullsAs (.boolAnd first rest) result := by
  obtain ⟨results, derived, rfl⟩ := boolAnd_eq_ok ran
  have derived := forall₂_reading readings derived
  have meets (meet) (isMeet : results.foldl andStep none = some meet) :=
    foldl_andStep_spec (by simp) (fun result mem interval isInterval => by
      obtain ⟨_, -, reading⟩ := exists_of_forall₂ derived.flip mem
      exact reading.sorted interval isInterval) isMeet
  refine ⟨?_, fun meet isMeet => (meets meet isMeet).1, fun meet isMeet value valid => ?_⟩
  · rw [Bool.eq_iff_iff, isSome_foldl_andStep, hasInterval_boolAnd]
    constructor
    · rintro (⟨⟨⟩⟩ | ⟨result, mem, isSome⟩)
      obtain ⟨child, isChild, reading⟩ := exists_of_forall₂ derived.flip mem
      exact ⟨child, isChild, reading.isSome ▸ isSome⟩
    · rintro ⟨child, mem, ruled⟩
      obtain ⟨result, isResult, reading⟩ := exists_of_forall₂ derived mem
      exact .inr ⟨result, isResult, reading.isSome ▸ ruled⟩
  · rw [(meets meet isMeet).2, reads_boolAnd]
    constructor
    · rintro ⟨-, admitted⟩ child mem
      obtain ⟨result, isResult, reading⟩ := exists_of_forall₂ derived mem
      exact (reading.admits_iff valid).mp (admitted result isResult)
    · intro read
      refine ⟨by simp, fun result mem => ?_⟩
      obtain ⟨child, isChild, reading⟩ := exists_of_forall₂ derived.flip mem
      exact (reading.admits_iff valid).mpr (read child isChild)

theorem reading_boolOr
    (ran : Derives column arrays inferNullsAs (.boolOr first rest) result) :
    Reading column arrays inferNullsAs (.boolOr first rest) result := by
  rcases boolOr_eq_ok ran with ⟨rfl, child, mem, derives⟩ | ⟨intervals, nonempty, rfl, derived⟩
  · have unruled := (readings child mem none derives).isSome
    refine .of_none (Bool.eq_false_iff.mpr fun ruled => ?_)
    rw [hasInterval_boolOr.mp ruled child mem] at unruled
    cases unruled
  have derived := (forall₂_map_right_iff ..).mp (forall₂_reading readings derived)
  obtain ⟨union, isUnion, sorted, admits⟩ := unionInPairs_spec (fun interval mem => by
    obtain ⟨_, -, reading⟩ := exists_of_forall₂ derived.flip mem
    exact reading.sorted interval rfl) nonempty
  rw [isUnion]
  refine .of_some (hasInterval_boolOr.mpr fun child mem => ?_) sorted fun value valid => ?_
  · obtain ⟨_, -, reading⟩ := exists_of_forall₂ derived mem
    exact reading.isSome.symm
  · rw [admits, reads_boolOr]
    constructor
    · rintro ⟨interval, mem, admitted⟩
      obtain ⟨child, isChild, reading⟩ := exists_of_forall₂ derived.flip mem
      exact ⟨child, isChild, (reading.admits interval rfl value valid).mp admitted⟩
    · rintro ⟨child, mem, read⟩
      obtain ⟨interval, isInterval, reading⟩ := exists_of_forall₂ derived mem
      exact ⟨interval, isInterval, (reading.admits interval rfl value valid).mpr read⟩

end

theorem reading_booleanTest {ebt} (readings : ∀ inferChild result,
      Derives column arrays inferChild child result →
        Reading column arrays inferChild child result)
    (ran : Derives column arrays inferNullsAs (.booleanTest ebt child) result) :
    Reading column arrays inferNullsAs (.booleanTest ebt child) result := by
  cases ebt with
  | ebtIsTrue =>
    exact (readings false result ran).same rfl fun _ => rfl
  | ebtIsNotFalse =>
    exact (readings true result ran).same rfl fun _ => rfl
  | ebtIsNotTrue =>
    obtain ⟨own, derives, ran⟩ := bind_eq_ok ran
    cases ran
    exact (readings false own derives).complement rfl fun _ => rfl
  | ebtIsFalse =>
    obtain ⟨own, derives, ran⟩ := bind_eq_ok ran
    cases ran
    exact (readings true own derives).complement rfl fun _ => rfl
  | ebtIsUnknown =>
    cases ran
    refine (reading_nullTest inferNullsAs).same rfl fun value => ?_
    simp [reads, eval, evalBooleanTest]
  | ebtIsNotUnknown =>
    cases ran
    refine (reading_nullTest inferNullsAs).complement rfl fun value => ?_
    simp [reads, eval, evalBooleanTest, qualifies_ofBool]

theorem reading {expr}
    (ran : Derives column arrays inferNullsAs expr result) :
    Reading column arrays inferNullsAs expr result := by
  induction expr using children_induction generalizing inferNullsAs result with
  | unknown truth =>
    cases ran
    exact .of_none rfl
  | ident =>
    cases column with
    | bool lower upper less =>
      cases ran
      refine .of_some rfl (sorted_pciRangeFromColConstCmp .ecmptEq _ _) ?_
      intro value _
      cases value with
      | none => simp [reads, eval, Column.truth, qualifies, admits_null]
      | some known =>
        refine (admits_cmp .ecmptEq upper inferNullsAs known).trans ?_
        simp [reads, eval, Column.truth, qualifies_ofBool, ECmpType.holds]
    | other =>
      cases ran
      exact .of_none rfl
  | const b =>
    rcases b with _ | _ | _ <;> cases ran
    · refine .of_some rfl sorted_empty fun value _ => ?_
      cases value <;> simp [reads, not_admits_empty, admits_null]
    · refine .of_some rfl sorted_empty fun value _ => ?_
      cases value <;> simp [reads, eval, qualifies_ofBool, not_admits_empty, admits_null]
    · refine .of_some rfl (pciUnbounded_sorted ..) fun value valid => ?_
      exact iff_of_true (admits_pciUnbounded valid) (by simp [reads, eval, qualifies_ofBool])
  | cmp cmpType datum =>
    cases ran
    refine .of_some rfl (sorted_pciRangeFromColConstCmp ..) fun value _ => ?_
    cases value with
    | none => simp [reads, admits_null]
    | some known => simp [reads, admits_cmp]
  | isDistinctFrom datum =>
    cases ran
    refine .of_some rfl ?_ fun value valid => ?_
    · cases datum with
      | none => exact pciComplement_sorted _ sorted_empty
      | some datum => exact sorted_pciRangeFromColConstCmp ..
    · have read : (isDistinctFrom datum).reads column arrays value inferNullsAs = true ↔
          value ≠ datum := by
        simp [reads, eval, qualifies_ofBool]
      rw [read]
      cases datum with
      | none =>
        rw [pciIntervalFromScalarIDF, admits_pciComplement sorted_empty valid, admits_nullTest]
      | some datum =>
        cases value with
        | none => simp [pciIntervalFromScalarIDF, admits_null]
        | some known =>
          refine (admits_cmp .ecmptNEq datum true known).trans ?_
          simp [ECmpType.holds]
  | arrayCmp earrcmpt cmpType elements => exact reading_arrayCmp ran
  | nullTest child _ =>
    cases ran
    exact reading_nullTest _
  | booleanTest ebt child ih => exact reading_booleanTest (fun _ _ => ih) ran
  | boolNot child ih =>
    obtain ⟨own, derives, ran⟩ := bind_eq_ok ran
    cases ran
    exact (ih derives).complement rfl fun _ => rfl
  | boolAnd first rest ih => exact reading_boolAnd (fun child mem _ => ih child mem) ran
  | boolOr first rest ih => exact reading_boolOr (fun child mem _ => ih child mem) ran

end

/-! ### Values lost and gained -/

section

variable (column : Column α) (arrays : Bool)

mutual

/-- A place where a value that qualifies is left out, and the way up from there. The value stays
lost under a test for true or not false, under AND if all conjuncts qualify, and under OR if no
disjunct is read to have it; a complement loses what its child gains. -/
inductive Loses : ScalarExpr α → Bool → Option α → Prop
  | nullConst {value} : Loses (.const none) true value
  | nullCmp {cmpType known} (unequal : cmpType.holds (known : WithBot α) ⊥ = false) :
      Loses (.cmp cmpType none) true (some known)
  | arrayCmp {earrcmpt cmpType elements inferNullsAs known}
      (qualifies : (ScalarExpr.arrayCmp earrcmpt cmpType elements).Qualifies column inferNullsAs
        (some known))
      (unread : readsArray cmpType elements known = false) :
      Loses (.arrayCmp earrcmpt cmpType elements) inferNullsAs (some known)
  | isTrue {child inferNullsAs value} (loses : Loses child false value) :
      Loses (.booleanTest .ebtIsTrue child) inferNullsAs value
  | isNotFalse {child inferNullsAs value} (loses : Loses child true value) :
      Loses (.booleanTest .ebtIsNotFalse child) inferNullsAs value
  | isNotTrue {child inferNullsAs value} (gains : Gains child false value) :
      Loses (.booleanTest .ebtIsNotTrue child) inferNullsAs value
  | isFalse {child inferNullsAs value} (gains : Gains child true value) :
      Loses (.booleanTest .ebtIsFalse child) inferNullsAs value
  | boolNot {child inferNullsAs value} (gains : Gains child (!inferNullsAs) value) :
      Loses (.boolNot child) inferNullsAs value
  | boolAnd {first rest child inferNullsAs value} (member : child ∈ first :: rest)
      (loses : Loses child inferNullsAs value)
      (ruled : child.hasInterval column arrays = true)
      (qualify : ∀ other ∈ first :: rest, other.Qualifies column inferNullsAs value) :
      Loses (.boolAnd first rest) inferNullsAs value
  | boolOr {first rest child inferNullsAs value} (member : child ∈ first :: rest)
      (loses : Loses child inferNullsAs value)
      (unread : ∀ other ∈ first :: rest,
        other.reads column arrays value inferNullsAs = false) :
      Loses (.boolOr first rest) inferNullsAs value

/-- A place where a value that does not qualify is taken in, among them a conjunct without a
rule, and the way up from there. The value stays gained under AND if all conjuncts with a rule are
read to have it, and under OR if no disjunct qualifies. -/
inductive Gains : ScalarExpr α → Bool → Option α → Prop
  | nullCmp {cmpType known} (equal : cmpType.holds (known : WithBot α) ⊥ = true) :
      Gains (.cmp cmpType none) false (some known)
  | arrayCmp {earrcmpt cmpType elements inferNullsAs known}
      (fails : ¬ (ScalarExpr.arrayCmp earrcmpt cmpType elements).Qualifies column inferNullsAs
        (some known))
      (read : readsArray cmpType elements known = true) :
      Gains (.arrayCmp earrcmpt cmpType elements) inferNullsAs (some known)
  | isTrue {child inferNullsAs value} (gains : Gains child false value) :
      Gains (.booleanTest .ebtIsTrue child) inferNullsAs value
  | isNotFalse {child inferNullsAs value} (gains : Gains child true value) :
      Gains (.booleanTest .ebtIsNotFalse child) inferNullsAs value
  | isNotTrue {child inferNullsAs value} (loses : Loses child false value) :
      Gains (.booleanTest .ebtIsNotTrue child) inferNullsAs value
  | isFalse {child inferNullsAs value} (loses : Loses child true value) :
      Gains (.booleanTest .ebtIsFalse child) inferNullsAs value
  | boolNot {child inferNullsAs value} (loses : Loses child (!inferNullsAs) value) :
      Gains (.boolNot child) inferNullsAs value
  | boolAnd {first rest child inferNullsAs value} (member : child ∈ first :: rest)
      (gains : Gains child inferNullsAs value)
      (read : ∀ other ∈ first :: rest, other.hasInterval column arrays = true →
        other.reads column arrays value inferNullsAs = true) :
      Gains (.boolAnd first rest) inferNullsAs value
  | dropped {first rest child inferNullsAs value} (member : child ∈ first :: rest)
      (dropped : child.hasInterval column arrays = false)
      (fails : ¬ child.Qualifies column inferNullsAs value)
      (read : ∀ other ∈ first :: rest, other.hasInterval column arrays = true →
        other.reads column arrays value inferNullsAs = true) :
      Gains (.boolAnd first rest) inferNullsAs value
  | boolOr {first rest child inferNullsAs value} (member : child ∈ first :: rest)
      (gains : Gains child inferNullsAs value)
      (fail : ∀ other ∈ first :: rest, ¬ other.Qualifies column inferNullsAs value) :
      Gains (.boolOr first rest) inferNullsAs value

end

/-- The two ways in which the reading and the meaning of an expression can differ at a value are
those that are followed from child to parent. -/
structure Traced (expr : ScalarExpr α) (inferNullsAs : Bool) (value : Option α) : Prop where
  loses : expr.Qualifies column inferNullsAs value ∧
      expr.reads column arrays value inferNullsAs = false ↔
    Loses column arrays expr inferNullsAs value
  gains : ¬ expr.Qualifies column inferNullsAs value ∧
      expr.reads column arrays value inferNullsAs = true ↔
    Gains column arrays expr inferNullsAs value

end

section

variable {column : Column α} {arrays inferNullsAs inferChild : Bool} {value : Option α}
  {child expr first : ScalarExpr α} {rest : List (ScalarExpr α)}

theorem Traced.of_exact
    (same : expr.reads column arrays value inferNullsAs =
      (expr.eval column value).qualifies inferNullsAs)
    (noLoss : ¬ Loses column arrays expr inferNullsAs value)
    (noGain : ¬ Gains column arrays expr inferNullsAs value) :
    Traced column arrays expr inferNullsAs value where
  loses := by simp [Qualifies, same, noLoss]
  gains := by simp [Qualifies, same, noGain]

theorem Traced.same (traced : Traced column arrays child inferChild value)
    (qualifies : expr.Qualifies column inferNullsAs value ↔ child.Qualifies column inferChild value)
    (reads : expr.reads column arrays value inferNullsAs =
      child.reads column arrays value inferChild)
    (loses : Loses column arrays expr inferNullsAs value ↔
      Loses column arrays child inferChild value)
    (gains : Gains column arrays expr inferNullsAs value ↔
      Gains column arrays child inferChild value) :
    Traced column arrays expr inferNullsAs value where
  loses := by rw [qualifies, reads, loses, traced.loses]
  gains := by rw [qualifies, reads, gains, traced.gains]

theorem Traced.complement (traced : Traced column arrays child inferChild value)
    (qualifies : expr.Qualifies column inferNullsAs value ↔
      ¬ child.Qualifies column inferChild value)
    (reads : expr.reads column arrays value inferNullsAs =
      !child.reads column arrays value inferChild)
    (loses : Loses column arrays expr inferNullsAs value ↔
      Gains column arrays child inferChild value)
    (gains : Gains column arrays expr inferNullsAs value ↔
      Loses column arrays child inferChild value) :
    Traced column arrays expr inferNullsAs value where
  loses := by rw [qualifies, reads, Bool.not_eq_false', loses, traced.gains]
  gains := by rw [qualifies, reads, Bool.not_eq_true', not_not, gains, traced.loses]

theorem traced_cmp {cmpType datum} :
    Traced column arrays (.cmp cmpType datum) inferNullsAs value := by
  cases value with
  | none =>
    exact .of_exact (by simp [reads, eval, evalCmp, qualifies]) (by rintro ⟨⟩) (by rintro ⟨⟩)
  | some known =>
    cases datum with
    | some datum =>
      refine .of_exact ?_ (by rintro ⟨⟩) (by rintro ⟨⟩)
      rw [reads, eval, evalCmp, qualifies_ofBool, ← ECmpType.holds_coe]
      rfl
    | none =>
      have qualifies : (cmp cmpType none).Qualifies column inferNullsAs (some known) ↔
          inferNullsAs = true := Iff.rfl
      have read : (cmp cmpType none).reads column arrays (some known) inferNullsAs =
          cmpType.holds (known : WithBot α) ⊥ := by
        rw [reads]
        rfl
      refine ⟨?_, ?_⟩ <;> rw [qualifies, read]
      · constructor
        · rintro ⟨rfl, unequal⟩
          exact .nullCmp unequal
        · intro lost
          cases lost with
          | nullCmp unequal => exact ⟨rfl, unequal⟩
      · constructor
        · rintro ⟨fails, equal⟩
          rw [Bool.not_eq_true] at fails
          subst fails
          exact .nullCmp equal
        · intro gained
          cases gained with
          | nullCmp equal => exact ⟨Bool.false_ne_true, equal⟩

theorem traced_arrayCmp {earrcmpt cmpType elements} :
    Traced column arrays (.arrayCmp earrcmpt cmpType elements) inferNullsAs value := by
  cases value with
  | none => exact .of_exact (by rw [reads, eval]; rfl) nofun nofun
  | some known =>
    have read : (arrayCmp earrcmpt cmpType elements).reads column arrays (some known)
        inferNullsAs = readsArray cmpType elements known := by
      rw [reads]
      rfl
    refine ⟨?_, ?_⟩ <;> rw [read]
    · exact ⟨fun lost => .arrayCmp lost.1 lost.2,
        by intro lost; cases lost with | arrayCmp qualifies unread => exact ⟨qualifies, unread⟩⟩
    · exact ⟨fun gained => .arrayCmp gained.1 gained.2,
        by intro gained; cases gained with | arrayCmp fails read => exact ⟨fails, read⟩⟩

section

variable (traced : ∀ child ∈ first :: rest, Traced column arrays child inferNullsAs value)

include traced

theorem traced_boolAnd :
    Traced column arrays (.boolAnd first rest) inferNullsAs value := by
  refine ⟨?_, ?_⟩
  · rw [qualifies_boolAnd, ← Bool.not_eq_true, reads_boolAnd]
    constructor
    · rintro ⟨qualify, out⟩
      push Not at out
      obtain ⟨child, mem, ruled, unread⟩ := out
      have loses := (traced child mem).loses.mp ⟨qualify child mem, Bool.eq_false_iff.mpr unread⟩
      exact .boolAnd mem loses ruled qualify
    · intro lost
      cases lost with
      | boolAnd mem loses ruled qualify =>
        refine ⟨qualify, fun read => ?_⟩
        have unread := ((traced _ mem).loses.mpr loses).2
        rw [read _ mem ruled] at unread
        cases unread
  · rw [qualifies_boolAnd, reads_boolAnd]
    constructor
    · rintro ⟨fails, read⟩
      push Not at fails
      obtain ⟨child, mem, fails⟩ := fails
      cases ruled : child.hasInterval column arrays with
      | false => exact .dropped mem ruled fails read
      | true => exact .boolAnd mem ((traced child mem).gains.mp ⟨fails, read child mem ruled⟩) read
    · intro gained
      cases gained with
      | boolAnd mem gains read =>
        exact ⟨fun qualify => ((traced _ mem).gains.mpr gains).1 (qualify _ mem), read⟩
      | dropped mem dropped fails read => exact ⟨fun qualify => fails (qualify _ mem), read⟩

theorem traced_boolOr :
    Traced column arrays (.boolOr first rest) inferNullsAs value := by
  refine ⟨?_, ?_⟩
  · rw [qualifies_boolOr, ← Bool.not_eq_true, reads_boolOr]
    constructor
    · rintro ⟨⟨child, mem, qualifies⟩, out⟩
      have unread (other) (isOther : other ∈ first :: rest) :
          other.reads column arrays value inferNullsAs = false :=
        Bool.eq_false_iff.mpr fun read => out ⟨other, isOther, read⟩
      exact .boolOr mem ((traced child mem).loses.mp ⟨qualifies, unread child mem⟩) unread
    · intro lost
      cases lost with
      | boolOr mem loses unread =>
        refine ⟨⟨_, mem, ((traced _ mem).loses.mpr loses).1⟩, ?_⟩
        rintro ⟨other, isOther, read⟩
        exact Bool.eq_false_iff.mp (unread other isOther) read
  · rw [qualifies_boolOr, reads_boolOr]
    constructor
    · rintro ⟨fail, child, mem, read⟩
      push Not at fail
      exact .boolOr mem ((traced child mem).gains.mp ⟨fail child mem, read⟩) fail
    · intro gained
      cases gained with
      | boolOr mem gains fail =>
        refine ⟨?_, _, mem, ((traced _ mem).gains.mpr gains).2⟩
        rintro ⟨other, isOther, qualifies⟩
        exact fail other isOther qualifies

end

theorem traced_booleanTest {ebt}
    (traced : ∀ inferChild, Traced column arrays child inferChild value) :
    Traced column arrays (.booleanTest ebt child) inferNullsAs value := by
  have tests : (booleanTest ebt child).Qualifies column inferNullsAs value ↔
      evalBooleanTest ebt (child.eval column value) = true := by
    rw [Qualifies, eval, qualifies_ofBool]
  cases ebt
  case' ebtIsTrue =>
    refine (traced false).same (tests.trans ?_) rfl
      ⟨by rintro ⟨⟩; assumption, .isTrue⟩
      ⟨by rintro ⟨⟩; assumption, .isTrue⟩
  case' ebtIsNotFalse =>
    refine (traced true).same (tests.trans ?_) rfl
      ⟨by rintro ⟨⟩; assumption, .isNotFalse⟩
      ⟨by rintro ⟨⟩; assumption, .isNotFalse⟩
  case' ebtIsNotTrue =>
    refine (traced false).complement (tests.trans ?_) rfl
      ⟨by rintro ⟨⟩; assumption, .isNotTrue⟩
      ⟨by rintro ⟨⟩; assumption, .isNotTrue⟩
  case' ebtIsFalse =>
    refine (traced true).complement (tests.trans ?_) rfl
      ⟨by rintro ⟨⟩; assumption, .isFalse⟩
      ⟨by rintro ⟨⟩; assumption, .isFalse⟩
  case ebtIsUnknown | ebtIsNotUnknown => exact .of_exact rfl nofun nofun
  -- the other tests say in which truth values the child qualifies
  all_goals
    unfold Qualifies
    cases child.eval column value <;> simp [evalBooleanTest, qualifies]

theorem traced (expr : ScalarExpr α) :
    Traced column arrays expr inferNullsAs value := by
  induction expr using children_induction generalizing inferNullsAs with
  | unknown | ident | isDistinctFrom | nullTest =>
    exact .of_exact rfl nofun nofun
  | const b =>
    cases b with
    | none =>
      refine ⟨⟨?_, ?_⟩, ⟨?_, nofun⟩⟩
      · rintro ⟨isNull, -⟩
        cases inferNullsAs with
        | false => cases isNull
        | true => exact .nullConst
      · rintro ⟨⟩
        exact ⟨rfl, by rw [reads]⟩
      · rintro ⟨-, read⟩
        rw [reads] at read
        cases read
    | some b => exact .of_exact rfl nofun nofun
  | cmp cmpType datum => exact traced_cmp
  | arrayCmp earrcmpt cmpType elements => exact traced_arrayCmp
  | booleanTest ebt child ih => exact traced_booleanTest fun _ => ih
  | boolNot child ih =>
    refine ih.complement ?_ rfl ⟨by rintro ⟨⟩; assumption, .boolNot⟩
      ⟨by rintro ⟨⟩; assumption, .boolNot⟩
    rw [Qualifies, eval, qualifies_not]
    rfl
  | boolAnd first rest ih => exact traced_boolAnd fun child mem => ih child mem
  | boolOr first rest ih => exact traced_boolOr fun child mem => ih child mem

end

def DerivesSoundly (column : Column α) (arrays : Bool) (expr : ScalarExpr α)
    (inferNullsAs : Bool) : Prop :=
  ∀ interval, pciIntervalFromScalarExpr column arrays expr inferNullsAs =
      .ok (some interval) →
    ∀ value, column.Valid value → expr.Qualifies column inferNullsAs value → interval.Admits value

end Greengage.Orca
