import Mathlib.Data.List.Basic
import Mathlib.Logic.Relation

/-!
Contract: when a hashed distribution of ORCA satisfies another.

Does not own: the comparison of expressions. Which expressions are taken for one distribution,
and what an expression is without its casts, are parameters that keep the values.

`Matches` goes through the equivalent specifications of both sides. On the way through those of
the specification that is asked for it calls itself with the two sides exchanged, and the check
of the NULLs, which has a direction, is then made the wrong way round.
-/

namespace Greengage.Orca

open List Bool

/-! ### The model -/

/-- What the comparison of specifications uses of expressions and operator families. -/
structure DistributionChecks (ε φ : Type) where
  equalDistributions : ε → ε → Bool
  withoutBinaryCoercibleCasts : ε → ε
  /-- `EopttraceConsiderOpfamiliesForDistribution`. -/
  considerOpfamilies : Bool
  /-- The operator families of both sides are the default one of the expression. -/
  defaultOpfamilies : ε → Option φ → Option φ → Bool

/-- One specification, without those it is equivalent to. -/
structure HashedSpec (ε φ : Type) where
  pdrgpexpr : List ε
  opfamilies : Option (List φ)
  fNullsColocated : Bool
  isDuplicateSensitive : Bool
  /-- The expressions equivalent to the one at each position, if they have been computed. -/
  equivHashExprs : List (List ε)
  deriving DecidableEq

/-- `CDistributionSpecHashed`: a specification and the chain of `m_pdshashedEquiv`. -/
structure DistributionSpecHashed (ε φ : Type) where
  spec : HashedSpec ε φ
  pdshashedEquiv : List (HashedSpec ε φ)

def DistributionSpecHashed.chain {ε φ : Type} (this : DistributionSpecHashed ε φ) :
    List (HashedSpec ε φ) :=
  this.spec :: this.pdshashedEquiv

/-- How the specifications of the chain treat NULLs. -/
def DistributionSpecHashed.nullsColocated {ε φ : Type} (this : DistributionSpecHashed ε φ) :
    List Bool :=
  this.chain.map (·.fNullsColocated)

variable {ε φ : Type}

namespace HashedSpec

def fNullsColocatedCompatible (this pds : HashedSpec ε φ) : Bool :=
  this.fNullsColocated || !pds.fNullsColocated

def fDuplicateSensitiveCompatible (this pds : HashedSpec ε φ) : Bool :=
  this.isDuplicateSensitive || !pds.isDuplicateSensitive

def equivalentsAt (this : HashedSpec ε φ) (index : Nat) : List ε :=
  this.equivHashExprs[index]?.getD []

def opfamilyAt (this : HashedSpec ε φ) (index : Nat) : Option φ :=
  this.opfamilies.bind (·[index]?)

end HashedSpec

section

variable [DecidableEq φ] (checks : DistributionChecks ε φ)

def containsDistribution (exprs : List ε) (expr : ε) : Bool :=
  exprs.any fun candidate => checks.equalDistributions candidate expr

/-- Exact match against a given specification. -/
def fMatchHashedDistribution (this pdshashed : HashedSpec ε φ) : Bool :=
  if this.pdrgpexpr.length ≠ pdshashed.pdrgpexpr.length ∨
      !this.fNullsColocatedCompatible pdshashed ∨
      this.isDuplicateSensitive ≠ pdshashed.isDuplicateSensitive then false
  else if this.opfamilies ≠ pdshashed.opfamilies then false
  else
    (pdshashed.pdrgpexpr.zip this.pdrgpexpr).zipIdx.all fun ((left, right), index) =>
      checks.equalDistributions left right ||
        containsDistribution checks (pdshashed.equivalentsAt index) right

/-- The own expression has a counterpart at the given position of the other specification. -/
def matchesAt (this pdsHashed : HashedSpec ε φ) (own : ε) (outer : Nat) (other : ε)
    (inner : Nat) : Bool :=
  let own := checks.withoutBinaryCoercibleCasts own
  let other := checks.withoutBinaryCoercibleCasts other
  let opfamilyOwn := if checks.considerOpfamilies then this.opfamilyAt outer else none
  let opfamilyOther := if checks.considerOpfamilies then pdsHashed.opfamilyAt inner else none
  if checks.equalDistributions own other && opfamilyOwn = opfamilyOther then true
  else if checks.considerOpfamilies &&
      !checks.defaultOpfamilies own opfamilyOwn opfamilyOther then false
  else containsDistribution checks (pdsHashed.equivalentsAt inner) own

/-- The expressions match a subset of those of the given specification. -/
def fMatchSubset (this pdsHashed : HashedSpec ε φ) : Bool :=
  if pdsHashed.pdrgpexpr.length < this.pdrgpexpr.length ∨
      !this.fNullsColocatedCompatible pdsHashed ∨
      !this.fDuplicateSensitiveCompatible pdsHashed then false
  else
    this.pdrgpexpr.zipIdx.all fun (own, outer) =>
      pdsHashed.pdrgpexpr.zipIdx.any fun (other, inner) =>
        matchesAt checks this pdsHashed own outer other inner

/-- `Matches`, for two specifications with their chains. -/
def matchesChain : List (HashedSpec ε φ) → List (HashedSpec ε φ) → Bool
  | this :: thisEquiv, pdshashed :: equiv =>
    matchesChain thisEquiv (pdshashed :: equiv) ||
      -- The source calls Matches of the other's equivalent with this specification.
      matchesChain equiv (this :: thisEquiv) ||
      fMatchHashedDistribution checks this pdshashed
  | _, _ => false
termination_by this pdshashed => this.length + pdshashed.length

/-- `FSatisfies`, for a chain and a hashed specification. -/
def satisfiesChain (pds : DistributionSpecHashed ε φ) : List (HashedSpec ε φ) → Bool
  | [] => false
  | this :: thisEquiv =>
    satisfiesChain pds thisEquiv || matchesChain checks (this :: thisEquiv) pds.chain ||
      fMatchSubset checks this pds.spec

def DistributionSpecHashed.fSatisfies (this pds : DistributionSpecHashed ε φ) : Bool :=
  satisfiesChain checks pds this.chain

end

/-- Some rows and the values of the expressions on them, NULL being `none`. -/
structure Rows (ε : Type) where
  Row : Type
  Value : Type
  eval : ε → Row → Option Value

variable {rows : Rows ε}

def HashedSpec.Agree (spec : HashedSpec ε φ) (rows : Rows ε) (first second : rows.Row) : Prop :=
  ∀ expr ∈ spec.pdrgpexpr, rows.eval expr first = rows.eval expr second ∧
    (spec.fNullsColocated = true ∨ rows.eval expr first ≠ none)

def HashedSpec.Meets (spec : HashedSpec ε φ) (rows : Rows ε) (segment : rows.Row → Nat) : Prop :=
  ∀ first second, spec.Agree rows first second → segment first = segment second

/-- Expressions that are compared, or one of which is listed as equivalent to the other. -/
def Related (checks : DistributionChecks ε φ) (specs : List (HashedSpec ε φ)) (first second : ε) :
    Prop :=
  checks.equalDistributions first second = true ∨
    second = checks.withoutBinaryCoercibleCasts first ∨
    ∃ spec ∈ specs, ∃ index, spec.pdrgpexpr[index]? = some first ∧ second ∈ spec.equivalentsAt index

def Linked (checks : DistributionChecks ε φ) (specs : List (HashedSpec ε φ)) : ε → ε → Prop :=
  Relation.EqvGen (Related checks specs)

/-- The comparisons, the equivalence lists and the equivalent specifications are right for the
rows: related expressions have equal values, and a placement meets a specification if it meets
one of its equivalents. -/
structure ValidFor (checks : DistributionChecks ε φ) (this pds : DistributionSpecHashed ε φ)
    (rows : Rows ε) : Prop where
  values : ∀ first second, Related checks (this.chain ++ pds.chain) first second →
    rows.eval first = rows.eval second
  own : ∀ spec ∈ this.chain, ∀ equiv ∈ this.chain, ∀ segment,
    spec.Meets rows segment → equiv.Meets rows segment
  other : ∀ spec ∈ pds.chain, ∀ equiv ∈ pds.chain, ∀ segment,
    spec.Meets rows segment → equiv.Meets rows segment

/-- Every placement that meets a specification and its equivalents meets the other one. -/
def SatisfiesSoundly (checks : DistributionChecks ε φ) (this pds : DistributionSpecHashed ε φ) :
    Prop :=
  ∀ rows : Rows ε, ValidFor checks this pds rows → ∀ segment : rows.Row → Nat,
    (∀ spec ∈ this.chain, spec.Meets rows segment) → pds.spec.Meets rows segment

variable {spec : HashedSpec ε φ}

/-! ### Agreement -/

namespace HashedSpec

variable {equiv : HashedSpec ε φ} {first second third : rows.Row}

theorem Agree.symm (agree : spec.Agree rows first second) : spec.Agree rows second first := by
  intro expr mem
  obtain ⟨same, nulls⟩ := agree expr mem
  exact ⟨same.symm, same ▸ nulls⟩

theorem Agree.trans (one : spec.Agree rows first second) (two : spec.Agree rows second third) :
    spec.Agree rows first third := by
  intro expr mem
  obtain ⟨same, nulls⟩ := one expr mem
  exact ⟨same.trans (two expr mem).1, nulls⟩

theorem Agree.of_equivalent
    (equivalent : ∀ segment, equiv.Meets rows segment → spec.Meets rows segment)
    (agree : spec.Agree rows first second) (ne : first ≠ second) :
    equiv.Agree rows first second := by
  classical
  by_contra disagree
  -- The rows that agree with the first one are put apart from all others.
  let segment : rows.Row → Nat := fun row =>
    if row = first ∨ equiv.Agree rows first row then 0 else 1
  have meets : equiv.Meets rows segment := by
    intro one two agrees
    have class_iff : (one = first ∨ equiv.Agree rows first one) ↔
        (two = first ∨ equiv.Agree rows first two) := by
      constructor
      · rintro (rfl | before)
        · exact .inr agrees
        · exact .inr (before.trans agrees)
      · rintro (rfl | before)
        · exact .inr agrees.symm
        · exact .inr (before.trans agrees.symm)
    simp only [segment, class_iff]
  have apart := equivalent segment meets first second agree
  simp [segment, disagree, ne.symm] at apart

end HashedSpec

section

variable {checks : DistributionChecks ε φ} {this pds : DistributionSpecHashed ε φ}

theorem ValidFor.eval_eq (valid : ValidFor checks this pds rows) {first second}
    (link : Linked checks (this.chain ++ pds.chain) first second) :
    rows.eval first = rows.eval second := by
  induction link with
  | rel first second related => exact valid.values first second related
  | refl => rfl
  | symm first second _ ih => exact ih.symm
  | trans first second third _ _ one two => exact one.trans two

variable {specs : List (HashedSpec ε φ)}

/-! ### What a positive answer says -/

section

variable [DecidableEq φ] {own other : HashedSpec ε φ}

def Covered (checks : DistributionChecks ε φ) (specs : List (HashedSpec ε φ))
    (own other : HashedSpec ε φ) : Prop :=
  ∀ expr ∈ own.pdrgpexpr, ∃ counterpart ∈ other.pdrgpexpr, Linked checks specs expr counterpart

omit [DecidableEq φ] in
theorem linked_of_containsDistribution (isSpec : other ∈ specs) {index left right}
    (isLeft : other.pdrgpexpr[index]? = some left)
    (contains : containsDistribution checks (other.equivalentsAt index) right) :
    Linked checks specs left right := by
  obtain ⟨candidate, mem, equal⟩ := any_eq_true.mp contains
  have toCandidate : Linked checks specs left candidate :=
    .rel _ _ (.inr (.inr ⟨other, isSpec, index, isLeft, mem⟩))
  exact toCandidate.trans _ _ _ (.rel _ _ (.inl equal))

theorem linked_of_fMatchHashedDistribution (isSpec : other ∈ specs)
    (matched : fMatchHashedDistribution checks own other) :
    own.pdrgpexpr.length = other.pdrgpexpr.length ∧ own.fNullsColocatedCompatible other = true ∧
      ∀ (index : Nat) (left right : ε), other.pdrgpexpr[index]? = some left →
        own.pdrgpexpr[index]? = some right → Linked checks specs left right := by
  unfold fMatchHashedDistribution at matched
  split_ifs at matched with sizes families
  push Not at sizes
  refine ⟨sizes.1, by simpa using sizes.2.1, ?_⟩
  intro index left right isLeft isRight
  have pair : ((left, right), index) ∈ (other.pdrgpexpr.zip own.pdrgpexpr).zipIdx := by
    rw [mem_zipIdx_iff_getElem?]
    exact getElem?_zip_eq_some.mpr ⟨isLeft, isRight⟩
  have found := all_eq_true.mp matched _ pair
  rcases or_eq_true_iff.mp found with equal | contains
  · exact .rel _ _ (.inl equal)
  · exact linked_of_containsDistribution isSpec isLeft contains

theorem covered_of_fMatchHashedDistribution (isSpec : other ∈ specs)
    (matched : fMatchHashedDistribution checks own other) :
    Covered checks specs own other ∧ Covered checks specs other own := by
  obtain ⟨len, -, link⟩ := linked_of_fMatchHashedDistribution isSpec matched
  constructor
  · intro expr mem
    obtain ⟨index, lt, rfl⟩ := mem_iff_getElem.mp mem
    have isLeft := other.pdrgpexpr.getElem?_eq_getElem (len ▸ lt)
    exact ⟨_, mem_of_getElem? isLeft, (link index _ _ isLeft (getElem?_eq_getElem lt)).symm⟩
  · intro expr mem
    obtain ⟨index, lt, rfl⟩ := mem_iff_getElem.mp mem
    have isRight := own.pdrgpexpr.getElem?_eq_getElem (len ▸ lt)
    exact ⟨_, mem_of_getElem? isRight, link index _ _ (getElem?_eq_getElem lt) isRight⟩

theorem covered_of_fMatchSubset (isSpec : other ∈ specs) (matched : fMatchSubset checks own other) :
    Covered checks specs own other ∧ own.fNullsColocatedCompatible other = true := by
  unfold fMatchSubset at matched
  split_ifs at matched with sizes
  push Not at sizes
  refine ⟨?_, by simpa using sizes.2.1⟩
  intro expr mem
  obtain ⟨outer, lt, rfl⟩ := mem_iff_getElem.mp mem
  have isOuter : (own.pdrgpexpr[outer], outer) ∈ own.pdrgpexpr.zipIdx := by
    rw [mem_zipIdx_iff_getElem?]
    exact getElem?_eq_getElem lt
  obtain ⟨⟨counterpart, inner⟩, isInner, found⟩ :=
    any_eq_true.mp (all_eq_true.mp matched _ isOuter)
  rw [mem_zipIdx_iff_getElem?] at isInner
  refine ⟨counterpart, mem_of_getElem? isInner, ?_⟩
  have stripped : ∀ expr, Linked checks specs expr (checks.withoutBinaryCoercibleCasts expr) :=
    fun expr => .rel _ _ (.inr (.inl rfl))
  unfold matchesAt at found
  dsimp only at found
  generalize (if checks.considerOpfamilies = true then own.opfamilyAt outer else none) =
    familyOwn at found
  generalize (if checks.considerOpfamilies = true then other.opfamilyAt inner else none) =
    familyOther at found
  split_ifs at found with equal rejected
  · have same := (and_eq_true_iff.mp equal).1
    exact (stripped _).trans _ _ _ ((Relation.EqvGen.rel _ _ (.inl same)).trans _ _ _
      (stripped counterpart).symm)
  · have link := linked_of_containsDistribution isSpec isInner found
    exact (stripped _).trans _ _ _ link.symm

variable {chain : List (HashedSpec ε φ)}

theorem exists_of_matchesChain {equivalents} (matched : matchesChain checks chain equivalents) :
    ∃ own ∈ chain, ∃ other ∈ equivalents, fMatchHashedDistribution checks own other = true ∨
        fMatchHashedDistribution checks other own = true := by
  fun_induction matchesChain checks chain equivalents with
  | case1 own rest other equiv ofRest ofEquiv =>
    rw [or_eq_true, or_eq_true] at matched
    rcases matched with (matched | matched) | matched
    · obtain ⟨found, isFound, other, isOther, pair⟩ := ofRest matched
      exact ⟨found, mem_cons_of_mem _ isFound, other, isOther, pair⟩
    · -- The sides have been exchanged.
      obtain ⟨found, isFound, own, isOwn, pair⟩ := ofEquiv matched
      exact ⟨own, isOwn, found, mem_cons_of_mem _ isFound, pair.symm⟩
    · exact ⟨own, mem_cons_self, other, mem_cons_self, .inl matched⟩
  | case2 => cases matched

/-- The sides are exchanged only on the way through the equivalents of the other side. -/
theorem exists_of_matchesChain_cons {equiv} (matched : matchesChain checks chain (other :: equiv)) :
    ∃ own ∈ chain, (∃ counterpart ∈ other :: equiv,
        fMatchHashedDistribution checks own counterpart = true) ∨
      ∃ counterpart ∈ equiv, fMatchHashedDistribution checks counterpart own = true := by
  induction chain with
  | nil => simp [matchesChain] at matched
  | cons own rest ih =>
    rw [matchesChain, or_eq_true, or_eq_true] at matched
    rcases matched with (matched | matched) | matched
    · obtain ⟨found, isFound, pair⟩ := ih matched
      exact ⟨found, mem_cons_of_mem _ isFound, pair⟩
    · obtain ⟨counterpart, isCounterpart, found, isFound, pair⟩ := exists_of_matchesChain matched
      refine ⟨found, isFound, pair.symm.imp (fun pair => ?_) fun pair => ?_⟩
      · exact ⟨counterpart, mem_cons_of_mem _ isCounterpart, pair⟩
      · exact ⟨counterpart, isCounterpart, pair⟩
    · exact ⟨own, mem_cons_self, .inl ⟨other, mem_cons_self, matched⟩⟩

theorem exists_of_satisfiesChain (satisfied : satisfiesChain checks pds chain) :
    (∃ own ∈ chain, fMatchSubset checks own pds.spec = true) ∨
      ∃ rest, rest ⊆ chain ∧ matchesChain checks rest pds.chain = true := by
  induction chain with
  | nil => simp [satisfiesChain] at satisfied
  | cons own rest ih =>
    rw [satisfiesChain, or_eq_true, or_eq_true] at satisfied
    rcases satisfied with (satisfied | matched) | subset
    · rcases ih satisfied with ⟨found, isFound, subset⟩ | ⟨part, isPart, matched⟩
      · exact .inl ⟨found, mem_cons_of_mem _ isFound, subset⟩
      · exact .inr ⟨part, Subset.trans isPart (subset_cons_self ..), matched⟩
    · exact .inr ⟨own :: rest, Subset.refl _, matched⟩
    · exact .inl ⟨own, mem_cons_self, subset⟩

omit [DecidableEq φ] in
theorem satisfiesSoundly_of_covered (isOwn : own ∈ this.chain) (isOther : other ∈ pds.chain)
    (covered : Covered checks (this.chain ++ pds.chain) own other)
    (compatible : own.fNullsColocatedCompatible other) : SatisfiesSoundly checks this pds := by
  intro rows valid _ meets first second agree
  by_cases same : first = second
  · rw [same]
  · have otherAgree := HashedSpec.Agree.of_equivalent
      (valid.other other isOther pds.spec mem_cons_self) agree same
    refine meets own isOwn first second fun expr mem => ?_
    obtain ⟨counterpart, isCounterpart, link⟩ := covered expr mem
    obtain ⟨equal, nulls⟩ := otherAgree counterpart isCounterpart
    rw [valid.eval_eq link]
    refine ⟨equal, (or_eq_true_iff.mp compatible).imp_right fun apart => nulls.resolve_left ?_⟩
    simpa using apart

/-- No equivalent of the specification asked for colocates NULLs, or all specifications of the
chain do. -/
def NullsUniform (own asked : List Bool) : Prop :=
  (∀ flag ∈ asked.tail, flag = false) ∨ ∀ flag ∈ own, flag = true

theorem satisfiesSoundly_of_fSatisfies
    (uniform : NullsUniform this.nullsColocated pds.nullsColocated)
    (satisfied : this.fSatisfies checks pds) : SatisfiesSoundly checks this pds := by
  have head : pds.spec ∈ pds.chain := mem_cons_self
  have isSpec (spec) (mem : spec ∈ pds.chain) : spec ∈ this.chain ++ pds.chain :=
    mem_append_right _ mem
  rcases exists_of_satisfiesChain satisfied with ⟨own, isOwn, subset⟩ | ⟨_, isRest, matched⟩
  · obtain ⟨covered, compatible⟩ := covered_of_fMatchSubset (isSpec _ head) subset
    exact satisfiesSoundly_of_covered isOwn head covered compatible
  · obtain ⟨own, isOwn, pair⟩ := exists_of_matchesChain_cons matched
    rcases pair with ⟨other, isOther, pair⟩ | ⟨other, isOther, pair⟩
    · have covered := (covered_of_fMatchHashedDistribution (isSpec _ isOther) pair).1
      have compatible := (linked_of_fMatchHashedDistribution (isSpec _ isOther) pair).2.1
      exact satisfiesSoundly_of_covered (isRest isOwn) isOther covered compatible
    · have mem : other ∈ pds.chain := mem_cons_of_mem _ isOther
      have isSpec : own ∈ this.chain ++ pds.chain := mem_append_left _ (isRest isOwn)
      have covered := (covered_of_fMatchHashedDistribution isSpec pair).2
      have compatible : own.fNullsColocatedCompatible other := by
        rcases uniform with apart | colocated
        · have flag := apart _ (mem_map_of_mem isOther)
          simp [HashedSpec.fNullsColocatedCompatible, flag]
        · have flag := colocated _ (mem_map_of_mem (isRest isOwn))
          simp [HashedSpec.fNullsColocatedCompatible, flag]
      exact satisfiesSoundly_of_covered (isRest isOwn) mem covered compatible

/-! ### Where the sides are exchanged -/

theorem matchesChain_of_mem {equiv} (mem : own ∈ chain)
    (matched : fMatchHashedDistribution checks own other) :
    matchesChain checks chain (other :: equiv) := by
  induction chain with
  | nil => cases mem
  | cons head rest ih =>
    rw [matchesChain, or_eq_true, or_eq_true]
    rcases mem_cons.mp mem with rfl | mem
    · exact .inr matched
    · exact .inl (.inl (ih mem))

theorem satisfiesChain_of_exchanged (mem : own ∈ chain) (isOther : other ∈ pds.pdshashedEquiv)
    (matched : fMatchHashedDistribution checks other own) : satisfiesChain checks pds chain := by
  induction chain with
  | nil => cases mem
  | cons head rest ih =>
    rw [satisfiesChain, or_eq_true, or_eq_true]
    rcases mem_cons.mp mem with rfl | mem
    · left
      right
      rw [DistributionSpecHashed.chain, matchesChain, or_eq_true, or_eq_true]
      exact .inl (.inr (matchesChain_of_mem isOther matched))
    · exact .inl (.inl (ih mem))

end

end

/-- Expressions are columns, compared as they are. -/
def columnChecks : DistributionChecks Nat Unit where
  equalDistributions left right := left = right
  withoutBinaryCoercibleCasts expr := expr
  considerOpfamilies := false
  defaultOpfamilies _ _ _ := true

def byColumn (column : Nat) (fNullsColocated : Bool) : HashedSpec Nat Unit :=
  ⟨[column], none, fNullsColocated, false, []⟩

/-- Two rows: the first column is NULL, the second one is the same, the third one differs. -/
def threeColumns : Rows Nat where
  Row := Bool
  Value := Bool
  eval column row := if column = 0 then none else if column = 1 then some true else some row

/-- A specification that does not tell the two rows to be on one segment, and one that does. -/
def Loose (spec : HashedSpec Nat Unit) : Prop :=
  spec = byColumn 0 false ∨ ∃ flag, spec = byColumn 2 flag

def Strict (spec : HashedSpec Nat Unit) : Prop :=
  spec = byColumn 0 true ∨ ∃ flag, spec = byColumn 1 flag

theorem Loose.meets {spec} (loose : Loose spec) (segment) : spec.Meets threeColumns segment := by
  intro first second agree
  rcases loose with rfl | ⟨flag, rfl⟩
  · have nulls := (agree 0 mem_cons_self).2
    simp [byColumn, threeColumns] at nulls
  · have same := (agree 2 mem_cons_self).1
    rw [Option.some.inj same]

theorem Strict.agree {spec} (strict : Strict spec) (first second) :
    spec.Agree threeColumns first second := by
  rcases strict with rfl | ⟨flag, rfl⟩ <;> simp [HashedSpec.Agree, byColumn, threeColumns]

section

variable {this pds : DistributionSpecHashed Nat Unit} (loose : ∀ spec ∈ this.chain, Loose spec)
  (strict : ∀ spec ∈ pds.chain, Strict spec)
include loose strict

theorem validFor_threeColumns : ValidFor columnChecks this pds threeColumns where
  values first second related := by
    rcases related with same | same | ⟨spec, mem, index, -, listed⟩
    · rw [of_decide_eq_true same]
    · rw [same]
      rfl
    · have none : spec.equivHashExprs = [] := by
        rcases mem_append.mp mem with mem | mem
        · rcases loose spec mem with rfl | ⟨_, rfl⟩ <;> rfl
        · rcases strict spec mem with rfl | ⟨_, rfl⟩ <;> rfl
      simp [HashedSpec.equivalentsAt, none] at listed
  own _ _ equiv isEquiv segment _ := (loose equiv isEquiv).meets segment
  other spec mem _ _ _ meets first second _ := meets first second ((strict spec mem).agree _ _)

theorem not_satisfiesSoundly : ¬ SatisfiesSoundly columnChecks this pds := by
  intro sound
  have together := sound threeColumns (validFor_threeColumns loose strict)
    (fun row : Bool => if row then 1 else 0) (fun spec mem => (loose spec mem).meets _) false true
    ((strict _ mem_cons_self).agree _ _)
  simp at together

end

def looseSpec (fNullsColocated : Bool) : HashedSpec Nat Unit :=
  byColumn (if fNullsColocated then 2 else 0) fNullsColocated

def strictSpec (fNullsColocated : Bool) : HashedSpec Nat Unit :=
  byColumn (if fNullsColocated then 0 else 1) fNullsColocated

def deliveredSpec : DistributionSpecHashed Nat Unit := ⟨byColumn 0 false, []⟩

def requiredSpec : DistributionSpecHashed Nat Unit := ⟨byColumn 1 true, [byColumn 0 true]⟩

end Greengage.Orca
