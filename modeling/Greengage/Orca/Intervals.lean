import Greengage.Orca.Ranges

/-!
Contract: the interval algebra of ORCA's constraints on one column.

The sweeps are exact for positions, so also where no value lies. The test for containment asks
whether the computed difference has a range. A range between two neighbours has none of their
values, so over an order with neighbours the test can fail though no value is in the difference.
-/

namespace Greengage.Orca

open Foundations
open ERangeInclusion CRange

universe u

variable {δ : Type u} [LinearOrder δ]

/-! ### The model -/

/-- What the operations read of the type of the column: the datums of a boolean type are known,
and the false one is before the true one. -/
inductive ColumnType (δ : Type u) [LinearOrder δ] where
  | etiBool (lower upper : δ) (less : lower < upper)
  | other

structure CConstraintInterval (δ : Type u) where
  pdrgprng : List (CRange δ)
  fIncludesNull : Bool
  deriving DecidableEq

/-- Append the range, or extend the last one with it. -/
def appendOrExtend (pdrgprng : List (CRange δ)) : Option (CRange δ) → List (CRange δ)
  | none => pdrgprng
  | some prange =>
    match pdrgprng.getLast? with
    | none => pdrgprng ++ [prange]
    | some prangeLast =>
      match prangeLast.prngExtend prange with
      | none => pdrgprng ++ [prange]
      | some prangeNew => pdrgprng.dropLast ++ [prangeNew]

/-- `AddRemainingRanges`, of the ranges from the given index on. -/
def addRemainingRanges (pdrgprngSrc pdrgprngDest : List (CRange δ)) : List (CRange δ) :=
  pdrgprngSrc.foldl (fun dest prange => appendOrExtend dest (some prange)) pdrgprngDest

/-- The loop of `PciIntersect`. The lists are the ranges from the two indexes on. -/
def intersectLoop (pdrgprngNew : List (CRange δ)) :
    List (CRange δ) → List (CRange δ) → List (CRange δ)
  | prangeThis :: first, prangeOther :: second =>
    if prangeOther.fEndsAfter prangeThis then
      intersectLoop (pdrgprngNew ++ (prangeThis.prngIntersect prangeOther).toList) first
        (prangeOther :: second)
    else
      intersectLoop (pdrgprngNew ++ (prangeOther.prngIntersect prangeThis).toList)
        (prangeThis :: first) second
  | _, _ => pdrgprngNew
termination_by first second => first.length + second.length

/-- The loop of `PciUnion` and what is done after it. -/
def unionLoop (pdrgprngNew : List (CRange δ)) : List (CRange δ) → List (CRange δ) → List (CRange δ)
  | prangeThis :: first, prangeOther :: second =>
    if prangeOther.fEndsAfter prangeThis then
      unionLoop (appendOrExtend pdrgprngNew (prangeThis.prngDifferenceLeft prangeOther)) first
        (prangeOther :: second)
    else
      unionLoop (appendOrExtend pdrgprngNew (prangeOther.prngDifferenceLeft prangeThis))
        (prangeThis :: first) second
  | first, second => addRemainingRanges second (addRemainingRanges first pdrgprngNew)
termination_by first second => first.length + second.length

def prangeDiffWithRightResidual (prangeFirst prangeSecond : CRange δ) :
    Option (CRange δ) × Option (CRange δ) :=
  if prangeSecond.fDisjointLeft prangeFirst then (none, none)
  else
    (if prangeFirst.contains prangeSecond then prangeFirst.prngDifferenceLeft prangeSecond
      else none,
      prangeFirst.prngDifferenceRight prangeSecond)

/-- The loop of `PciDifference` and what is done after it. -/
def differenceLoop (pdrgprngNew : List (CRange δ)) (prangeResidual : Option (CRange δ)) :
    List (CRange δ) → List (CRange δ) → List (CRange δ)
  | range :: first, prangeOther :: second =>
    let prangeThis := prangeResidual.getD range
    if prangeOther.fEndsWithOrAfter prangeThis then
      differenceLoop (appendOrExtend pdrgprngNew (prangeThis.prngDifferenceLeft prangeOther))
        none first (prangeOther :: second)
    else
      let (prangeNew, residual) := prangeDiffWithRightResidual prangeThis prangeOther
      differenceLoop (appendOrExtend pdrgprngNew prangeNew) residual (range :: first) second
  | first, _ =>
    match prangeResidual with
    | none => addRemainingRanges first pdrgprngNew
    | some residual =>
      addRemainingRanges (first.drop 1) (appendOrExtend pdrgprngNew (some residual))
termination_by first second => first.length + second.length

namespace CConstraintInterval

def pciIntersect (this pci : CConstraintInterval δ) : CConstraintInterval δ :=
  ⟨intersectLoop [] this.pdrgprng pci.pdrgprng, this.fIncludesNull && pci.fIncludesNull⟩

def pciUnion (this pci : CConstraintInterval δ) : CConstraintInterval δ :=
  ⟨unionLoop [] this.pdrgprng pci.pdrgprng, this.fIncludesNull || pci.fIncludesNull⟩

def pciDifference (this pci : CConstraintInterval δ) : CConstraintInterval δ :=
  ⟨differenceLoop [] none this.pdrgprng pci.pdrgprng, this.fIncludesNull && !pci.fIncludesNull⟩

/-- `PciUnbounded`, on a column of a type that can be constrained. -/
def pciUnbounded (column : ColumnType δ) (fIncludesNull : Bool) : CConstraintInterval δ :=
  match column with
  | .etiBool lower upper _ => ⟨[⟨some lower, eriIncluded, some upper, eriIncluded⟩], fIncludesNull⟩
  | .other => ⟨[⟨none, eriExcluded, none, eriExcluded⟩], fIncludesNull⟩

def pciComplement (column : ColumnType δ) (this : CConstraintInterval δ) : CConstraintInterval δ :=
  (pciUnbounded column true).pciDifference this

def isConstraintUnbounded (this : CConstraintInterval δ) : Bool :=
  match this.pdrgprng with
  | [range] => this.fIncludesNull && range.pdatumLeft.isNone && range.pdatumRight.isNone
  | _ => false

def fContradiction (column : ColumnType δ) (this : CConstraintInterval δ) : Bool :=
  if !this.fIncludesNull && this.pdrgprng.isEmpty then true
  else
    match column, this.pdrgprng with
    | .etiBool .., [range] =>
      !this.fIncludesNull && range.eriLeft = eriExcluded && range.eriRight = eriExcluded &&
        range.pdatumLeft.isSome && range.pdatumRight.isSome
    | _, _ => false

def fContainsInterval (column : ColumnType δ) (this pci : CConstraintInterval δ) : Bool :=
  if this.isConstraintUnbounded then true
  else if pci.isConstraintUnbounded || (!this.fIncludesNull && pci.fIncludesNull) then false
  else (pci.pciDifference this).fContradiction column

/-- The values of an interval, NULL being `none`. -/
def Has (this : CConstraintInterval δ) : Option δ → Prop
  | none => this.fIncludesNull = true
  | some value => ∃ range ∈ this.pdrgprng, range.Has value

/-- The ranges are proper and each is disjoint from those after it and to their left. -/
structure Sorted (this : CConstraintInterval δ) : Prop where
  proper : ∀ range ∈ this.pdrgprng, range.Proper
  disjoint : this.pdrgprng.Pairwise fun left right => left.fDisjointLeft right = true

/-- A sorted list of ranges of which no two neighbours can be joined. -/
structure Canonical (this : CConstraintInterval δ) : Prop extends this.Sorted where
  unmerged : this.pdrgprng.IsChain fun left right => left.prngExtend right = none

end CConstraintInterval

def ColumnType.Domain : ColumnType δ → δ → Prop
  | .etiBool lower upper _, value => value = lower ∨ value = upper
  | .other, _ => True

/-! ### Growing lists of ranges -/

section

variable {new result : List (CRange δ)} {low high bound pos : Cut δ}

/-- A list of ranges has grown by what lies between two cuts. -/
structure GrownBy (new : List (CRange δ)) (low high : Cut δ) (result : List (CRange δ)) :
    Prop where
  ordered : Ordered CRange.low CRange.high result
  covers : ∀ pos, Covers CRange.low CRange.high result pos ↔
    Covers CRange.low CRange.high new pos ∨ low ≤ pos ∧ pos < high
  below : ∀ bound, Below CRange.high new bound → high ≤ bound → Below CRange.high result bound

theorem GrownBy.of_le (ordered : Ordered CRange.low CRange.high new) (le : high ≤ low) :
    GrownBy new low high new where
  ordered := ordered
  covers pos := by
    refine ⟨.inl, ?_⟩
    rintro (covered | ⟨begun, unfinished⟩)
    · exact covered
    · exact absurd (begun.trans_lt unfinished) (not_lt.mpr le)
  below _ below _ := below

theorem GrownBy.append (ordered : Ordered CRange.low CRange.high new) {range}
    (below : Below CRange.high new range.low) (proper : range.low < range.high) :
    GrownBy new range.low range.high (new ++ [range]) where
  ordered := ordered_append_singleton.mpr ⟨ordered, below, proper⟩
  covers pos := by simp [Spans]
  below _ belowNew le := by
    simpa using ⟨belowNew, le⟩

theorem GrownBy.extend {last range joined}
    (ordered : Ordered CRange.low CRange.high (new ++ [last]))
    (below : Below CRange.high (new ++ [last]) range.low) (proper : range.low < range.high)
    (ext : last.prngExtend range = some joined) :
    GrownBy (new ++ [last]) range.low range.high (new ++ [joined]) := by
  obtain ⟨begins, ends, meets⟩ := prngExtend_some ext
  obtain ⟨orderedNew, belowLast, properLast⟩ := ordered_append_singleton.mp ordered
  have ended : last.high = range.low := by
    refine le_antisymm ?_ meets
    exact below last (by simp)
  refine ⟨ordered_append_singleton.mpr ⟨orderedNew, ?_, ?_⟩, ?_, ?_⟩
  · exact begins ▸ belowLast
  · rw [begins, ends]
    exact properLast.trans (ended ▸ proper)
  · intro pos
    have := lt_or_ge pos range.low
    have early : pos < range.low → pos < range.high := fun lt => lt.trans proper
    have late : range.low ≤ pos → last.low ≤ pos := by
      intro le
      exact (ended ▸ properLast.le).trans le
    simp only [covers_append, covers_cons, Spans, begins, ends, ended]
    tauto
  · intro _ belowNew le
    rw [below_append] at belowNew ⊢
    simpa [ends] using ⟨belowNew.1, le⟩

section

variable (ordered : Ordered CRange.low CRange.high new) {piece : Option (CRange δ)}
  (isSpan : CRange.IsSpan piece low high) (below : Below CRange.high new low)
include ordered isSpan below

/-- What `appendOrExtend` does with the range between two cuts. -/
theorem appendOrExtend_grown : GrownBy new low high (appendOrExtend new piece) := by
  cases piece with
  | none => exact GrownBy.of_le ordered isSpan
  | some range =>
    obtain ⟨rfl, rfl, proper⟩ := isSpan
    unfold appendOrExtend
    dsimp only
    split
    · exact GrownBy.append ordered below proper
    · rename_i last isLast
      obtain ⟨_, rfl⟩ := List.getLast?_eq_some_iff.mp isLast
      split
      · exact GrownBy.append ordered below proper
      · rename_i joined ext
        rw [List.dropLast_concat]
        exact GrownBy.extend ordered below proper ext

theorem append_toList_grown : GrownBy new low high (new ++ piece.toList) := by
  cases piece with
  | none =>
    rw [Option.toList_none, List.append_nil]
    exact GrownBy.of_le ordered isSpan
  | some range =>
    obtain ⟨rfl, rfl, proper⟩ := isSpan
    exact GrownBy.append ordered below proper

end

end

/-! ### The sweeps -/

section

variable {new first second : List (CRange δ)} {bound : Cut δ}

/-- A list that covers, besides what another does, the positions of a predicate. -/
structure Adds (new : List (CRange δ)) (added : Cut δ → Prop) (result : List (CRange δ)) :
    Prop where
  ordered : Ordered CRange.low CRange.high result
  covers : ∀ pos, Covers CRange.low CRange.high result pos ↔
    Covers CRange.low CRange.high new pos ∨ added pos

theorem GrownBy.adds {low high mid result rest added} (grown : GrownBy new low high mid)
    (adds : Adds mid rest result)
    (split : ∀ pos, added pos ↔ (low ≤ pos ∧ pos < high) ∨ rest pos) :
    Adds new added result where
  ordered := adds.ordered
  covers pos := by rw [adds.covers, grown.covers, split, or_assoc]

section

variable (ordered : Ordered CRange.low CRange.high new)
include ordered

section

variable (below : Below CRange.high new bound)
include below

theorem addRemainingRanges_adds (orderedFirst : Ordered low high first)
    (above : Above low bound first) :
    Adds new (Covers low high first) (addRemainingRanges first new) := by
  induction first generalizing new bound with
  | nil => exact ⟨ordered, by simp [addRemainingRanges]⟩
  | cons range rest ih =>
    have proper := orderedFirst.head_nonempty
    have le : bound ≤ range.low := above range (by simp)
    have isSpan : IsSpan (some range) range.low range.high := ⟨rfl, rfl, proper⟩
    have grown := appendOrExtend_grown ordered isSpan (below.of_le le)
    have belowNext := grown.below range.high (below.of_le (le.trans proper.le)) le_rfl
    have adds := ih grown.ordered belowNext orderedFirst.tail orderedFirst.above_tail
    exact grown.adds adds fun pos => covers_cons

theorem intersectLoop_adds (orderedFirst : Ordered low high first)
    (orderedSecond : Ordered low high second)
    (above : Above low bound first ∨ Above low bound second) :
    Adds new (fun pos => Covers low high first pos ∧
      Covers low high second pos) (intersectLoop new first second) := by
  fun_induction intersectLoop new first second generalizing bound with
  | case1 new range first other second ends ih =>
    have le := high_le_of_fEndsAfter ends
    have bounded : bound ≤ max range.low other.low := by
      rcases above with above | above
      · exact (above range (by simp)).trans (le_max_left ..)
      · exact (above other (by simp)).trans (le_max_right ..)
    have grown := append_toList_grown ordered
      (prngIntersect_spec orderedFirst.head_nonempty orderedSecond.head_nonempty)
      (below.of_le bounded)
    have belowNext := grown.below (max bound range.high) (below.of_le (le_max_left ..))
      ((min_le_left ..).trans (le_max_right ..))
    have adds := ih grown.ordered belowNext orderedFirst.tail orderedSecond
      (orderedFirst.above_or_above_tail above)
    exact grown.adds adds fun pos =>
      covers_and_covers_cons le orderedSecond.above_tail
  | case2 new range first other second ends ih =>
    have le := high_le_of_not_fEndsAfter ends
    have bounded : bound ≤ max other.low range.low := by
      rcases above with above | above
      · exact (above range (by simp)).trans (le_max_right ..)
      · exact (above other (by simp)).trans (le_max_left ..)
    have grown := append_toList_grown ordered
      (prngIntersect_spec orderedSecond.head_nonempty orderedFirst.head_nonempty)
      (below.of_le bounded)
    have belowNext := grown.below (max bound other.high) (below.of_le (le_max_left ..))
      ((min_le_left ..).trans (le_max_right ..))
    have adds := ih grown.ordered belowNext orderedFirst orderedSecond.tail
      (orderedSecond.above_or_above_tail above.symm).symm
    refine grown.adds adds fun pos => ?_
    rw [and_comm, covers_and_covers_cons le orderedFirst.above_tail, and_comm]
    simp only [and_comm]
  | case3 new first second exhausted =>
    refine ⟨ordered, ?_⟩
    intro pos
    cases first with
    | nil => simp
    | cons range first =>
      cases second with
      | nil => simp
      | cons other second => exact absurd rfl (exhausted range first other second rfl)

theorem union_step {range other} (orderedFirst : Ordered low high (range :: first))
    (orderedSecond : Ordered low high (other :: second))
    (aboveFirst : Above low bound (range :: first))
    (aboveSecond : Above low bound (other :: second)) :
    let mid := appendOrExtend new (range.prngDifferenceLeft other)
    GrownBy new range.low (min range.high other.low) mid ∧
      ∃ next, Below high mid next ∧ Above low next first ∧
        Above low next (other :: second) := by
  rw [above_cons] at aboveFirst
  have grown := appendOrExtend_grown ordered
    (prngDifferenceLeft_spec other orderedFirst.head_nonempty)
    (below.of_le aboveFirst.1)
  refine ⟨grown, max bound (min range.high other.low), ?_, ?_, ?_⟩
  · exact grown.below _ (below.of_le (le_max_left ..)) (le_max_right ..)
  · intro item mem
    exact max_le (aboveFirst.2 item mem) ((min_le_left ..).trans (orderedFirst.above_tail item mem))
  · exact orderedSecond.above (max_le (above_cons.mp aboveSecond).1 (min_le_right ..))

theorem unionLoop_adds (orderedFirst : Ordered low high first)
    (orderedSecond : Ordered low high second)
    (aboveFirst : Above low bound first) (aboveSecond : Above low bound second) :
    Adds new (fun pos => Covers low high first pos ∨
      Covers low high second pos) (unionLoop new first second) := by
  fun_induction unionLoop new first second generalizing bound with
  | case1 new range first other second ends ih =>
    obtain ⟨grown, next, belowNext, aboveFirst, aboveSecond⟩ :=
      union_step ordered below orderedFirst orderedSecond aboveFirst aboveSecond
    have adds := ih grown.ordered belowNext orderedFirst.tail orderedSecond aboveFirst aboveSecond
    exact grown.adds adds fun pos =>
      covers_or_covers_cons (high_le_of_fEndsAfter ends)
  | case2 new range first other second ends ih =>
    obtain ⟨grown, next, belowNext, aboveSecond, aboveFirst⟩ :=
      union_step ordered below orderedSecond orderedFirst aboveSecond aboveFirst
    have adds := ih grown.ordered belowNext orderedFirst orderedSecond.tail aboveFirst aboveSecond
    refine grown.adds adds fun pos => ?_
    rw [or_comm, covers_or_covers_cons (high_le_of_not_fEndsAfter ends)]
    exact or_congr_right or_comm
  | case3 new first second exhausted =>
    cases first with
    | nil =>
      have adds := addRemainingRanges_adds ordered below orderedSecond aboveSecond
      refine ⟨adds.ordered, fun pos => ?_⟩
      simp only [not_covers_nil, false_or]
      exact adds.covers pos
    | cons range first =>
      cases second with
      | nil =>
        have adds := addRemainingRanges_adds ordered below orderedFirst aboveFirst
        refine ⟨adds.ordered, fun pos => ?_⟩
        simp only [not_covers_nil, or_false]
        exact adds.covers pos
      | cons other second => exact absurd rfl (exhausted range first other second rfl)

end

end

def pending (prangeResidual : Option (CRange δ)) (first : List (CRange δ)) : List (CRange δ) :=
  match prangeResidual with
  | none => first
  | some residual => residual :: first.drop 1

/-- A residue begins where a range of the other list has ended. -/
structure ResidueFits (prangeResidual : Option (CRange δ)) (first second : List (CRange δ)) :
    Prop where
  above : ∀ residual, prangeResidual = some residual → Above CRange.low residual.low second
  present : prangeResidual.isSome = true → first ≠ []

omit [LinearOrder δ] in
theorem pending_cons (prangeResidual : Option (CRange δ)) (range) (first : List (CRange δ)) :
    pending prangeResidual (range :: first) = prangeResidual.getD range :: first := by
  cases prangeResidual <;> rfl

theorem prangeDiffWithRightResidual_spec {range other : CRange δ} (proper : range.low < range.high)
    (ends : other.high < range.high) (meets : range.low < other.high) :
    ∃ residual, (prangeDiffWithRightResidual range other).2 = some residual ∧
      residual.low = other.high ∧ residual.high = range.high ∧
      IsSpan (prangeDiffWithRightResidual range other).1 range.low
        (min range.high other.low) := by
  have disj : ¬ other.fDisjointLeft range = true := by
    rw [fDisjointLeft_iff, not_le]
    exact meets
  rw [prangeDiffWithRightResidual, if_neg disj]
  have right := prngDifferenceRight_spec other proper
  rw [max_eq_right meets.le] at right
  cases found : range.prngDifferenceRight other with
  | none =>
    rw [found] at right
    exact absurd ends (not_lt.mpr right)
  | some residual =>
    rw [found] at right
    refine ⟨residual, rfl, right.1, right.2.1, ?_⟩
    split_ifs with contains
    · exact prngDifferenceLeft_spec other proper
    · -- The other range begins first, so nothing of this one lies before it.
      rw [contains_iff, not_and_or, not_le, not_le] at contains
      have begins : other.low < range.low := by
        rcases contains with begins | stops
        · exact begins
        · exact absurd ends stops.not_gt
      exact (min_le_right ..).trans begins.le

section

variable {prangeResidual : Option (CRange δ)} (ordered : Ordered CRange.low CRange.high new)
  (orderedFirst : Ordered CRange.low CRange.high (pending prangeResidual first))
  (below : Below CRange.high new bound)
  (above : Above CRange.low bound (pending prangeResidual first))
  (fits : ResidueFits prangeResidual first second)
include ordered orderedFirst below above fits

theorem pending_adds
    (exhausted : ∀ range rest other others, first = range :: rest →
      second = other :: others → False) :
    Adds new (fun pos =>
      Covers low high (pending prangeResidual first) pos ∧
        ¬ Covers low high second pos)
      (addRemainingRanges (pending prangeResidual first) new) := by
  have adds := addRemainingRanges_adds ordered below orderedFirst above
  refine ⟨adds.ordered, fun pos => ?_⟩
  rw [adds.covers]
  cases second with
  | nil => simp
  | cons other others =>
    cases first with
    | cons range rest => exact absurd rfl (exhausted range rest other others rfl)
    | nil =>
      cases prangeResidual with
      | none => simp [pending]
      | some residual => exact absurd rfl (fits.present rfl)

theorem differenceLoop_adds (orderedSecond : Ordered low high second) : Adds new (fun pos =>
      Covers low high (pending prangeResidual first) pos ∧
        ¬ Covers low high second pos)
      (differenceLoop new prangeResidual first second) := by
  fun_induction differenceLoop new prangeResidual first second generalizing bound with
  | case1 new residual range first other second cur ends =>
    rename_i ih
    rw [fEndsWithOrAfter_iff] at ends
    rw [pending_cons] at orderedFirst above ⊢
    have bounded : bound ≤ cur.low := (above_cons.mp above).1
    have grown := appendOrExtend_grown ordered
      (prngDifferenceLeft_spec other orderedFirst.head_nonempty) (below.of_le bounded)
    have belowNext := grown.below cur.high
      (below.of_le (bounded.trans orderedFirst.head_nonempty.le)) (min_le_left ..)
    have adds := ih grown.ordered orderedFirst.tail belowNext orderedFirst.above_tail
      ⟨by simp, by simp⟩ orderedSecond
    exact grown.adds adds fun pos => covers_diff_cons ends orderedSecond
  | case2 new residual range first other second cur ends prangeNew next ran =>
    rename_i ih
    rw [fEndsWithOrAfter_iff, not_le] at ends
    rw [pending_cons] at orderedFirst above ⊢
    have bounded : bound ≤ cur.low := (above_cons.mp above).1
    rcases le_or_gt other.high cur.low with skips | meets
    · -- No residue can be lost here: it would begin before the end of the other range.
      have fresh : residual = none := by
        cases residual with
        | none => rfl
        | some residual =>
          have begins := (above_cons.mp (fits.above residual rfl)).1
          exact absurd (begins.trans_lt orderedSecond.head_nonempty) (not_lt.mpr skips)
      subst fresh
      rw [prangeDiffWithRightResidual, if_pos (fDisjointLeft_iff.mpr skips)] at ran
      cases ran
      have adds := ih ordered orderedFirst below above ⟨by simp, by simp⟩ orderedSecond.tail
      refine ⟨adds.ordered, fun pos => ?_⟩
      rw [covers_diff_skip orderedFirst skips]
      exact adds.covers pos
    · obtain ⟨residue, isNext, begins, stops, isSpan⟩ :=
        prangeDiffWithRightResidual_spec orderedFirst.head_nonempty ends meets
      rw [ran] at isNext isSpan
      cases isNext
      have grown := appendOrExtend_grown ordered isSpan (below.of_le bounded)
      have orderedNext : Ordered low high (residue :: first) := by
        rw [ordered_cons, begins, stops]
        exact ⟨ends, orderedFirst.above_tail, orderedFirst.tail⟩
      have belowNext := grown.below other.high (below.of_le (bounded.trans meets.le))
        ((min_le_right ..).trans orderedSecond.head_nonempty.le)
      have adds := ih grown.ordered orderedNext belowNext (orderedNext.above begins.ge)
        ⟨by rintro _ ⟨⟩; exact begins ▸ orderedSecond.above_tail, by simp⟩
        orderedSecond.tail
      exact grown.adds adds fun pos =>
        covers_diff_residue orderedFirst orderedSecond ends meets begins stops
  | case3 new first second exhausted =>
    exact pending_adds ordered orderedFirst below above fits exhausted
  | case4 new first second exhausted residual =>
    exact pending_adds ordered orderedFirst below above fits exhausted

end

end

/-! ### Intervals -/

namespace CConstraintInterval

variable {this pci : CConstraintInterval δ} {column : ColumnType δ}

theorem sorted_iff : this.Sorted ↔ Ordered low high this.pdrgprng := by
  constructor
  · rintro ⟨proper, disj⟩
    refine ⟨fun range mem => proper_iff.mp (proper range mem), ?_⟩
    exact disj.imp fDisjointLeft_iff.mp
  · rintro ⟨ne, apart⟩
    refine ⟨fun range mem => proper_iff.mpr (ne range mem), ?_⟩
    exact apart.imp fDisjointLeft_iff.mpr

theorem has_some_iff {value} : this.Has (some value) ↔
      Covers low high this.pdrgprng (Cut.edge value false) := by
  simp only [Has, Covers, has_iff]

def At (this : CConstraintInterval δ) (pos : Cut δ) : Prop :=
  Covers CRange.low CRange.high this.pdrgprng pos

theorem adds_nil {added result} (adds : Adds [] added result) (pos : Cut δ) :
    Covers low high result pos ↔ added pos := by
  simp [adds.covers]

theorem below_bot : Below high [] (⊥ : Cut δ) := below_nil

section

variable (sorted : this.Sorted) (sortedOther : pci.Sorted)
include sorted sortedOther

theorem pciIntersect_adds : Adds [] (fun pos => this.At pos ∧ pci.At pos)
      (this.pciIntersect pci).pdrgprng :=
  intersectLoop_adds ordered_nil below_bot (sorted_iff.mp sorted) (sorted_iff.mp sortedOther)
    (.inl fun _ _ => bot_le)

theorem pciUnion_adds :
    Adds [] (fun pos => this.At pos ∨ pci.At pos) (this.pciUnion pci).pdrgprng :=
  unionLoop_adds ordered_nil below_bot (sorted_iff.mp sorted) (sorted_iff.mp sortedOther)
    (fun _ _ => bot_le) (fun _ _ => bot_le)

theorem pciDifference_adds : Adds [] (fun pos => this.At pos ∧ ¬ pci.At pos)
      (this.pciDifference pci).pdrgprng :=
  have fits : ResidueFits none this.pdrgprng pci.pdrgprng := ⟨by simp, by simp⟩
  differenceLoop_adds ordered_nil (sorted_iff.mp sorted) below_bot (fun _ _ => bot_le) fits
    (sorted_iff.mp sortedOther)

end

theorem pciUnbounded_sorted (column : ColumnType δ) (fIncludesNull : Bool) :
    (pciUnbounded column fIncludesNull).Sorted := by
  cases column with
  | etiBool lower upper less =>
    exact ⟨by simp [pciUnbounded, Proper, less], by simp [pciUnbounded]⟩
  | other => exact ⟨by simp [pciUnbounded, Proper], by simp [pciUnbounded]⟩

theorem pciUnbounded_has {value} (inDomain : column.Domain value) :
    (pciUnbounded column true).Has (some value) := by
  cases column with
  | etiBool lower upper less =>
    refine ⟨_, List.mem_singleton_self _, ?_⟩
    rcases inDomain with rfl | rfl
    · exact ⟨le_refl _, less.le⟩
    · exact ⟨less.le, le_refl _⟩
  | other => exact ⟨_, List.mem_singleton_self _, trivial, trivial⟩

section

variable (sorted : this.Sorted) (sortedOther : pci.Sorted)
include sorted sortedOther

theorem pciIntersect_has (value : Option δ) :
    (this.pciIntersect pci).Has value ↔ this.Has value ∧ pci.Has value := by
  cases value with
  | none => simp [Has, pciIntersect]
  | some value =>
    simp only [has_some_iff]
    exact adds_nil (pciIntersect_adds sorted sortedOther) _

theorem pciUnion_has (value : Option δ) :
    (this.pciUnion pci).Has value ↔ this.Has value ∨ pci.Has value := by
  cases value with
  | none => simp [Has, pciUnion]
  | some value =>
    simp only [has_some_iff]
    exact adds_nil (pciUnion_adds sorted sortedOther) _

theorem pciDifference_has (value : Option δ) :
    (this.pciDifference pci).Has value ↔ this.Has value ∧ ¬ pci.Has value := by
  cases value with
  | none => simp [Has, pciDifference]
  | some value =>
    simp only [has_some_iff]
    exact adds_nil (pciDifference_adds sorted sortedOther) _

theorem pciIntersect_sorted : (this.pciIntersect pci).Sorted :=
  sorted_iff.mpr (pciIntersect_adds sorted sortedOther).ordered

theorem pciUnion_sorted : (this.pciUnion pci).Sorted :=
  sorted_iff.mpr (pciUnion_adds sorted sortedOther).ordered

theorem pciDifference_sorted : (this.pciDifference pci).Sorted :=
  sorted_iff.mpr (pciDifference_adds sorted sortedOther).ordered

theorem pciDifference_isEmpty :
    (this.pciDifference pci).pdrgprng = [] ↔ ∀ pos, this.At pos → pci.At pos := by
  have adds := pciDifference_adds sorted sortedOther
  constructor
  · intro empty pos inThis
    by_contra out
    have covered := (adds_nil adds pos).mpr ⟨inThis, out⟩
    rw [empty] at covered
    exact not_covers_nil covered
  · intro included
    refine adds.ordered.eq_nil fun pos covered => ?_
    obtain ⟨inThis, out⟩ := (adds_nil adds pos).mp covered
    exact out (included pos inThis)

end

theorem pciComplement_sorted (column : ColumnType δ) (sorted : this.Sorted) :
    (this.pciComplement column).Sorted :=
  pciDifference_sorted (pciUnbounded_sorted column true) sorted

theorem pciComplement_has (sorted : this.Sorted) {value}
    (inDomain : ∀ known, value = some known → column.Domain known) :
    (this.pciComplement column).Has value ↔ ¬ this.Has value := by
  rw [pciComplement, pciDifference_has (pciUnbounded_sorted column true) sorted]
  refine and_iff_right ?_
  cases value with
  | none => cases column <;> rfl
  | some value => exact pciUnbounded_has (inDomain value rfl)

/-! ### Containment -/

theorem isConstraintUnbounded_iff : this.isConstraintUnbounded = true ↔ this.fIncludesNull = true ∧
        ∃ range, this.pdrgprng = [range] ∧ range.low = ⊥ ∧ range.high = ⊤ := by
  unfold isConstraintUnbounded
  split
  · rename_i range isSingle
    simp [low_eq_bot_iff, high_eq_top_iff, isSingle, and_assoc]
  · rename_i notSingle
    refine ⟨fun impossible => (by cases impossible), ?_⟩
    rintro ⟨-, range, isSingle, -⟩
    exact absurd isSingle (notSingle range)

theorem at_of_isConstraintUnbounded (unbounded : this.isConstraintUnbounded) {pos}
    (pre : pos < ⊤) : this.At pos := by
  obtain ⟨-, _, isSingle, begins, ends⟩ := isConstraintUnbounded_iff.mp unbounded
  rw [At, isSingle, covers_cons]
  exact .inl ⟨begins ▸ bot_le, ends ▸ pre⟩

theorem Canonical.eq_single (canonical : this.Canonical) (full : ∀ pos, pos < ⊤ → this.At pos) :
    ∃ range, this.pdrgprng = [range] ∧ range.low = ⊥ ∧ range.high = ⊤ := by
  have ordered := sorted_iff.mp canonical.toSorted
  have unmerged := canonical.unmerged
  unfold At at full
  generalize this.pdrgprng = ranges at ordered unmerged full
  cases ranges with
  | nil => exact absurd (full ⊥ bot_lt_top) not_covers_nil
  | cons range rest =>
    have begins : range.low = ⊥ := by
      by_contra begun
      exact (ordered.above le_rfl).not_covers (bot_lt_iff_ne_bot.mpr begun) (full ⊥ bot_lt_top)
    have ends : range.high = ⊤ := by
      by_contra finite
      have covered := full range.high (lt_top_iff_ne_top.mpr finite)
      rcases covers_cons.mp covered with ⟨-, impossible⟩ | covered
      · exact lt_irrefl _ impossible
      · -- The next range begins strictly after the end of the first one.
        cases rest with
        | nil => exact not_covers_nil covered
        | cons next rest =>
          have gap := lt_of_prngExtend_none (List.isChain_cons_cons.mp unmerged).1
            (above_cons.mp ordered.above_tail).1
          exact (ordered.tail.above le_rfl).not_covers gap covered
    cases rest with
    | nil => exact ⟨range, rfl, begins, ends⟩
    | cons next rest =>
      have ge := (above_cons.mp ordered.above_tail).1
      rw [ends, top_le_iff] at ge
      exact absurd ge next.low_ne_top

theorem not_has_of_fContradiction (only : ∀ value, column.Domain value)
    (contradiction : this.fContradiction column) (value) : ¬ this.Has value := by
  unfold fContradiction at contradiction
  split_ifs at contradiction with empty
  · rw [Bool.and_eq_true, Bool.not_eq_true', List.isEmpty_iff] at empty
    cases value <;> simp [Has, empty]
  · split at contradiction
    · rename_i lower upper less range isSingle
      obtain ⟨left, _, right, _⟩ := range
      simp only [Bool.and_eq_true, Bool.not_eq_true', decide_eq_true_eq,
        Option.isSome_iff_exists] at contradiction
      obtain ⟨⟨⟨⟨noNull, rfl⟩, rfl⟩, left, rfl⟩, right, rfl⟩ := contradiction
      cases value with
      | none => simp [Has, noNull]
      | some value =>
        rintro ⟨range, mem, follows, precedes⟩
        rw [isSingle, List.mem_singleton] at mem
        subst mem
        -- Of three values in a row two would be equal.
        rcases only left with rfl | rfl <;> rcases only value with rfl | rfl <;>
          rcases only right with rfl | rfl <;>
          first
            | exact absurd follows (lt_irrefl _)
            | exact absurd precedes (lt_irrefl _)
            | exact absurd (follows.trans precedes) (lt_irrefl _)
    · cases contradiction

theorem has_of_fContainsInterval (only : ∀ value, column.Domain value) (sorted : this.Sorted)
    (sortedOther : pci.Sorted) (contains : this.fContainsInterval column pci) (value) :
    ¬ (pci.pciDifference this).Has value := by
  unfold fContainsInterval at contains
  split_ifs at contains with unbounded early
  · rw [pciDifference_has sortedOther sorted, not_and, not_not]
    intro _
    cases value with
    | none => exact (isConstraintUnbounded_iff.mp unbounded).1
    | some value =>
      rw [has_some_iff]
      exact at_of_isConstraintUnbounded unbounded Cut.edge_lt_top
  · exact not_has_of_fContradiction only contains value

theorem fContainsInterval_of_empty (column) (canonical : this.Canonical) (sortedOther : pci.Sorted)
    (noRange : (pci.pciDifference this).pdrgprng = [])
    (noNull : (pci.pciDifference this).fIncludesNull = false) :
    this.fContainsInterval column pci = true := by
  have included := (pciDifference_isEmpty sortedOther canonical.toSorted).mp noRange
  have nulls : pci.fIncludesNull = true → this.fIncludesNull = true := by
    simpa [pciDifference] using noNull
  unfold fContainsInterval
  split_ifs with unbounded early
  · rfl
  · rw [Bool.or_eq_true, Bool.and_eq_true, Bool.not_eq_true'] at early
    rcases early with otherUnbounded | ⟨withoutNull, withNull⟩
    · have single := canonical.eq_single fun pos pre =>
        included pos (at_of_isConstraintUnbounded otherUnbounded pre)
      exact absurd (isConstraintUnbounded_iff.mpr
        ⟨nulls (isConstraintUnbounded_iff.mp otherUnbounded).1, single⟩) unbounded
    · rw [nulls withNull] at withoutNull
      cases withoutNull
  · simp [fContradiction, noRange, noNull]

theorem empty_of_fContainsInterval (sorted : this.Sorted) (sortedOther : pci.Sorted)
    (contains : this.fContainsInterval .other pci) :
    (pci.pciDifference this).pdrgprng = [] ∧ (pci.pciDifference this).fIncludesNull = false := by
  unfold fContainsInterval at contains
  split_ifs at contains with unbounded early
  · refine ⟨(pciDifference_isEmpty sortedOther sorted).mpr ?_, ?_⟩
    · rintro _ ⟨_, -, -, unfinished⟩
      exact at_of_isConstraintUnbounded unbounded (unfinished.trans_le le_top)
    · simp [pciDifference, (isConstraintUnbounded_iff.mp unbounded).1]
  · simpa [fContradiction, and_comm] using contains

theorem Sorted.eq_nil_of_not_has [DenselyOrdered δ] [NoMinOrder δ] [NoMaxOrder δ] [Nonempty δ]
    (sorted : this.Sorted) (nothing : ∀ value, ¬ this.Has value) : this.pdrgprng = [] := by
  rw [List.eq_nil_iff_forall_not_mem]
  intro range mem
  obtain ⟨value, has⟩ := (sorted.proper range mem).exists_has
  exact nothing (some value) ⟨range, mem, has⟩

/-- The algebra of intervals. The four operations are exact and their results sorted.
Containment is never reported when a value is left in the difference, and it is reported when
the computed difference has neither a range nor NULL, on a column that is not boolean only then.
Where every proper range has a value that is when no value is left. -/
theorem interval_algebra_exact (column : ColumnType δ) (only : ∀ value, column.Domain value)
    (canonical : this.Canonical) (canonicalOther : pci.Canonical) :
    (∀ value, (this.pciIntersect pci).Has value ↔ this.Has value ∧ pci.Has value) ∧
    (∀ value, (this.pciUnion pci).Has value ↔ this.Has value ∨ pci.Has value) ∧
    (∀ value, (this.pciDifference pci).Has value ↔ this.Has value ∧ ¬ pci.Has value) ∧
    (∀ value, (this.pciComplement column).Has value ↔ ¬ this.Has value) ∧
    ((this.pciIntersect pci).Sorted ∧ (this.pciUnion pci).Sorted ∧
      (this.pciDifference pci).Sorted ∧ (this.pciComplement column).Sorted) ∧
    (this.fContainsInterval column pci = true → ∀ value, ¬ (pci.pciDifference this).Has value) ∧
    ((pci.pciDifference this).pdrgprng = [] ∧ (pci.pciDifference this).fIncludesNull = false →
      this.fContainsInterval column pci = true) ∧
    (column = .other → this.fContainsInterval column pci = true →
      (pci.pciDifference this).pdrgprng = [] ∧ (pci.pciDifference this).fIncludesNull = false) ∧
    (DenselyOrdered δ → NoMinOrder δ → NoMaxOrder δ → Nonempty δ →
      (this.fContainsInterval column pci = true ↔
        ∀ value, ¬ (pci.pciDifference this).Has value)) := by
  have sorted := canonical.toSorted
  have sortedOther := canonicalOther.toSorted
  refine ⟨pciIntersect_has sorted sortedOther, pciUnion_has sorted sortedOther,
    pciDifference_has sorted sortedOther, ?_, ?_, ?_, ?_, ?_, ?_⟩
  · intro value
    exact pciComplement_has sorted fun known _ => only known
  · exact ⟨pciIntersect_sorted sorted sortedOther, pciUnion_sorted sorted sortedOther,
      pciDifference_sorted sorted sortedOther, pciComplement_sorted column sorted⟩
  · exact has_of_fContainsInterval only sorted sortedOther
  · rintro ⟨noRange, noNull⟩
    exact fContainsInterval_of_empty column canonical sortedOther noRange noNull
  · rintro rfl contains
    exact empty_of_fContainsInterval sorted sortedOther contains
  · intro _ _ _ _
    refine ⟨has_of_fContainsInterval only sorted sortedOther, fun nothing => ?_⟩
    have noRange := (pciDifference_sorted sortedOther sorted).eq_nil_of_not_has nothing
    exact fContainsInterval_of_empty column canonical sortedOther noRange
      (Bool.eq_false_iff.mpr (nothing none))

end CConstraintInterval

def closedRange (left right : ℤ) : CRange ℤ :=
  ⟨some left, eriIncluded, some right, eriIncluded⟩

def splitInterval : CConstraintInterval ℤ := ⟨[closedRange 1 3, closedRange 4 5], false⟩

def wholeInterval : CConstraintInterval ℤ := ⟨[closedRange 1 5], false⟩

theorem splitInterval_canonical : splitInterval.Canonical :=
  ⟨⟨by simp [splitInterval, closedRange, Proper], by decide +kernel⟩, by decide +kernel⟩

theorem wholeInterval_canonical : wholeInterval.Canonical :=
  ⟨⟨by simp [wholeInterval, closedRange, Proper], by decide +kernel⟩, by decide +kernel⟩

/-- All integers are in the interval and no value is in the difference, but the difference has
the range between three and four, and containment is denied. -/
theorem fContainsInterval_denies_neighbours :
    splitInterval.Canonical ∧ wholeInterval.Canonical ∧
      (∀ value, ¬ (wholeInterval.pciDifference splitInterval).Has value) ∧
      splitInterval.fContainsInterval .other wholeInterval = false := by
  refine ⟨splitInterval_canonical, wholeInterval_canonical, ?_, by decide +kernel⟩
  have ran : wholeInterval.pciDifference splitInterval =
      ⟨[⟨some 3, eriExcluded, some 4, eriExcluded⟩], false⟩ := by decide +kernel
  rw [ran]
  rintro (_ | value)
  · simp [CConstraintInterval.Has]
  · rintro ⟨range, mem, follows, precedes⟩
    rw [List.mem_singleton] at mem
    subst mem
    change 3 < value at follows
    change value < 4 at precedes
    omega

theorem interval_algebra_exact_splitInterval :
    (∀ value, (splitInterval.pciUnion wholeInterval).Has value ↔
      splitInterval.Has value ∨ wholeInterval.Has value) ∧
    (wholeInterval.fContainsInterval .other splitInterval = true) ∧
    (splitInterval.pciDifference wholeInterval).pdrgprng = [] := by
  have exactness := CConstraintInterval.interval_algebra_exact .other (fun _ => trivial)
    splitInterval_canonical wholeInterval_canonical
  exact ⟨exactness.2.1, by decide +kernel, by decide +kernel⟩

end Greengage.Orca
