import Greengage.Foundations.Spans

/-!
Contract: the ranges of values that ORCA's constraint intervals are made of.

Does not own: lists of ranges. The comparator of the optimizer is a linear order on the datums.
-/

namespace Greengage.Orca

open Foundations (Cut)

universe u

/-! ### The model -/

inductive ERangeInclusion where
  | eriIncluded
  | eriExcluded
  deriving DecidableEq

open ERangeInclusion

def eriInverseInclusion : ERangeInclusion → ERangeInclusion
  | eriIncluded => eriExcluded
  | eriExcluded => eriIncluded

/-- A range of values. An end without a datum is infinite. -/
structure CRange (δ : Type u) where
  pdatumLeft : Option δ
  eriLeft : ERangeInclusion
  pdatumRight : Option δ
  eriRight : ERangeInclusion
  deriving DecidableEq

namespace CRange

variable {δ : Type u} [LinearOrder δ]

def fDisjointLeft (this prange : CRange δ) : Bool :=
  match this.pdatumRight, prange.pdatumLeft with
  | some right, some left =>
    if right < left then true
    else if right = left then this.eriRight = eriExcluded || prange.eriLeft = eriExcluded
    else false
  | _, _ => false

/-- Does this range start before the given one. Of two infinite starts each is before the
other. -/
def fStartsBefore (this prange : CRange δ) : Bool :=
  match prange.pdatumLeft with
  | none => this.pdatumLeft.isNone
  | some other =>
    match this.pdatumLeft with
    | none => true
    | some left =>
      if left < other then true
      else if other < left then false
      else this.eriLeft = eriIncluded && prange.eriLeft = eriExcluded

/-- Does this range end after the given one. Of two infinite ends each is after the other. -/
def fEndsAfter (this prange : CRange δ) : Bool :=
  match prange.pdatumRight with
  | none => this.pdatumRight.isNone
  | some other =>
    match this.pdatumRight with
    | none => true
    | some right =>
      if other < right then true
      else if right < other then false
      else this.eriRight = eriIncluded && prange.eriRight = eriExcluded

def fStartsWithOrBefore (this prange : CRange δ) : Bool :=
  if this.fStartsBefore prange then true
  else
    match prange.pdatumLeft, this.pdatumLeft with
    | none, none => true
    | some other, some left => left = other && this.eriLeft = prange.eriLeft
    | _, _ => false

def fEndsWithOrAfter (this prange : CRange δ) : Bool :=
  if this.fEndsAfter prange then true
  else
    match prange.pdatumRight, this.pdatumRight with
    | none, none => true
    | some other, some right => right = other && this.eriRight = prange.eriRight
    | _, _ => false

def contains (this prange : CRange δ) : Bool :=
  this.fStartsWithOrBefore prange && this.fEndsWithOrAfter prange

def fOverlapsLeft (this prange : CRange δ) : Bool :=
  this.fStartsBefore prange && !this.fEndsAfter prange && !this.fDisjointLeft prange

def fOverlapsRight (this prange : CRange δ) : Bool :=
  this.fEndsAfter prange && !this.fStartsBefore prange && !prange.fDisjointLeft this

def prngIntersect (this prange : CRange δ) : Option (CRange δ) :=
  if this.contains prange then some prange
  else if prange.contains this then some this
  else if this.fOverlapsLeft prange then
    some ⟨prange.pdatumLeft, prange.eriLeft, this.pdatumRight, this.eriRight⟩
  else if this.fOverlapsRight prange then
    some ⟨this.pdatumLeft, this.eriLeft, prange.pdatumRight, prange.eriRight⟩
  else none

def prngDifferenceLeft (this prange : CRange δ) : Option (CRange δ) :=
  if this.fDisjointLeft prange then some this
  else if prange.pdatumLeft.isSome && this.fStartsBefore prange then
    some ⟨this.pdatumLeft, this.eriLeft, prange.pdatumLeft, eriInverseInclusion prange.eriLeft⟩
  else none

def prngDifferenceRight (this prange : CRange δ) : Option (CRange δ) :=
  if prange.fDisjointLeft this then some this
  else if prange.pdatumRight.isSome && this.fEndsAfter prange then
    some ⟨prange.pdatumRight, eriInverseInclusion prange.eriRight, this.pdatumRight, this.eriRight⟩
  else none

/-- This range together with one that starts right after it. The source compares the two datums
without a look at infinite ends: no range ends before an infinite start, and the callers hand
in a range that this one ends before. -/
def prngExtend (this prange : CRange δ) : Option (CRange δ) :=
  match prange.pdatumLeft, this.pdatumRight with
  | some left, some right =>
    if (prange.eriLeft = eriIncluded ∨ this.eriRight = eriIncluded) ∧ left = right then
      some ⟨this.pdatumLeft, this.eriLeft, prange.pdatumRight, prange.eriRight⟩
    else none
  | _, _ => none

/-! ### Values and cuts -/

def FollowsLeft (this : CRange δ) (value : δ) : Prop :=
  match this.pdatumLeft, this.eriLeft with
  | none, _ => True
  | some left, eriIncluded => left ≤ value
  | some left, eriExcluded => left < value

def PrecedesRight (this : CRange δ) (value : δ) : Prop :=
  match this.pdatumRight, this.eriRight with
  | none, _ => True
  | some right, eriIncluded => value ≤ right
  | some right, eriExcluded => value < right

def Has (this : CRange δ) (value : δ) : Prop := this.FollowsLeft value ∧ this.PrecedesRight value

def Proper (this : CRange δ) : Prop :=
  match this.pdatumLeft, this.pdatumRight with
  | some left, some right =>
    left < right ∨ left = right ∧ this.eriLeft = eriIncluded ∧ this.eriRight = eriIncluded
  | _, _ => True

def low (this : CRange δ) : Cut δ :=
  match this.pdatumLeft with
  | none => ⊥
  | some left => Cut.edge left (this.eriLeft = eriExcluded)

def high (this : CRange δ) : Cut δ :=
  match this.pdatumRight with
  | none => ⊤
  | some right => Cut.edge right (this.eriRight = eriIncluded)

variable {this prange : CRange δ}

theorem low_ne_top (this : CRange δ) : this.low ≠ ⊤ := by
  unfold low
  split
  · exact bot_ne_top
  · exact Cut.edge_ne_top

theorem low_eq_bot_iff : this.low = ⊥ ↔ this.pdatumLeft = none := by
  unfold low
  split <;> simp_all

theorem high_eq_top_iff : this.high = ⊤ ↔ this.pdatumRight = none := by
  unfold high
  split <;> simp_all

theorem proper_iff : this.Proper ↔ this.low < this.high := by
  obtain ⟨left, inclLeft, right, inclRight⟩ := this
  cases left <;> cases right <;> cases inclLeft <;> cases inclRight <;>
    simp [Proper, low, high]

theorem has_iff {value} :
    this.Has value ↔ Foundations.Spans low high this (Cut.edge value false) := by
  obtain ⟨left, inclLeft, right, inclRight⟩ := this
  apply and_congr
  · cases left <;> cases inclLeft <;> simp [FollowsLeft, low]
    exact le_iff_lt_or_eq
  · cases right <;> cases inclRight <;> simp [PrecedesRight, high]
    exact le_iff_lt_or_eq

theorem Proper.exists_has [DenselyOrdered δ] [NoMinOrder δ] [NoMaxOrder δ] [Nonempty δ]
    (proper : this.Proper) : ∃ value, this.Has value := by
  obtain ⟨left, inclLeft, right, inclRight⟩ := this
  cases left with
  | none =>
    cases right with
    | none => exact ⟨Classical.arbitrary δ, by simp [Has, FollowsLeft, PrecedesRight]⟩
    | some right =>
      obtain ⟨value, less⟩ := exists_lt right
      refine ⟨value, by simp [FollowsLeft], ?_⟩
      cases inclRight
      · exact less.le
      · exact less
  | some left =>
    cases right with
    | none =>
      obtain ⟨value, greater⟩ := exists_gt left
      refine ⟨value, ?_, by simp [PrecedesRight]⟩
      cases inclLeft
      · exact greater.le
      · exact greater
    | some right =>
      rcases proper with less | ⟨rfl, rfl, rfl⟩
      · obtain ⟨value, greater, less⟩ := exists_between less
        refine ⟨value, ?_, ?_⟩
        · cases inclLeft
          · exact greater.le
          · exact greater
        · cases inclRight
          · exact less.le
          · exact less
      · exact ⟨left, le_refl left, le_refl left⟩

theorem fDisjointLeft_iff : this.fDisjointLeft prange = true ↔ this.high ≤ prange.low := by
  obtain ⟨_, _, right, inclRight⟩ := this
  obtain ⟨left', inclLeft', _, _⟩ := prange
  cases right <;> cases left' <;> cases inclRight <;> cases inclLeft' <;>
    simp [fDisjointLeft, low, high]

theorem fStartsBefore_iff : this.fStartsBefore prange = true ↔
      this.low < prange.low ∨ this.low = ⊥ ∧ prange.low = ⊥ := by
  obtain ⟨left, inclLeft, _, _⟩ := this
  obtain ⟨left', inclLeft', _, _⟩ := prange
  cases left <;> cases left' <;> cases inclLeft <;> cases inclLeft' <;>
    simp [fStartsBefore, low]
  all_goals grind

theorem fEndsAfter_iff : this.fEndsAfter prange = true ↔
      prange.high < this.high ∨ this.high = ⊤ ∧ prange.high = ⊤ := by
  obtain ⟨_, _, right, inclRight⟩ := this
  obtain ⟨_, _, right', inclRight'⟩ := prange
  cases right <;> cases right' <;> cases inclRight <;> cases inclRight' <;>
    simp [fEndsAfter, high]
  all_goals grind

theorem fStartsWithOrBefore_iff :
    this.fStartsWithOrBefore prange = true ↔ this.low ≤ prange.low := by
  obtain ⟨left, inclLeft, _, _⟩ := this
  obtain ⟨left', inclLeft', _, _⟩ := prange
  cases left <;> cases left' <;> cases inclLeft <;> cases inclLeft' <;>
    simp [fStartsWithOrBefore, fStartsBefore, low]
  all_goals grind

theorem fEndsWithOrAfter_iff : this.fEndsWithOrAfter prange = true ↔ prange.high ≤ this.high := by
  obtain ⟨_, _, right, inclRight⟩ := this
  obtain ⟨_, _, right', inclRight'⟩ := prange
  cases right <;> cases right' <;> cases inclRight <;> cases inclRight' <;>
    simp [fEndsWithOrAfter, fEndsAfter, high]
  all_goals grind

theorem contains_iff :
    this.contains prange = true ↔ this.low ≤ prange.low ∧ prange.high ≤ this.high := by
  rw [contains, Bool.and_eq_true, fStartsWithOrBefore_iff, fEndsWithOrAfter_iff]

theorem high_le_of_fEndsAfter (after : this.fEndsAfter prange) : prange.high ≤ this.high := by
  rcases fEndsAfter_iff.mp after with lt | ⟨infinite, -⟩
  · exact lt.le
  · exact infinite ▸ le_top

theorem high_le_of_not_fEndsAfter (after : ¬ this.fEndsAfter prange = true) :
    this.high ≤ prange.high := by
  rw [fEndsAfter_iff, not_or] at after
  exact not_lt.mp after.1

/-! ### The operations -/

def IsSpan (result : Option (CRange δ)) (low high : Cut δ) : Prop :=
  match result with
  | some range => range.low = low ∧ range.high = high ∧ low < high
  | none => high ≤ low

omit [LinearOrder δ] in
theorem high_of_low {left} (ends : prange.pdatumLeft = some left) (low inclusion) :
    (mk low inclusion prange.pdatumLeft (eriInverseInclusion prange.eriLeft)).high =
      prange.low := by
  cases incl : prange.eriLeft <;> simp [high, CRange.low, ends, incl, eriInverseInclusion]

omit [LinearOrder δ] in
theorem low_of_high {right} (ends : prange.pdatumRight = some right) (high inclusion) :
    (mk prange.pdatumRight (eriInverseInclusion prange.eriRight) high inclusion).low =
      prange.high := by
  cases incl : prange.eriRight <;> simp [CRange.high, low, ends, incl, eriInverseInclusion]

theorem prngDifferenceLeft_spec (prange) (proper : this.low < this.high) :
    IsSpan (this.prngDifferenceLeft prange) this.low (min this.high prange.low) := by
  unfold prngDifferenceLeft
  split_ifs with disj starts
  · rw [fDisjointLeft_iff] at disj
    exact ⟨rfl, (min_eq_left disj).symm, lt_min proper (proper.trans_le disj)⟩
  · rw [fDisjointLeft_iff, not_le] at disj
    rw [Bool.and_eq_true, fStartsBefore_iff, Option.isSome_iff_exists] at starts
    obtain ⟨⟨_, finite⟩, starts⟩ := starts
    have pre : this.low < prange.low := by
      rcases starts with pre | ⟨-, infinite⟩
      · exact pre
      · rw [low_eq_bot_iff, finite] at infinite
        cases infinite
    refine ⟨rfl, ?_, lt_min proper pre⟩
    rw [min_eq_right disj.le]
    exact high_of_low finite ..
  · rw [Bool.and_eq_true, fStartsBefore_iff, not_and_or] at starts
    refine (min_le_right ..).trans ?_
    rcases starts with infinite | starts
    · rw [Option.not_isSome_iff_eq_none, ← low_eq_bot_iff] at infinite
      exact infinite ▸ bot_le
    · exact not_lt.mp (not_or.mp starts).1

theorem prngDifferenceRight_spec (prange) (proper : this.low < this.high) :
    IsSpan (this.prngDifferenceRight prange) (max this.low prange.high) this.high := by
  unfold prngDifferenceRight
  split_ifs with disj ends
  · rw [fDisjointLeft_iff] at disj
    exact ⟨(max_eq_left disj).symm, rfl, max_lt proper (disj.trans_lt proper)⟩
  · rw [fDisjointLeft_iff, not_le] at disj
    rw [Bool.and_eq_true, fEndsAfter_iff, Option.isSome_iff_exists] at ends
    obtain ⟨⟨_, finite⟩, ends⟩ := ends
    have after : prange.high < this.high := by
      rcases ends with after | ⟨-, infinite⟩
      · exact after
      · rw [high_eq_top_iff, finite] at infinite
        cases infinite
    refine ⟨?_, rfl, max_lt proper after⟩
    rw [max_eq_right disj.le]
    exact low_of_high finite ..
  · rw [Bool.and_eq_true, fEndsAfter_iff, not_and_or] at ends
    refine le_trans ?_ (le_max_right ..)
    rcases ends with infinite | ends
    · rw [Option.not_isSome_iff_eq_none, ← high_eq_top_iff] at infinite
      exact infinite ▸ le_top
    · exact not_lt.mp (not_or.mp ends).1

theorem prngIntersect_spec (proper : this.low < this.high)
    (properOther : prange.low < prange.high) :
    IsSpan (this.prngIntersect prange) (max this.low prange.low) (min this.high prange.high) := by
  unfold prngIntersect
  split_ifs with contains sub left right
  · rw [contains_iff] at contains
    rw [max_eq_right contains.1, min_eq_right contains.2]
    exact ⟨rfl, rfl, properOther⟩
  · rw [contains_iff] at sub
    rw [max_eq_left sub.1, min_eq_left sub.2]
    exact ⟨rfl, rfl, proper⟩
  · simp only [fOverlapsLeft, Bool.and_eq_true, Bool.not_eq_eq_eq_not, Bool.not_true,
      Bool.eq_false_iff, ne_eq, fDisjointLeft_iff, not_le] at left
    obtain ⟨⟨starts, ends⟩, overlap⟩ := left
    have pre : this.low ≤ prange.low := by
      rcases fStartsBefore_iff.mp starts with lt | ⟨infinite, -⟩
      · exact lt.le
      · exact infinite ▸ bot_le
    rw [max_eq_right pre, min_eq_left (high_le_of_not_fEndsAfter ends)]
    exact ⟨rfl, rfl, overlap⟩
  · simp only [fOverlapsRight, Bool.and_eq_true, Bool.not_eq_eq_eq_not, Bool.not_true,
      Bool.eq_false_iff, ne_eq, fDisjointLeft_iff, not_le, fStartsBefore_iff, not_or,
      not_lt] at right
    obtain ⟨⟨ends, starts⟩, overlap⟩ := right
    rw [max_eq_left starts.1, min_eq_right (high_le_of_fEndsAfter ends)]
    exact ⟨rfl, rfl, overlap⟩
  · -- Neither contains the other, so the one that starts first also ends first.
    simp only [contains_iff] at contains sub
    simp only [fOverlapsLeft, fOverlapsRight, Bool.and_eq_true, Bool.not_eq_eq_eq_not,
      Bool.not_true, Bool.eq_false_iff, ne_eq, fDisjointLeft_iff, fStartsBefore_iff,
      fEndsAfter_iff] at left right
    rcases lt_trichotomy this.low prange.low with pre | _ | _
    · exact (min_le_left ..).trans (le_trans (by grind) (le_max_right ..))
    · grind
    · exact (min_le_right ..).trans (le_trans (by grind) (le_max_left ..))

theorem prngExtend_some {range} (ext : this.prngExtend prange = some range) :
    range.low = this.low ∧ range.high = prange.high ∧ prange.low ≤ this.high := by
  unfold prngExtend at ext
  split at ext
  · rename_i left right isLeft isRight
    split_ifs at ext with joined
    obtain ⟨included, rfl⟩ := joined
    rw [Option.some.injEq] at ext
    subst ext
    refine ⟨rfl, rfl, ?_⟩
    rcases included with included | included <;> simp [low, high, isLeft, isRight, included]
  · cases ext

theorem lt_of_prngExtend_none (apart : this.prngExtend prange = none)
    (order : this.high ≤ prange.low) : this.high < prange.low := by
  obtain ⟨_, _, right, inclRight⟩ := this
  obtain ⟨left', inclLeft', _, _⟩ := prange
  cases right <;> cases left' <;> cases inclRight <;> cases inclLeft' <;>
    simp_all [prngExtend, low, high]
  all_goals grind

end CRange

end Greengage.Orca
