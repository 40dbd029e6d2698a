import Mathlib.Data.List.Basic

/-!
Contract: binary search for the interval that holds a point.

Does not own: what the intervals are. The bounds of an item are functions of it.
-/

namespace Greengage.Foundations

open Option List

universe u

variable {α : Type u}

section

variable (start stop : α → Nat)

def InInterval (item : α) (point : Nat) : Prop := start item ≤ point ∧ point < stop item

instance (item : α) (point : Nat) : Decidable (InInterval start stop item point) :=
  inferInstanceAs (Decidable (_ ∧ _))

def Increasing (items : List α) : Prop :=
  items.Pairwise fun left right => stop left ≤ start right

/-- Binary search between the positions `low` and `high`, without the latter. -/
def searchInterval (items : List α) (point : Nat) : Nat → Nat → Nat → Option Nat
  | 0, _, _ => none
  | fuel + 1, low, high =>
    if low < high then
      let middle := low + (high - low) / 2
      match items[middle]? with
      | none => none
      | some item =>
        if InInterval start stop item point then some middle
        else if point < start item then searchInterval items point fuel low middle
        else searchInterval items point fuel (middle + 1) high
    else none

end

variable {start stop : α → Nat} {items : List α} {point : Nat}

theorem searchInterval_sound {fuel low high index}
    (found : searchInterval start stop items point fuel low high = some index) :
    ∃ item, items[index]? = some item ∧ InInterval start stop item point := by
  induction fuel generalizing low high with
  | zero => cases found
  | succ fuel ih =>
    simp only [searchInterval, ite_none_right_eq_some] at found
    obtain ⟨-, found⟩ := found
    split at found
    · cases found
    · rename_i item at_middle
      split_ifs at found with holds
      · cases found
        exact ⟨item, at_middle, holds⟩
      · exact ih found
      · exact ih found

theorem Increasing.stop_le (incr : Increasing start stop items) {left right : Nat}
    {leftItem rightItem : α} (at_left : items[left]? = some leftItem)
    (at_right : items[right]? = some rightItem) (pre : left < right) :
    stop leftItem ≤ start rightItem := by
  obtain ⟨leftLt, rfl⟩ := List.getElem?_eq_some_iff.mp at_left
  obtain ⟨rightLt, rfl⟩ := List.getElem?_eq_some_iff.mp at_right
  exact pairwise_iff_getElem.mp incr left right leftLt rightLt pre

section

variable (proper : ∀ item, start item ≤ stop item) (incr : Increasing start stop items)
include proper incr

/-- The search finds the item that holds the point: the half that is left out of the search
does not have it. -/
theorem searchInterval_complete {index : Nat} {item : α} (at_index : items[index]? = some item)
    (holds : InInterval start stop item point) {fuel low high : Nat} (le : high - low ≤ fuel)
    (low_le : low ≤ index) (lt_high : index < high) (high_le : high ≤ items.length) :
    searchInterval start stop items point fuel low high = some index := by
  induction fuel generalizing low high with
  | zero => omega
  | succ fuel ih =>
    obtain ⟨mid, middleDef⟩ := @exists_eq _ (low + (high - low) / 2)
    have middleLt : mid < items.length := by omega
    have at_middle := getElem?_eq_getElem middleLt
    obtain ⟨probe, probeDef⟩ := @exists_eq _ (items[mid])
    rw [← probeDef] at at_middle
    simp only [searchInterval, ← middleDef, at_middle]
    rw [if_pos (by omega)]
    obtain ⟨startLe, ltStop⟩ := holds
    rcases Nat.lt_trichotomy index mid with pre | rfl | after
    · have apart := incr.stop_le at_index at_middle pre
      rw [if_neg fun holds => by have := holds.1; omega, if_pos (by omega)]
      exact ih (by omega) low_le pre (by omega)
    · obtain rfl := some.inj (at_middle.symm.trans at_index)
      rw [if_pos ⟨startLe, ltStop⟩]
    · have apart := incr.stop_le at_middle at_index after
      have := proper probe
      rw [if_neg fun holds => by have := holds.2; omega, if_neg (by omega)]
      exact ih (by omega) (by omega) lt_high high_le

theorem searchInterval_eq_some_iff {index} :
    searchInterval start stop items point items.length 0 items.length = some index ↔
      ∃ item, items[index]? = some item ∧ InInterval start stop item point := by
  refine ⟨searchInterval_sound, ?_⟩
  rintro ⟨item, at_index, holds⟩
  have indexLt := (List.getElem?_eq_some_iff.mp at_index).1
  exact searchInterval_complete proper incr at_index holds (by omega) (by omega) indexLt
    (Nat.le_refl _)

end

section

variable (incr : Increasing start stop items) {left right : α} (leftMem : left ∈ items)
  (rightMem : right ∈ items)
include incr leftMem rightMem

theorem Increasing.eq_or_apart :
    left = right ∨ stop left ≤ start right ∨ stop right ≤ start left := by
  obtain ⟨i, at_i⟩ := getElem?_of_mem leftMem
  obtain ⟨j, at_j⟩ := getElem?_of_mem rightMem
  rcases Nat.lt_trichotomy i j with pre | rfl | after
  · exact .inr (.inl (incr.stop_le at_i at_j pre))
  · exact .inl (some.inj (at_i.symm.trans at_j))
  · exact .inr (.inr (incr.stop_le at_j at_i after))

theorem Increasing.unique (leftHolds : InInterval start stop left point)
    (rightHolds : InInterval start stop right point) : left = right := by
  obtain ⟨_, _⟩ := leftHolds
  obtain ⟨_, _⟩ := rightHolds
  rcases incr.eq_or_apart leftMem rightMem with same | apart | apart
  · exact same
  · omega
  · omega

end

section

variable (proper : ∀ item, start item ≤ stop item) (incr : Increasing start stop items)
  (ne : items ≠ []) {item : α} (member : item ∈ items)
include proper incr ne member

theorem Increasing.start_head_le : start (items.head ne) ≤ start item := by
  cases items with
  | nil => exact absurd rfl ne
  | cons first rest =>
    rcases mem_cons.mp member with rfl | later
    · exact Nat.le_refl _
    · exact Nat.le_trans (proper first) ((pairwise_cons.mp incr).1 item later)

theorem Increasing.stop_le_getLast : stop item ≤ stop (items.getLast ne) := by
  induction items with
  | nil => exact absurd rfl ne
  | cons first rest ih =>
    obtain ⟨pre, others⟩ := pairwise_cons.mp incr
    rcases rest.eq_nil_or_concat with rfl | ⟨_, _, rfl⟩
    · obtain rfl := mem_singleton.mp member
      exact Nat.le_refl _
    · rw [getLast_cons (by simp)]
      rcases mem_cons.mp member with rfl | later
      · exact Nat.le_trans (pre _ (getLast_mem (by simp))) (proper _)
      · exact ih others (by simp) later

end

end Greengage.Foundations
