import Mathlib.Algebra.Order.BigOperators.Group.Finset
import Mathlib.Algebra.Group.Action.Defs
import Mathlib.Data.Fintype.BigOperators

/-!
Contract: items that are placed at sites, one after another.

Does not own: which items and sites there are, and why an item may be placed at a site.
-/

namespace Greengage.Foundations

open Function Finset

variable {σ κ : Type*} [Fintype σ] [DecidableEq κ] {placed : σ → Option κ} {site : κ}
  {capacity : Nat}

def load (placed : σ → Option κ) (site : κ) : Nat :=
  (Finset.univ.filter fun item => placed item = some site).card

theorem load_update [DecidableEq σ] (placed : σ → Option κ) (item place site) :
    load (update placed item place) site + (if placed item = some site then 1 else 0) =
      load placed site + (if place = some site then 1 else 0) := by
  simp only [load, card_filter]
  rw [← add_sum_erase _ _ (mem_univ item),
    ← add_sum_erase univ (fun other => if placed other = some site then 1 else 0) (mem_univ item)]
  have rest : ∑ other ∈ univ.erase item,
      (if update placed item place other = some site then 1 else 0) =
        ∑ other ∈ univ.erase item, (if placed other = some site then 1 else 0) := by
    refine sum_congr rfl fun other otherMem => ?_
    rw [update_of_ne (ne_of_mem_erase otherMem)]
  rw [rest, update_self]
  omega

theorem load_place [DecidableEq σ] {item} (hole : placed item = none) (place site) :
    load (update placed item (some place)) site =
      load placed site + if place = site then 1 else 0 := by
  have moved := load_update placed item (some place) site
  simpa [hole] using moved

theorem sum_load [Fintype κ] (placed : σ → Option κ) :
    ∑ site, load placed site = (univ.filter fun item => (placed item).isSome).card := by
  simp only [load, card_filter]
  rw [sum_comm]
  refine sum_congr rfl fun item _ => ?_
  cases placed item with
  | none => simp
  | some place => simp

theorem load_eq_of_le [Fintype κ] (compl : ∀ item, (placed item).isSome = true)
    (le : Fintype.card σ = Fintype.card κ * capacity)
    (within : ∀ site, load placed site ≤ capacity) (site) : load placed site = capacity := by
  have total : ∑ site, load placed site = ∑ _site : κ, capacity := by
    rw [sum_load, filter_true_of_mem fun item _ => compl item, card_univ, le,
      sum_const, card_univ, smul_eq_mul]
  exact (sum_eq_sum_iff_of_le fun site _ => within site).mp total site (mem_univ site)

/-- The items that both placements have at the same site. -/
def agreeing (placed other : σ → Option κ) (item : σ) : Option κ :=
  if placed item = other item then placed item else none

omit [Fintype σ] in
theorem agreeing_eq_some {other item} : agreeing placed other item = some site ↔
    placed item = some site ∧ other item = some site := by
  unfold agreeing
  split_ifs with same
  · simp [← same]
  · simp only [false_iff, not_and]
    exact fun here there => same (here.trans there.symm)

theorem load_agreeing_le (placed other : σ → Option κ) (site) :
    load (agreeing placed other) site ≤ min (load placed site) (load other site) := by
  refine le_min (card_le_card fun item => ?_) (card_le_card fun item => ?_)
  · simpa [agreeing_eq_some] using fun here _ => here
  · simp [agreeing_eq_some]

theorem le_load_agreeing {other}
    (nested : (∀ item, placed item = some site → other item = some site) ∨
      ∀ item, other item = some site → placed item = some site) :
    min (load placed site) (load other site) ≤ load (agreeing placed other) site := by
  rcases nested with nested | nested
  · refine (min_le_left ..).trans (card_le_card fun item => ?_)
    simpa [agreeing_eq_some] using fun here => ⟨here, nested item here⟩
  · refine (min_le_right ..).trans (card_le_card fun item => ?_)
    simpa [agreeing_eq_some] using fun here => ⟨nested item here, here⟩

theorem exists_load_eq_zero [Fintype κ]
    (fewer : (univ.filter fun item => (placed item).isSome).card < Fintype.card κ) :
    ∃ site, load placed site = 0 := by
  by_contra taken
  rw [not_exists] at taken
  have atLeast : ∑ _site : κ, 1 ≤ ∑ site, load placed site :=
    sum_le_sum fun site _ => Nat.one_le_iff_ne_zero.mpr (taken site)
  rw [sum_load, sum_const, card_univ, smul_eq_mul, mul_one] at atLeast
  omega

theorem load_eq_countP {count} (placed : Fin count → Option κ) (site) :
    load placed site = (List.finRange count).countP fun item => placed item = some site := by
  rw [List.countP_eq_length_filter]
  rfl

omit [Fintype σ] in
theorem length_eq_sum_countP [Fintype κ] (placed : σ → Option κ) (items : List σ) :
    items.length = ∑ site, items.countP (fun item => placed item = some site) +
      items.countP (fun item => placed item = none) := by
  induction items with
  | nil => simp
  | cons item rest ih =>
    simp only [List.countP_cons, sum_add_distrib]
    cases placed item with
    | none => simp; omega
    | some place => simp; omega

theorem load_pos {item} (here : placed item = some site) : 0 < load placed site :=
  card_pos.mpr ⟨item, by simp [here]⟩

theorem eq_of_load_le_one (single : load placed site ≤ 1) {item other}
    (here : placed item = some site) (there : placed other = some site) : item = other :=
  card_le_one.mp single item (by simp [here]) other (by simp [there])

theorem load_comp_le {κ' : Type*} [DecidableEq κ'] {place : σ → κ} {rename : κ → Option κ'}
    {target : κ'} (injective : ∀ site other, rename site = some target →
      rename other = some target → site = other)
    (within : ∀ site, load (fun item => some (place item)) site ≤ capacity) :
    load (fun item => rename (place item)) target ≤ capacity := by
  by_cases some_item : ∃ item, rename (place item) = some target
  · obtain ⟨item, here⟩ := some_item
    refine (card_le_card fun other otherMem => ?_).trans (within (place item))
    have there : rename (place other) = some target := by simpa using otherMem
    simp [injective _ _ there here]
  · rw [not_exists] at some_item
    simp [load, some_item]

theorem load_le_of_injOn (num : σ → Nat)
    (small : ∀ item, placed item = some site → num item < capacity)
    (distinct : ∀ item other, placed item = some site → placed other = some site →
      num item = num other → item = other) : load placed site ≤ capacity := by
  rw [← card_range capacity]
  refine card_le_card_of_injOn num ?_ ?_
  · intro item here
    simpa using small item (by simpa using here)
  · intro item here other there same
    exact distinct item other (by simpa using here) (by simpa using there) same

end Greengage.Foundations
