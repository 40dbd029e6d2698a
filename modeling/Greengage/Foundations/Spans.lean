import Mathlib.Data.List.Basic
import Mathlib.Data.Prod.Lex
import Mathlib.Order.MinMax
import Mathlib.Order.WithBot

/-!
Contract: lists of half-open spans over a linear order, and the cuts of a linear order.

A range with open or closed ends is a half-open span between two cuts, a value being the
position of the cut before it.

Does not own: what the spans are. The ends of an item are functions of it.
-/

namespace Greengage.Foundations

open List

universe u v

/-! ### Lists of spans -/

section

variable {α : Type u} {κ : Type v} [LinearOrder κ] (low high : α → κ)

def Spans (item : α) (position : κ) : Prop := low item ≤ position ∧ position < high item

def Covers (items : List α) (position : κ) : Prop := ∃ item ∈ items, Spans low high item position

def Above (bound : κ) (items : List α) : Prop := ∀ item ∈ items, bound ≤ low item

def Below (items : List α) (bound : κ) : Prop := ∀ item ∈ items, high item ≤ bound

structure Ordered (items : List α) : Prop where
  nonempty : ∀ item ∈ items, low item < high item
  apart : items.Pairwise fun left right => high left ≤ low right

end

variable {α : Type u} {κ : Type v} [LinearOrder κ] {low high : α → κ}
  {item : α} {items more : List α} {pos bound : κ}

@[simp] theorem not_covers_nil : ¬ Covers low high [] pos := by simp [Covers]

@[simp] theorem covers_cons : Covers low high (item :: items) pos ↔
      Spans low high item pos ∨ Covers low high items pos := by
  simp [Covers]

@[simp] theorem covers_append : Covers low high (items ++ more) pos ↔
      Covers low high items pos ∨ Covers low high more pos := by
  simp [Covers, or_and_right, exists_or]

theorem Above.not_covers (above : Above low bound items) (pre : pos < bound) :
    ¬ Covers low high items pos := by
  rintro ⟨item, mem, begun, -⟩
  exact absurd (above item mem) (not_le.mpr (begun.trans_lt pre))

theorem Above.of_le {bound'} (above : Above low bound items) (le : bound' ≤ bound) :
    Above low bound' items :=
  fun item mem => le.trans (above item mem)

theorem Below.of_le {bound'} (below : Below high items bound) (le : bound ≤ bound') :
    Below high items bound' :=
  fun item mem => (below item mem).trans le

@[simp] theorem above_nil : Above low bound ([] : List α) := by simp [Above]

@[simp] theorem above_cons :
    Above low bound (item :: items) ↔ bound ≤ low item ∧ Above low bound items := by
  simp [Above]

@[simp] theorem below_nil : Below high ([] : List α) bound := by simp [Below]

@[simp] theorem below_append :
    Below high (items ++ more) bound ↔ Below high items bound ∧ Below high more bound := by
  simp [Below, or_imp, forall_and]

@[simp] theorem below_cons :
    Below high (item :: items) bound ↔ high item ≤ bound ∧ Below high items bound := by
  simp [Below]

theorem ordered_nil : Ordered low high ([] : List α) := ⟨by simp, .nil⟩

theorem ordered_iff : Ordered low high items ↔ (∀ item ∈ items, low item < high item) ∧
      items.Pairwise fun left right => high left ≤ low right :=
  ⟨fun ord => ⟨ord.nonempty, ord.apart⟩, fun ord => ⟨ord.1, ord.2⟩⟩

theorem ordered_cons : Ordered low high (item :: items) ↔
      low item < high item ∧ Above low (high item) items ∧ Ordered low high items := by
  rw [ordered_iff, ordered_iff, forall_mem_cons, pairwise_cons, Above]
  tauto

theorem ordered_append_singleton : Ordered low high (items ++ [item]) ↔
      Ordered low high items ∧ Below high items (low item) ∧ low item < high item := by
  rw [ordered_iff, ordered_iff, forall_mem_append, forall_mem_singleton, pairwise_append]
  simp only [mem_singleton, forall_eq, pairwise_singleton, Below]
  tauto

section

variable (ord : Ordered low high (item :: items))
include ord

theorem Ordered.above_tail : Above low (high item) items :=
  (ordered_cons.mp ord).2.1

theorem Ordered.tail : Ordered low high items :=
  (ordered_cons.mp ord).2.2

theorem Ordered.head_nonempty : low item < high item :=
  (ordered_cons.mp ord).1

theorem Ordered.above (le : bound ≤ low item) : Above low bound (item :: items) :=
  above_cons.mpr ⟨le, ord.above_tail.of_le (le.trans ord.head_nonempty.le)⟩

theorem Ordered.above_or_above_tail {others}
    (above : Above low bound (item :: items) ∨ Above low bound others) :
    Above low (max bound (high item)) items ∨ Above low (max bound (high item)) others := by
  rcases le_total bound (high item) with early | late
  · rw [max_eq_right early]
    exact .inl ord.above_tail
  · rw [max_eq_left late]
    rcases above with above | above
    · exact absurd ((above_cons.mp above).1.trans_lt ord.head_nonempty) (not_lt.mpr late)
    · exact .inr above

end

theorem Ordered.eq_nil (ord : Ordered low high items)
    (nothing : ∀ pos, ¬ Covers low high items pos) : items = [] := by
  cases items with
  | nil => rfl
  | cons item rest =>
    exact absurd (covers_cons.mpr (.inl ⟨le_rfl, ord.head_nonempty⟩)) (nothing (low item))

/-! ### Sweeps

What the positions of two ordered lists come to when the head that ends first is taken off. -/

section

variable {first snd residue : α} {rest others : List α}

theorem covers_and_covers_cons (ends : high first ≤ high snd)
    (above : Above low (high snd) others) :
    Covers low high (first :: rest) pos ∧ Covers low high (snd :: others) pos ↔
      (max (low first) (low snd) ≤ pos ∧ pos < min (high first) (high snd)) ∨
        Covers low high rest pos ∧ Covers low high (snd :: others) pos := by
  have ge : pos < high first → ¬ Covers low high others pos :=
    fun pre => above.not_covers (pre.trans_le ends)
  rw [max_le_iff, lt_min_iff]
  simp only [covers_cons, Spans]
  tauto

theorem covers_or_covers_cons (ends : high first ≤ high snd) :
    Covers low high (first :: rest) pos ∨ Covers low high (snd :: others) pos ↔
      (low first ≤ pos ∧ pos < min (high first) (low snd)) ∨
        Covers low high rest pos ∨ Covers low high (snd :: others) pos := by
  have within : pos < high first → low snd ≤ pos → Spans low high snd pos :=
    fun pre begun => ⟨begun, pre.trans_le ends⟩
  have := lt_or_ge pos (low snd)
  rw [lt_min_iff]
  simp only [covers_cons, Spans] at within ⊢
  tauto

theorem covers_diff_cons (ends : high first ≤ high snd) (ord : Ordered low high (snd :: others)) :
    Covers low high (first :: rest) pos ∧ ¬ Covers low high (snd :: others) pos ↔
      (low first ≤ pos ∧ pos < min (high first) (low snd)) ∨
        Covers low high rest pos ∧ ¬ Covers low high (snd :: others) pos := by
  have out : pos < low snd → ¬ Covers low high (snd :: others) pos :=
    (ord.above le_rfl).not_covers
  have within : pos < high first → low snd ≤ pos → Covers low high (snd :: others) pos :=
    fun pre begun => covers_cons.mpr (.inl ⟨begun, pre.trans_le ends⟩)
  have := lt_or_ge pos (low snd)
  rw [lt_min_iff, covers_cons, Spans]
  tauto

theorem covers_diff_skip (ord : Ordered low high (first :: rest)) (pre : high snd ≤ low first) :
    Covers low high (first :: rest) pos ∧ ¬ Covers low high (snd :: others) pos ↔
      Covers low high (first :: rest) pos ∧ ¬ Covers low high others pos := by
  have out : pos < high snd → ¬ Covers low high (first :: rest) pos :=
    (ord.above pre).not_covers
  have inSecond : Covers low high (snd :: others) pos ↔
      low snd ≤ pos ∧ pos < high snd ∨ Covers low high others pos :=
    covers_cons
  tauto

/-- Of a head that ends last, what lies before the span taken away is left, and the residue
after it is still to be compared. -/
theorem covers_diff_residue (ord : Ordered low high (first :: rest))
    (orderedOther : Ordered low high (snd :: others)) (ends : high snd < high first)
    (meets : low first < high snd) (begins : low residue = high snd)
    (stops : high residue = high first) :
    Covers low high (first :: rest) pos ∧ ¬ Covers low high (snd :: others) pos ↔
      (low first ≤ pos ∧ pos < min (high first) (low snd)) ∨
        Covers low high (residue :: rest) pos ∧ ¬ Covers low high others pos := by
  have inFirst : Covers low high (first :: rest) pos ↔
      low first ≤ pos ∧ pos < high first ∨ Covers low high rest pos :=
    covers_cons
  have inResidue : Covers low high (residue :: rest) pos ↔
      high snd ≤ pos ∧ pos < high first ∨ Covers low high rest pos := by
    rw [covers_cons, Spans, begins, stops]
  rw [lt_min_iff, inFirst, inResidue]
  rcases lt_or_ge pos (high snd) with pre | after
  · have notRest : ¬ Covers low high rest pos :=
      ord.above_tail.not_covers (pre.trans ends)
    have notResidue := not_le.mpr pre
    have notFinished := pre.trans ends
    rcases lt_or_ge pos (low snd) with out | inside
    · have notSecond : ¬ Covers low high (snd :: others) pos :=
        (orderedOther.above le_rfl).not_covers out
      simp [notRest, notResidue, out, notSecond]
    · have inSecond : Covers low high (snd :: others) pos :=
        covers_cons.mpr (.inl ⟨inside, pre⟩)
      simp [notRest, notResidue, not_lt.mpr inside, inSecond]
  · have begun := meets.le.trans after
    have notBefore := not_lt.mpr (orderedOther.head_nonempty.le.trans after)
    simp [Spans, after, begun, notBefore]

end

section

variable {δ : Type u} [LinearOrder δ]

/-- A place between the values of an order, or at one of its ends. -/
abbrev Cut (δ : Type u) := WithBot (WithTop (δ ×ₗ Bool))

def Cut.edge (value : δ) (after : Bool) : Cut δ :=
  WithBot.some (WithTop.some (toLex (value, after)))

@[simp] theorem Cut.edge_le_edge {x y : δ} {b c : Bool} :
    edge x b ≤ edge y c ↔ x < y ∨ x = y ∧ b ≤ c := by
  rw [edge, edge, WithBot.coe_le_coe, WithTop.coe_le_coe, Prod.Lex.toLex_le_toLex]

@[simp] theorem Cut.edge_lt_edge {x y : δ} {b c : Bool} :
    edge x b < edge y c ↔ x < y ∨ x = y ∧ b < c := by
  rw [edge, edge, WithBot.coe_lt_coe, WithTop.coe_lt_coe, Prod.Lex.toLex_lt_toLex]

@[simp] theorem Cut.bot_lt_edge {x : δ} {b : Bool} : ⊥ < edge x b := WithBot.bot_lt_coe _

@[simp] theorem Cut.edge_lt_top {x : δ} {b : Bool} : edge x b < ⊤ :=
  WithBot.coe_lt_coe.mpr (WithTop.coe_lt_top _)

@[simp] theorem Cut.edge_ne_bot {x : δ} {b : Bool} : edge x b ≠ ⊥ := bot_lt_edge.ne'

@[simp] theorem Cut.edge_ne_top {x : δ} {b : Bool} : edge x b ≠ ⊤ := edge_lt_top.ne

end

end Greengage.Foundations
