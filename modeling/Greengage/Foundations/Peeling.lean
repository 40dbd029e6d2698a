import Mathlib.Data.Multiset.AddSub
import Mathlib.Order.Bounds.Basic

/-!
Contract: peeling a finite multiset down to its greatest self-supporting part.

Elements may need the support of other elements to stay. The support predicate
`Ok kept e` is monotone in `kept`. Deleting unsupported elements one at a time,
in any order, until none is left ends in the greatest self-supporting
sub-multiset, so the outcome does not depend on the order.
-/

namespace Greengage.Foundations

universe u

variable {α : Type u} [DecidableEq α] {Ok : Multiset α → α → Prop}

def SelfSupporting (Ok : Multiset α → α → Prop) (kept : Multiset α) : Prop :=
  ∀ e ∈ kept, Ok kept e

def MonotoneSupport (Ok : Multiset α → α → Prop) : Prop :=
  ∀ (small large : Multiset α) (e : α), small ≤ large → Ok small e → Ok large e

/-- `Peels Ok before after`: `after` arises from `before` by deleting elements
that are unsupported at the moment of their deletion. -/
inductive Peels (Ok : Multiset α → α → Prop) : Multiset α → Multiset α → Prop
  | refl (kept : Multiset α) : Peels Ok kept kept
  | step {before after : Multiset α} {e : α} (member : e ∈ before)
      (unsupported : ¬ Ok before e) (rest : Peels Ok (before.erase e) after) :
      Peels Ok before after

variable {pre after : Multiset α}

theorem Peels.le (peels : Peels Ok pre after) : after ≤ pre := by
  induction peels with
  | refl kept => exact le_rfl
  | step mem unsupported rest ih =>
    exact ih.trans (Multiset.erase_le _ _)

theorem Peels.trans {mid} (first : Peels Ok pre mid) (snd : Peels Ok mid after) :
    Peels Ok pre after := by
  induction first with
  | refl kept => exact snd
  | step mem unsupported rest ih =>
    exact .step mem unsupported (ih snd)

theorem Peels.keeps {part} (monotone : MonotoneSupport Ok) (peels : Peels Ok pre after)
    (supported : SelfSupporting Ok part) (sub : part ≤ pre) : part ≤ after := by
  induction peels with
  | refl kept => exact sub
  | @step pre after e mem unsupported rest ih =>
    have out : e ∉ part := fun lt =>
      unsupported (monotone part pre e sub (supported e lt))
    apply ih
    have shrunk := Multiset.erase_le_erase e sub
    rwa [Multiset.erase_of_notMem out] at shrunk

theorem Peels.isGreatest (monotone : MonotoneSupport Ok) (peels : Peels Ok pre after)
    (done : SelfSupporting Ok after) :
    IsGreatest {part | part ≤ pre ∧ SelfSupporting Ok part} after :=
  ⟨⟨peels.le, done⟩, fun _ part => peels.keeps monotone part.2 part.1⟩

end Greengage.Foundations
