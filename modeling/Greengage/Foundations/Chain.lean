import Mathlib.Data.List.Nodup
import Mathlib.Data.List.Perm.Subperm

/-!
Contract: singly linked lists of addresses.

The successor function is all that is known of the records.
-/

namespace Greengage.Foundations

variable {succ other : Nat → Option Nat} {head stop : Option Nat} {addresses left right : List Nat}

/-- Following `succ` from `head` meets `addresses` and arrives at `stop`. -/
def Segment (succ : Nat → Option Nat) : Option Nat → List Nat → Option Nat → Prop
  | head, [], stop => head = stop
  | head, address :: rest, stop => head = some address ∧ Segment succ (succ address) rest stop

theorem segment_append : Segment succ head (left ++ right) stop ↔
      ∃ mid, Segment succ head left mid ∧ Segment succ mid right stop := by
  induction left generalizing head with
  | nil =>
    constructor
    · intro whole
      exact ⟨head, rfl, whole⟩
    · rintro ⟨mid, rfl, whole⟩
      exact whole
  | cons addr left ih =>
    constructor
    · rintro ⟨first, rest⟩
      obtain ⟨mid, pre, behind⟩ := ih.mp rest
      exact ⟨mid, ⟨first, pre⟩, behind⟩
    · rintro ⟨mid, ⟨first, pre⟩, behind⟩
      exact ⟨first, ih.mpr ⟨mid, pre, behind⟩⟩

theorem Segment.congr (seg : Segment succ head addresses stop)
    (same : ∀ addr ∈ addresses, other addr = succ addr) :
    Segment other head addresses stop := by
  induction addresses generalizing head with
  | nil => exact seg
  | cons addr rest ih =>
    refine ⟨seg.1, ?_⟩
    rw [same addr List.mem_cons_self]
    exact ih seg.2 fun next mem =>
      same next (List.mem_cons_of_mem addr mem)

/-- The addresses met from `head` on, at most `fuel` of them. -/
def follow (succ : Nat → Option Nat) : Nat → Option Nat → List Nat
  | 0, _ => []
  | _ + 1, none => []
  | fuel + 1, some address => address :: follow succ fuel (succ address)

theorem Segment.follow_eq {fuel} (seg : Segment succ head addresses none)
    (le : addresses.length ≤ fuel) : follow succ fuel head = addresses := by
  induction addresses generalizing head fuel with
  | nil =>
    rw [show head = none from seg]
    cases fuel <;> rfl
  | cons addr rest ih =>
    cases fuel with
    | zero => simp at le
    | succ fuel =>
      rw [seg.1, follow, ih seg.2 (by simpa using le)]

theorem length_le_of_nodup {bound} (nodup : addresses.Nodup)
    (below : ∀ addr ∈ addresses, addr < bound) : addresses.length ≤ bound := by
  have subset : addresses ⊆ List.range bound := fun addr mem =>
    List.mem_range.mpr (below addr mem)
  simpa using (List.subperm_of_subset nodup subset).length_le

end Greengage.Foundations
