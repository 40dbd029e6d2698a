import Mathlib.Logic.Function.Basic

/-!
Contract: a heap of records addressed by numbers.

Owns: allocation at the next free address, in-place modification, and the
read-after-write laws. Nothing is ever freed: a record that is no longer
reachable stays in its cell.
-/

namespace Greengage.Foundations

open Function

universe u

/-- Records by address; addresses from `next` on are not allocated yet. -/
structure Heap (α : Type u) where
  next : Nat
  cell : Nat → α

namespace Heap

variable {α : Type u}

/-- The heap with nothing allocated; unallocated cells read as `blank`. -/
def empty (blank : α) : Heap α := ⟨0, fun _ => blank⟩

/-- Store a new record at address `heap.next`. -/
def alloc (heap : Heap α) (record : α) : Heap α :=
  ⟨heap.next + 1, update heap.cell heap.next record⟩

/-- Change the record at `address` in place. -/
def modify (heap : Heap α) (address : Nat) (change : α → α) : Heap α :=
  ⟨heap.next, update heap.cell address (change (heap.cell address))⟩

@[simp] theorem alloc_next (heap : Heap α) (record : α) :
    (heap.alloc record).next = heap.next + 1 := rfl

@[simp] theorem alloc_cell_new (heap : Heap α) (record : α) :
    (heap.alloc record).cell heap.next = record := by
  simp [alloc]

theorem alloc_cell_old (heap : Heap α) (record : α) {addr} (alloc : addr < heap.next) :
    (heap.alloc record).cell addr = heap.cell addr :=
  update_of_ne (Nat.ne_of_lt alloc) _ _

@[simp] theorem modify_cell_same (heap : Heap α) (addr : Nat) (change : α → α) :
    (heap.modify addr change).cell addr = change (heap.cell addr) := by
  simp [modify]

theorem modify_cell_other (heap : Heap α) {addr other} (change : α → α)
    (ne : other ≠ addr) : (heap.modify addr change).cell other = heap.cell other :=
  update_of_ne ne _ _

theorem modify_cell (heap : Heap α) (addr : Nat) (change : α → α) (other : Nat) :
    (heap.modify addr change).cell other =
      if addr = other then change (heap.cell other) else heap.cell other := by
  split
  case isTrue same => rw [same, modify_cell_same]
  case isFalse ne => exact modify_cell_other heap change (symm ne)

theorem modify_proj {β : Type*} (proj : α → β) (heap : Heap α) (addr : Nat) (change : α → α)
    (kept : ∀ record, proj (change record) = proj record) (other : Nat) :
    proj ((heap.modify addr change).cell other) = proj (heap.cell other) := by
  by_cases same : other = addr
  · subst same
    rw [modify_cell_same, kept]
  · rw [modify_cell_other heap change same]

end Heap

end Greengage.Foundations
