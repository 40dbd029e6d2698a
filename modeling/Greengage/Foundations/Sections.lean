import Mathlib.Data.List.Infix

/-!
Contract: sections of a sequence, each ended by a closing item.

Does not own: who sends the items or takes them.
-/

namespace Greengage.Foundations

/-- A value of the section, or its end. -/
inductive Item (α : Type) where
  | value (value : α)
  | close
  deriving DecidableEq

variable {α : Type}

def closes : List (Item α) → Nat
  | [] => 0
  | .value _ :: rest => closes rest
  | .close :: rest => closes rest + 1

def numbered (first : Nat) : List (Item α) → List (Nat × Item α)
  | [] => []
  | .value value :: rest => (first, .value value) :: numbered first rest
  | .close :: rest => (first, .close) :: numbered (first + 1) rest

def numberedValues : List (Nat × Item α) → List (Nat × α)
  | [] => []
  | (number, .value value) :: rest => (number, value) :: numberedValues rest
  | (_, .close) :: rest => numberedValues rest

def valuesAt (number : Nat) (values : List (Nat × α)) : List α :=
  (values.filter (·.1 == number)).map (·.2)

def sections : List (List α) → List (Item α)
  | [] => []
  | values :: rest => values.map .value ++ .close :: sections rest

@[simp]
theorem closes_append (items others : List (Item α)) :
    closes (items ++ others) = closes items + closes others := by
  induction items with
  | nil => simp [closes]
  | cons item rest ih =>
    cases item with
    | value value => simpa [closes] using ih
    | close =>
      simp only [List.cons_append, closes]
      omega

@[simp]
theorem closes_map_value (values : List α) : closes (values.map Item.value) = 0 := by
  induction values with
  | nil => rfl
  | cons value rest ih => simpa [closes] using ih

theorem numbered_append (first : Nat) (items others : List (Item α)) :
    numbered first (items ++ others) =
      numbered first items ++ numbered (first + closes items) others := by
  induction items generalizing first with
  | nil => rfl
  | cons item rest ih =>
    cases item with
    | value value => simp [numbered, closes, ih]
    | close =>
      simp only [List.cons_append, numbered, closes, ih]
      rw [show first + 1 + closes rest = first + (closes rest + 1) by omega]

theorem numberedValues_append (items others : List (Nat × Item α)) :
    numberedValues (items ++ others) = numberedValues items ++ numberedValues others := by
  induction items with
  | nil => rfl
  | cons item rest ih =>
    obtain ⟨_, item⟩ := item
    cases item <;> simp [numberedValues, ih]

theorem valuesAt_append (num : Nat) (values rest : List (Nat × α)) :
    valuesAt num (values ++ rest) = valuesAt num values ++ valuesAt num rest := by
  simp [valuesAt]

theorem valuesAt_numbered_of_lt {num first} (lt : num < first) (items : List (Item α)) :
    valuesAt num (numberedValues (numbered first items)) = [] := by
  induction items generalizing first with
  | nil => rfl
  | cons item rest ih =>
    cases item with
    | value value =>
      have other : (first == num) = false := by simpa using by omega
      simpa [numbered, numberedValues, valuesAt, other] using ih lt
    | close => exact ih (by omega)

theorem valuesAt_numbered_map_value (num : Nat) (values : List α) :
    valuesAt num (numberedValues (numbered num (values.map Item.value))) = values := by
  induction values with
  | nil => rfl
  | cons value rest ih =>
    simpa [numbered, numberedValues, valuesAt] using ih

theorem valuesAt_numbered_map_value_of_ne {num first} (ne : num ≠ first) (values : List α) :
    valuesAt num (numberedValues (numbered first (values.map Item.value))) = [] := by
  have other : (first == num) = false := by simpa using ne.symm
  induction values with
  | nil => rfl
  | cons value rest ih =>
    simpa [numbered, numberedValues, valuesAt, other] using ih

variable {streams : List (List α)} {values : List α}

theorem valuesAt_sections {index} (first : Nat) (isValues : streams[index]? = some values) :
    valuesAt (first + index) (numberedValues (numbered first (sections streams))) = values := by
  induction streams generalizing index first with
  | nil => cases isValues
  | cons stream rest ih =>
    have split : numberedValues (numbered first (sections (stream :: rest))) =
        numberedValues (numbered first (stream.map Item.value)) ++
          numberedValues (numbered (first + 1) (sections rest)) := by
      rw [sections, numbered_append, closes_map_value, numberedValues_append]
      rfl
    rw [split, valuesAt_append]
    cases index with
    | zero =>
      cases isValues
      rw [Nat.add_zero, valuesAt_numbered_map_value, valuesAt_numbered_of_lt (by omega),
        List.append_nil]
    | succ index =>
      have := ih (first + 1) isValues
      rw [valuesAt_numbered_map_value_of_ne (by omega), List.nil_append]
      rwa [show first + (index + 1) = first + 1 + index by omega]

theorem closes_sections (streams : List (List α)) : closes (sections streams) = streams.length := by
  induction streams with
  | nil => rfl
  | cons stream rest ih => simp [sections, closes, ih]

variable {items : List (Item α)}

theorem closes_le_of_isPrefix (isPart : items <+: sections streams) :
    closes items ≤ streams.length := by
  obtain ⟨_, whole⟩ := isPart
  have total := closes_sections streams
  rw [← whole, closes_append] at total
  omega

theorem valuesAt_of_isPrefix {index} (isPart : items <+: sections streams)
    (isValues : streams[index]? = some values) :
    valuesAt index (numberedValues (numbered 0 items)) <+: values ∧
      (index < closes items → valuesAt index (numberedValues (numbered 0 items)) = values) := by
  obtain ⟨_, whole⟩ := isPart
  have all := valuesAt_sections 0 isValues
  rw [← whole, numbered_append, numberedValues_append, valuesAt_append] at all
  simp only [Nat.zero_add] at all
  refine ⟨⟨_, all⟩, fun ended => ?_⟩
  rwa [valuesAt_numbered_of_lt ended, List.append_nil] at all

end Greengage.Foundations
