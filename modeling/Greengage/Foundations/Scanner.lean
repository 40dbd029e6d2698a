import Mathlib.Data.List.Infix

/-!
Contract: machines that find the ends of records in a text.

Does not own: any particular format.
-/

namespace Greengage.Foundations

universe u v

/-- A machine that reads symbols and tells after which of them a record ends. Then it is as at
the start. -/
structure Scanner (σ : Type u) (α : Type v) where
  start : σ
  step : σ → α → σ × Bool
  reset : ∀ state symbol, (step state symbol).2 = true → (step state symbol).1 = start

namespace Scanner

variable {σ : Type u} {α : Type v} (scanner : Scanner σ α)

def run (state : σ) (text : List α) : σ :=
  text.foldl (fun state symbol => (scanner.step state symbol).1) state

/-- A record ends with the last symbol of the text. -/
def EndsAt (text : List α) : Prop :=
  ∃ front last, text = front ++ [last] ∧
    (scanner.step (scanner.run scanner.start front) last).2 = true

theorem run_append (state) (left right : List α) :
    scanner.run state (left ++ right) = scanner.run (scanner.run state left) right :=
  List.foldl_append

/-- One pass over a text that begins after `position` symbols: where the last record ends, or
the first when only `one` is asked for. -/
def scanRecords (one : Bool) (state : σ) (position : Nat) (last : Option Nat) :
    List α → Option Nat
  | [] => last
  | symbol :: text =>
    match scanner.step state symbol with
    | (next, true) =>
      if one then some (position + 1)
      else scanRecords one next (position + 1) (some (position + 1)) text
    | (next, false) => scanRecords one next (position + 1) last text

variable {scanner} {text read : List α}

theorem EndsAt.run_eq (ends : scanner.EndsAt text) : scanner.run scanner.start text =
    scanner.start := by
  obtain ⟨front, last, rfl, ends⟩ := ends
  rw [run_append]
  exact scanner.reset _ last ends

theorem endsAt_append (boundary : scanner.run scanner.start read = scanner.start)
    (nonempty : text ≠ []) : scanner.EndsAt (read ++ text) ↔ scanner.EndsAt text := by
  constructor
  · rintro ⟨front, last, whole, ends⟩
    rw [← List.dropLast_append_getLast nonempty, ← List.append_assoc] at whole
    obtain ⟨rfl, final⟩ := List.append_inj' whole rfl
    refine ⟨text.dropLast, last, ?_, ?_⟩
    · rw [← final, List.dropLast_append_getLast nonempty]
    · rwa [run_append, boundary] at ends
  · rintro ⟨front, last, rfl, ends⟩
    refine ⟨read ++ front, last, (List.append_assoc ..).symm, ?_⟩
    rwa [run_append, boundary]

theorem endsAt_concat {symbol : α} : scanner.EndsAt (read ++ [symbol]) ↔
    (scanner.step (scanner.run scanner.start read) symbol).2 = true := by
  constructor
  · rintro ⟨front, last, whole, ends⟩
    obtain ⟨rfl, same⟩ := List.append_inj' whole rfl
    cases same
    exact ends
  · intro ends
    exact ⟨read, symbol, rfl, ends⟩

theorem run_concat (symbol : α) : scanner.run scanner.start (read ++ [symbol]) =
    (scanner.step (scanner.run scanner.start read) symbol).1 :=
  scanner.run_append _ read [symbol]

/-- What the pass finds is the end of a record, or was known to be one. -/
theorem scanRecords_endsAt {one : Bool} {last : Option Nat} {n : Nat}
    (known : ∀ m ∈ last, m ≤ read.length ∧ scanner.EndsAt (read.take m))
    (found : scanner.scanRecords one (scanner.run scanner.start read) read.length last text =
      some n) :
    scanner.EndsAt ((read ++ text).take n) := by
  induction text generalizing read last with
  | nil =>
    rw [List.append_nil]
    exact (known n found).2
  | cons symbol text ih =>
    have ends := @endsAt_concat _ _ scanner read symbol
    have state := @run_concat _ _ scanner read symbol
    have next := @ih (read ++ [symbol])
    rw [state, List.length_append, List.length_singleton, ← List.append_cons] at next
    unfold scanRecords at found
    split at found
    next stepped =>
      have whole := ends.2 (by rw [stepped])
      split_ifs at found
      · cases found
        rw [List.append_cons, List.take_left' (by simp)]
        exact whole
      · rw [stepped] at next
        apply next _ found
        rintro m ⟨⟩
        exact ⟨le_rfl, by rwa [List.take_of_length_le (by simp)]⟩
    next stepped =>
      rw [stepped] at next
      apply next _ found
      intro m mem
      have ⟨le, ends⟩ := known m mem
      rw [List.take_append_of_le_length le]
      exact ⟨Nat.le_add_right_of_le le, ends⟩

/-- When only the first record is asked for, no record ends before the end that is found. -/
theorem scanRecords_first_le {more : List α} (nonempty : more ≠ []) (among : more <+: text)
    (ends : scanner.EndsAt (read ++ more)) :
    ∃ n, scanner.scanRecords true (scanner.run scanner.start read) read.length none text =
      some n ∧ n ≤ (read ++ more).length := by
  induction text generalizing read more with
  | nil => exact absurd (List.prefix_nil.1 among) nonempty
  | cons symbol text ih =>
    obtain ⟨more, rfl⟩ : ∃ tail, more = symbol :: tail := by
      cases more with
      | nil => contradiction
      | cons head tail => exact ⟨tail, by rw [(List.cons_prefix_cons.1 among).1]⟩
    unfold scanRecords
    split
    next => exact ⟨_, rfl, by simp⟩
    next stepped =>
      rw [List.append_cons] at ends ⊢
      have next := @ih (read ++ [symbol]) more
      rw [run_concat, stepped, List.length_append, List.length_singleton] at next
      apply next _ (List.cons_prefix_cons.1 among).2 ends
      rintro rfl
      rw [List.append_nil, endsAt_concat, stepped] at ends
      contradiction

end Scanner

end Greengage.Foundations
