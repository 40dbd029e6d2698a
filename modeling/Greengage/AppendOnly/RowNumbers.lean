import Greengage.AppendOnly.InsertSessions
import Mathlib.Algebra.GroupWithZero.Nat

/-!
Contract: the row numbers that insert sessions give to the rows of a segment file.

Does not own: the choice of the segment file beyond its test of the tuple count.
-/

namespace Greengage.AppendOnly

open List

/-- A segment file with more rows takes no more: 90% of the largest row number. -/
def segfileMaxRowThreshold : Nat := 9 * aoTupleIdMaxRowNum / 10

/-- `AOTupleId` as it is stored. -/
structure AOTupleIdWords where
  bytes01 : Nat
  bytes23 : Nat
  bytes45 : Nat

def aoTupleIdInit (segfilenum rownum : Nat) : AOTupleIdWords :=
  ⟨segfilenum % 2 ^ 7 * 2 ^ 9 + rownum % 2 ^ 40 / 2 ^ 31, rownum % 2 ^ 31 / 2 ^ 15,
    rownum % 2 ^ 15 + 1⟩

def AOTupleIdWords.rowNum (id : AOTupleIdWords) : Nat :=
  id.bytes01 % 2 ^ 9 * 2 ^ 31 + id.bytes23 * 2 ^ 15 + (id.bytes45 - 1)

def numFastSequences : Nat := 100

/-- The first number, and the `last_sequence` that is stored. There may be no row before. -/
def getFastSequences (lastSequence : Option Nat) (numSequences : Nat) : Nat × Nat :=
  match lastSequence with
  | none => (1, numSequences)
  | some last => (last + 1, last + 1 + numSequences - 1)

/-- A session: the size of its first allocation, and what it does. -/
structure Numbering where
  numRows : Nat
  rows : Nat
  committed : Bool
  -- only a session that knows that it has no rows allocates nothing
  known : numRows = 0 → rows = 0

/-- The numbers of the rows and the stored `last_sequence`. In `appendonly_insert` the descriptor
has the last number and how many more are allocated. -/
def numberRows (lastSequence numSequences stored : Nat) : Nat → List Nat × Nat
  | 0 => ([], stored)
  | rows + 1 =>
    let later :=
      if numSequences - 1 = 0 then
        numberRows (lastSequence + 1) numFastSequences
          (getFastSequences (some stored) numFastSequences).2 rows
      else numberRows (lastSequence + 1) (numSequences - 1) stored rows
    ((lastSequence + 1) :: later.1, later.2)

/-- The rows of `gp_fastsequence` and `pg_aoseg`. The first one is not rolled back. -/
structure NumberedFile where
  lastSequence : Option Nat
  tupcount : Nat

namespace NumberedFile

def empty : NumberedFile := ⟨none, 0⟩

def run (file : NumberedFile) (session : Numbering) : List Nat × NumberedFile :=
  let allocated := getFastSequences file.lastSequence session.numRows
  let numbered := numberRows (allocated.1 - 1) session.numRows allocated.2 session.rows
  (numbered.1, ⟨some numbered.2,
    if session.committed then file.tupcount + session.rows else file.tupcount⟩)

/-- `ClearFileSegInfo`, when a file that was compacted is recycled. It does not touch
`gp_fastsequence`. -/
def clearFileSegInfo (file : NumberedFile) : NumberedFile := { file with tupcount := 0 }

end NumberedFile

inductive FileEvent
  | insert (session : Numbering)
  | recycle

namespace NumberedFile

def step (file : NumberedFile) : FileEvent → List Nat × NumberedFile
  | .insert session => file.run session
  | .recycle => ([], file.clearFileSegInfo)

/-- The numbers that are passed to `AOTupleIdInit`. -/
def rowNums (file : NumberedFile) : List FileEvent → List Nat
  | [] => []
  | event :: events => (file.step event).1 ++ (file.step event).2.rowNums events

/-- Each session starts with a file that is not full, and inserts less than 10%. -/
def Accepts (file : NumberedFile) : List FileEvent → Prop
  | [] => True
  | .insert session :: events => file.tupcount ≤ segfileMaxRowThreshold ∧
      10 * session.rows < aoTupleIdMaxRowNum ∧ (file.run session).2.Accepts events
  | .recycle :: events => file.clearFileSegInfo.Accepts events

end NumberedFile

namespace Numbering

/-- The numbers that a session takes from `gp_fastsequence`. -/
def reserved (session : Numbering) : Nat :=
  session.numRows + numFastSequences *
    ((session.rows + numFastSequences - max session.numRows 1) / numFastSequences)

end Numbering

/-- The rows of every session fit behind the numbers that were taken before it, whether or not
their rows are counted. -/
def Fits (taken : Nat) : List FileEvent → Bool
  | [] => true
  | .insert session :: events =>
    (session.rows = 0 || taken + session.rows ≤ aoTupleIdMaxRowNum) &&
      Fits (taken + session.reserved) events
  | .recycle :: events => Fits taken events

theorem numberRows_spec {stored last num} (rows) (alloc : stored = last + num)
    (pos : 0 < num) : numberRows last num stored rows = (range' (last + 1) rows,
      stored + numFastSequences * ((rows + numFastSequences - num) / numFastSequences)) := by
  induction rows generalizing last num stored with
  | zero =>
    simp only [numberRows, range'_zero, Prod.mk.injEq, true_and, numFastSequences]
    omega
  | succ rows ih =>
    rw [numberRows, range'_succ]
    by_cases used : num - 1 = 0
    · have next : (getFastSequences (some stored) numFastSequences).2 =
          last + 1 + numFastSequences := by
        simp only [getFastSequences]
        omega
      simp only [if_pos used, next, @ih _ (last + 1) numFastSequences rfl (by decide),
        Prod.mk.injEq, true_and]
      simp only [numFastSequences]
      omega
    · have next : stored = last + 1 + (num - 1) := by omega
      simp only [if_neg used, ih next (by omega), Prod.mk.injEq, true_and, numFastSequences]
      omega

namespace NumberedFile

/-- The last number that is taken. -/
def last (file : NumberedFile) : Nat := file.lastSequence.getD 0

theorem run_spec (file : NumberedFile) (sess) : file.run sess = (range' (file.last + 1) sess.rows,
      ⟨some (file.last + sess.reserved),
        if sess.committed then file.tupcount + sess.rows else file.tupcount⟩) := by
  have alloc : getFastSequences file.lastSequence sess.numRows =
      (file.last + 1, file.last + sess.numRows) := by
    rcases file with ⟨_ | _, _⟩
    · simp [getFastSequences, last]
    · simp only [getFastSequences, last, Option.getD_some, Prod.mk.injEq, true_and]
      omega
  rw [run, alloc, Nat.add_sub_cancel]
  rcases Nat.eq_zero_or_pos sess.numRows with none | pos
  · simp [sess.known none, numberRows, Numbering.reserved, none, numFastSequences]
  · rw [numberRows_spec sess.rows rfl pos, Numbering.reserved, Nat.max_eq_left pos, add_assoc]

theorem rowNums_le_iff (file : NumberedFile) (events) :
    (∀ row ∈ file.rowNums events, row ≤ aoTupleIdMaxRowNum) ↔ Fits file.last events := by
  induction events generalizing file with
  | nil => simp [rowNums, Fits]
  | cons event events ih =>
    rw [rowNums, forall_mem_append, ih]
    cases event with
    | insert sess =>
      have own : (∀ row ∈ range' (file.last + 1) sess.rows, row ≤ aoTupleIdMaxRowNum) ↔
          sess.rows = 0 ∨ file.last + sess.rows ≤ aoTupleIdMaxRowNum := by
        simp only [mem_range'_1]
        constructor
        · intro below
          have := below (file.last + sess.rows)
          omega
        · intro fits row between
          omega
      rw [step, run_spec, own, Fits, Bool.and_eq_true, Bool.or_eq_true, decide_eq_true_eq,
        decide_eq_true_eq]
      rfl
    | recycle => simp [step, clearFileSegInfo, Fits, last]

end NumberedFile

theorem rowNum_aoTupleIdInit {rowNum} (le : rowNum ≤ aoTupleIdMaxRowNum) (segno) :
    (aoTupleIdInit segno rowNum).rowNum = rowNum := by
  simp only [aoTupleIdInit, AOTupleIdWords.rowNum, aoTupleIdMaxRowNum] at le ⊢
  omega

/-- A session that inserts almost 10%. -/
def almostTenth (committed : Bool) : FileEvent := .insert ⟨100, 109951162777, committed, by decide⟩

end Greengage.AppendOnly
