import Greengage.AppendOnly.RowNumbers
import Mathlib.Data.List.Sort

/-!
Contract: the segment file that an insert gets.

Does not own: the modes of VACUUM. New rows of `pg_aoseg` are frozen, so the snapshot sees the row
of every segment file.
-/

namespace Greengage.AppendOnly

open List

def maxAorelConcurrency : Nat := 128

def reservedSegno : Nat := 0

/-- `AOSegfileFormatVersion_GetLatest`. -/
def latestFormatVersion : Nat := 3

inductive AosegState where
  | default
  | awaitingDrop
deriving DecidableEq

/-- A row of `pg_aoseg`. It is `own` if the transaction has written it, and holds its lock. -/
structure AosegRow where
  segno : Nat
  tupcount : Nat
  state : AosegState
  formatversion : Nat
  own : Bool
  lockedByOther : Bool
  updatedAfter : Bool
deriving DecidableEq

namespace AosegRow

/-- `heap_lock_tuple` returns `TM_Ok`. -/
def locks (row : AosegRow) : Bool := !row.lockedByOther && !row.updatedAfter

structure Usable (row : AosegRow) : Prop where
  state : row.state = .default
  room : row.tupcount ≤ segfileMaxRowThreshold
  latest : row.formatversion = latestFormatVersion
  locked : row.own = true ∨ row.locks = true

end AosegRow

structure PgAoseg where
  rows : List AosegRow
  nodup : (rows.map AosegRow.segno).Nodup
  small : ∀ row ∈ rows, row.segno < maxAorelConcurrency

/-- The table and the transaction. The transaction may have written the row of the table in
`pg_class`, because it has created or altered the table. -/
structure Inserter where
  relname : String
  ownClassRow : Bool
  utility : Bool

namespace PgAoseg

variable (aoseg : PgAoseg)

/-- Without a row the segment file is created, and its new row locked. -/
def lockSegnoForWrite (segno : Nat) : Except String Unit :=
  match aoseg.rows.find? (·.segno == segno) with
  | none => .ok ()
  | some row =>
    if row.state ≠ .default then .error s!"segfile {segno} is in unexpected state 2"
    else if row.tupcount > segfileMaxRowThreshold then .error s!"segfile {segno} is full"
    else if row.formatversion ≠ latestFormatVersion then
      .error s!"segfile {segno} is not of the latest version"
    else if row.own || row.locks then .ok ()
    else .error s!"could not lock segfile {segno}"

variable (inserter : Inserter)

def isCandidate (row : AosegRow) : Bool :=
  row.state = .default && !(row.tupcount > segfileMaxRowThreshold) &&
    row.formatversion = latestFormatVersion && !(!inserter.utility && row.segno = reservedSegno)

def compareCandidates (a b : AosegRow) : Bool :=
  a.tupcount < b.tupcount || a.tupcount = b.tupcount && a.segno ≤ b.segno

def chooseNewSegfile : Option Nat :=
  (range maxAorelConcurrency).find? fun segno =>
    !(!inserter.utility && segno = 0) && !aoseg.rows.any (·.segno = segno)

/-- The rest of `choose_segno_internal`. The scan ends at a segment file that the transaction has
used before. -/
def chooseSegnoInternal : Option Nat :=
  match aoseg.rows.find? fun row => isCandidate inserter row && row.own with
  | some row => some row.segno
  | none =>
    match ((aoseg.rows.filter (isCandidate inserter)).insertionSort
        (compareCandidates · ·)).find? AosegRow.locks with
    | some row => some row.segno
    | none => aoseg.chooseNewSegfile inserter

def chooseSegnoForWrite : Except String Nat :=
  if inserter.ownClassRow then (aoseg.lockSegnoForWrite reservedSegno).map fun _ => reservedSegno
  else
    match aoseg.chooseSegnoInternal inserter with
    | some segno => .ok segno
    | none => .error
        s!"could not find segment file to use for inserting into relation \"{inserter.relname}\""

/-- A segment file is usable if its row is, or if it has none. -/
def Usable (segno : Nat) : Prop := ∀ row ∈ aoseg.rows, row.segno = segno → row.Usable

/-- Every number but the reserved one has a row that is not usable. -/
def NoneUsable : Prop := ∀ segno, 1 ≤ segno → segno < maxAorelConcurrency →
  ∃ row ∈ aoseg.rows, row.segno = segno ∧ ¬ row.Usable

end PgAoseg

namespace PgAoseg

variable {aoseg : PgAoseg} {inserter : Inserter} {row : AosegRow} {segno : Nat}

theorem unique (mem : row ∈ aoseg.rows) {other} (otherMem : other ∈ aoseg.rows)
    (same : other.segno = row.segno) : other = row :=
  inj_on_of_nodup_map aoseg.nodup otherMem mem same

theorem usable_of_mem (mem : row ∈ aoseg.rows) (usable : row.Usable) : aoseg.Usable row.segno := by
  intro _ otherMem same
  rwa [unique mem otherMem same]

theorem isCandidate_iff : isCandidate inserter row = true ↔
    row.state = .default ∧ row.tupcount ≤ segfileMaxRowThreshold ∧
      row.formatversion = latestFormatVersion ∧
      (inserter.utility = true ∨ row.segno ≠ reservedSegno) := by
  simp [isCandidate, and_assoc]

theorem usable_of_candidate (candidate : isCandidate inserter row = true)
    (locked : row.own = true ∨ row.locks = true) : row.Usable := by
  obtain ⟨state, room, latest, -⟩ := isCandidate_iff.mp candidate
  exact ⟨state, room, latest, locked⟩

/-- What `choose_segno_internal` chooses is usable. -/
theorem usable_chooseSegnoInternal (chosen : aoseg.chooseSegnoInternal inserter = some segno) :
    segno < maxAorelConcurrency ∧ aoseg.Usable segno := by
  unfold chooseSegnoInternal at chosen
  split at chosen
  case h_1 row found =>
    cases chosen
    have mem := mem_of_find?_eq_some found
    obtain ⟨candidate, own⟩ : isCandidate inserter row = true ∧ row.own = true := by
      simpa using find?_some found
    exact ⟨aoseg.small row mem, usable_of_mem mem (usable_of_candidate candidate (.inl own))⟩
  case h_2 =>
    split at chosen
    case h_1 row found =>
      cases chosen
      obtain ⟨mem, candidate⟩ :=
        mem_filter.mp ((mem_insertionSort _).mp (mem_of_find?_eq_some found))
      exact ⟨aoseg.small row mem,
        usable_of_mem mem (usable_of_candidate candidate (.inr (find?_some found)))⟩
    case h_2 =>
      refine ⟨mem_range.mp (mem_of_find?_eq_some chosen), fun row mem same => ?_⟩
      have unused := find?_some chosen
      simp only [Bool.and_eq_true, Bool.not_eq_true', any_eq_false, decide_eq_true_eq] at unused
      exact absurd same (unused.2 row mem)

theorem noneUsable_of_none (none : aoseg.chooseSegnoInternal inserter = none) :
    aoseg.NoneUsable := by
  intro segno pos small
  unfold chooseSegnoInternal at none
  split at none
  · cases none
  rename_i noneOwn
  split at none
  · cases none
  rename_i noneLocked
  have used := find?_eq_none.mp none segno (mem_range.mpr small)
  have ne : segno ≠ 0 := by omega
  simp only [ne, decide_false, Bool.and_false, Bool.not_false, Bool.true_and, Bool.not_eq_true',
    Bool.not_eq_false, any_eq_true, decide_eq_true_eq] at used
  obtain ⟨row, mem, rfl⟩ := used
  refine ⟨row, mem, rfl, fun usable => ?_⟩
  have candidate : isCandidate inserter row = true :=
    isCandidate_iff.mpr ⟨usable.state, usable.room, usable.latest, .inr ne⟩
  rcases usable.locked with own | locks
  · exact find?_eq_none.mp noneOwn row mem (by simp [candidate, own])
  · have sorted := (mem_insertionSort (compareCandidates · ·)).mpr (mem_filter.mpr ⟨mem, candidate⟩)
    exact find?_eq_none.mp noneLocked row sorted locks

theorem lockSegnoForWrite_iff : aoseg.lockSegnoForWrite segno = .ok () ↔ aoseg.Usable segno := by
  unfold lockSegnoForWrite
  split
  case h_1 absent =>
    refine iff_of_true rfl fun row mem same => ?_
    simpa [same] using find?_eq_none.mp absent row mem
  case h_2 row found =>
    have mem := mem_of_find?_eq_some found
    obtain rfl : row.segno = segno := by simpa using find?_some found
    constructor
    · intro locked
      refine usable_of_mem mem ?_
      split_ifs at locked with state full old lock
      exact ⟨not_not.mp state, not_lt.mp full, not_not.mp old, by simpa using lock⟩
    · intro usable
      obtain ⟨state, room, latest, locked⟩ := usable row mem rfl
      simp [state, not_lt.mpr room, latest, locked]

theorem chooseSegnoForWrite_own (own : inserter.ownClassRow = true) :
    aoseg.chooseSegnoForWrite inserter = .ok segno ↔
      segno = reservedSegno ∧ aoseg.Usable reservedSegno := by
  rw [chooseSegnoForWrite, if_pos own, ← lockSegnoForWrite_iff]
  cases aoseg.lockSegnoForWrite reservedSegno <;> simp [Except.map, eq_comm]

/-- The segment file that an insert gets is usable. An insert gets one or there is none, unless the
transaction has written the row of the table: then it gets none exactly if the reserved segment
file is not usable. -/
theorem chooseSegnoForWrite_usable_iff (aoseg : PgAoseg) (inserter : Inserter) :
    (∀ segno, aoseg.chooseSegnoForWrite inserter = .ok segno →
      segno < maxAorelConcurrency ∧ aoseg.Usable segno) ∧
    ((∃ segno, aoseg.chooseSegnoForWrite inserter = .ok segno) ∨ aoseg.NoneUsable ↔
      (inserter.ownClassRow = true → aoseg.Usable reservedSegno ∨ aoseg.NoneUsable)) := by
  by_cases own : inserter.ownClassRow = true
  · simp only [chooseSegnoForWrite_own own, own, exists_eq_left, forall_const, and_true]
    rintro segno ⟨rfl, usable⟩
    exact ⟨by decide, usable⟩
  · rw [iff_true_right fun isOwn => absurd isOwn own, chooseSegnoForWrite, if_neg own]
    cases chosen : aoseg.chooseSegnoInternal inserter with
    | some segno =>
      refine ⟨fun other same => ?_, .inl ⟨segno, rfl⟩⟩
      cases same
      exact usable_chooseSegnoInternal chosen
    | none => exact ⟨nofun, .inr (noneUsable_of_none chosen)⟩

/-- Segment file 0 is in use. -/
def reservedInUse : PgAoseg :=
  ⟨[⟨0, 5, .default, 3, false, false, false⟩], by decide, by decide⟩

theorem chooseSegnoForWrite_usable_altered :
    reservedInUse.chooseSegnoForWrite ⟨"t", true, false⟩ = .ok 0 ∧ reservedInUse.Usable 0 :=
  ⟨rfl, ((chooseSegnoForWrite_usable_iff reservedInUse ⟨"t", true, false⟩).1 0 rfl).2⟩

/-- Segment file 0 awaits its drop. -/
def onlyReserved : PgAoseg :=
  ⟨[⟨0, 5, .awaitingDrop, 3, false, false, false⟩], by decide, by decide⟩

/-- After an ALTER TABLE in the same transaction the insert fails, although no other segment file
is in use. -/
theorem chooseSegnoForWrite_fails : onlyReserved.chooseSegnoForWrite ⟨"t", true, false⟩ =
      .error "segfile 0 is in unexpected state 2" ∧
    ∀ row ∈ onlyReserved.rows, row.segno ≠ 1 := by
  constructor
  · rfl
  · decide

end PgAoseg

end Greengage.AppendOnly
