import Greengage.AppendOnly.BlockDirectory

/-!
Contract: insert sessions of the block directory, from `AppendOnlyBlockDirectory_Init_forInsert`
to `AppendOnlyBlockDirectory_End_forInsert`, for one segment file and column group.

A minipage counts as full when it has exactly `gp_blockdirectory_minipage_size` entries,
which may differ between the sessions.

Does not own: transactions that abort, and the deletion of rows.
-/

namespace Greengage.AppendOnly

open List Foundations MinipageEntry

/-- `NUM_MINIPAGE_ENTRIES`, with blocks of 32 KB. -/
def numMinipageEntries : Nat := ((32768 - 32) / 8 - 24 - 64 * 3) / 24

def aoTupleIdMaxRowNum : Nat := 1099511627775

/-- Rows of the block directory relation, in the order of their first row. -/
abbrev Rows := List (List MinipageEntry)

/-- The rows, in the order in which they are inserted, the minipage in memory and the position of
its row. -/
structure InsertDirectory where
  rows : Rows
  entries : List MinipageEntry
  tupleTid : Option Nat

namespace InsertDirectory

def writeMinipage (directory : InsertDirectory) : InsertDirectory :=
  match directory.tupleTid with
  | some tid => { directory with rows := directory.rows.set tid directory.entries }
  | none =>
    { directory with
      rows := directory.rows ++ [directory.entries]
      tupleTid := some directory.rows.length }

def clearMinipage (directory : InsertDirectory) : InsertDirectory :=
  { directory with entries := [], tupleTid := none }

/-- `insert_new_entry`; `none` is a write beyond the end of the minipage. -/
def insertNewEntry (minipageSize : Nat) (directory : InsertDirectory) (entry : MinipageEntry) :
    Option InsertDirectory :=
  if entry.rowCount = 0 then some directory
  else
    let directory := if directory.entries.length = minipageSize then
        directory.writeMinipage.clearMinipage
      else directory
    if directory.entries.length < numMinipageEntries then
      some { directory with entries := directory.entries ++ [entry] }
    else none

/-- `AppendOnlyBlockDirectory_InsertPlaceholder`. -/
def insertPlaceholder (minipageSize : Nat) (directory : InsertDirectory)
    (firstRowNum fileOffset : Nat) : Option InsertDirectory := do
  let directory ← directory.insertNewEntry minipageSize
    ⟨firstRowNum, fileOffset, aoTupleIdMaxRowNum⟩
  let directory := directory.writeMinipage
  return { directory with entries := directory.entries.dropLast }

/-- `load_last_minipage`: the first row of a backward scan up to `lastSequence`. -/
def loadLastMinipage (rows : Rows) (lastSequence : Nat) : InsertDirectory :=
  let lastSequence := if lastSequence = 0 then 1 else lastSequence
  match rows.zipIdx.reverse.find? fun row => row.1.head?.any (·.firstRowNum ≤ lastSequence) with
  | some (entries, tid) => ⟨rows, entries, some tid⟩
  | none => ⟨rows, [], none⟩

/-- `AppendOnlyBlockDirectory_End_forInsert`. -/
def endForInsert (directory : InsertDirectory) : Rows :=
  if directory.entries.length > 0 then directory.writeMinipage.rows else directory.rows

def RowsOk (rows : Rows) : Prop := ∀ row ∈ rows, row ≠ [] ∧ row.length ≤ numMinipageEntries

/-- The minipage has at most the entries that fill it, or there is room for all that come. -/
def Room (directory : InsertDirectory) (minipageSize more : Nat) : Prop :=
  directory.entries.length ≤ minipageSize ∨ directory.entries.length + more ≤ numMinipageEntries

/-- The rows before that of the minipage, which may hold something else until it is written, and
the minipage together have the entries `contents`. -/
structure Holds (directory : InsertDirectory) (contents : List MinipageEntry) : Prop where
  bounded : directory.entries.length ≤ numMinipageEntries
  row : ∃ done stored, RowsOk done ∧ directory.rows = done ++ Option.toList stored ∧
    directory.tupleTid = stored.map (fun _ => done.length) ∧
    done.flatten ++ directory.entries = contents

variable {dir : InsertDirectory} {contents : List MinipageEntry}
  {size more lastSequence : Nat}

theorem loadLastMinipage_spec {rows} (ok : RowsOk rows)
    (sequence : ∀ entry ∈ rows.flatten, entry.firstRowNum ≤ lastSequence) :
    (loadLastMinipage rows lastSequence).Holds rows.flatten ∧
      (loadLastMinipage rows lastSequence).endForInsert = rows := by
  rcases eq_nil_or_concat rows with rfl | ⟨done, last, isConcat⟩
  · exact ⟨⟨Nat.zero_le _, [], none, ok, rfl, rfl, rfl⟩, rfl⟩
  · rw [concat_eq_append] at isConcat
    subst isConcat
    obtain ⟨doneOk, lastOk⟩ := forall_mem_append.mp ok
    obtain ⟨ne, bound⟩ := forall_mem_singleton.mp lastOk
    obtain ⟨first, _, isLast⟩ := exists_cons_of_ne_nil ne
    have seen : first.firstRowNum ≤ if lastSequence = 0 then 1 else lastSequence := by
      have := sequence first (by simp [isLast])
      split <;> omega
    have loaded : loadLastMinipage (done ++ [last]) lastSequence =
        ⟨done ++ [last], last, some done.length⟩ := by
      simp [loadLastMinipage, zipIdx_append, isLast, seen]
    rw [loaded]
    exact ⟨⟨bound, done, some last, doneOk, rfl, rfl, by simp⟩,
      by simp [endForInsert, writeMinipage]⟩

namespace Holds

variable (holds : dir.Holds contents)
include holds

theorem write (ne : dir.entries ≠ []) : ∃ done, RowsOk (done ++ [dir.entries]) ∧
    (done ++ [dir.entries]).flatten = contents ∧ dir.writeMinipage =
      ⟨done ++ [dir.entries], dir.entries, some done.length⟩ := by
  obtain ⟨done, stored, ok, rows, tupleTid, _⟩ := holds.row
  refine ⟨done, forall_mem_append.mpr ⟨ok, by simpa using ⟨ne, holds.bounded⟩⟩, by simpa, ?_⟩
  unfold writeMinipage
  cases stored <;> simp [rows, tupleTid]

theorem endForInsert (ne : dir.entries ≠ []) :
    RowsOk dir.endForInsert ∧ dir.endForInsert.flatten = contents := by
  obtain ⟨_, ok, parts, written⟩ := holds.write ne
  rw [InsertDirectory.endForInsert, if_pos (length_pos_iff.mpr ne), written]
  exact ⟨ok, parts⟩

variable (positive : 1 ≤ size) (small : size ≤ numMinipageEntries)
include positive small

theorem insertNewEntry {entry} (counted : 0 < entry.rowCount)
    (room : dir.Room size (more + 1)) : ∃ after kept,
      dir.insertNewEntry size entry = some after ∧ after.entries = kept ++ [entry] ∧
      after.Holds (contents ++ [entry]) ∧ after.Room size more := by
  unfold Room at *
  rw [InsertDirectory.insertNewEntry, if_neg (by omega)]
  by_cases full : dir.entries.length = size
  · obtain ⟨done, ok, parts, written⟩ := holds.write (ne_nil_of_length_pos (full ▸ positive))
    have fits := Nat.le_trans positive small
    rw [if_pos full, written]
    exact ⟨⟨_, [entry], none⟩, [], if_pos fits, rfl,
      ⟨fits, _, none, ok, (append_nil _).symm, rfl, by rw [parts]⟩, .inl positive⟩
  · obtain ⟨done, stored, ok, rows, tupleTid, parts⟩ := holds.row
    rw [if_neg full]
    refine ⟨_, _, if_pos (by omega), rfl, ⟨?_, done, stored, ok, rows, tupleTid, ?_⟩, ?_⟩
    · rw [length_append, length_singleton]
      omega
    · rw [← append_assoc, parts]
    · rw [length_append, length_singleton]
      omega

theorem insertPlaceholder (room : dir.Room size (more + 1))
    (firstRowNum fileOffset : Nat) : ∃ after,
      dir.insertPlaceholder size firstRowNum fileOffset = some after ∧
      after.Holds contents ∧ after.Room size (more + 1) := by
  have counted : 0 < rowCount ⟨firstRowNum, fileOffset, aoTupleIdMaxRowNum⟩ :=
    Nat.succ_pos _
  obtain ⟨mid, kept, run, isLast, holds', room'⟩ :=
    holds.insertNewEntry positive small counted room
  obtain ⟨done, ok, parts, written⟩ := holds'.write (by simp [isLast])
  have bound := holds'.bounded
  unfold Room at *
  rw [isLast, length_append, length_singleton] at room' bound
  refine ⟨⟨done ++ [mid.entries], kept, some done.length⟩, ?_, ⟨Nat.le_of_succ_le bound, done,
    some _, (forall_mem_append.mp ok).1, rfl, rfl, ?_⟩, ?_⟩
  · simp [InsertDirectory.insertPlaceholder, run, written, isLast]
  · simpa [isLast, ← append_assoc] using parts
  · dsimp only
    omega

theorem insertAll {entries : List MinipageEntry} (counted : ∀ entry ∈ entries, 0 < entry.rowCount)
    (room : dir.Room size entries.length) : ∃ after,
      entries.foldlM (InsertDirectory.insertNewEntry size) dir = some after ∧
      after.Holds (contents ++ entries) ∧
      (after.entries = [] → dir.entries = [] ∧ entries = []) := by
  induction entries generalizing dir contents with
  | nil => exact ⟨dir, rfl, by simpa using holds, fun none => ⟨none, rfl⟩⟩
  | cons entry rest ih =>
    obtain ⟨_, _, run, isLast, holds', room'⟩ :=
      holds.insertNewEntry positive small (counted entry mem_cons_self) room
    obtain ⟨after, runRest, holds'', last⟩ :=
      ih holds' (fun other mem => counted other (mem_cons_of_mem _ mem)) room'
    rw [isLast] at last
    refine ⟨after, ?_, by simpa using holds'', fun none => absurd (last none).1 (by simp)⟩
    rw [foldlM_cons, run]
    exact runRest

end Holds

section Overfull

variable (past : size < dir.entries.length)
include past

/-- A minipage with more entries than fill it does not count as full. -/
theorem insertNewEntry_of_lt {entry : MinipageEntry} (counted : 0 < entry.rowCount) :
    dir.insertNewEntry size entry = if dir.entries.length < numMinipageEntries then
      some { dir with entries := dir.entries ++ [entry] } else none := by
  have notFull : dir.entries.length ≠ size := Nat.ne_of_gt past
  simp [insertNewEntry, Nat.ne_of_gt counted, notFull]

theorem insertPlaceholder_of_lt {firstRowNum fileOffset after}
    (taken : dir.insertPlaceholder size firstRowNum fileOffset = some after) :
    after.entries = dir.entries := by
  rw [insertPlaceholder, insertNewEntry_of_lt past (Nat.succ_pos _)] at taken
  split_ifs at taken
  · cases taken
    simp only [writeMinipage]
    split <;> simp
  · cases taken

theorem insertAll_of_lt {entries : List MinipageEntry}
    (counted : ∀ entry ∈ entries, 0 < entry.rowCount)
    (bounded : dir.entries.length ≤ numMinipageEntries)
    (beyond : numMinipageEntries < dir.entries.length + entries.length) :
    entries.foldlM (insertNewEntry size) dir = none := by
  induction entries generalizing dir with
  | nil => exact absurd beyond (by simpa using bounded)
  | cons entry rest ih =>
    rw [foldlM_cons, insertNewEntry_of_lt past (counted entry mem_cons_self)]
    split_ifs with fits
    · rw [length_cons] at beyond
      refine ih ?_ (fun other mem => counted other (mem_cons_of_mem _ mem)) ?_ ?_ <;>
        simp only [length_append, length_singleton] <;> omega
    · rfl

end Overfull

end InsertDirectory

structure InsertSession where
  minipageSize : Nat
  lastSequence : Nat
  placeholder : Option (Nat × Nat)
  entries : List MinipageEntry

namespace InsertSession

open InsertDirectory

/-- `AppendOnlyBlockDirectory_Init_forInsert` and the placeholder. -/
def start (rows : Rows) (session : InsertSession) : Option InsertDirectory :=
  let loaded := loadLastMinipage rows session.lastSequence
  match session.placeholder with
  | some (firstRowNum, fileOffset) =>
    loaded.insertPlaceholder session.minipageSize firstRowNum fileOffset
  | none => some loaded

def run (rows : Rows) (session : InsertSession) : Option Rows := do
  let started ← session.start rows
  let directory ← session.entries.foldlM (insertNewEntry session.minipageSize) started
  return directory.endForInsert

/-- What a session may do after the entries of the sessions before it. -/
structure Allowed (session : InsertSession) (before : List MinipageEntry) : Prop where
  positive : 1 ≤ session.minipageSize
  small : session.minipageSize ≤ numMinipageEntries
  replaced : session.placeholder.isSome → session.entries ≠ []
  counted : ∀ entry ∈ session.entries, 0 < entry.rowCount
  sequence : ∀ entry ∈ before, entry.firstRowNum ≤ session.lastSequence

variable {session : InsertSession} {sessions : List InsertSession} {rows : Rows}

theorem run_spec (ok : RowsOk rows) (allowed : session.Allowed rows.flatten)
    (fits : (loadLastMinipage rows session.lastSequence).Room session.minipageSize
      session.entries.length) : ∃ after, session.run rows = some after ∧ RowsOk after ∧
      after.flatten = rows.flatten ++ session.entries := by
  obtain ⟨loaded, same⟩ := loadLastMinipage_spec ok allowed.sequence
  by_cases none : session.entries = []
  · have place : session.placeholder = .none :=
      Option.not_isSome_iff_eq_none.mp (allowed.replaced · none)
    exact ⟨rows, by simp [run, start, place, none, same], ok, by simp [none]⟩
  obtain ⟨more, isMore⟩ := Nat.exists_eq_succ_of_ne_zero (mt length_eq_zero_iff.mp none)
  rw [isMore] at fits
  obtain ⟨started, isStarted, holds, room⟩ : ∃ started, session.start rows = some started ∧
      started.Holds rows.flatten ∧ started.Room session.minipageSize (more + 1) := by
    unfold start
    cases session.placeholder with
    | none => exact ⟨_, rfl, loaded, fits⟩
    | some place => exact loaded.insertPlaceholder allowed.positive allowed.small fits ..
  obtain ⟨after, inserted, holds', last⟩ :=
    holds.insertAll allowed.positive allowed.small allowed.counted (isMore ▸ room)
  exact ⟨_, by simp [run, isStarted, inserted],
    holds'.endForInsert fun empty => none (last empty).2⟩

/-- Without room the session writes beyond the end of its minipage. -/
theorem run_eq_none (ok : RowsOk rows) (allowed : session.Allowed rows.flatten)
    (noRoom : ¬(loadLastMinipage rows session.lastSequence).Room session.minipageSize
      session.entries.length) : session.run rows = none := by
  obtain ⟨past, beyond⟩ := not_or.mp noRoom
  have bounded := (loadLastMinipage_spec ok allowed.sequence).1.bounded
  rw [Nat.not_le] at past beyond
  cases isStarted : session.start rows with
  | none => simp [run, isStarted]
  | some started =>
    have same : started.entries = (loadLastMinipage rows session.lastSequence).entries := by
      unfold start at isStarted
      split at isStarted
      · exact insertPlaceholder_of_lt past isStarted
      · cases isStarted
        rfl
    rw [← same] at past beyond bounded
    simp [run, isStarted, insertAll_of_lt past allowed.counted bounded beyond]

/-- Each session is allowed after the entries of those before it. -/
def AllAllowed : List InsertSession → List MinipageEntry → Prop
  | [], _ => True
  | session :: rest, before => session.Allowed before ∧ AllAllowed rest (before ++ session.entries)

/-- Each session has room in the minipage that it loads. -/
def AllFit : List InsertSession → Rows → Prop
  | [], _ => True
  | session :: rest, rows =>
      (loadLastMinipage rows session.lastSequence).Room session.minipageSize
        session.entries.length ∧ ∀ after, session.run rows = some after → AllFit rest after

theorem runAll_iff (allowed : AllAllowed sessions rows.flatten) (ok : RowsOk rows) :
    AllFit sessions rows ↔ ∃ after, sessions.foldlM run rows = some after ∧ RowsOk after ∧
      after.flatten = rows.flatten ++ sessions.flatMap entries := by
  induction sessions generalizing rows with
  | nil => exact iff_of_true trivial ⟨rows, rfl, ok, by simp⟩
  | cons session rest ih =>
    obtain ⟨first, allowed⟩ := allowed
    by_cases room : (loadLastMinipage rows session.lastSequence).Room session.minipageSize
      session.entries.length
    · obtain ⟨middle, run, middleOk, flatten⟩ := run_spec ok first room
      rw [← flatten] at allowed
      simp [AllFit, room, run, ih allowed middleOk, flatten]
    · simp [AllFit, room, run_eq_none ok first room]

/-- Exactly if each session has room does none write beyond the end of its minipage, and after
the last one the rows, in the order of their first row, hold exactly what was inserted. -/
theorem sessions_hold (sessions : List InsertSession) (increasing : Increasing
      MinipageEntry.firstRowNum MinipageEntry.afterRowNum (sessions.flatMap entries))
    (allowed : AllAllowed sessions []) :
    AllFit sessions [] ↔ ∃ rows, sessions.foldlM run [] = some rows ∧ RowsOk rows ∧
      rows.flatten = sessions.flatMap entries ∧ rows.Pairwise fun row next =>
        ∀ entry ∈ row, ∀ other ∈ next, entry.afterRowNum ≤ other.firstRowNum := by
  rw [@runAll_iff sessions [] allowed nofun]
  refine exists_congr fun rows => and_congr_right fun _ => and_congr_right fun _ => ?_
  simp only [flatten_nil, nil_append]
  exact (and_iff_left_of_imp fun flatten => (pairwise_flatten.mp (flatten ▸ increasing)).2).symm

/-- A session that inserts entries of one row each. -/
def oneByOne (minipageSize first count : Nat) : InsertSession where
  minipageSize := minipageSize
  lastSequence := first
  placeholder := some (first + 1, 0)
  entries := (range count).map fun number => ⟨first + 1 + number, 0, 1⟩

theorem sessions_hold_twoSizes : ∃ rows,
    [oneByOne 2 0 3, oneByOne 1 3 2].foldlM run [] = some rows ∧
      rows.map length = [2, 1, 1, 1] := by
  obtain ⟨rows, run, -⟩ := (sessions_hold [oneByOne 2 0 3, oneByOne 1 3 2]
    (by unfold Increasing; decide)
    ⟨⟨by decide, by decide, by decide, by decide, by decide⟩,
      ⟨by decide, by decide, by decide, by decide, by decide⟩, trivial⟩).mp (by
      refine ⟨.inl (by decide), ?_⟩
      intro _ isRun
      cases isRun
      exact ⟨.inl (by decide), by simp [AllFit]⟩)
  refine ⟨rows, run, ?_⟩
  cases run
  decide

/-- A minipage that has more entries than the size of the session never counts as full. -/
theorem sessions_overflow : (oneByOne 2 0 2).Allowed [] ∧
    (oneByOne 1 2 160).Allowed (oneByOne 2 0 2).entries ∧
    Increasing MinipageEntry.firstRowNum MinipageEntry.afterRowNum
      ([oneByOne 2 0 2, oneByOne 1 2 160].flatMap entries) ∧
    [oneByOne 2 0 2, oneByOne 1 2 160].foldlM run [] = none := by
  refine ⟨⟨?_, ?_, ?_, ?_, ?_⟩, ⟨?_, ?_, ?_, ?_, ?_⟩, by unfold Increasing; decide +kernel, ?_⟩
  all_goals decide +kernel

end InsertSession

end Greengage.AppendOnly
