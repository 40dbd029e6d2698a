import Greengage.Foundations.IntervalSearch
import Greengage.Foundations.Transition
import Mathlib.Algebra.Group.Int.Defs
import Mathlib.Algebra.Group.Nat.Defs

/-!
Contract: lookups in the block directory of an append-only table,
`appendonlyblockdirectory.c`.

Does not own: the insertion of entries, and the scan of the index, which returns the
minipages of a segment file and a column group from the given row downwards.
-/

namespace Greengage.AppendOnly

open Foundations

structure MinipageEntry where
  firstRowNum : Nat
  fileOffset : Nat
  rowCount : Nat
deriving DecidableEq

namespace MinipageEntry

def afterRowNum (entry : MinipageEntry) : Nat := entry.firstRowNum + entry.rowCount

/-- The row is one of the entry's. -/
abbrev Covers (entry : MinipageEntry) (rowNum : Nat) : Prop :=
  InInterval firstRowNum afterRowNum entry rowNum

end MinipageEntry

/-- A minipage of the block directory relation: the rows of its entries increase. -/
structure Minipage where
  entries : List MinipageEntry
  nonempty : entries ≠ []
  counted : ∀ entry ∈ entries, 0 < entry.rowCount
  increasing : Increasing MinipageEntry.firstRowNum MinipageEntry.afterRowNum entries

namespace Minipage

def firstRowNum (minipage : Minipage) : Nat :=
  (minipage.entries.head minipage.nonempty).firstRowNum

def afterRowNum (minipage : Minipage) : Nat :=
  (minipage.entries.getLast minipage.nonempty).afterRowNum

end Minipage

/-- The block directory relation: the minipages of a segment file and a column group, with
increasing rows. -/
structure BlkdirRel where
  minipages : Nat → Nat → List Minipage
  increasing : ∀ segmentFileNum columnGroupNo,
    Increasing Minipage.firstRowNum Minipage.afterRowNum (minipages segmentFileNum columnGroupNo)

/-- The tuples of a backward scan with the keys
`(= segmentFileNum, = columnGroupNo, <= rowNum)`. -/
def BlkdirRel.scan (blkdirRel : BlkdirRel) (segmentFileNum columnGroupNo rowNum : Nat) :
    List Minipage :=
  ((blkdirRel.minipages segmentFileNum columnGroupNo).filter (·.firstRowNum ≤ rowNum)).reverse

/-- The segment file number, and the end of the file of every column group. -/
structure FileSegInfo where
  segno : Nat
  eof : Nat → Nat

/-- What an `AppendOnlyBlockDirectory` is initialized with: `blkdirEntryMinRange` says that
`gp_blockdirectory_entry_min_range` is not 0, `mvcc` that the snapshot is an MVCC one. -/
structure DirectoryConfig where
  blkdirRel : BlkdirRel
  segmentFileInfo : List FileSegInfo
  projAtts : List Nat
  attnumToRownum : Option (Nat → Nat → Nat)
  blkdirEntryMinRange : Bool
  mvcc : Bool

/-- `AO_ATTR_VAL_IS_MISSING`, for a table that may be absent. -/
def DirectoryConfig.valIsMissing (config : DirectoryConfig)
    (rowNum columnGroupNo segmentFileNum : Nat) : Bool :=
  match config.attnumToRownum with
  | none => false
  | some attnumToRownum => rowNum ≤ attnumToRownum columnGroupNo segmentFileNum

def DirectoryConfig.findFileSegInfo (config : DirectoryConfig) (segmentFileNum : Nat) :
    Option FileSegInfo :=
  config.segmentFileInfo.find? (·.segno = segmentFileNum)

structure MinipagePerColumnGroup where
  entries : List MinipageEntry
  cachedEntryNo : Option Nat
deriving DecidableEq

/-- `find_minipage_entry`: the position of the entry that covers the row. -/
def MinipagePerColumnGroup.findMinipageEntry (minipageInfo : MinipagePerColumnGroup)
    (rowNum : Nat) : Option Nat × MinipagePerColumnGroup :=
  let entries := minipageInfo.entries
  match minipageInfo.cachedEntryNo.filter
      fun entryNo => entries[entryNo]?.any (·.Covers rowNum) with
  | some entryNo => (some entryNo, minipageInfo)
  | none =>
    let entryNo := searchInterval MinipageEntry.firstRowNum MinipageEntry.afterRowNum
      entries rowNum entries.length 0 entries.length
    (entryNo, { minipageInfo with cachedEntryNo := entryNo })

/-- The variables of an `AppendOnlyBlockDirectory`. -/
structure BlockDirectory where
  currentSegmentFileNum : Option Nat
  currentSegmentFileInfo : Option FileSegInfo
  minipages : Nat → MinipagePerColumnGroup

/-- The range of an `AppendOnlyBlockDirectoryEntry`. -/
structure DirectoryEntry where
  fileOffset : Nat
  firstRowNum : Nat
  afterFileOffset : Nat
  lastRowNum : Nat
deriving DecidableEq

/-- The result of a lookup. `invalid` is an access through a null pointer or beyond the end
of an array. -/
inductive Lookup
  | invalid
  | absent
  | found (entry : DirectoryEntry)
deriving DecidableEq

namespace BlockDirectory

/-- `AppendOnlyBlockDirectory_Init_forSearch`. -/
def initial : BlockDirectory where
  currentSegmentFileNum := none
  currentSegmentFileInfo := none
  minipages := fun _ => ⟨[], none⟩

def setMinipage (directory : BlockDirectory) (columnGroupNo : Nat)
    (minipageInfo : MinipagePerColumnGroup) : BlockDirectory :=
  { directory with minipages := Function.update directory.minipages columnGroupNo minipageInfo }

def extractMinipage (directory : BlockDirectory) (columnGroupNo : Nat) (minipage : Minipage) :
    BlockDirectory :=
  directory.setMinipage columnGroupNo ⟨minipage.entries, none⟩

def setDirectoryentryRange (directory : BlockDirectory) (config : DirectoryConfig)
    (columnGroupNo entryNo : Nat) : Lookup :=
  let entries := (directory.minipages columnGroupNo).entries
  match directory.currentSegmentFileInfo, entries[entryNo]? with
  | some fsInfo, some entry =>
    let eof := fsInfo.eof columnGroupNo
    let afterFileOffset := (entries[entryNo + 1]?).elim eof (·.fileOffset)
    let lastRowNum :=
      if entries.length ≤ entryNo + 1 ∧ config.blkdirEntryMinRange then 2 ^ 63 - 1
      else entry.firstRowNum + entry.rowCount - 1
    if eof < entry.fileOffset then .absent
    else .found ⟨entry.fileOffset, entry.firstRowNum, min afterFileOffset eof, lastRowNum⟩
  | _, _ => .invalid

/-- The part of `AppendOnlyBlockDirectory_GetEntry` that looks at the minipage in memory. It
answers, or leaves the answer to the index. -/
def getCachedEntry (directory : BlockDirectory) (config : DirectoryConfig)
    (segmentFileNum rowNum columnGroupNo : Nat) : Option Lookup × BlockDirectory :=
  if directory.currentSegmentFileNum = some segmentFileNum then
    match (directory.minipages columnGroupNo).entries with
    | [] => (none, directory)
    | first :: rest =>
      if first.firstRowNum ≤ rowNum then
        let (entryNo, minipageInfo) :=
          (directory.minipages columnGroupNo).findMinipageEntry rowNum
        let directory := directory.setMinipage columnGroupNo minipageInfo
        match entryNo with
        | some entryNo =>
          (some (directory.setDirectoryentryRange config columnGroupNo entryNo), directory)
        | none =>
          let last := (first :: rest).getLast (List.cons_ne_nil _ _)
          if rowNum < last.firstRowNum + last.rowCount - 1 then (some .absent, directory)
          else (none, directory)
      else (none, directory)
  else (none, directory)

/-- The loop of `AppendOnlyBlockDirectory_GetEntry` over the projected columns: every one
that has a value in the row gets the last minipage that begins at the row or before. -/
def loadMinipages (config : DirectoryConfig) (fsInfo : FileSegInfo)
    (segmentFileNum rowNum : Nat) : List Nat → BlockDirectory → Bool × BlockDirectory
  | [], directory => (true, directory)
  | groupNo :: rest, directory =>
    if config.valIsMissing rowNum groupNo segmentFileNum then
      loadMinipages config fsInfo segmentFileNum rowNum rest directory
    else
      match (config.blkdirRel.scan segmentFileNum groupNo rowNum).head? with
      | none => (false, directory)
      | some minipage =>
        let directory := { directory with
          currentSegmentFileNum := some segmentFileNum
          currentSegmentFileInfo := some fsInfo }
        loadMinipages config fsInfo segmentFileNum rowNum rest
          (directory.extractMinipage groupNo minipage)

/-- The part of `AppendOnlyBlockDirectory_GetEntry` that searches the index. -/
def getIndexedEntry (directory : BlockDirectory) (config : DirectoryConfig)
    (segmentFileNum rowNum columnGroupNo : Nat) : Lookup × BlockDirectory :=
  match config.findFileSegInfo segmentFileNum with
  | none => (.invalid, directory)
  | some fsInfo =>
    match loadMinipages config fsInfo segmentFileNum rowNum config.projAtts directory with
    | (false, directory) => (.absent, directory)
    | (true, directory) =>
      let (entryNo, minipageInfo) :=
        (directory.minipages columnGroupNo).findMinipageEntry rowNum
      let directory := directory.setMinipage columnGroupNo minipageInfo
      match entryNo with
      | some entryNo =>
        (directory.setDirectoryentryRange config columnGroupNo entryNo, directory)
      | none =>
        -- the last few blocks may not be logged: the last entry is used
        if minipageInfo.entries = [] then (.absent, directory)
        else (directory.setDirectoryentryRange config columnGroupNo
          (minipageInfo.entries.length - 1), directory)

/-- `AppendOnlyBlockDirectory_GetEntry`. -/
def getEntry (directory : BlockDirectory) (config : DirectoryConfig)
    (segmentFileNum rowNum columnGroupNo : Nat) : Lookup × BlockDirectory :=
  match directory.getCachedEntry config segmentFileNum rowNum columnGroupNo with
  | (some answer, directory) => (answer, directory)
  | (none, directory) => directory.getIndexedEntry config segmentFileNum rowNum columnGroupNo

/-- The loop of `blkdir_entry_exists` over the tuples of the scan. -/
def searchMinipages (segmentFileNum rowNum columnGroupNo : Nat) :
    List Minipage → BlockDirectory → Bool × BlockDirectory
  | [], directory => (false, directory)
  | minipage :: rest, directory =>
    let directory := { directory with currentSegmentFileNum := some segmentFileNum }
    let directory := directory.extractMinipage columnGroupNo minipage
    let (entryNo, minipageInfo) :=
      (directory.minipages columnGroupNo).findMinipageEntry rowNum
    let directory := directory.setMinipage columnGroupNo minipageInfo
    if entryNo.isSome then (true, directory)
    else searchMinipages segmentFileNum rowNum columnGroupNo rest directory

/-- The part of `blkdir_entry_exists` that looks at the minipage in memory. -/
def cachedEntryExists (directory : BlockDirectory) (config : DirectoryConfig)
    (segmentFileNum rowNum columnGroupNo : Nat) : Bool × BlockDirectory :=
  if config.mvcc ∧ directory.currentSegmentFileNum = some segmentFileNum then
    let (entryNo, minipageInfo) := (directory.minipages columnGroupNo).findMinipageEntry rowNum
    (entryNo.isSome, directory.setMinipage columnGroupNo minipageInfo)
  else (false, directory)

/-- `blkdir_entry_exists`. -/
def entryExists (directory : BlockDirectory) (config : DirectoryConfig)
    (segmentFileNum rowNum columnGroupNo : Nat) : Bool × BlockDirectory :=
  match directory.cachedEntryExists config segmentFileNum rowNum columnGroupNo with
  | (true, directory) => (true, directory)
  | (false, directory) =>
    searchMinipages segmentFileNum rowNum columnGroupNo
      (config.blkdirRel.scan segmentFileNum columnGroupNo rowNum) directory

/-- A lookup through the directory. -/
inductive Call
  | getEntry (segmentFileNum rowNum columnGroupNo : Nat)
  | entryExists (segmentFileNum rowNum columnGroupNo : Nat)
deriving DecidableEq

/-- `aocs_blkdir_getentry`: where the value is missing, the first projected column is asked
for instead. -/
def aocsBlkdirGetentry (config : DirectoryConfig) (segmentFileNum rowNum columnGroupNo : Nat) :
    Call :=
  let anchor := config.projAtts.headD 0
  if columnGroupNo ≠ anchor ∧ config.valIsMissing rowNum columnGroupNo segmentFileNum then
    .entryExists segmentFileNum rowNum anchor
  else .getEntry segmentFileNum rowNum columnGroupNo

/-- Calls for projected columns; `getEntry` for a value that is not missing. -/
def step (config : DirectoryConfig) (directory : BlockDirectory) : Call → Option BlockDirectory
  | .getEntry segmentFileNum rowNum columnGroupNo =>
    if columnGroupNo ∈ config.projAtts ∧
        config.valIsMissing rowNum columnGroupNo segmentFileNum = false then
      match directory.getEntry config segmentFileNum rowNum columnGroupNo with
      | (.invalid, _) => none
      | (_, directory) => some directory
    else none
  | .entryExists segmentFileNum rowNum columnGroupNo =>
    if columnGroupNo ∈ config.projAtts then
      some (directory.entryExists config segmentFileNum rowNum columnGroupNo).2
    else none

end BlockDirectory

end Greengage.AppendOnly
