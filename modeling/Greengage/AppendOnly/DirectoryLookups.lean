import Greengage.AppendOnly.BlockDirectory

/-!
Contract: what a lookup in the block directory returns after any lookups before it.
-/

namespace Greengage.AppendOnly

open Option List Foundations Nat MinipagePerColumnGroup Reachable MinipageEntry BlkdirRel

theorem MinipageEntry.proper (entry : MinipageEntry) : entry.firstRowNum ≤ entry.afterRowNum :=
  le_add_right _ _

variable {minipage page : Minipage} {entry : MinipageEntry}

namespace Minipage

theorem firstRowNum_le (mem : entry ∈ page.entries) : page.firstRowNum ≤ entry.firstRowNum :=
  page.increasing.start_head_le proper page.nonempty mem

theorem le_afterRowNum (mem : entry ∈ page.entries) : entry.afterRowNum ≤ page.afterRowNum :=
  page.increasing.stop_le_getLast proper page.nonempty mem

end Minipage

variable {config cfg : DirectoryConfig} {dir after : BlockDirectory}
  {segno rowNum row group : Nat}

namespace BlkdirRel

variable {blkdirRel : BlkdirRel}

theorem mem_scan : page ∈ blkdirRel.scan segno group row ↔
      page ∈ blkdirRel.minipages segno group ∧ page.firstRowNum ≤ row := by
  simp [scan]

theorem head?_scan (mem : page ∈ blkdirRel.minipages segno group)
    (first_le : page.firstRowNum ≤ row) (lt_after : row < page.afterRowNum) :
    (blkdirRel.scan segno group row).head? = some page := by
  have incr := blkdirRel.increasing segno group
  obtain ⟨_, behind, split⟩ := append_of_mem mem
  have none_behind : behind.filter (·.firstRowNum ≤ row) = [] := by
    rw [filter_eq_nil_iff]
    intro other otherMem
    rw [Increasing, split, pairwise_append] at incr
    have := (pairwise_cons.mp incr.2.1).1 other otherMem
    simp only [decide_eq_true_eq]
    omega
  rw [scan, split, filter_append, filter_cons, if_pos (by simpa using first_le),
    none_behind, reverse_append]
  rfl

end BlkdirRel

/-! ## Minipages in memory -/

namespace MinipagePerColumnGroup

variable {minipageInfo : MinipagePerColumnGroup}

theorem findMinipageEntry_entries :
    (minipageInfo.findMinipageEntry row).2.entries = minipageInfo.entries := by
  rw [findMinipageEntry]
  split <;> rfl

theorem findMinipageEntry_some {entryNo}
    (found : (minipageInfo.findMinipageEntry row).1 = some entryNo) :
    ∃ entry, minipageInfo.entries[entryNo]? = some entry ∧ entry.Covers row := by
  rw [findMinipageEntry] at found
  split at found
  · rename_i cached isCached
    obtain rfl := some.inj found
    have covers := (filter_eq_some_iff.mp isCached).2
    cases at_cached : minipageInfo.entries[cached]? with
    | none => simp [at_cached] at covers
    | some entry => exact ⟨entry, rfl, by simpa [at_cached] using covers⟩
  · exact searchInterval_sound found

section

variable
  (increasing incr : Increasing firstRowNum afterRowNum minipageInfo.entries)

include incr

theorem findMinipageEntry_none (missing : (minipageInfo.findMinipageEntry row).1 = none) {entry}
    (mem : entry ∈ minipageInfo.entries) : ¬ entry.Covers row := by
  intro covers
  rw [findMinipageEntry] at missing
  split at missing
  · cases missing
  · obtain ⟨_, at_entryNo⟩ := getElem?_of_mem mem
    have found := (searchInterval_eq_some_iff proper incr).mpr ⟨entry, at_entryNo, covers⟩
    simp only [found, reduceCtorEq] at missing

theorem isSome_findMinipageEntry : (minipageInfo.findMinipageEntry row).1.isSome = true ↔
      ∃ entry ∈ minipageInfo.entries, entry.Covers row := by
  cases found : (minipageInfo.findMinipageEntry row).1 with
  | none =>
    simp only [isSome_none, Bool.false_eq_true, false_iff, not_exists, not_and]
    exact fun _ mem => findMinipageEntry_none incr found mem
  | some entryNo =>
    obtain ⟨entry, at_entryNo, covers⟩ := findMinipageEntry_some found
    simp only [isSome_some, true_iff]
    exact ⟨entry, mem_of_getElem? at_entryNo, covers⟩

end

end MinipagePerColumnGroup

def Lookup.place : Lookup → Option (Nat × Nat)
  | .found entry => some (entry.fileOffset, entry.firstRowNum)
  | _ => none

namespace BlockDirectory

def MinipagesStored (config : DirectoryConfig) (directory : BlockDirectory) : Prop :=
  ∀ columnGroupNo, (directory.minipages columnGroupNo).entries = [] ∨
    ∃ segmentFileNum, ∃ minipage ∈ config.blkdirRel.minipages segmentFileNum columnGroupNo,
      (directory.minipages columnGroupNo).entries = minipage.entries

/-- The two directories differ in cached entry numbers at most. -/
structure SameMinipages (directory after : BlockDirectory) : Prop where
  segmentFileNum : after.currentSegmentFileNum = directory.currentSegmentFileNum
  segmentFileInfo : after.currentSegmentFileInfo = directory.currentSegmentFileInfo
  entries : ∀ columnGroupNo,
    (after.minipages columnGroupNo).entries = (directory.minipages columnGroupNo).entries

theorem SameMinipages.refl (dir) : SameMinipages dir dir :=
  ⟨rfl, rfl, fun _ => rfl⟩

section

variable (stored : MinipagesStored cfg dir)
include stored

theorem MinipagesStored.congr (same : SameMinipages dir after) : MinipagesStored cfg after := by
  intro group
  rw [same.entries]
  exact stored group

theorem MinipagesStored.increasing : Increasing firstRowNum afterRowNum
      (dir.minipages group).entries := by
  rcases stored group with empty | ⟨_, page, _, eq⟩
  · rw [empty]
    exact Pairwise.nil
  · rw [eq]
    exact page.increasing

theorem MinipagesStored.counted (mem : entry ∈ (dir.minipages group).entries) :
    0 < entry.rowCount := by
  rcases stored group with empty | ⟨_, page, _, eq⟩
  · simp [empty] at mem
  · exact page.counted entry (eq ▸ mem)

end

theorem sameMinipages_findMinipageEntry (dir group row) :
    SameMinipages dir (dir.setMinipage group
      ((dir.minipages group).findMinipageEntry row).2) := by
  refine ⟨rfl, rfl, fun other => ?_⟩
  rcases eq_or_ne other group with rfl | different
  · simpa [setMinipage] using findMinipageEntry_entries
  · simp [setMinipage, different]

variable {entryNo : Nat} {place : Nat × Nat}

theorem place_setDirectoryentryRange
    (at_entryNo : (dir.minipages group).entries[entryNo]? = some entry) :
    (dir.setDirectoryentryRange cfg group entryNo).place = some place ↔
      ∃ fsInfo, dir.currentSegmentFileInfo = some fsInfo ∧
        place = (entry.fileOffset, entry.firstRowNum) ∧
        entry.fileOffset ≤ fsInfo.eof group := by
  simp only [setDirectoryentryRange, at_entryNo]
  cases dir.currentSegmentFileInfo with
  | none => simp [Lookup.place]
  | some fsInfo =>
    simp only [some.injEq, exists_eq_left']
    by_cases ge : fsInfo.eof group < entry.fileOffset
    · rw [if_pos ge]
      simp only [Lookup.place, reduceCtorEq, false_iff]
      omega
    · rw [if_neg ge]
      simp only [Lookup.place, some.injEq]
      exact ⟨fun same => ⟨same.symm, by omega⟩, fun both => both.1.symm⟩

/-! ## The minipage in memory -/

/-- The minipage in memory does not reach over the row, or is of another segment file than
the directory stands at. -/
def Passes (directory : BlockDirectory) (segmentFileNum rowNum columnGroupNo : Nat) : Prop :=
  directory.currentSegmentFileNum = some segmentFileNum →
    (∀ entry ∈ (directory.minipages columnGroupNo).entries, rowNum < entry.firstRowNum) ∨
      ∀ entry ∈ (directory.minipages columnGroupNo).entries, entry.afterRowNum ≤ rowNum

def Hits (directory : BlockDirectory) (segmentFileNum rowNum columnGroupNo : Nat)
    (place : Nat × Nat) : Prop :=
  directory.currentSegmentFileNum = some segmentFileNum ∧
    ∃ fsInfo, directory.currentSegmentFileInfo = some fsInfo ∧
      ∃ entry ∈ (directory.minipages columnGroupNo).entries, entry.Covers rowNum ∧
        place = (entry.fileOffset, entry.firstRowNum) ∧
        entry.fileOffset ≤ fsInfo.eof columnGroupNo

theorem Hits.not_passes (hits : dir.Hits segno row group place) :
    ¬ dir.Passes segno row group := by
  intro passes
  obtain ⟨cur, _, _, entry, mem, ⟨_, _⟩, _, _⟩ := hits
  rcases passes cur with pre | behind
  · exact absurd (pre entry mem) (by omega)
  · exact absurd (behind entry mem) (by omega)

/-- The minipage in memory ends at the row or before, unless it covers the row or has a hole
there. -/
theorem MinipagesStored.afterRowNum_le (stored : MinipagesStored cfg dir)
    (ne : (dir.minipages group).entries ≠ [])
    (uncovered : ∀ entry ∈ (dir.minipages group).entries, ¬ entry.Covers row)
    (reach : ¬ row < ((dir.minipages group).entries.getLast ne).firstRowNum +
      ((dir.minipages group).entries.getLast ne).rowCount - 1)
    (mem : entry ∈ (dir.minipages group).entries) : entry.afterRowNum ≤ row := by
  have lastMem := getLast_mem ne
  have := stored.counted lastMem
  have := uncovered _ lastMem
  have := stored.increasing.stop_le_getLast proper ne mem
  simp only [InInterval] at *
  omega

/-- What the minipage in memory is good for: it answers with the entry that covers the row,
and leaves the answer to the index if it does not reach over the row. -/
structure CachedAnswer (directory : BlockDirectory) (segmentFileNum rowNum columnGroupNo : Nat)
    (answer : Option Lookup × BlockDirectory) : Prop where
  same : SameMinipages directory answer.2
  passes : answer.1 = none ↔ directory.Passes segmentFileNum rowNum columnGroupNo
  place : ∀ place, answer.1.bind Lookup.place = some place ↔
    directory.Hits segmentFileNum rowNum columnGroupNo place

theorem CachedAnswer.none (passes : dir.Passes segno row group)
    (same : SameMinipages dir after) :
    CachedAnswer dir segno row group (none, after) := by
  refine ⟨same, by simpa using passes, fun place => ?_⟩
  simpa using fun hits => Hits.not_passes hits passes

section

variable (cur : dir.currentSegmentFileNum = some segno)
  (same : SameMinipages dir after)
include cur same

theorem CachedAnswer.covered (stored : MinipagesStored cfg dir)
    (at_entryNo : (dir.minipages group).entries[entryNo]? = some entry)
    (covers : entry.Covers row) :
    CachedAnswer dir segno row group
      (some (after.setDirectoryentryRange cfg group entryNo), after) := by
  have mem := mem_of_getElem? at_entryNo
  refine ⟨same, ?_, fun place => ?_⟩
  · simp only [reduceCtorEq, false_iff]
    intro passes
    obtain ⟨_, _⟩ := covers
    rcases passes cur with pre | behind
    · exact absurd (pre entry mem) (by omega)
    · exact absurd (behind entry mem) (by omega)
  · rw [bind_some, place_setDirectoryentryRange (by rw [same.entries]; exact at_entryNo),
      same.segmentFileInfo]
    constructor
    · rintro ⟨fsInfo, info, placeEq, below⟩
      exact ⟨cur, fsInfo, info, entry, mem, covers, placeEq, below⟩
    · rintro ⟨-, fsInfo, info, _, otherMem, otherCovers, placeEq, below⟩
      obtain rfl := stored.increasing.unique mem otherMem covers otherCovers
      exact ⟨fsInfo, info, placeEq, below⟩

theorem CachedAnswer.hole
    (uncovered : ∀ entry ∈ (dir.minipages group).entries, ¬ entry.Covers row) {first last}
    (firstMem : first ∈ (dir.minipages group).entries) (first_le : first.firstRowNum ≤ row)
    (lastMem : last ∈ (dir.minipages group).entries)
    (lt_last : row < last.firstRowNum + last.rowCount - 1) :
    CachedAnswer dir segno row group (some .absent, after) := by
  refine ⟨same, ?_, fun place => ?_⟩
  · simp only [reduceCtorEq, false_iff]
    intro passes
    rcases passes cur with pre | behind
    · exact absurd (pre first firstMem) (by omega)
    · have le_row := behind last lastMem
      simp only [afterRowNum] at le_row
      omega
  · simp only [bind_some, Lookup.place, reduceCtorEq, false_iff]
    rintro ⟨-, _, -, entry, mem, covers, -⟩
    exact uncovered entry mem covers

end

theorem getCachedEntry_spec (stored : MinipagesStored cfg dir) : CachedAnswer dir segno row group
      (dir.getCachedEntry cfg segno row group) := by
  rw [getCachedEntry]
  split
  · rename_i cur
    split
    · rename_i empty
      exact .none (fun _ => .inl (by simp [empty])) (.refl dir)
    · rename_i first rest entriesEq
      have ne : (dir.minipages group).entries ≠ [] := by simp [entriesEq]
      have lastEq : (first :: rest).getLast (cons_ne_nil _ _) =
          (dir.minipages group).entries.getLast ne := by simp [entriesEq]
      split
      · rename_i first_le
        have same := sameMinipages_findMinipageEntry dir group row
        simp only [lastEq]
        split
        · rename_i entryNo found
          obtain ⟨entry, at_entryNo, covers⟩ :=
            findMinipageEntry_some found
          exact .covered cur same stored at_entryNo covers
        · rename_i missing
          have uncovered := fun entry mem =>
            @findMinipageEntry_none _ _ stored.increasing missing entry mem
          split_ifs with lt
          · exact .hole cur same uncovered (by simp [entriesEq]) first_le (getLast_mem ne) lt
          · exact .none (fun _ => .inr fun entry mem =>
              stored.afterRowNum_le ne uncovered lt mem) same
      · refine .none (fun _ => .inl fun entry mem => ?_) (.refl dir)
        have head_le := stored.increasing.start_head_le proper ne mem
        simp only [entriesEq, head_cons] at head_le
        omega
  · rename_i elsewhere
    exact .none (fun cur => absurd cur elsewhere) (.refl dir)

/-! ## Minipages from the relation -/

/-- Every projected column with a value in the row has a minipage that begins at the row or
before. -/
def Complete (config : DirectoryConfig) (segmentFileNum rowNum : Nat) : Prop :=
  ∀ groupNo ∈ config.projAtts, config.valIsMissing rowNum groupNo segmentFileNum = false →
    ∃ minipage ∈ config.blkdirRel.minipages segmentFileNum groupNo, minipage.firstRowNum ≤ rowNum

/-- The minipage of a column is in memory, and the directory stands at its segment file. -/
structure Loaded (directory : BlockDirectory) (fsInfo : FileSegInfo)
    (segmentFileNum columnGroupNo : Nat) (minipage : Minipage) : Prop where
  segmentFileNum : directory.currentSegmentFileNum = some segmentFileNum
  segmentFileInfo : directory.currentSegmentFileInfo = some fsInfo
  entries : (directory.minipages columnGroupNo).entries = minipage.entries

theorem MinipagesStored.extractMinipage (stored : MinipagesStored cfg dir) {groupNo}
    (mem : page ∈ cfg.blkdirRel.minipages segno groupNo) {fileNum fileInfo} :
    MinipagesStored cfg ({ dir with
      currentSegmentFileNum := fileNum
      currentSegmentFileInfo := fileInfo }.extractMinipage groupNo page) := by
  intro group
  rcases eq_or_ne group groupNo with rfl | different
  · exact .inr ⟨segno, page, mem, by simp [BlockDirectory.extractMinipage, setMinipage]⟩
  · simpa [BlockDirectory.extractMinipage, setMinipage, different] using stored group

theorem mem_minipages_of_head?_scan
    (scanned : (cfg.blkdirRel.scan segno group row).head? = some page) :
    page ∈ cfg.blkdirRel.minipages segno group ∧ page.firstRowNum ≤ row :=
  mem_scan.mp (mem_of_head? scanned)

variable {fsInfo : FileSegInfo}

section

variable {columns : List Nat}

theorem loadMinipages_stored (stored : MinipagesStored cfg dir) : MinipagesStored cfg
      (loadMinipages cfg fsInfo segno row columns dir).2 := by
  induction columns generalizing dir with
  | nil => exact stored
  | cons groupNo rest ih =>
    rw [loadMinipages]
    split
    · exact ih stored
    · split
      · exact stored
      · rename_i page scanned
        exact ih (stored.extractMinipage (mem_minipages_of_head?_scan scanned).1)

theorem loadMinipages_eq_true_iff : (loadMinipages cfg fsInfo segno row columns dir).1 = true ↔
      ∀ groupNo ∈ columns, cfg.valIsMissing row groupNo segno = false →
        ∃ page ∈ cfg.blkdirRel.minipages segno groupNo, page.firstRowNum ≤ row := by
  induction columns generalizing dir with
  | nil => simp [loadMinipages]
  | cons groupNo rest ih =>
    rw [loadMinipages, forall_mem_cons]
    split
    · rename_i missing
      simp [ih, missing]
    · rename_i present
      split
      · rename_i empty
        have none_before : ¬ ∃ page ∈ cfg.blkdirRel.minipages segno groupNo,
            page.firstRowNum ≤ row := by
          rintro ⟨page, mem, first_le⟩
          have scanned : page ∈ cfg.blkdirRel.scan segno groupNo row :=
            mem_scan.mpr ⟨mem, first_le⟩
          rw [head?_eq_none_iff.mp empty] at scanned
          cases scanned
        simp [present, none_before]
      · rename_i page scanned
        rw [ih]
        have first := mem_minipages_of_head?_scan scanned
        exact ⟨fun others => ⟨fun _ => ⟨page, first⟩, others⟩, fun both => both.2⟩

section

variable
  (scanned : (cfg.blkdirRel.scan segno group row).head? = some page)
include scanned

theorem Loaded.loadMinipages (loaded : Loaded dir fsInfo segno group page) :
    Loaded (loadMinipages cfg fsInfo segno row columns dir).2 fsInfo segno group page := by
  induction columns generalizing dir with
  | nil => exact loaded
  | cons groupNo rest ih =>
    rw [BlockDirectory.loadMinipages]
    split
    · exact ih loaded
    · split
      · exact loaded
      · rename_i other otherScanned
        refine ih ⟨rfl, rfl, ?_⟩
        rcases eq_or_ne group groupNo with rfl | different
        · obtain rfl := some.inj (scanned.symm.trans otherScanned)
          simp [BlockDirectory.extractMinipage, setMinipage]
        · simpa [BlockDirectory.extractMinipage, setMinipage, different] using loaded.entries

theorem loadMinipages_loaded (proj : group ∈ columns)
    (present : cfg.valIsMissing row group segno = false)
    (all : (loadMinipages cfg fsInfo segno row columns dir).1) :
    Loaded (loadMinipages cfg fsInfo segno row columns dir).2 fsInfo segno group page := by
  induction columns generalizing dir with
  | nil => cases proj
  | cons groupNo rest ih =>
    rw [loadMinipages] at all ⊢
    split at all
    · rename_i missing
      rw [if_pos missing]
      rcases mem_cons.mp proj with rfl | later
      · simp [present] at missing
      · exact ih later all
    · rename_i notMissing
      rw [if_neg notMissing]
      split at all
      · cases all
      · rename_i other otherScanned
        rcases eq_or_ne group groupNo with rfl | different
        · obtain rfl := some.inj (scanned.symm.trans otherScanned)
          exact Loaded.loadMinipages scanned
            ⟨rfl, rfl, by simp [extractMinipage, setMinipage]⟩
        · exact ih ((mem_cons.mp proj).resolve_left different) all

end

end

/-! ## Lookups -/

section

theorem Loaded.place_iff (loaded : Loaded dir fsInfo segno group page)
    (same : SameMinipages dir after) (at_entryNo : page.entries[entryNo]? = some entry) :
    (after.setDirectoryentryRange cfg group entryNo).place = some place ↔
      place = (entry.fileOffset, entry.firstRowNum) ∧ entry.fileOffset ≤ fsInfo.eof group := by
  have at_after : (after.minipages group).entries[entryNo]? = some entry := by
    rw [same.entries, loaded.entries]
    exact at_entryNo
  rw [place_setDirectoryentryRange at_after, same.segmentFileInfo, loaded.segmentFileInfo]
  simp

/-- What the index has: the entry that covers the row, and the last one of its minipage if
none does. -/
theorem place_getIndexedEntry (proj : group ∈ cfg.projAtts)
    (present : cfg.valIsMissing row group segno = false)
    (found : cfg.findFileSegInfo segno = some fsInfo)
    (scanned : (cfg.blkdirRel.scan segno group row).head? = some page)
    (compl : Complete cfg segno row) :
    ∃ entry ∈ page.entries, ((dir.getIndexedEntry cfg segno row group).1.place =
        some place ↔ place = (entry.fileOffset, entry.firstRowNum) ∧
          entry.fileOffset ≤ fsInfo.eof group) ∧
      ∀ other ∈ page.entries, other.Covers row → other = entry := by
  have all : (loadMinipages cfg fsInfo segno row cfg.projAtts dir).1 =
      true := loadMinipages_eq_true_iff.mpr compl
  have loaded := loadMinipages_loaded scanned proj present all
  simp only [getIndexedEntry, found]
  split
  · rename_i stopped
    rw [stopped] at all
    cases all
  · rename_i dir' isLoaded
    rw [isLoaded] at loaded
    have same := sameMinipages_findMinipageEntry dir' group row
    split
    · rename_i entryNo isFound
      obtain ⟨entry, at_entryNo, covers⟩ := findMinipageEntry_some isFound
      rw [loaded.entries] at at_entryNo
      have entryMem := mem_of_getElem? at_entryNo
      refine ⟨entry, entryMem, loaded.place_iff same at_entryNo, fun other otherMem otherCovers => ?_⟩
      exact page.increasing.unique otherMem entryMem otherCovers covers
    · rename_i missing
      have incr := page.increasing
      rw [← loaded.entries] at incr
      have entriesEq : ((dir'.minipages group).findMinipageEntry row).2.entries =
          page.entries := by
        rw [findMinipageEntry_entries, loaded.entries]
      rw [entriesEq, if_neg page.nonempty]
      have at_last : page.entries[page.entries.length - 1]? =
          some (page.entries.getLast page.nonempty) := by
        rw [← getLast?_eq_getElem?, getLast?_eq_getLast_of_ne_nil page.nonempty]
      refine ⟨_, getLast_mem page.nonempty, loaded.place_iff same at_last,
        fun other otherMem covers => ?_⟩
      rw [← loaded.entries] at otherMem
      exact absurd covers (findMinipageEntry_none incr missing otherMem)

theorem getIndexedEntry_incomplete (incomplete : ¬ Complete cfg segno row) :
    (dir.getIndexedEntry cfg segno row group).1.place = none := by
  rw [getIndexedEntry]
  split
  · rfl
  · rename_i fsInfo found
    have stopped : (loadMinipages cfg fsInfo segno row cfg.projAtts dir).1 = false := by
      rw [← Bool.not_eq_true, loadMinipages_eq_true_iff]
      exact incomplete
    split
    · rfl
    · rename_i isLoaded
      rw [isLoaded] at stopped
      cases stopped

def Coherent (config : DirectoryConfig) (directory : BlockDirectory)
    (segmentFileNum columnGroupNo : Nat) : Prop :=
  directory.currentSegmentFileNum = some segmentFileNum →
    directory.currentSegmentFileInfo = config.findFileSegInfo segmentFileNum ∧
      ((directory.minipages columnGroupNo).entries = [] ∨
        ∃ minipage ∈ config.blkdirRel.minipages segmentFileNum columnGroupNo,
          (directory.minipages columnGroupNo).entries = minipage.entries)

section

variable (mem : page ∈ cfg.blkdirRel.minipages segno group)
  (entryMem : entry ∈ page.entries) (covers : entry.Covers row)
  (found : cfg.findFileSegInfo segno = some fsInfo)
  (below : entry.fileOffset ≤ fsInfo.eof group)
include mem entryMem covers found below

/-- A lookup finds the entry that covers the row in memory, or else, if no projected column
makes the search fail, in the relation. -/
theorem place_getEntry_iff (stored : MinipagesStored cfg dir) (proj : group ∈ cfg.projAtts)
    (present : cfg.valIsMissing row group segno = false) :
    (dir.getEntry cfg segno row group).1.place = some (entry.fileOffset, entry.firstRowNum) ↔
      dir.Hits segno row group (entry.fileOffset, entry.firstRowNum) ∨
        dir.Passes segno row group ∧ Complete cfg segno row := by
  have cached := @getCachedEntry_spec cfg dir segno row group stored
  rw [getEntry]
  split
  · rename_i answer after answered
    rw [answered] at cached
    have blocked : ¬ dir.Passes segno row group := by
      rw [← cached.passes]
      exact nofun
    rw [← cached.place]
    simp [blocked]
  · rename_i after unanswered
    rw [unanswered] at cached
    have passes := cached.passes.mp rfl
    have noHit : ¬ dir.Hits segno row group
        (entry.fileOffset, entry.firstRowNum) := fun hits => hits.not_passes passes
    simp only [noHit, passes, true_and, false_or]
    by_cases compl : Complete cfg segno row
    · have scanned := head?_scan mem (Nat.le_trans (Minipage.firstRowNum_le entryMem) covers.1)
        (Nat.lt_of_lt_of_le covers.2 (Minipage.le_afterRowNum entryMem))
      obtain ⟨_, _, placeIff, unique⟩ :=
        @place_getIndexedEntry page cfg after _ _ _
          (entry.fileOffset, entry.firstRowNum) fsInfo proj present found scanned compl
      obtain rfl := unique entry entryMem covers
      exact ⟨fun _ => compl, fun _ => placeIff.mpr ⟨rfl, below⟩⟩
    · simp [getIndexedEntry_incomplete compl, compl]

/-- A minipage of the same segment file and column has the entry that covers the row, or
does not reach over it. -/
theorem Coherent.hits_or_passes (coherent : Coherent cfg dir segno group) :
    dir.Hits segno row group (entry.fileOffset, entry.firstRowNum) ∨
      dir.Passes segno row group := by
  by_cases cur : dir.currentSegmentFileNum = some segno
  · obtain ⟨info, empty | ⟨_, otherMem, entriesEq⟩⟩ := coherent cur
    · exact .inr fun _ => .inl (by simp [empty])
    · have first_le := Minipage.firstRowNum_le entryMem
      have := Minipage.le_afterRowNum entryMem
      obtain ⟨entry_le, lt_entry⟩ := covers
      rcases (cfg.blkdirRel.increasing segno group).eq_or_apart mem otherMem with rfl | _ | _
      · exact .inl ⟨cur, fsInfo, info.trans found, entry, entriesEq ▸ entryMem,
          ⟨entry_le, lt_entry⟩, rfl, below⟩
      · refine .inr fun _ => .inl fun cached cachedMem => ?_
        have cached_le := Minipage.firstRowNum_le (entriesEq ▸ cachedMem)
        omega
      · refine .inr fun _ => .inr fun cached cachedMem => ?_
        have cached_le := Minipage.le_afterRowNum (entriesEq ▸ cachedMem)
        omega
  · exact .inr fun isCurrent => absurd isCurrent cur

end

def StoredPlace (config : DirectoryConfig) (segmentFileNum columnGroupNo : Nat)
    (place : Nat × Nat) : Prop :=
  ∃ minipage ∈ config.blkdirRel.minipages segmentFileNum columnGroupNo,
    ∃ entry ∈ minipage.entries, place = (entry.fileOffset, entry.firstRowNum)

theorem Coherent.storedPlace (stored : MinipagesStored cfg dir)
    (coherent : Coherent cfg dir segno group) (proj : group ∈ cfg.projAtts)
    (present : cfg.valIsMissing row group segno = false)
    (isFound : (dir.getEntry cfg segno row group).1.place = some place) :
    StoredPlace cfg segno group place := by
  have cached := @getCachedEntry_spec cfg dir segno row group stored
  rw [getEntry] at isFound
  split at isFound
  · rename_i answer after answered
    rw [answered] at cached
    obtain ⟨cur, _, _, entry, entryMem, _, placeEq, _⟩ := (cached.place place).mp isFound
    obtain ⟨-, empty | ⟨page, mem, entriesEq⟩⟩ := coherent cur
    · simp [empty] at entryMem
    · exact ⟨page, mem, entry, entriesEq ▸ entryMem, placeEq⟩
  · rename_i after unanswered
    by_cases compl : Complete cfg segno row
    · cases found : cfg.findFileSegInfo segno with
      | none => simp [getIndexedEntry, found, Lookup.place] at isFound
      | some fsInfo =>
        obtain ⟨_, firstMem, first_le⟩ := compl group proj present
        have ne : cfg.blkdirRel.scan segno group row ≠ [] :=
          ne_nil_of_mem (mem_scan.mpr ⟨firstMem, first_le⟩)
        have scanned := head?_eq_some_head ne
        obtain ⟨entry, entryMem, placeIff, -⟩ :=
          place_getIndexedEntry proj present found scanned compl
        exact ⟨_, (mem_minipages_of_head?_scan scanned).1, entry, entryMem, (placeIff.mp isFound).1⟩
    · rw [getIndexedEntry_incomplete compl] at isFound
      cases isFound

/-! ### Existence of an entry -/

theorem minipages_extractMinipage : (dir.extractMinipage group page).minipages group =
      ⟨page.entries, none⟩ := by
  simp [extractMinipage, setMinipage]

variable {tuples : List Minipage}

theorem searchMinipages_eq_true_iff : (searchMinipages segno row group tuples dir).1 = true ↔
      ∃ page ∈ tuples, ∃ entry ∈ page.entries, entry.Covers row := by
  induction tuples generalizing dir with
  | nil => simp [searchMinipages]
  | cons page rest ih =>
    have covered := @isSome_findMinipageEntry row
      ⟨page.entries, none⟩ page.increasing
    simp only [searchMinipages, minipages_extractMinipage, exists_mem_cons_iff]
    split_ifs with isFound
    · simp [covered.mp isFound]
    · rw [ih, or_iff_right fun holds => isFound (covered.mpr holds)]

section

variable (stored : MinipagesStored cfg dir)
include stored

theorem searchMinipages_stored
    (among : ∀ page ∈ tuples, page ∈ cfg.blkdirRel.minipages segno group) :
    MinipagesStored cfg (searchMinipages segno row group tuples dir).2 := by
  induction tuples generalizing dir with
  | nil => exact stored
  | cons page rest ih =>
    obtain ⟨first, others⟩ := forall_mem_cons.mp among
    have extracted := (@MinipagesStored.extractMinipage _ _ _ _ stored _ first
      (some segno) dir.currentSegmentFileInfo).congr
        (sameMinipages_findMinipageEntry _ group row)
    simp only [searchMinipages]
    split_ifs
    · exact extracted
    · exact ih extracted others

theorem cachedEntryExists_stored : MinipagesStored cfg
      (dir.cachedEntryExists cfg segno row group).2 := by
  rw [cachedEntryExists]
  split_ifs
  · exact stored.congr (sameMinipages_findMinipageEntry dir group row)
  · exact stored

theorem entryExists_stored : MinipagesStored cfg (dir.entryExists cfg segno row group).2 := by
  have looked := @cachedEntryExists_stored cfg dir segno row group stored
  rw [entryExists]
  split
  · rename_i answered
    rw [answered] at looked
    exact looked
  · rename_i unanswered
    rw [unanswered] at looked
    exact searchMinipages_stored looked fun _ mem => (mem_scan.mp mem).1

end

def Covered (config : DirectoryConfig) (segmentFileNum rowNum columnGroupNo : Nat) : Prop :=
  ∃ minipage ∈ config.blkdirRel.minipages segmentFileNum columnGroupNo,
    ∃ entry ∈ minipage.entries, entry.Covers rowNum

theorem searchMinipages_scan_iff : (searchMinipages segno row group
      (cfg.blkdirRel.scan segno group row) dir).1 = true ↔ Covered cfg segno row group := by
  rw [searchMinipages_eq_true_iff]
  constructor
  · rintro ⟨page, mem, covered⟩
    exact ⟨page, (mem_scan.mp mem).1, covered⟩
  · rintro ⟨page, mem, entry, entryMem, covers⟩
    have first_le := Nat.le_trans (Minipage.firstRowNum_le entryMem) covers.1
    exact ⟨page, mem_scan.mpr ⟨mem, first_le⟩, entry, entryMem, covers⟩

theorem Coherent.entryExists_iff (stored : MinipagesStored cfg dir)
    (coherent : Coherent cfg dir segno group) :
    (dir.entryExists cfg segno row group).1 = true ↔ Covered cfg segno row group := by
  rw [entryExists]
  split
  · rename_i after answered
    simp only [true_iff]
    rw [cachedEntryExists] at answered
    split_ifs at answered with consulted
    · simp only [Prod.mk.injEq] at answered
      obtain ⟨entry, entryMem, covers⟩ :=
        (isSome_findMinipageEntry stored.increasing).mp answered.1
      obtain ⟨-, empty | ⟨page, mem, entriesEq⟩⟩ := coherent consulted.2
      · simp [empty] at entryMem
      · exact ⟨page, mem, entry, entriesEq ▸ entryMem, covers⟩
    · cases answered
  · exact searchMinipages_scan_iff

end

/-! ## Runs -/

theorem getIndexedEntry_stored (stored : MinipagesStored cfg dir) : MinipagesStored cfg
      (dir.getIndexedEntry cfg segno row group).2 := by
  simp only [getIndexedEntry]
  split
  · exact stored
  · rename_i fsInfo found
    have loaded := @loadMinipages_stored cfg _ segno row fsInfo cfg.projAtts stored
    split
    · rename_i stopped
      rw [stopped] at loaded
      exact loaded
    · rename_i isLoaded
      rw [isLoaded] at loaded
      have searched := loaded.congr (sameMinipages_findMinipageEntry _ group row)
      split
      · exact searched
      · split_ifs
        · exact searched
        · exact searched

theorem getEntry_stored (stored : MinipagesStored cfg dir) : MinipagesStored cfg
      (dir.getEntry cfg segno row group).2 := by
  have cached := @getCachedEntry_spec cfg dir segno row group stored
  have looked := stored.congr cached.same
  rw [getEntry]
  split
  · rename_i answered
    rw [answered] at looked
    exact looked
  · rename_i unanswered
    rw [unanswered] at looked
    exact getIndexedEntry_stored looked

theorem reachable_stored (reached : Reachable (step cfg) initial dir) :
    MinipagesStored cfg dir := by
  refine reached.invariant (fun _ => .inl rfl) fun pre call after stored taken => ?_
  cases call with
  | getEntry segno row group =>
    simp only [step, ite_none_right_eq_some] at taken
    have kept := @getEntry_stored cfg pre segno row group stored
    obtain ⟨-, taken⟩ := taken
    split at taken
    · cases taken
    · rename_i got
      rw [got] at kept
      exact some.inj taken ▸ kept
  | entryExists segno row group =>
    simp only [step, ite_none_right_eq_some, some.injEq] at taken
    exact taken.2 ▸ entryExists_stored stored

variable {directory : BlockDirectory} {segmentFileNum rowNum row columnGroupNo : Nat}

/-- After any lookups: `getEntry` returns the stored entry of a row if and only if it has it
in memory, or does not look there for it and finds minipages for all projected columns.
That is so whenever the minipage in memory is one of the segment file the directory stands
at. Then nothing is ever returned that is not stored for the segment file and the
column. -/
theorem reachable_lookups (reached : Reachable (step config) initial directory)
    (projected : columnGroupNo ∈ config.projAtts)
    (present : config.valIsMissing rowNum columnGroupNo segmentFileNum = false) :
    (∀ minipage ∈ config.blkdirRel.minipages segmentFileNum columnGroupNo,
      ∀ entry ∈ minipage.entries, entry.Covers rowNum →
      ∀ fsInfo, config.findFileSegInfo segmentFileNum = some fsInfo →
      entry.fileOffset ≤ fsInfo.eof columnGroupNo →
        ((directory.getEntry config segmentFileNum rowNum columnGroupNo).1.place =
            some (entry.fileOffset, entry.firstRowNum) ↔
          directory.Hits segmentFileNum rowNum columnGroupNo (entry.fileOffset, entry.firstRowNum) ∨
            directory.Passes segmentFileNum rowNum columnGroupNo ∧
              Complete config segmentFileNum rowNum) ∧
        (Coherent config directory segmentFileNum columnGroupNo →
          Complete config segmentFileNum rowNum →
          (directory.getEntry config segmentFileNum rowNum columnGroupNo).1.place =
            some (entry.fileOffset, entry.firstRowNum))) ∧
    (Coherent config directory segmentFileNum columnGroupNo →
      (∀ place, (directory.getEntry config segmentFileNum rowNum columnGroupNo).1.place =
        some place → StoredPlace config segmentFileNum columnGroupNo place) ∧
      ((directory.entryExists config segmentFileNum rowNum columnGroupNo).1 = true ↔
        Covered config segmentFileNum rowNum columnGroupNo)) := by
  have stored := reachable_stored reached
  refine ⟨fun minipage mem entry entryMem covers fsInfo found below => ?_,
    fun coherent => ⟨fun place isFound => ?_, ?_⟩⟩
  · have exactly := place_getEntry_iff mem entryMem covers found below stored projected present
    refine ⟨exactly, fun coherent compl => exactly.mpr ?_⟩
    exact (coherent.hits_or_passes mem entryMem covers found below).imp_right
      fun passes => ⟨passes, compl⟩
  · exact coherent.storedPlace stored projected present isFound
  · exact coherent.entryExists_iff stored

end BlockDirectory

/-! ## A column that was added later -/

def Minipage.single (entry : MinipageEntry) (counted : 0 < entry.rowCount) : Minipage where
  entries := [entry]
  nonempty := cons_ne_nil _ _
  counted := by simpa using counted
  increasing := pairwise_singleton _ _

/-- Two segment files with rows 1 to 20. Column 1 has been added to segment file 2 after
row 10. -/
def addedColumn : BlkdirRel where
  minipages
    | 1, 0 => [.single ⟨1, 0, 20⟩ (by decide)]
    | 1, 1 => [.single ⟨1, 8, 20⟩ (by decide)]
    | 2, 0 => [.single ⟨1, 0, 20⟩ (by decide)]
    | 2, 1 => [.single ⟨11, 0, 10⟩ (by decide)]
    | _, _ => []
  increasing := by
    intro segmentFileNum columnGroupNo
    split <;> simp [Increasing]

def addedColumnConfig : DirectoryConfig where
  blkdirRel := addedColumn
  segmentFileInfo := [⟨1, fun _ => 100⟩, ⟨2, fun _ => 100⟩]
  projAtts := [0, 1]
  attnumToRownum := some fun columnGroupNo segmentFileNum =>
    if columnGroupNo = 1 ∧ segmentFileNum = 2 then 10 else 0
  blkdirEntryMinRange := false
  mvcc := true

open BlockDirectory

theorem reachable_lookups_nextSegment : ∃ directory,
    Reachable (step addedColumnConfig) initial directory ∧
      directory.currentSegmentFileNum = some 1 ∧
      (directory.getEntry addedColumnConfig 2 15 1).1.place = some (0, 11) := by
  have run : ([.getEntry 1 5 0, .getEntry 1 5 1].foldlM (step addedColumnConfig) initial).map
      currentSegmentFileNum = some (some 1) := by
    decide +kernel
  obtain ⟨dir, reach, cur⟩ := exists_of_run _ run
  have coherent : Coherent addedColumnConfig dir 2 1 := by
    intro same
    simp [cur] at same
  have compl : Complete addedColumnConfig 2 15 := by
    intro _ proj _
    simp only [addedColumnConfig, mem_cons, not_mem_nil, or_false] at proj
    rcases proj with rfl | rfl
    · exact ⟨_, mem_singleton.mpr rfl, by decide⟩
    · exact ⟨_, mem_singleton.mpr rfl, by decide⟩
  have lookups := reachable_lookups reach (show 1 ∈ addedColumnConfig.projAtts by decide)
    (show addedColumnConfig.valIsMissing 15 1 2 = false by decide)
  refine ⟨dir, reach, cur, ?_⟩
  exact (lookups.1 (.single ⟨11, 0, 10⟩ (by decide)) (mem_singleton.mpr rfl) ⟨11, 0, 10⟩
    (mem_singleton.mpr rfl) (by decide) ⟨2, fun _ => 100⟩ rfl (by decide)).2 coherent compl

/-- The lookups of `aocs_fetch` for a row. -/
def fetchCalls (segmentFileNum rowNum : Nat) : List Call :=
  addedColumnConfig.projAtts.map (aocsBlkdirGetentry addedColumnConfig segmentFileNum rowNum)

/-- Row 5 is fetched from segment file 1 and from segment file 2, where it has no value in
column 1. For row 15 of segment file 2, column 1 is looked up in the minipage of segment
file 1 then. A lookup after `entryExists` finds no information on the segment file. A
projected column without minipages makes the lookup for another one fail. -/
theorem getEntry_depends_on_history :
    (∃ directory, Reachable (step addedColumnConfig) initial directory ∧
      (directory.getEntry addedColumnConfig 2 15 1).1 = .found ⟨8, 1, 100, 20⟩) ∧
    (∃ directory, Reachable (step addedColumnConfig) initial directory ∧
      (directory.getEntry addedColumnConfig 1 5 0).1 = .invalid) ∧
    (initial.getEntry { addedColumnConfig with attnumToRownum := none } 2 5 0).1 = .absent := by
  refine ⟨exists_of_run (fetchCalls 1 5 ++ fetchCalls 2 5 ++ [.getEntry 2 15 0]) ?_,
    exists_of_run [.entryExists 1 5 0] ?_, ?_⟩
  all_goals decide +kernel

end Greengage.AppendOnly
