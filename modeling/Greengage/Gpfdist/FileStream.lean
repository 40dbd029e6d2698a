import Mathlib.Data.List.Forall2
import Greengage.Foundations.Scanner

/-!
Contract: gpfdist cuts files at the ends of records, `fstream.c`.

Does not own: opening and decompressing files. A read or an open that fails ends the stream
with an error, as the errors here do. File offsets and line numbers are only reported.
-/

namespace Greengage.Gpfdist

open List Foundations Scanner Option

abbrev Bytes := List UInt8

inductive EolType
  | unknown
  | nl
  | cr
  | crnl
deriving DecidableEq

def newline : UInt8 := 10

def carriageReturn : UInt8 := 13

/-- How the files are written, from `struct fstream_options` and the request. `lineDelim` is
the delimiter of a text file, empty when none is defined. -/
structure Format where
  isCsv : Bool
  quote : UInt8
  escape : UInt8
  eolType : EolType
  lineDelim : Bytes

/-- The state of `scan_csv_records`. Of `lastch` only a carriage return matters, and only with
`EOL_CRNL`. -/
structure CsvScan where
  inQuote : Bool := false
  lastWasEsc : Bool := false
  lastWasCr : Bool := false

/-- `fstream_t`: the unread parts of the open file and of the files after it, and the bytes
carried over. -/
structure Stream where
  unread : List Bytes
  buffer : Bytes
  skipHeaderLine : Bool

/-- The files are opened, also by `nextFile`. -/
def openFiles (header : Bool) (files : List Bytes) : Stream :=
  ⟨files, [], header⟩

/-- Text lines, which end at the first occurrence of `eol` after the previous line. The state
is the line so far. -/
def lineScanner (eol : Bytes) : Scanner Bytes UInt8 where
  start := []
  step line ch := if eol <:+ line ++ [ch] then ([], true) else (line ++ [ch], false)
  reset line ch := by split <;> simp

def matchesAt (delimiter chunk : Bytes) (p : Nat) : Bool :=
  (chunk.drop p).take delimiter.length == delimiter

/-- Counts the bytes up to the end of the last delimiter, and is `none` for the pointer before
the start. -/
def findLastEolDelim (chunk delimiter : Bytes) : Option Nat :=
  if chunk.length ≤ delimiter.length then none
  else ((range (chunk.length - delimiter.length + 1)).reverse.find?
    (matchesAt delimiter chunk)).map (· + delimiter.length)

def findFirstEolDelim (chunk delimiter : Bytes) : Option Nat :=
  if chunk.length ≤ delimiter.length then none
  else ((range (chunk.length - delimiter.length + 1)).find?
    (matchesAt delimiter chunk)).map (· + delimiter.length)

namespace Format

variable (format : Format)

def isEol (scan : CsvScan) (ch : UInt8) : Bool :=
  match format.eolType with
  | .crnl => ch == newline && scan.lastWasCr
  | .cr => ch == carriageReturn
  | .nl | .unknown => ch == newline

/-- The loop body of `scan_csv_records_crlf` and of `scan_csv_records_cr_or_lf`, and whether a
record ends with the character. -/
def csvStep (scan : CsvScan) (ch : UInt8) : CsvScan × Bool :=
  let scan' := { scan with lastWasCr := ch == carriageReturn }
  if scan.inQuote then
    if !scan.lastWasEsc then
      if ch = format.quote then ({ scan' with inQuote := false }, false)
      else if ch = format.escape then ({ scan' with lastWasEsc := true }, false)
      else (scan', false)
    else ({ scan' with lastWasEsc := false }, false)
  else if format.isEol scan ch then ({}, true)
  else if ch = format.quote then ({ scan' with inQuote := true }, false)
  else (scan', false)

def csvScanner : Scanner CsvScan UInt8 where
  start := {}
  step := format.csvStep
  reset scan ch := by
    unfold csvStep
    split_ifs <;> simp

def scanCsvRecords (chunk : Bytes) (one : Bool) : Option Nat :=
  format.csvScanner.scanRecords one {} 0 none chunk

/-- Where the last whole record of a chunk ends. -/
def lastRecord (chunk : Bytes) : Option Nat :=
  if format.isCsv then format.scanCsvRecords chunk false
  else if 0 < format.lineDelim.length then findLastEolDelim chunk format.lineDelim
  else ((range chunk.length).reverse.find? (matchesAt [newline] chunk)).map (· + 1)

/-- Where the header ends. -/
def firstRecord (chunk : Bytes) : Option Nat :=
  if format.isCsv then format.scanCsvRecords chunk true
  else if 0 < format.lineDelim.length then findFirstEolDelim chunk format.lineDelim
  else ((range chunk.length).find? (matchesAt [newline] chunk)).map (· + 1)

/-- The part of `fstream_read` that reads the header: the carried-over bytes and the rest of
the file after it. -/
def passHeader (bufsize : Nat) (buffer file : Bytes) : Option (Bytes × Bytes) :=
  let filled := buffer ++ file.take (bufsize - buffer.length)
  let rest := file.drop (bufsize - buffer.length)
  match format.firstRecord filled with
  | some n => some (filled.drop n, rest)
  | none => if filled.length = bufsize then none else some ([], rest)

/-- `fstream_read` with `read_whole_lines`. An error is `none`. -/
def fstreamRead (bufsize : Nat) (header : Bool) (size : Nat) (buffer : Bytes)
    (skipHeaderLine : Bool) : List Bytes → Option (Bytes × Stream)
  | [] => some ([], ⟨[], buffer, skipHeaderLine⟩)
  | file :: files =>
    if size = 0 then some ([], ⟨file :: files, buffer, skipHeaderLine⟩)
    else match if skipHeaderLine then format.passHeader bufsize buffer file
        else some (buffer, file) with
      | none => none
      | some (buffer, file) =>
        let fresh := file.take (size - buffer.length)
        let dest := buffer ++ fresh
        if fresh.length < size - buffer.length then
          if dest = [] then fstreamRead bufsize header size [] header files
          else some (dest, openFiles header files)
        else match format.lastRecord dest with
          | none => none
          | some n =>
            if n + bufsize ≤ size then none
            else some (dest.take n,
              ⟨file.drop (size - buffer.length) :: files, dest.drop n, false⟩)

/-- Calls until one of them returns no bytes: the chunks, and whether it came to that. -/
def readAll (bufsize : Nat) (header : Bool) (stream : Stream) :
    List Nat → Option (List Bytes × Bool)
  | [] => some ([], false)
  | size :: sizes =>
    match format.fstreamRead bufsize header size stream.buffer stream.skipHeaderLine
        stream.unread with
    | none => none
    | some ([], _) => some ([], true)
    | some (chunk, stream) =>
      (readAll bufsize header stream sizes).map fun (chunks, ended) => (chunk :: chunks, ended)

/-- The line end of a text file. -/
def eol : Bytes :=
  if 0 < format.lineDelim.length then format.lineDelim else [newline]

/-- A record ends with the last byte of the text, which is scanned from its beginning. -/
def RecordEnd (text : Bytes) : Prop :=
  if format.isCsv then format.csvScanner.EndsAt text else (lineScanner format.eol).EndsAt text

end Format

section Lines

variable {eol text chunk : Bytes}

theorem suffix_of_matchesAt {p : Nat} (found : matchesAt eol chunk p) :
    eol <:+ chunk.take (p + eol.length) := by
  rw [take_add, eq_of_beq found]
  exact suffix_append _ _

theorem matchesAt_of_suffix (within : text <+: chunk) (ends : eol <:+ text) :
    matchesAt eol chunk (text.length - eol.length) := by
  obtain ⟨front, rfl⟩ := ends
  obtain ⟨rest, rfl⟩ := within
  simp [matchesAt]

theorem lineScanner_step (line : Bytes) (ch : UInt8) : (lineScanner eol).step line ch =
    if eol <:+ line ++ [ch] then ([], true) else (line ++ [ch], false) := rfl

/-- The line so far goes back to the end of the previous line. -/
theorem lineScanner_run (eol text : Bytes) : ∃ read,
    text = read ++ (lineScanner eol).run [] text ∧ (read = [] ∨ eol <:+ read) := by
  induction text using reverseRecOn with
  | nil => exact ⟨[], rfl, .inl rfl⟩
  | append_singleton text ch ih =>
    obtain ⟨read, whole, before⟩ := ih
    have step : (lineScanner eol).run [] (text ++ [ch]) = _ := run_concat ch
    rw [step, lineScanner_step]
    split_ifs with ends
    · refine ⟨text ++ [ch], (append_nil _).symm, .inr ?_⟩
      rw [whole, append_assoc]
      exact ends.trans (suffix_append _ _)
    · refine ⟨read, ?_, before⟩
      conv_lhs => rw [whole, append_assoc]
      rfl

theorem lineScanner_endsAt_concat {ch : UInt8} : (lineScanner eol).EndsAt (text ++ [ch]) ↔
    eol <:+ (lineScanner eol).run [] text ++ [ch] := by
  rw [endsAt_concat, lineScanner_step]
  split_ifs with ends
  · exact iff_of_true rfl ends
  · exact iff_of_false id ends

theorem suffix_of_lineScanner_endsAt (ends : (lineScanner eol).EndsAt text) : eol <:+ text := by
  obtain ⟨front, last, rfl, -⟩ := id ends
  obtain ⟨read, whole, -⟩ := lineScanner_run eol front
  rw [whole, append_assoc]
  exact (lineScanner_endsAt_concat.1 ends).trans (suffix_append _ _)

/-- No proper part of a line end is both its beginning and its end. -/
def Unbordered (eol : Bytes) : Prop :=
  ¬ ∃ border, border <+: eol ∧ border <:+ eol ∧ border ≠ [] ∧ border ≠ eol

/-- An occurrence of the line end ends a line, or begins inside an earlier one. -/
theorem endsAt_or_overlap (nonempty : eol ≠ []) (ends : eol <:+ text) :
    (lineScanner eol).EndsAt text ∨ ¬ Unbordered eol ∧
      ∃ read, read <+: text ∧ eol <:+ read ∧ read.length < text.length := by
  induction text using reverseRecOn with
  | nil => exact absurd (suffix_nil.1 ends) nonempty
  | append_singleton text ch =>
    rw [lineScanner_endsAt_concat]
    obtain ⟨read, whole, before⟩ := lineScanner_run eol text
    generalize (lineScanner eol).run [] text = line at whole
    rw [whole, append_assoc] at ends ⊢
    rcases suffix_or_suffix_of_suffix ends (suffix_append read _) with inside | ⟨border, split⟩
    · exact .inl inside
    have overlap : border <:+ read := by
      rw [← split] at ends
      exact suffix_append_self_iff.1 ends
    rcases eq_or_ne border [] with rfl | some
    · exact .inl ⟨[], split.symm⟩
    right
    have before := before.resolve_left fun none => some (suffix_nil.1 (none ▸ overlap))
    have size := congrArg length split
    simp only [length_append, length_singleton] at size
    refine ⟨fun unbordered => unbordered ⟨border, ⟨_, split⟩, ?_, some, ?_⟩,
      read, prefix_append _ _, before, by simp⟩
    · exact suffix_of_suffix_length_le overlap before (by omega)
    · rintro rfl
      omega

theorem find_matchesAt {k p : Nat} (found : (range k).find? (matchesAt eol chunk) = some p)
    {front : Bytes} (within : front <+: chunk) (ends : eol <:+ front) :
    p + eol.length ≤ front.length := by
  have there := matchesAt_of_suffix within ends
  have fits := ends.length_le
  have late : p ≤ front.length - eol.length := by
    by_contra early
    simpa [there] using (find?_range_eq_some.1 found).2.2 _ (not_le.1 early)
  omega

end Lines

namespace Format

variable {format : Format} {text read chunk file skipped buffer rest scanned : Bytes}
  {chunks unread : List Bytes} {header skip : Bool} {bufsize size n : Nat} {stream : Stream}

theorem eol_ne_nil : format.eol ≠ [] := by
  unfold eol
  split_ifs with defined
  · exact length_pos_iff.1 defined
  · simp

theorem RecordEnd.ne_nil (ends : format.RecordEnd text) : text ≠ [] := by
  unfold RecordEnd at ends
  split_ifs at ends <;> obtain ⟨front, last, rfl, -⟩ := ends <;> simp

/-- The scan may be restarted after a record. -/
theorem recordEnd_append (before : read = [] ∨ format.RecordEnd read) (nonempty : text ≠ []) :
    format.RecordEnd (read ++ text) ↔ format.RecordEnd text := by
  rcases before with rfl | before
  · rw [nil_append]
  · unfold RecordEnd at *
    split_ifs at before ⊢ <;> exact endsAt_append before.run_eq nonempty

/-- Both searches in a text compare the line end at every place where it fits. -/
theorem records_text (isText : format.isCsv = false) (chunk : Bytes) :
    (chunk.length ≤ format.eol.length ∧ format.lastRecord chunk = none ∧
      format.firstRecord chunk = none) ∨
    (format.lastRecord chunk = ((range (chunk.length + 1 - format.eol.length)).reverse.find?
        (matchesAt format.eol chunk)).map (· + format.eol.length) ∧
      format.firstRecord chunk = ((range (chunk.length + 1 - format.eol.length)).find?
        (matchesAt format.eol chunk)).map (· + format.eol.length)) := by
  unfold lastRecord firstRecord eol findLastEolDelim findFirstEolDelim
  simp only [isText, Bool.false_eq_true, if_false]
  split_ifs with defined short
  · exact .inl ⟨short, rfl, rfl⟩
  · rw [Nat.sub_add_comm (not_le.1 short).le]
    exact .inr ⟨rfl, rfl⟩
  · exact .inr ⟨rfl, rfl⟩

theorem scanCsvRecords_endsAt {one : Bool} (found : format.scanCsvRecords chunk one = some n) :
    format.csvScanner.EndsAt (chunk.take n) :=
  @scanRecords_endsAt _ _ format.csvScanner chunk [] one none n (by simp) found

theorem lastRecord_recordEnd (sound : format.isCsv ∨ Unbordered format.eol)
    (found : format.lastRecord chunk = some n) : format.RecordEnd (chunk.take n) := by
  unfold RecordEnd
  split_ifs with csv
  · simp only [lastRecord, csv] at found
    exact scanCsvRecords_endsAt found
  · apply (endsAt_or_overlap eol_ne_nil _).resolve_right fun ⟨overlap, _⟩ =>
      overlap (sound.resolve_left csv)
    rcases records_text (Bool.not_eq_true _ ▸ csv) chunk with ⟨-, none, -⟩ | ⟨search, -⟩
    · simp [none] at found
    · rw [search] at found
      obtain ⟨p, place, rfl⟩ := map_eq_some_iff.1 found
      exact suffix_of_matchesAt (find?_some place)

theorem firstRecord_recordEnd (found : format.firstRecord chunk = some n) :
    format.RecordEnd (chunk.take n) := by
  unfold RecordEnd
  split_ifs with csv
  · simp only [firstRecord, csv] at found
    exact scanCsvRecords_endsAt found
  · rcases records_text (Bool.not_eq_true _ ▸ csv) chunk with ⟨-, -, none⟩ | ⟨-, search⟩
    · simp [none] at found
    · rw [search] at found
      obtain ⟨p, place, rfl⟩ := map_eq_some_iff.1 found
      apply (endsAt_or_overlap eol_ne_nil (suffix_of_matchesAt (find?_some place))).resolve_right
      rintro ⟨-, read, within, ends, shorter⟩
      have late := find_matchesAt place (within.trans ( take_prefix _ _)) ends
      exact absurd (shorter.trans_le (length_take_le _ _)) (not_lt.2 late)

theorem firstRecord_le (within : text <+: chunk) (ends : format.RecordEnd text)
    (proper : text ≠ chunk) : ∃ n, format.firstRecord chunk = some n ∧ n ≤ text.length := by
  have nonempty := ends.ne_nil
  unfold RecordEnd at ends
  split_ifs at ends with csv
  · simp only [firstRecord, csv]
    exact @scanRecords_first_le _ _ format.csvScanner chunk [] text nonempty within ends
  · have ends := suffix_of_lineScanner_endsAt ends
    have size := ends.length_le
    rcases records_text (Bool.not_eq_true _ ▸ csv) chunk with ⟨short, -⟩ | ⟨-, search⟩
    · exact absurd (within.eq_of_length_le (short.trans size)) proper
    · rw [search]
      have fits : text.length - format.eol.length ∈
          range (chunk.length + 1 - format.eol.length) := by
        have := within.length_le
        simp only [mem_range]
        omega
      obtain ⟨p, found⟩ := isSome_iff_exists.1
        (find?_isSome.2 ⟨_, fits, matchesAt_of_suffix within ends⟩)
      exact ⟨_, by rw [found]; rfl, find_matchesAt found within ends⟩

/-- What is skipped of a file is its first record, or all of it when no record ends. -/
structure FirstRecord (format : Format) (file skipped : Bytes) : Prop where
  within : skipped <+: file
  first : ∀ front, front <+: skipped → format.RecordEnd front → front = skipped
  ends : format.RecordEnd skipped ∨ skipped = file

/-- Every chunk but the last ends with a record. -/
def WholeRecords (format : Format) (scanned : Bytes) : List Bytes → Prop
  | chunk :: next :: chunks =>
    format.RecordEnd (scanned ++ chunk) ∧ WholeRecords format (scanned ++ chunk) (next :: chunks)
  | _ => True

/-- The chunks are the rest of a file, without its first record when that is a header. -/
def Delivered (format : Format) (header : Bool) (scanned text : Bytes)
    (chunks : List Bytes) : Prop :=
  ∃ skipped, (if header then format.FirstRecord text skipped else skipped = []) ∧
    text = skipped ++ chunks.flatten ∧ format.WholeRecords (scanned ++ skipped) chunks

/-- The groups of chunks are what a stream still has to deliver, one group for each file. -/
def Serves (format : Format) (header : Bool) (stream : Stream) (scanned : Bytes)
    (groups : List (List Bytes)) : Prop :=
  match stream.unread with
  | [] => groups = []
  | file :: files => ∃ group later, groups = group :: later ∧
    format.Delivered stream.skipHeaderLine scanned (stream.buffer ++ file) group ∧
    Forall₂ (format.Delivered header []) files later

theorem serves_openFiles {groups} : format.Serves header (openFiles header unread) [] groups ↔
    Forall₂ (format.Delivered header []) unread groups := by
  cases unread with
  | nil => simp [Serves, openFiles]
  | cons file files =>
    rw [forall₂_cons_left_iff]
    constructor
    · rintro ⟨group, later, rfl, here, there⟩
      exact ⟨group, later, here, there, rfl⟩
    · rintro ⟨group, later, here, there, rfl⟩
      exact ⟨group, later, rfl, here, there⟩

theorem passHeader_spec
    (passed : format.passHeader bufsize [] file = some (buffer, rest)) : ∃ skipped,
    format.FirstRecord file skipped ∧ file = skipped ++ (buffer ++ rest) ∧
      (buffer ++ rest = [] ∨ format.RecordEnd skipped) := by
  simp only [passHeader, nil_append, length_nil, Nat.sub_zero] at passed
  have whole := take_append_drop bufsize file
  have start := take_prefix bufsize file
  have short : (file.take bufsize).length ≠ bufsize → file.drop bufsize = [] := by
    rw [length_take, drop_eq_nil_iff]
    omega
  generalize file.take bufsize = filled at *
  split at passed
  next n found =>
    cases passed
    have ends := firstRecord_recordEnd found
    refine ⟨filled.take n, ⟨( take_prefix _ _).trans start, ?_, .inl ends⟩, ?_, .inr ends⟩
    · intro front within frontEnds
      apply within.eq_of_length_le
      rcases eq_or_ne front filled with rfl | proper
      · exact length_take_le' _ _
      · obtain ⟨m, least, le⟩ := firstRecord_le (within.trans ( take_prefix _ _)) frontEnds proper
        rw [found] at least
        cases least
        exact (length_take_le _ _).trans le
    · rw [← append_assoc, take_append_drop, whole]
  next none =>
    obtain ⟨notFull, same⟩ := ite_none_left_eq_some.1 passed
    cases same
    rw [short notFull, append_nil] at whole ⊢
    subst whole
    refine ⟨filled, ⟨prefix_rfl, ?_, .inr rfl⟩, (append_nil _).symm, .inl rfl⟩
    intro front within ends
    by_contra proper
    obtain ⟨m, found, -⟩ := firstRecord_le within ends proper
    rw [none] at found
    contradiction

theorem delivered_of_header (header : format.FirstRecord file skipped)
    (whole : file = skipped ++ text)
    (delivered : format.Delivered false skipped text chunks) :
    format.Delivered true [] file chunks := by
  obtain ⟨-, rfl, rfl, records⟩ := delivered
  rw [append_nil] at records
  exact ⟨skipped, header, whole, records⟩

theorem delivered_cons (ends : format.RecordEnd (scanned ++ chunk))
    (delivered : format.Delivered false (scanned ++ chunk) rest chunks) :
    format.Delivered false scanned (chunk ++ rest) (chunk :: chunks) := by
  obtain ⟨-, rfl, rfl, records⟩ := delivered
  refine ⟨[], rfl, by simp, ?_⟩
  cases chunks with
  | nil => trivial
  | cons next chunks =>
    rw [append_nil] at records ⊢
    exact ⟨ends, records⟩

/-- A stream stands at the end of a record, and before a header at the beginning of a file. -/
structure Ready (format : Format) (stream : Stream) (scanned : Bytes) : Prop where
  boundary : scanned = [] ∨ format.RecordEnd scanned
  atHeader : stream.skipHeaderLine = true → stream.buffer = [] ∧ scanned = []

theorem ready_openFiles : format.Ready (openFiles header unread) [] :=
  ⟨.inl rfl, fun _ => ⟨rfl, rfl⟩⟩

/-- After the header, what is left to deliver of the file begins after a record. -/
theorem header_spec (ready : format.Ready ⟨file :: unread, buffer, skip⟩ scanned)
    {buffer' rest : Bytes}
    (passed : (if skip then format.passHeader bufsize buffer file else some (buffer, file)) =
      some (buffer', rest)) :
    ∃ scanned', (buffer' ++ rest = [] ∨ scanned' = [] ∨ format.RecordEnd scanned') ∧
      ∀ chunks, format.Delivered false scanned' (buffer' ++ rest) chunks →
        format.Delivered skip scanned (buffer ++ file) chunks := by
  cases skip with
  | false =>
    cases passed
    exact ⟨scanned, .inr ready.boundary, fun _ => id⟩
  | true =>
    obtain ⟨rfl, rfl⟩ := ready.atHeader rfl
    obtain ⟨skipped, first, whole, ends⟩ := passHeader_spec passed
    exact ⟨skipped, ends.imp_right .inr, fun _ => delivered_of_header first whole⟩

/-- A call that returns no bytes has delivered everything. What another call returns, put
before anything that serves the stream after it, serves the stream before it. -/
theorem fstreamRead_serves (sound : format.isCsv ∨ Unbordered format.eol) (positive : 0 < size)
    (ready : format.Ready ⟨unread, buffer, skip⟩ scanned)
    (read : format.fstreamRead bufsize header size buffer skip unread = some (chunk, stream)) :
    ∃ scanned', format.Ready stream scanned' ∧ (chunk = [] → stream.unread = []) ∧
      ∀ groups, format.Serves header stream scanned' groups →
        ∃ before, format.Serves header ⟨unread, buffer, skip⟩ scanned before ∧
          before.flatten = [chunk].filter (· ≠ []) ++ groups.flatten := by
  induction unread generalizing buffer skip scanned with
  | nil =>
    cases read
    exact ⟨scanned, ready, fun _ => rfl, fun groups serves => ⟨groups, serves, rfl⟩⟩
  | cons file files ih =>
    simp only [fstreamRead, positive.ne', if_false] at read
    split at read
    · contradiction
    next buffer' rest passed =>
    obtain ⟨scanned', boundary, lift⟩ := header_spec ready passed
    have all : (rest.take (size - buffer'.length)).length < size - buffer'.length →
        rest.take (size - buffer'.length) = rest := by
      rw [length_take, take_eq_self_iff]
      omega
    have split := take_append_drop (size - buffer'.length) rest
    generalize rest.take (size - buffer'.length) = fresh at *
    split_ifs at read with short empty
    · -- The next file is tried, and this one has nothing to deliver.
      rw [all short] at empty
      obtain ⟨final, ready', done, serve⟩ := ih ready_openFiles read
      refine ⟨final, ready', done, fun groups serves => ?_⟩
      obtain ⟨before, serves, flat⟩ := serve groups serves
      have nothing := lift [] ⟨[], rfl, empty, trivial⟩
      exact ⟨[] :: before, ⟨[], before, rfl, nothing, serves_openFiles.1 serves⟩, flat⟩
    · cases read
      rw [all short] at empty ⊢
      refine ⟨[], ready_openFiles, fun none => absurd none empty, fun groups serves => ?_⟩
      have last := lift [buffer' ++ rest] ⟨[], rfl, by simp, trivial⟩
      exact ⟨[buffer' ++ rest] :: groups, ⟨_, groups, rfl, last, serves_openFiles.1 serves⟩,
        by simp [empty]⟩
    · split at read
      · contradiction
      next n found =>
      obtain ⟨_, same⟩ := ite_none_left_eq_some.1 read
      cases same
      have ends := lastRecord_recordEnd sound found
      have whole : (buffer' ++ fresh).take n ++ ((buffer' ++ fresh).drop n ++
          rest.drop (size - buffer'.length)) = buffer' ++ rest := by
        rw [← append_assoc, take_append_drop, append_assoc, split]
      have nonempty : buffer' ++ rest ≠ [] := by
        rw [← whole]
        exact append_ne_nil_of_left_ne_nil ends.ne_nil _
      have ends' := (recordEnd_append (boundary.resolve_left nonempty) ends.ne_nil).2 ends
      refine ⟨_, ⟨.inr ends', nofun⟩, fun none => absurd none ends.ne_nil, ?_⟩
      rintro groups ⟨group, later, rfl, delivered, others⟩
      have here := lift _ (whole ▸ delivered_cons ends' delivered)
      exact ⟨_ :: later, ⟨_, later, rfl, here, others⟩, by simp [ends.ne_nil]⟩

/-- Calls that read everything deliver one group of chunks for each file. -/
def CutsAtRecords (format : Format) (bufsize : Nat) (header : Bool) (files : List Bytes)
    (sizes : List Nat) : Prop :=
  ∀ chunks, format.readAll bufsize header (openFiles header files) sizes = some (chunks, true) →
    ∃ groups, groups.flatten = chunks ∧ Forall₂ (format.Delivered header []) files groups

theorem readAll_serves (sound : format.isCsv ∨ Unbordered format.eol) {sizes : List Nat}
    (positive : ∀ size ∈ sizes, 0 < size) (ready : format.Ready stream scanned)
    (run : format.readAll bufsize header stream sizes = some (chunks, true)) :
    ∃ groups, format.Serves header stream scanned groups ∧ groups.flatten = chunks := by
  induction sizes generalizing stream scanned chunks with
  | nil => cases run
  | cons size sizes ih =>
    have ⟨now, later⟩ := forall_mem_cons.1 positive
    unfold readAll at run
    split at run
    · contradiction
    next final read =>
      cases run
      obtain ⟨scanned', -, done, serve⟩ := fstreamRead_serves sound now ready read
      exact serve [] (by simp only [Serves, done rfl])
    next chunk final nonempty read =>
      obtain ⟨⟨chunks, ended⟩, run, same⟩ := map_eq_some_iff.1 run
      cases same
      obtain ⟨scanned', ready', -, serve⟩ := fstreamRead_serves sound now ready read
      obtain ⟨groups, serves, rfl⟩ := ih later ready' run
      obtain ⟨before, serves, flat⟩ := serve groups serves
      rw [filter_cons_of_pos (by simpa using nonempty)] at flat
      exact ⟨before, serves, flat⟩

theorem lastRecord_append_eol (isText : format.isCsv = false) {line : Bytes}
    (nonempty : line ≠ []) :
    format.lastRecord (line ++ format.eol) = some (line ++ format.eol).length := by
  have positive := length_pos_iff.2 nonempty
  rcases records_text isText (line ++ format.eol) with ⟨short, -⟩ | ⟨search, -⟩
  · rw [length_append] at short
    omega
  · have last : matchesAt format.eol (line ++ format.eol) line.length := by simp [matchesAt]
    rw [search, length_append, Nat.add_right_comm, Nat.add_sub_cancel, range_succ, reverse_append,
      reverse_singleton, singleton_append, find?_cons_of_pos last]
    rfl

/-- With a line end that overlaps itself, the last occurrence may begin inside an earlier line
end. -/
theorem not_cutsAtRecords (isText : format.isCsv = false) {line border tail : Bytes}
    (front : border ++ tail = format.eol) (back : line ++ border = format.eol)
    (nonempty : border ≠ []) (proper : border ≠ format.eol) (ch : UInt8) :
    ¬ format.CutsAtRecords (line ++ format.eol).length false [line ++ format.eol ++ [ch]]
      (replicate 3 (line ++ format.eol).length) := by
  have lineNonempty : line ≠ [] := fun none => proper (by rw [← back, none, nil_append])
  have tailNonempty : tail ≠ [] := fun none => proper (by rw [← front, none, append_nil])
  have inside : ¬ format.RecordEnd (line ++ format.eol) := by
    have eolEnds : (lineScanner format.eol).EndsAt format.eol :=
      (endsAt_or_overlap eol_ne_nil suffix_rfl).resolve_right
        fun ⟨_, _, _, ends, shorter⟩ => not_lt.2 ends.length_le shorter
    have shared : line ++ format.eol = format.eol ++ tail := by
      rw [← front, ← append_assoc, back, ← front]
    rw [shared, RecordEnd, isText]
    intro ends
    have short := (endsAt_append eolEnds.run_eq tailNonempty).1 ends
    have long := (suffix_of_lineScanner_endsAt short).length_le
    rw [← front, length_append] at long
    have := length_pos_iff.2 nonempty
    omega
  have found := lastRecord_append_eol isText lineNonempty
  obtain ⟨first, dest, whole⟩ :=
    exists_cons_of_ne_nil (append_ne_nil_of_left_ne_nil lineNonempty format.eol)
  have size := congrArg length whole
  simp only [length_append, length_cons] at size
  have last : 0 < dest.length := by
    have := length_pos_iff.2 lineNonempty
    have := length_pos_iff.2 (@eol_ne_nil format)
    omega
  have room : ¬ dest.length + 1 + (dest.length + 1) ≤ dest.length + 1 := by omega
  rw [whole] at found inside ⊢
  intro cuts
  obtain ⟨groups, flat, delivered⟩ := cuts [first :: dest, [ch]]
    (by simp [readAll, fstreamRead, openFiles, found, room, last])
  obtain ⟨group, others, ⟨-, rfl, -, records⟩, none, rfl⟩ := forall₂_cons_left_iff.1 delivered
  obtain rfl := forall₂_nil_left_iff.1 none
  rw [flatten_singleton] at flat
  rw [flat] at records
  exact inside records.1

/-- Files are cut only at the ends of records, whatever the buffer and the calls, exactly when
the format is CSV or the line end does not overlap itself. -/
theorem fstreamRead_cutsAtRecords_iff (format : Format) :
    (∀ bufsize header files sizes, (∀ size ∈ sizes, bufsize ≤ size ∧ 0 < size) →
      format.CutsAtRecords bufsize header files sizes) ↔
      format.isCsv ∨ Unbordered format.eol := by
  constructor
  · intro cuts
    rw [or_iff_not_imp_left]
    rintro isText ⟨border, ⟨tail, front⟩, ⟨line, back⟩, nonempty, proper⟩
    apply not_cutsAtRecords (Bool.not_eq_true _ ▸ isText) front back nonempty proper 0
    apply cuts
    intro size mem
    rw [eq_of_mem_replicate mem, length_append]
    exact ⟨le_rfl, Nat.add_pos_right _ (length_pos_iff.2 eol_ne_nil)⟩
  · intro sound bufsize header files sizes large chunks run
    obtain ⟨groups, serves, flat⟩ :=
      readAll_serves sound (fun size mem => (large size mem).2) ready_openFiles run
    exact ⟨groups, flat, serves_openFiles.1 serves⟩

/-- With the delimiter of two bars, a line that ends in a bar before the delimiter is cut in
the middle of the delimiter's second occurrence. -/
theorem fstreamRead_cuts_doubled_bar :
    ¬ (⟨false, 34, 34, .unknown, [124, 124]⟩ : Format).CutsAtRecords 3 false
      [[124, 124, 124, 120]] [3, 3, 3] :=
  @not_cutsAtRecords _ rfl [124] [124] [124] rfl rfl (by decide) (by decide) 120

end Format

end Greengage.Gpfdist
