import Greengage.AppendOnly.StorageFormat

/-!
Contract: an append-only block header reads back as it was made.

The block checksum of a large content header leaves out the first row number, so that it
is accepted only by chance.
-/

namespace Greengage.AppendOnly

open Greengage.Foundations

/-! ### Fields of the two header words -/

namespace AOHeader

theorem initHasFirstRowNum_eq (hdr : AOHeader) (flag : Bool) : hdr.initHasFirstRowNum flag =
      { hdr with
        bytes0To3 := initField hdr.bytes0To3 0x08000000 (if flag then 1 else 0) 27 } := by
  cases flag with
  | false => exact congrArg (mk · hdr.bytes4To7) (initField_zero _ _ _).symm
  | true => rfl

theorem initCompressedLength_eq (hdr : AOHeader) (compLen : Nat) :
    (if decide (compLen > 0) = true then
        hdr.smallInitCompressedLength (BitVec.ofNat 32 compLen)
      else hdr) = hdr.smallInitCompressedLength (BitVec.ofNat 32 compLen) := by
  by_cases zero : compLen = 0
  · subst zero
    exact congrArg (mk hdr.bytes0To3) (initField_zero _ _ _).symm
  · rw [if_pos (by simpa using Nat.pos_of_ne_zero zero)]

theorem smallGetDataLength_eq (hdr : AOHeader) : hdr.smallGetDataLength =
      (getField hdr.bytes0To3 0x3FF 0 <<< 11) ||| getField hdr.bytes4To7 0xFFE00000 21 := by
  simp [smallGetDataLength, getField]

theorem largeGetLargeRowCount_eq (hdr : AOHeader) : hdr.largeGetLargeRowCount =
      (getField hdr.bytes0To3 0x7FFFFF 0 <<< 2) ||| getField hdr.bytes4To7 0xC0000000 30 := by
  simp [largeGetLargeRowCount, getField]

theorem getReserved0_eq (hdr : AOHeader) :
    hdr.getReserved0 = getField hdr.bytes0To3 0x80000000 31 := by
  apply BitVec.eq_of_getLsbD_eq
  intro i _
  simp only [getReserved0, getField, BitVec.getLsbD_ushiftRight, BitVec.getLsbD_and]
  by_cases first : i = 0
  · simp [first]
  · rw [BitVec.getLsbD_of_ge _ _ (by omega), Bool.false_and]

structure Common (header : AOHeader) (kind : AoHeaderKind) (executorKind : BitVec 32)
    (hasFirstRowNum : Bool) : Prop where
  reserved0 : header.getReserved0 = 0
  headerKind : header.getHeaderKind = kind.code
  executorBlockKind : header.getExecutorBlockKind = executorKind
  firstRowNum : header.getHasFirstRowNum = hasFirstRowNum

theorem getHasFirstRowNum_fieldValue (flag) :
    (fieldValue 0x08000000 (if flag then 1 else 0) 27 != 0) = flag := by
  cases flag <;> decide

theorem common_of {hdr : AOHeader} {kind : AoHeaderKind} {executorKind : BitVec 32} {flag : Bool}
    (small : executorKind.toNat < 2 ^ 3)
    (reserved0 : getField hdr.bytes0To3 0x80000000 31 = 0#32)
    (headerKind : getField hdr.bytes0To3 0x70000000 28 = fieldValue 0x70000000 kind.code 28)
    (executor : getField hdr.bytes0To3 0x07000000 24 = fieldValue 0x07000000 executorKind 24)
    (first : getField hdr.bytes0To3 0x08000000 27 =
      fieldValue 0x08000000 (if flag then 1 else 0) 27) :
    hdr.Common kind executorKind flag := by
  constructor
  · exact (getReserved0_eq hdr).trans reserved0
  · rw [getHeaderKind, headerKind]
    cases kind <;> decide
  · rw [getExecutorBlockKind, executor]
    exact @fieldValue_eq _ _ _ 3 (by decide) (by decide) small
  · rw [getHasFirstRowNum, first, getHasFirstRowNum_fieldValue]

end AOHeader

open AOHeader

section

variable (executorKind rowCount dataLength compressedLength : BitVec 32) (flag : Bool)

/-- The header words of `makeSmallContentHeader`. -/
def smallHeader : AOHeader :=
  let header := AOHeader.init.initHeaderKind .smallContent
  let header := header.initExecutorBlockKind executorKind
  let header := header.smallInitRowCount rowCount
  let header := header.smallInitDataLength dataLength
  let header := header.initHasFirstRowNum flag
  header.smallInitCompressedLength compressedLength

/-- The header words of `makeLargeContentHeader`. -/
def largeHeader (largeContentLength : BitVec 32) : AOHeader :=
  let header := AOHeader.init.initHeaderKind .largeContent
  let header := header.initExecutorBlockKind executorKind
  let header := header.largeInitLargeRowCount rowCount
  let header := header.largeInitLargeContentLength largeContentLength
  header.initHasFirstRowNum flag

/-- The header words of `makeNonBulkDenseContentHeader`. -/
def nonBulkDenseHeader : AOHeader :=
  let header := AOHeader.init.initHeaderKind .nonBulkDenseContent
  let header := header.initExecutorBlockKind executorKind
  let header := header.denseInitLargeRowCount rowCount
  let header := header.nonBulkDenseInitDataLength dataLength
  header.initHasFirstRowNum flag

/-- The first header words of `makeBulkDenseContentHeader`. -/
def bulkDenseHeader : AOHeader :=
  let header := AOHeader.init.initHeaderKind .bulkDenseContent
  let header := header.initExecutorBlockKind executorKind
  let header := header.smallInitDataLength dataLength
  let header := header.initHasFirstRowNum flag
  header.smallInitCompressedLength compressedLength

end

attribute [local simp] smallHeader largeHeader nonBulkDenseHeader bulkDenseHeader initHeaderKind
  initExecutorBlockKind smallInitRowCount smallInitDataLength initHasFirstRowNum_eq
  smallInitCompressedLength largeInitLargeRowCount largeInitLargeContentLength
  denseInitLargeRowCount nonBulkDenseInitDataLength AOHeader.init

theorem toNat_ofNat_of_lt {value width} (small : value < 2 ^ width) (le : width ≤ 32) :
    (BitVec.ofNat 32 value).toNat = value :=
  Nat.mod_eq_of_lt (small.trans_le (Nat.pow_le_pow_right (by decide) le))

theorem toNat_fieldValue {mask value shift width} (fits : shift + width ≤ 32)
    (isMask : mask = fieldMask shift width) (small : value < 2 ^ width) :
    (fieldValue mask (BitVec.ofNat 32 value) shift).toNat = value := by
  have same := toNat_ofNat_of_lt small (by omega)
  rw [fieldValue_eq fits isMask (same.trans_lt small), same]

theorem toNat_split {value low high} (fits : low + high ≤ 32) (small : value < 2 ^ (low + high)) :
    ((fieldValue (fieldMask 0 high) (BitVec.ofNat 32 value >>> low) 0 <<< low) |||
      fieldValue (fieldMask (32 - low) low) (BitVec.ofNat 32 value) (32 - low)).toNat = value := by
  have same := toNat_ofNat_of_lt small fits
  rw [split_value fits (same.trans_lt small), same]

theorem loadHeader_storeHeader (memory addr hdr) :
    loadHeader (storeHeader memory addr hdr) addr = hdr := by
  rw [loadHeader, storeHeader, load32_store32, load32_store32_disjoint (by omega), load32_store32]

variable {memory : Memory} {addr other : Nat}

theorem loadHeader_storeHeader_disjoint {hdr} (disj : other + 8 ≤ addr ∨ addr + 8 ≤ other) :
    loadHeader (storeHeader memory addr hdr) other = loadHeader memory other := by
  simp only [loadHeader, storeHeader]
  rw [load32_store32_disjoint (by omega), load32_store32_disjoint (by omega),
    load32_store32_disjoint (by omega), load32_store32_disjoint (by omega)]

theorem loadHeader_store32_disjoint {word} (disj : other + 8 ≤ addr ∨ addr + 4 ≤ other) :
    loadHeader (store32 memory addr word) other = loadHeader memory other := by
  simp only [loadHeader]
  rw [load32_store32_disjoint (by omega), load32_store32_disjoint (by omega)]

theorem loadHeader_store64_disjoint {word} (disj : other + 8 ≤ addr ∨ addr + 8 ≤ other) :
    loadHeader (store64 memory addr word) other = loadHeader memory other := by
  simp only [loadHeader]
  rw [load32_store64_disjoint (by omega), load32_store64_disjoint (by omega)]

/-! ### Optional parts -/

section

variable (memory : Memory) (kind : AoHeaderKind) (isCompressed hasFirstRowNum : Bool)
  (version : AOSegfileFormatVersion) (dataLength len compressedLength compLen : Nat)

/-- The length that `addBlockHeaderChecksums` takes for the whole block. -/
def checksummedLen : Nat :=
  headerSize kind.isLong true hasFirstRowNum +
    roundUp (if isCompressed then compressedLength else dataLength) version

/-- The memory after both checksums were computed and stored. -/
structure ChecksumsAdded (before after : Memory) (checksummedLen : Nat) : Prop where
  stores : ∃ blockChecksum headerChecksum,
    after = store32 (store32 before 8 blockChecksum) 12 headerChecksum
  headerChecksum : verifyHeaderChecksum after = true
  blockChecksum : verifyBlockChecksum after checksummedLen = true

theorem addBlockHeaderChecksums_added : ChecksumsAdded memory
      (addBlockHeaderChecksums memory kind isCompressed hasFirstRowNum version len compLen)
      (checksummedLen kind isCompressed hasFirstRowNum version len compLen) := by
  have lenEq : checksummedLen kind isCompressed hasFirstRowNum version len
      compLen = regularSize + 4 + 4 + (if kind.isLong then regularSize else 0) +
        firstRowNumLen hasFirstRowNum +
          roundUp (if isCompressed then compLen else len) version := by
    simp only [checksummedLen, headerSize, checksumsLen, longSize, regularSize]
    cases kind.isLong <;> simp
  constructor
  · exact ⟨_, _, rfl⟩
  · -- The header checksum covers the 12 bytes before it.
    simp only [verifyHeaderChecksum, addBlockHeaderChecksums, computeHeaderChecksum]
    generalize store32 memory regularSize _ = withBlockChecksum
    rw [load32_store32, readBytes_store32_disjoint (by omega)]
    exact beq_self_eq_true _
  · -- The block checksum covers what is behind both.
    simp only [verifyBlockChecksum, addBlockHeaderChecksums, computeBlockChecksum, lenEq]
    rw [load32_store32_disjoint (by omega), load32_store32, readBytes_store32_disjoint (by omega),
      readBytes_store32_disjoint (by omega)]
    exact beq_self_eq_true _

end

/-- The memory after the optional parts were added to `before`. -/
structure PartsAdded (before after : Memory) (kind : AoHeaderKind) (params : HeaderParams)
    (checksummedLen : Nat) : Prop where
  header : loadHeader after 0 = loadHeader before 0
  extHeader : kind.isLong = true →
    loadHeader after (regularSize + checksumsLen params.usingChecksums) =
      loadHeader before (regularSize + checksumsLen params.usingChecksums)
  firstRowNum : params.hasFirstRowNum = true →
    load64 after (headerSize kind.isLong params.usingChecksums false) = params.firstRowNum
  headerChecksum : params.usingChecksums = true → verifyHeaderChecksum after = true
  blockChecksum : params.usingChecksums = true → verifyBlockChecksum after checksummedLen = true

theorem headerSize_le (isLong hasChecksums hasFirstRowNum) :
    regularSize + checksumsLen hasChecksums ≤ headerSize isLong hasChecksums hasFirstRowNum := by
  simp only [headerSize, longSize, regularSize]
  split <;> omega

theorem addOptionalParts_added
    (memory kind pars isCompressed checksumFirstRowNum len compLen) :
    PartsAdded memory (addOptionalParts memory kind pars isCompressed checksumFirstRowNum
      len compLen) kind pars (checksummedLen kind isCompressed
        checksumFirstRowNum pars.version len compLen) := by
  obtain ⟨rows, rowsDef⟩ := @exists_eq _ (if pars.hasFirstRowNum then
      addFirstRowNum memory kind pars.usingChecksums pars.firstRowNum else memory)
  have rowsHeader : loadHeader rows 0 = loadHeader memory 0 := by
    have place := headerSize_le kind.isLong pars.usingChecksums false
    rw [rowsDef]
    split
    · exact loadHeader_store64_disjoint (.inl (by simp only [regularSize] at place; omega))
    · rfl
  have rowsExt (long : kind.isLong) :
      loadHeader rows (regularSize + checksumsLen pars.usingChecksums) =
        loadHeader memory (regularSize + checksumsLen pars.usingChecksums) := by
    rw [rowsDef]
    split
    · refine loadHeader_store64_disjoint (.inl ?_)
      simp only [headerSize, long, longSize, regularSize, if_true]
      omega
    · rfl
  have rowsNum (has : pars.hasFirstRowNum) :
      load64 rows (headerSize kind.isLong pars.usingChecksums false) = pars.firstRowNum := by
    rw [rowsDef, if_pos has, addFirstRowNum, load64_store64]
  simp only [addOptionalParts, ← rowsDef]
  by_cases checksums : pars.usingChecksums = true
  · have place := headerSize_le kind.isLong true false
    rw [checksums] at rowsExt rowsNum
    rw [if_pos checksums]
    have added := addBlockHeaderChecksums_added rows kind isCompressed checksumFirstRowNum
      pars.version len compLen
    obtain ⟨blockChecksum, headerChecksum, stores⟩ := added.stores
    simp only [regularSize, checksumsLen, if_true] at place rowsExt
    refine ⟨?_, fun long => ?_, fun has => ?_, fun _ => added.headerChecksum,
      fun _ => added.blockChecksum⟩
    · rw [stores, loadHeader_store32_disjoint (by omega), loadHeader_store32_disjoint (by omega),
        rowsHeader]
    · rw [stores, checksums, regularSize, checksumsLen, if_pos rfl,
        loadHeader_store32_disjoint (by omega), loadHeader_store32_disjoint (by omega),
        rowsExt long]
    · rw [stores, checksums, load64_store32_disjoint (by omega),
        load64_store32_disjoint (by omega), rowsNum has]
  · rw [if_neg checksums]
    exact ⟨rowsHeader, rowsExt, rowsNum, fun has => absurd has checksums,
      fun has => absurd has checksums⟩

/-! ### Round trip -/

/-- The lengths and row counts of a block by header kind. -/
inductive HeaderContent
  | small (rowCount dataLength compressedLength : Nat)
  | large (rowCount contentLength : Nat)
  | nonBulkDense (rowCount dataLength : Nat)
  | bulkDense (rowCount dataLength compressedLength : Nat)
deriving DecidableEq

namespace HeaderContent

def Fits : HeaderContent → Prop
  | small rowCount dataLength compressedLength =>
    rowCount ≤ 0x3FFF ∧ dataLength < 2 ^ 21 ∧ compressedLength ≤ dataLength
  | large rowCount contentLength => rowCount < 2 ^ 25 ∧ 1 ≤ contentLength ∧ contentLength < 2 ^ 30
  | nonBulkDense rowCount dataLength => rowCount < 2 ^ 30 ∧ dataLength < 2 ^ 21
  | bulkDense rowCount dataLength compressedLength =>
    rowCount < 2 ^ 30 ∧ dataLength < 2 ^ 21 ∧ compressedLength ≤ dataLength

instance : DecidablePred Fits
  | small .. | large .. | bulkDense .. => inferInstanceAs (Decidable (_ ∧ _ ∧ _))
  | nonBulkDense .. => inferInstanceAs (Decidable (_ ∧ _))

def kind : HeaderContent → AoHeaderKind
  | small .. => .smallContent
  | large .. => .largeContent
  | nonBulkDense .. => .nonBulkDenseContent
  | bulkDense .. => .bulkDenseContent

def rowCount : HeaderContent → Nat
  | small rowCount .. | large rowCount .. | nonBulkDense rowCount .. | bulkDense rowCount .. =>
    rowCount

/-- The length of the uncompressed content; behind a large content header it
follows in blocks of its own. -/
def dataLength : HeaderContent → Nat
  | small _ dataLength _ | large _ dataLength | nonBulkDense _ dataLength
  | bulkDense _ dataLength _ => dataLength

def compressedLength : HeaderContent → Nat
  | small _ _ compressedLength | bulkDense _ _ compressedLength => compressedLength
  | large .. | nonBulkDense .. => 0

def isLarge : HeaderContent → Bool
  | large .. => true
  | _ => false

def storedLength : HeaderContent → Nat
  | small _ dataLength compressedLength | bulkDense _ dataLength compressedLength =>
    if compressedLength = 0 then dataLength else compressedLength
  | nonBulkDense _ dataLength => dataLength
  | large .. => 0

/-- The header of a block, made in front of the content in `memory`. -/
def makeHeader (memory : Memory) (params : HeaderParams) : HeaderContent → Memory
  | small rowCount dataLength compressedLength =>
    makeSmallContentHeader memory params rowCount dataLength compressedLength
  | large rowCount contentLength => makeLargeContentHeader memory params rowCount contentLength
  | nonBulkDense rowCount dataLength =>
    makeNonBulkDenseContentHeader memory params rowCount dataLength
  | bulkDense rowCount dataLength compressedLength =>
    makeBulkDenseContentHeader memory params rowCount dataLength compressedLength

def contentOffset (content : HeaderContent) (params : HeaderParams) : Nat :=
  headerSize content.kind.isLong params.usingChecksums params.hasFirstRowNum

def blockLen (content : HeaderContent) (params : HeaderParams) : Nat :=
  if content.isLarge then largeContentHeaderLen params
  else content.contentOffset params + roundUp content.storedLength params.version

/-- What was passed when the header was made, as a reader should get it. -/
def info (content : HeaderContent) (params : HeaderParams) : BlockInfo where
  kind := content.kind
  isLarge := content.isLarge
  overallBlockLen := if content.isLarge then 0 else content.blockLen params
  offset := if content.isLarge then 0 else content.contentOffset params
  uncompressedLen := content.dataLength
  executorBlockKind := params.executorKind
  hasFirstRowNum := params.hasFirstRowNum
  firstRowNum := if params.hasFirstRowNum then params.firstRowNum else -1
  rowCount := content.rowCount
  isCompressed := decide (content.compressedLength ≠ 0)
  compressedLen := content.compressedLength

end HeaderContent

def RoundTrips (block : Memory) (content : HeaderContent) (params : HeaderParams)
    (blockLimitLen : Nat) : Prop :=
  readBlockInfo block params.usingChecksums blockLimitLen params.version =
      .ok (content.info params) ∧
    (params.usingChecksums = true → verifyHeaderChecksum block = true ∧
        verifyBlockChecksum block (content.blockLen params) = true)

section

variable {block : Memory} {header hdr : AOHeader} {kind : AoHeaderKind} {params pars : HeaderParams}

theorem headerKindOfCode_code (kind) : headerKindOfCode kind.code = some kind := by
  cases kind <;> rfl

theorem code_ne_zero (kind : AoHeaderKind) : kind.code ≠ 0 := by
  cases kind <;> decide

theorem getHeaderInfo_common (loaded : loadHeader block 0 = hdr)
    (common : hdr.Common kind pars.executorKind pars.hasFirstRowNum) :
    getHeaderInfo block pars.usingChecksums =
      .ok (kind, headerSize kind.isLong pars.usingChecksums pars.hasFirstRowNum) := by
  have kindNe : hdr.getHeaderKind ≠ 0 := common.headerKind ▸ code_ne_zero kind
  have wordNe : hdr.bytes0To3 ≠ 0 := by
    intro zero
    apply kindNe
    rw [getHeaderKind, zero]
    rfl
  simp only [getHeaderInfo, loaded]
  rw [if_neg wordNe, if_neg (not_not.mpr common.reserved0), if_neg kindNe, common.headerKind,
    headerKindOfCode_code, common.firstRowNum]

theorem readFirstRowNum_added {pre checksummed}
    (added : PartsAdded pre block kind pars checksummed) :
    readFirstRowNum block (headerSize kind.isLong pars.usingChecksums false)
      pars.hasFirstRowNum = if pars.hasFirstRowNum then pars.firstRowNum else -1 := by
  rw [readFirstRowNum]
  split
  · exact added.firstRowNum ‹_›
  · rfl

theorem checkBlockInfo_ok {info headerLen blockLimitLen version}
    (off : info.offset + firstRowNumLen info.hasFirstRowNum = headerLen)
    (compressed : info.compressedLen ≤ info.uncompressedLen)
    (limit : headerLen + roundUp (if info.compressedLen = 0 then info.uncompressedLen
      else info.compressedLen) version ≤ blockLimitLen) :
    checkBlockInfo info headerLen blockLimitLen version = .ok { info with
      offset := headerLen
      overallBlockLen := headerLen + roundUp (if info.compressedLen = 0 then info.uncompressedLen
        else info.compressedLen) version
      isCompressed := decide (info.compressedLen ≠ 0) } := by
  simp only [checkBlockInfo, off]
  rw [if_neg (not_not.mpr rfl), if_neg (not_lt.mpr compressed), if_neg (not_lt.mpr limit)]

end

variable {content cid : HeaderContent}

namespace HeaderContent

variable (memory : Memory) (params pars : HeaderParams)

/-- The header words of a block. -/
def words : HeaderContent → AOHeader
  | small rowCount dataLength compressedLength =>
    smallHeader params.executorKind (BitVec.ofNat 32 rowCount) (BitVec.ofNat 32 dataLength)
      (BitVec.ofNat 32 compressedLength) params.hasFirstRowNum
  | large rowCount contentLength =>
    largeHeader params.executorKind (BitVec.ofNat 32 rowCount) params.hasFirstRowNum
      (BitVec.ofNat 32 contentLength)
  | nonBulkDense rowCount dataLength =>
    nonBulkDenseHeader params.executorKind (BitVec.ofNat 32 rowCount)
      (BitVec.ofNat 32 dataLength) params.hasFirstRowNum
  | bulkDense _ dataLength compressedLength =>
    bulkDenseHeader params.executorKind (BitVec.ofNat 32 dataLength)
      (BitVec.ofNat 32 compressedLength) params.hasFirstRowNum

def storeWords : HeaderContent → Memory
  | bulkDense rowCount dataLength compressedLength =>
    storeHeader (storeHeader memory 0 ((bulkDense rowCount dataLength compressedLength).words
      params)) (regularSize + checksumsLen params.usingChecksums)
      (AOHeader.init.denseInitLargeRowCount (BitVec.ofNat 32 rowCount))
  | content => storeHeader memory 0 (content.words params)

def checksummedLen (content : HeaderContent) : Nat :=
  headerSize content.kind.isLong true (params.hasFirstRowNum && !content.isLarge) +
    roundUp content.storedLength params.version

theorem makeHeader_added (cid : HeaderContent) :
    PartsAdded (cid.storeWords memory pars) (cid.makeHeader memory pars) cid.kind
      pars (cid.checksummedLen pars) := by
  have added := addOptionalParts_added (cid.storeWords memory pars) cid.kind pars
    (decide (cid.compressedLength > 0)) (pars.hasFirstRowNum && !cid.isLarge)
    (if cid.isLarge then 0 else cid.dataLength) cid.compressedLength
  -- Whether the content is compressed is told by the compressed length.
  have stored : (if decide (cid.compressedLength > 0) = true then cid.compressedLength
      else if cid.isLarge then 0 else cid.dataLength) = cid.storedLength := by
    cases cid <;> simp [compressedLength, isLarge, dataLength, storedLength, Nat.pos_iff_ne_zero]
  rw [AppendOnly.checksummedLen, stored] at added
  unfold checksummedLen
  cases cid <;> simp only [isLarge, Bool.not_false, Bool.not_true, Bool.and_true,
    Bool.and_false] at added ⊢
  case small | bulkDense =>
    simp only [makeHeader, makeSmallContentHeader, makeBulkDenseContentHeader,
      initCompressedLength_eq]
    exact added
  all_goals exact added

theorem loadHeader_makeHeader (cid : HeaderContent) :
    loadHeader (cid.makeHeader memory pars) 0 = cid.words pars := by
  rw [(makeHeader_added memory pars cid).header]
  cases cid with
  | bulkDense =>
    rw [storeWords, loadHeader_storeHeader_disjoint, loadHeader_storeHeader]
    exact .inl (by simp only [regularSize]; omega)
  | _ => exact loadHeader_storeHeader _ _ _

theorem loadExtHeader_makeHeader (rowCount len compLen : Nat) :
    loadHeader ((bulkDense rowCount len compLen).makeHeader memory pars)
      (regularSize + checksumsLen pars.usingChecksums) =
        init.denseInitLargeRowCount (BitVec.ofNat 32 rowCount) := by
  rw [(makeHeader_added memory pars (bulkDense rowCount len compLen)).extHeader
    rfl, storeWords, loadHeader_storeHeader]

theorem words_common (executorSmall : pars.executorKind.toNat < 2 ^ 3) (cid : HeaderContent) :
    (cid.words pars).Common cid.kind pars.executorKind pars.hasFirstRowNum := by
  cases cid <;> apply common_of executorSmall <;> simp [words, kind]

section

variable {rowCount len compLen : Nat}

theorem small_words (fits : (small rowCount len compLen).Fits) :
    let header := (small rowCount len compLen).words pars
    header.smallGetRowCount.toNat = rowCount ∧ header.smallGetDataLength.toNat = len ∧
      header.smallGetCompressedLength.toNat = compLen := by
  obtain ⟨rowSmall, dataSmall, compressedLe⟩ := fits
  refine ⟨.trans ?_ (@toNat_fieldValue 0x00FFFC00 rowCount 10 14 (by decide) (by decide) (by omega)),
    .trans ?_ (@toNat_split len 11 10 (by decide) dataSmall),
    .trans ?_ (@toNat_fieldValue 0x001FFFFF compLen 0 21 (by decide) (by decide) (by omega))⟩ <;>
    apply congrArg BitVec.toNat <;>
    simp [words, smallGetRowCount, smallGetDataLength_eq, smallGetCompressedLength, fieldMask]

theorem large_words (fits : (large rowCount len).Fits) :
    let header := (large rowCount len).words pars
    header.largeGetLargeRowCount.toNat = rowCount ∧
      header.largeGetLargeContentLength.toNat = len := by
  refine ⟨.trans ?_ (@toNat_split rowCount 2 23 (by decide) fits.1),
    .trans ?_ (@toNat_fieldValue 0x3FFFFFFF len 0 30 (by decide) (by decide) fits.2.2)⟩ <;>
    apply congrArg BitVec.toNat <;>
    simp [words, largeGetLargeRowCount_eq, largeGetLargeContentLength, fieldMask]

theorem nonBulkDense_words (fits : (nonBulkDense rowCount len).Fits) :
    let header := (nonBulkDense rowCount len).words pars
    header.denseGetLargeRowCount.toNat = rowCount ∧
      header.nonBulkDenseGetDataLength.toNat = len := by
  refine ⟨.trans ?_ (@toNat_fieldValue 0x3FFFFFFF rowCount 0 30 (by decide) (by decide) fits.1),
    .trans ?_ (@toNat_fieldValue 0x001FFFFF len 0 21 (by decide) (by decide) fits.2)⟩ <;>
    apply congrArg BitVec.toNat <;>
    simp [words, denseGetLargeRowCount, nonBulkDenseGetDataLength]

theorem bulkDense_words (fits : (bulkDense rowCount len compLen).Fits) :
    let header := (bulkDense rowCount len compLen).words pars
    (init.denseInitLargeRowCount
        (BitVec.ofNat 32 rowCount)).denseGetLargeRowCount.toNat = rowCount ∧
      header.smallGetDataLength.toNat = len ∧ header.smallGetCompressedLength.toNat = compLen := by
  obtain ⟨rowSmall, dataSmall, compressedLe⟩ := fits
  refine ⟨.trans ?_ (@toNat_fieldValue 0x3FFFFFFF rowCount 0 30 (by decide) (by decide) rowSmall),
    .trans ?_ (@toNat_split len 11 10 (by decide) dataSmall),
    .trans ?_ (@toNat_fieldValue 0x001FFFFF compLen 0 21 (by decide) (by decide) (by omega))⟩ <;>
    apply congrArg BitVec.toNat <;>
    simp [words, denseGetLargeRowCount, smallGetDataLength_eq, smallGetCompressedLength, fieldMask]

end

end HeaderContent

section

variable {params pars : HeaderParams} {blockLimitLen : Nat}

theorem checkBlockInfo_content (fits : cid.Fits)
    (limit : cid.blockLen pars ≤ blockLimitLen) (notLarge : cid.isLarge = false) :
    checkBlockInfo
      { kind := cid.kind
        isLarge := false
        overallBlockLen := 0
        offset := headerSize cid.kind.isLong pars.usingChecksums false
        uncompressedLen := cid.dataLength
        executorBlockKind := pars.executorKind
        hasFirstRowNum := pars.hasFirstRowNum
        firstRowNum := if pars.hasFirstRowNum then pars.firstRowNum else -1
        rowCount := cid.rowCount
        isCompressed := false
        compressedLen := cid.compressedLength }
      (cid.contentOffset pars) blockLimitLen pars.version = .ok (cid.info pars) := by
  have compressed : cid.compressedLength ≤ cid.dataLength := by
    cases cid with
    | small | bulkDense => exact fits.2.2
    | _ => exact Nat.zero_le _
  have lenEq : cid.blockLen pars = cid.contentOffset pars +
      roundUp (if cid.compressedLength = 0 then cid.dataLength
        else cid.compressedLength) pars.version := by
    cases cid with
    | large => cases notLarge
    | _ => rfl
  have offsetEq : headerSize cid.kind.isLong pars.usingChecksums false +
      firstRowNumLen pars.hasFirstRowNum = cid.contentOffset pars := rfl
  rw [checkBlockInfo_ok offsetEq compressed (lenEq ▸ limit), HeaderContent.info, notLarge, lenEq]
  rfl

variable {memory : Memory} (executorSmall : pars.executorKind.toNat < 2 ^ 3)
include executorSmall

open HeaderContent in
theorem readBlockInfo_makeHeader (fits : cid.Fits)
    (limit : cid.blockLen pars ≤ blockLimitLen) :
    readBlockInfo (cid.makeHeader memory pars) pars.usingChecksums blockLimitLen
      pars.version = .ok (cid.info pars) := by
  have loaded := loadHeader_makeHeader memory pars cid
  have common := words_common pars executorSmall cid
  have firstRowNum := readFirstRowNum_added (makeHeader_added memory pars cid)
  have headerInfo := getHeaderInfo_common loaded common
  have checked := checkBlockInfo_content fits limit
  rw [← firstRowNum] at checked
  simp only [readBlockInfo, headerInfo]
  cases cid with
  | small =>
    obtain ⟨rowField, dataField, compressedField⟩ := small_words pars fits
    change getSmallContentHeaderInfo _ _ _ _ _ = _
    simp only [getSmallContentHeaderInfo, loaded, common.executorBlockKind, common.firstRowNum,
      rowField, dataField, compressedField]
    exact checked rfl
  | large rowCount contentLength =>
    obtain ⟨rowField, lengthField⟩ := large_words pars fits
    have lengthNe : ((large rowCount contentLength).words pars).largeGetLargeContentLength ≠ 0 := by
      intro zero
      rw [zero] at lengthField
      exact absurd fits.2.1 (lengthField ▸ Nat.not_succ_le_zero 0)
    change getLargeContentHeaderInfo _ _ _ = _
    simp only [getLargeContentHeaderInfo, loaded, common.executorBlockKind, common.firstRowNum,
      rowField, lengthField]
    have offsetEq : regularSize + checksumsLen pars.usingChecksums +
        firstRowNumLen pars.hasFirstRowNum = headerSize
          (large rowCount contentLength).kind.isLong pars.usingChecksums
          pars.hasFirstRowNum := rfl
    rw [if_neg lengthNe, if_neg (not_not.mpr offsetEq), info, ← firstRowNum]
    rfl
  | nonBulkDense =>
    obtain ⟨rowField, dataField⟩ := nonBulkDense_words pars fits
    change getNonBulkDenseContentHeaderInfo _ _ _ _ _ = _
    simp only [getNonBulkDenseContentHeaderInfo, loaded, common.executorBlockKind,
      common.firstRowNum, rowField, dataField]
    exact checked rfl
  | bulkDense rowCount dataLength compressedLength =>
    have extLoaded := loadExtHeader_makeHeader memory pars rowCount dataLength compressedLength
    obtain ⟨rowField, dataField, compressedField⟩ := bulkDense_words pars fits
    have offsetEq : headerSize true pars.usingChecksums false =
        regularSize + checksumsLen pars.usingChecksums + regularSize := by
      simp only [headerSize, longSize, regularSize, firstRowNumLen, if_true, Bool.false_eq_true,
        if_false]
      omega
    change getBulkDenseContentHeaderInfo _ _ _ _ _ = _
    simp only [getBulkDenseContentHeaderInfo, loaded, extLoaded, common.executorBlockKind,
      common.firstRowNum, rowField, dataField, compressedField, ← offsetEq]
    exact checked rfl

end

/-- The checksum of the first row number, which that of a large content header
leaves out. -/
def firstRowNumChecksum (firstRowNum : BitVec 64) : BitVec 32 :=
  compCrc32c (readBytes (store64 (fun _ => 0) 0 firstRowNum) 0 8)

theorem roundUp_zero (version) : roundUp 0 version = 0 := by
  cases version <;> rfl

namespace HeaderContent

section

variable {memory : Memory} {params pars : HeaderParams} (checksums : pars.usingChecksums = true)

theorem large_checksummedLen (large : cid.isLarge) :
    cid.checksummedLen pars = regularSize + 8 := by
  cases cid with
  | large =>
    simp [checksummedLen, isLarge, kind, AoHeaderKind.isLong, headerSize, checksumsLen,
      firstRowNumLen, storedLength, roundUp_zero]
  | _ => exact absurd large Bool.false_ne_true

include checksums

theorem blockLen_eq_checksummedLen (covered : cid.isLarge = true → pars.hasFirstRowNum = false) :
    cid.blockLen pars = cid.checksummedLen pars := by
  by_cases large : cid.isLarge = true
  · rw [large_checksummedLen large, blockLen, if_pos large]
    simp [largeContentHeaderLen, checksums, covered large, checksumsLen, firstRowNumLen]
  · simp [blockLen, checksummedLen, contentOffset, large, checksums]

/-- The block checksum of a large content header is stored as that of no bytes,
while the block has the eight bytes of the first row number. -/
theorem verifyBlockChecksum_large (large : cid.isLarge) (first : pars.hasFirstRowNum) :
    verifyBlockChecksum (cid.makeHeader memory pars) (cid.blockLen pars) = true ↔
      firstRowNumChecksum pars.firstRowNum = initCrc32c := by
  have added := makeHeader_added memory pars cid
  have acc := added.blockChecksum checksums
  have row := added.firstRowNum first
  have short : cid.kind.isLong = false := by
    cases cid with
    | large => rfl
    | _ => exact absurd large Bool.false_ne_true
  have lenEq : cid.blockLen pars = 24 := by
    simp [blockLen, large, largeContentHeaderLen, checksums, first, regularSize, checksumsLen,
      firstRowNumLen]
  rw [large_checksummedLen large, verifyBlockChecksum, beq_iff_eq] at acc
  rw [checksums, short] at row
  have bytes : readBytes (cid.makeHeader memory pars) 16 8 =
      readBytes (store64 (fun _ => 0) 0 pars.firstRowNum) 0 8 := by
    apply readBytes_of_load64
    rw [load64_store64]
    exact row
  rw [verifyBlockChecksum, beq_iff_eq, acc, lenEq]
  simp only [computeBlockChecksum, regularSize]
  rw [bytes, eq_comm]
  rfl

end

end HeaderContent

/-- A block reads back as it was made, with both checksums accepted, unless it is
the block of a large content header with checksums and a first row number:
there the block checksum is accepted only if the row number happens to have the
checksum of no bytes. -/
theorem roundTrips_iff (memory : Memory) (params : HeaderParams) (content : HeaderContent)
    (blockLimitLen : Nat) (executorSmall : params.executorKind.toNat < 2 ^ 3)
    (fits : content.Fits) (limit : content.blockLen params ≤ blockLimitLen) :
    RoundTrips (content.makeHeader memory params) content params blockLimitLen ↔
      (content.isLarge = true → params.usingChecksums = true → params.hasFirstRowNum = true →
        firstRowNumChecksum params.firstRowNum = initCrc32c) := by
  have added := HeaderContent.makeHeader_added memory params content
  have read := @readBlockInfo_makeHeader content params blockLimitLen memory executorSmall fits
    limit
  constructor
  · intro roundTrips large checksums first
    exact (HeaderContent.verifyBlockChecksum_large checksums large first).mp
      (roundTrips.2 checksums).2
  · intro harmless
    refine ⟨read, fun checksums => ⟨added.headerChecksum checksums, ?_⟩⟩
    by_cases uncovered : content.isLarge = true ∧ params.hasFirstRowNum = true
    · exact (HeaderContent.verifyBlockChecksum_large checksums uncovered.1 uncovered.2).mpr
        (harmless uncovered.1 checksums uncovered.2)
    · have covered : content.isLarge = true → params.hasFirstRowNum = false := fun large =>
        eq_false_of_ne_true fun first => uncovered ⟨large, first⟩
      rw [HeaderContent.blockLen_eq_checksummedLen checksums covered]
      exact added.blockChecksum checksums

/-- A bulk dense block with compressed content, checksums and a first row number. -/
theorem roundTrips_bulkDense :
    RoundTrips (HeaderContent.makeHeader (fun _ => 7) ⟨true, true, .gp5, 12, 5⟩
      (.bulkDense 1000 9000 4001)) (.bulkDense 1000 9000 4001) ⟨true, true, .gp5, 12, 5⟩ 32768 :=
  (roundTrips_iff (fun _ => 7) ⟨true, true, .gp5, 12, 5⟩ (.bulkDense 1000 9000 4001) 32768
    (by decide) (by decide) (by decide)).mpr fun large => absurd large (by decide)

/-- The block of a large content header for 100000 bytes from row 1 on is not
accepted. -/
theorem roundTrips_fails_large :
    ¬ RoundTrips (HeaderContent.makeHeader (fun _ => 0) ⟨true, true, .gp5, 1, 2⟩
      (.large 1 100000)) (.large 1 100000) ⟨true, true, .gp5, 1, 2⟩ 32768 := by
  intro roundTrips
  have acc := (roundTrips.2 rfl).2
  revert acc
  decide +kernel

end Greengage.AppendOnly
