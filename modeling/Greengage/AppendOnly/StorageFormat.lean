import Greengage.Foundations.BitField
import Greengage.Foundations.ByteMemory

/-!
Contract: headers of append-only storage blocks,
`cdbappendonlystorageformat.c`, `cdbappendonlystorageformat_impl.h` and the bit
macros of `cdbappendonlystorage_int.h`.

Owns: the four header kinds with optional checksums and first row number, the
functions that make them in front of the content, the functions that examine
them, and the two checksums.

Does not own: debug output and the texts of the check errors. Multi-byte values
are stored in the byte order of the machine, here little-endian.
-/

namespace Greengage.AppendOnly

open Greengage.Foundations

inductive AoHeaderKind
  | smallContent
  | largeContent
  | nonBulkDenseContent
  | bulkDenseContent
deriving DecidableEq

/-- The value stored in the header; 0 is `AoHeaderKind_None`. -/
def AoHeaderKind.code : AoHeaderKind → BitVec 32
  | .smallContent => 1
  | .largeContent => 2
  | .nonBulkDenseContent => 3
  | .bulkDenseContent => 4

/-- `AoHeader_IsLong`. -/
def AoHeaderKind.isLong : AoHeaderKind → Bool
  | .bulkDenseContent => true
  | _ => false

/-- The valid values of `AOSegfileFormatVersion`. -/
inductive AOSegfileFormatVersion
  | original
  | aligned64bit
  | gp5
deriving DecidableEq

/-- `AOStorage_RoundUp`. -/
def roundUp (length : Nat) : AOSegfileFormatVersion → Nat
  | .original => (length + 3) / 4 * 4
  | _ => (length + 7) / 8 * 8

/-- `AOHeaderCheckError`, and the `elog(ERROR)` for a wrong header length. -/
inductive AOHeaderCheckError
  | first32BitsAllZeroes
  | reservedBit0Not0
  | invalidHeaderKindNone
  | invalidHeaderKind
  | invalidCompressedLen
  | invalidOverallBlockLen
  | largeContentLenIsZero
  | contentOffset (offset headerLen : Nat)
deriving DecidableEq

/-- `AoHeader_RegularSize`. -/
def regularSize : Nat := 8

/-- `AoHeader_LongSize`. -/
def longSize : Nat := 16

/-- `2 * sizeof(pg_crc32)` where checksums are used. -/
def checksumsLen (usingChecksums : Bool) : Nat := if usingChecksums then 8 else 0

/-- `sizeof(int64)` where a first row number is stored. -/
def firstRowNumLen (hasFirstRowNum : Bool) : Nat := if hasFirstRowNum then 8 else 0

/-- `AoHeader_Size`. -/
def headerSize (isLong hasChecksums hasFirstRowNum : Bool) : Nat :=
  (if isLong then longSize else regularSize) + checksumsLen hasChecksums +
    firstRowNumLen hasFirstRowNum

/-! ### Bit macros -/

structure AOHeader where
  bytes0To3 : BitVec 32
  bytes4To7 : BitVec 32
deriving DecidableEq

namespace AOHeader

def init : AOHeader := ⟨0, 0⟩

def initHeaderKind (header : AOHeader) (kind : AoHeaderKind) : AOHeader :=
  { header with bytes0To3 := initField header.bytes0To3 0x70000000 kind.code 28 }

def initExecutorBlockKind (header : AOHeader) (executorKind : BitVec 32) : AOHeader :=
  { header with bytes0To3 := initField header.bytes0To3 0x07000000 executorKind 24 }

def initHasFirstRowNum (header : AOHeader) (hasFirstRowNum : Bool) : AOHeader :=
  if hasFirstRowNum then { header with bytes0To3 := header.bytes0To3 ||| 0x08000000 } else header

def smallInitRowCount (header : AOHeader) (rowCount : BitVec 32) : AOHeader :=
  { header with bytes0To3 := initField header.bytes0To3 0x00FFFC00 rowCount 10 }

/-- `AOSmallContentHeaderInit_dataLength` and `AOBulkDenseContentHeaderInit_dataLength`. -/
def smallInitDataLength (header : AOHeader) (dataLength : BitVec 32) : AOHeader :=
  ⟨initField header.bytes0To3 0x000003FF (dataLength >>> 11) 0,
    initField header.bytes4To7 0xFFE00000 dataLength 21⟩

/-- `AOSmallContentHeaderInit_compressedLength` and
`AOBulkDenseContentHeaderInit_compressedLength`. -/
def smallInitCompressedLength (header : AOHeader) (compressedLength : BitVec 32) : AOHeader :=
  { header with bytes4To7 := initField header.bytes4To7 0x001FFFFF compressedLength 0 }

def largeInitLargeRowCount (header : AOHeader) (largeRowCount : BitVec 32) : AOHeader :=
  ⟨initField header.bytes0To3 0x007FFFFF (largeRowCount >>> 2) 0,
    initField header.bytes4To7 0xC0000000 largeRowCount 30⟩

def largeInitLargeContentLength (header : AOHeader) (largeContentLength : BitVec 32) : AOHeader :=
  { header with bytes4To7 := initField header.bytes4To7 0x3FFFFFFF largeContentLength 0 }

/-- `AONonBulkDenseContentHeaderInit_largeRowCount` and
`AOBulkDenseContentHeaderExtInit_largeRowCount`. -/
def denseInitLargeRowCount (header : AOHeader) (largeRowCount : BitVec 32) : AOHeader :=
  { header with bytes4To7 := initField header.bytes4To7 0x3FFFFFFF largeRowCount 0 }

def nonBulkDenseInitDataLength (header : AOHeader) (dataLength : BitVec 32) : AOHeader :=
  { header with bytes0To3 := initField header.bytes0To3 0x001FFFFF dataLength 0 }

def getReserved0 (header : AOHeader) : BitVec 32 := header.bytes0To3 >>> 31

def getHeaderKind (header : AOHeader) : BitVec 32 := getField header.bytes0To3 0x70000000 28

def getHasFirstRowNum (header : AOHeader) : Bool := getField header.bytes0To3 0x08000000 27 != 0

def getExecutorBlockKind (header : AOHeader) : BitVec 32 := getField header.bytes0To3 0x07000000 24

def smallGetRowCount (header : AOHeader) : BitVec 32 := getField header.bytes0To3 0x00FFFC00 10

/-- `AOSmallContentHeaderGet_dataLength` and `AOBulkDenseContentHeaderGet_dataLength`. -/
def smallGetDataLength (header : AOHeader) : BitVec 32 :=
  ((header.bytes0To3 &&& 0x000003FF) <<< 11) ||| getField header.bytes4To7 0xFFE00000 21

/-- `AOSmallContentHeaderGet_compressedLength` and
`AOBulkDenseContentHeaderGet_compressedLength`. -/
def smallGetCompressedLength (header : AOHeader) : BitVec 32 :=
  getField header.bytes4To7 0x001FFFFF 0

def largeGetLargeRowCount (header : AOHeader) : BitVec 32 :=
  ((header.bytes0To3 &&& 0x007FFFFF) <<< 2) ||| getField header.bytes4To7 0xC0000000 30

def largeGetLargeContentLength (header : AOHeader) : BitVec 32 :=
  getField header.bytes4To7 0x3FFFFFFF 0

/-- `AONonBulkDenseContentHeaderGet_largeRowCount` and
`AOBulkDenseContentHeaderExtGet_largeRowCount`. -/
def denseGetLargeRowCount (header : AOHeader) : BitVec 32 :=
  getField header.bytes4To7 0x3FFFFFFF 0

def nonBulkDenseGetDataLength (header : AOHeader) : BitVec 32 :=
  getField header.bytes0To3 0x001FFFFF 0

end AOHeader

def loadHeader (memory : Memory) (address : Nat) : AOHeader :=
  ⟨load32 memory address, load32 memory (address + 4)⟩

def storeHeader (memory : Memory) (address : Nat) (header : AOHeader) : Memory :=
  store32 (store32 memory address header.bytes0To3) (address + 4) header.bytes4To7

def crcBit (crc : BitVec 32) : BitVec 32 :=
  if crc.getLsbD 0 then (crc >>> 1) ^^^ 0x82F63B78 else crc >>> 1

/-- `CRC8` of `pg_crc32c_sb8.c`, its table entry computed bit by bit. -/
def crc8 (crc : BitVec 32) (byte : BitVec 8) : BitVec 32 :=
  crcBit (crcBit (crcBit (crcBit (crcBit (crcBit (crcBit (crcBit
    ((crc ^^^ byte.setWidth 32) &&& 0xFF)))))))) ^^^ (crc >>> 8)

def initCrc32c : BitVec 32 := 0xFFFFFFFF

/-- `COMP_CRC32C` from the initial value; the result is not inverted. -/
def compCrc32c (bytes : List (BitVec 8)) : BitVec 32 := bytes.foldl crc8 initCrc32c

def computeHeaderChecksum (memory : Memory) (headerLen : Nat) : BitVec 32 :=
  compCrc32c (readBytes memory 0 headerLen)

def computeBlockChecksum (memory : Memory) (headerLen overallBlockLen : Nat) : BitVec 32 :=
  let dataOffset := headerLen + 4
  compCrc32c (readBytes memory dataOffset (overallBlockLen - dataOffset))

def verifyHeaderChecksum (memory : Memory) : Bool :=
  load32 memory (regularSize + 4) == computeHeaderChecksum memory (regularSize + 4)

def verifyBlockChecksum (memory : Memory) (overallBlockLen : Nat) : Bool :=
  load32 memory regularSize == computeBlockChecksum memory (regularSize + 4) overallBlockLen

/-! ### Making headers -/

def addFirstRowNum (memory : Memory) (kind : AoHeaderKind) (usingChecksums : Bool)
    (firstRowNum : BitVec 64) : Memory :=
  store64 memory (headerSize kind.isLong usingChecksums false) firstRowNum

def addBlockHeaderChecksums (memory : Memory) (kind : AoHeaderKind)
    (isCompressed hasFirstRowNum : Bool) (version : AOSegfileFormatVersion)
    (dataLength compressedLength : Nat) : Memory :=
  let firstHeaderAndBlockChecksumLen := regularSize + 4
  let offset := firstHeaderAndBlockChecksumLen + 4 + (if kind.isLong then regularSize else 0) +
    firstRowNumLen hasFirstRowNum
  let overallBlockLen := offset + roundUp (if isCompressed then compressedLength else dataLength)
    version
  let memory := store32 memory regularSize
    (computeBlockChecksum memory firstHeaderAndBlockChecksumLen overallBlockLen)
  store32 memory firstHeaderAndBlockChecksumLen
    (computeHeaderChecksum memory firstHeaderAndBlockChecksumLen)

structure HeaderParams where
  usingChecksums : Bool
  hasFirstRowNum : Bool
  version : AOSegfileFormatVersion
  firstRowNum : BitVec 64
  executorKind : BitVec 32
deriving DecidableEq

/-- The first row number, then the checksums, behind a header of any kind. -/
def addOptionalParts (memory : Memory) (kind : AoHeaderKind) (params : HeaderParams)
    (isCompressed checksumFirstRowNum : Bool) (dataLength compressedLength : Nat) : Memory :=
  let memory := if params.hasFirstRowNum then
      addFirstRowNum memory kind params.usingChecksums params.firstRowNum
    else memory
  if params.usingChecksums then
    addBlockHeaderChecksums memory kind isCompressed checksumFirstRowNum params.version dataLength
      compressedLength
  else memory

def makeSmallContentHeader (memory : Memory) (params : HeaderParams)
    (rowCount dataLength compressedLength : Nat) : Memory :=
  let header := AOHeader.init.initHeaderKind .smallContent
  let header := header.initExecutorBlockKind params.executorKind
  let header := header.smallInitRowCount (BitVec.ofNat 32 rowCount)
  let header := header.smallInitDataLength (BitVec.ofNat 32 dataLength)
  let header := header.initHasFirstRowNum params.hasFirstRowNum
  let isCompressed := decide (compressedLength > 0)
  let header := if isCompressed then
      header.smallInitCompressedLength (BitVec.ofNat 32 compressedLength)
    else header
  addOptionalParts (storeHeader memory 0 header) .smallContent params isCompressed
    params.hasFirstRowNum dataLength compressedLength

/-- `AppendOnlyStorageWrite_LargeContentHeaderLen`: the length of the block that a
large content header is in the file. -/
def largeContentHeaderLen (params : HeaderParams) : Nat :=
  regularSize + checksumsLen params.usingChecksums + firstRowNumLen params.hasFirstRowNum

/-- The call for the checksums says that there is no first row number, whether
there is one or not. -/
def makeLargeContentHeader (memory : Memory) (params : HeaderParams)
    (largeRowCount largeContentLength : Nat) : Memory :=
  let header := AOHeader.init.initHeaderKind .largeContent
  let header := header.initExecutorBlockKind params.executorKind
  let header := header.largeInitLargeRowCount (BitVec.ofNat 32 largeRowCount)
  let header := header.largeInitLargeContentLength (BitVec.ofNat 32 largeContentLength)
  let header := header.initHasFirstRowNum params.hasFirstRowNum
  addOptionalParts (storeHeader memory 0 header) .largeContent params false false 0 0

def makeNonBulkDenseContentHeader (memory : Memory) (params : HeaderParams)
    (rowCount dataLength : Nat) : Memory :=
  let header := AOHeader.init.initHeaderKind .nonBulkDenseContent
  let header := header.initExecutorBlockKind params.executorKind
  let header := header.denseInitLargeRowCount (BitVec.ofNat 32 rowCount)
  let header := header.nonBulkDenseInitDataLength (BitVec.ofNat 32 dataLength)
  let header := header.initHasFirstRowNum params.hasFirstRowNum
  addOptionalParts (storeHeader memory 0 header) .nonBulkDenseContent params false
    params.hasFirstRowNum dataLength 0

def makeBulkDenseContentHeader (memory : Memory) (params : HeaderParams)
    (rowCount dataLength compressedLength : Nat) : Memory :=
  let header := AOHeader.init.initHeaderKind .bulkDenseContent
  let header := header.initExecutorBlockKind params.executorKind
  let header := header.smallInitDataLength (BitVec.ofNat 32 dataLength)
  let header := header.initHasFirstRowNum params.hasFirstRowNum
  let isCompressed := decide (compressedLength > 0)
  let header := if isCompressed then
      header.smallInitCompressedLength (BitVec.ofNat 32 compressedLength)
    else header
  let extHeader := AOHeader.init.denseInitLargeRowCount (BitVec.ofNat 32 rowCount)
  let memory := storeHeader (storeHeader memory 0 header)
    (regularSize + checksumsLen params.usingChecksums) extHeader
  addOptionalParts memory .bulkDenseContent params isCompressed params.hasFirstRowNum dataLength
    compressedLength

/-! ### Examining headers -/

/-- The switch of `AppendOnlyStorageFormat_GetHeaderInfo`. -/
def headerKindOfCode (code : BitVec 32) : Option AoHeaderKind :=
  if code = 1 then some .smallContent
  else if code = 2 then some .largeContent
  else if code = 3 then some .nonBulkDenseContent
  else if code = 4 then some .bulkDenseContent
  else none

/-- `AppendOnlyStorageFormat_GetHeaderInfo`: header kind and header length. -/
def getHeaderInfo (memory : Memory) (usingChecksums : Bool) :
    Except AOHeaderCheckError (AoHeaderKind × Nat) :=
  let header := loadHeader memory 0
  if header.bytes0To3 = 0 then .error .first32BitsAllZeroes
  else if header.getReserved0 ≠ 0 then .error .reservedBit0Not0
  else if header.getHeaderKind = 0 then .error .invalidHeaderKindNone
  else match headerKindOfCode header.getHeaderKind with
    | none => .error .invalidHeaderKind
    | some kind => .ok (kind, headerSize kind.isLong usingChecksums header.getHasFirstRowNum)

/-- `AppendOnlyStorageReadCurrent`: what the examination of a header gives. The
functions of the reader fill it step by step. -/
structure BlockInfo where
  kind : AoHeaderKind
  isLarge : Bool
  overallBlockLen : Nat
  offset : Nat
  uncompressedLen : Nat
  executorBlockKind : BitVec 32
  hasFirstRowNum : Bool
  firstRowNum : BitVec 64
  rowCount : Nat
  isCompressed : Bool
  compressedLen : Nat
deriving DecidableEq

/-- The first row number behind a header of length `offset`, or -1. -/
def readFirstRowNum (memory : Memory) (offset : Nat) (hasFirstRowNum : Bool) : BitVec 64 :=
  if hasFirstRowNum then load64 memory offset else -1

/-- The common part of the functions that examine a header with content: the
header `info` is completed by the overall length, after the checks. -/
def checkBlockInfo (info : BlockInfo) (headerLen blockLimitLen : Nat)
    (version : AOSegfileFormatVersion) : Except AOHeaderCheckError BlockInfo :=
  let offset := info.offset + firstRowNumLen info.hasFirstRowNum
  if offset ≠ headerLen then .error (.contentOffset offset headerLen)
  else if info.compressedLen > info.uncompressedLen then .error .invalidCompressedLen
  else
    let length := if info.compressedLen = 0 then info.uncompressedLen else info.compressedLen
    let overallBlockLen := offset + roundUp length version
    if overallBlockLen > blockLimitLen then .error .invalidOverallBlockLen
    else .ok { info with
      offset := offset
      overallBlockLen := overallBlockLen
      isCompressed := decide (info.compressedLen ≠ 0) }

def getSmallContentHeaderInfo (memory : Memory) (headerLen : Nat) (usingChecksums : Bool)
    (blockLimitLen : Nat) (version : AOSegfileFormatVersion) :
    Except AOHeaderCheckError BlockInfo :=
  let header := loadHeader memory 0
  let offset := regularSize + checksumsLen usingChecksums
  checkBlockInfo
    { kind := .smallContent
      isLarge := false
      overallBlockLen := 0
      offset := offset
      uncompressedLen := header.smallGetDataLength.toNat
      executorBlockKind := header.getExecutorBlockKind
      hasFirstRowNum := header.getHasFirstRowNum
      firstRowNum := readFirstRowNum memory offset header.getHasFirstRowNum
      rowCount := header.smallGetRowCount.toNat
      isCompressed := false
      compressedLen := header.smallGetCompressedLength.toNat }
    headerLen blockLimitLen version

/-- There is no content behind a large content header: its overall length and
content offset stay 0, and the length is that of the large content. -/
def getLargeContentHeaderInfo (memory : Memory) (headerLen : Nat) (usingChecksums : Bool) :
    Except AOHeaderCheckError BlockInfo :=
  let header := loadHeader memory 0
  let offset := regularSize + checksumsLen usingChecksums
  let headerEnd := offset + firstRowNumLen header.getHasFirstRowNum
  if header.largeGetLargeContentLength = 0 then .error .largeContentLenIsZero
  else if headerEnd ≠ headerLen then .error (.contentOffset headerEnd headerLen)
  else .ok
    { kind := .largeContent
      isLarge := true
      overallBlockLen := 0
      offset := 0
      uncompressedLen := header.largeGetLargeContentLength.toNat
      executorBlockKind := header.getExecutorBlockKind
      hasFirstRowNum := header.getHasFirstRowNum
      firstRowNum := readFirstRowNum memory offset header.getHasFirstRowNum
      rowCount := header.largeGetLargeRowCount.toNat
      isCompressed := false
      compressedLen := 0 }

def getNonBulkDenseContentHeaderInfo (memory : Memory) (headerLen : Nat) (usingChecksums : Bool)
    (blockLimitLen : Nat) (version : AOSegfileFormatVersion) :
    Except AOHeaderCheckError BlockInfo :=
  let header := loadHeader memory 0
  let offset := regularSize + checksumsLen usingChecksums
  checkBlockInfo
    { kind := .nonBulkDenseContent
      isLarge := false
      overallBlockLen := 0
      offset := offset
      uncompressedLen := header.nonBulkDenseGetDataLength.toNat
      executorBlockKind := header.getExecutorBlockKind
      hasFirstRowNum := header.getHasFirstRowNum
      firstRowNum := readFirstRowNum memory offset header.getHasFirstRowNum
      rowCount := header.denseGetLargeRowCount.toNat
      isCompressed := false
      compressedLen := 0 }
    headerLen blockLimitLen version

def getBulkDenseContentHeaderInfo (memory : Memory) (headerLen : Nat) (usingChecksums : Bool)
    (blockLimitLen : Nat) (version : AOSegfileFormatVersion) :
    Except AOHeaderCheckError BlockInfo :=
  let header := loadHeader memory 0
  let firstHeaderAndChecksumsLen := regularSize + checksumsLen usingChecksums
  let extHeader := loadHeader memory firstHeaderAndChecksumsLen
  let offset := firstHeaderAndChecksumsLen + regularSize
  checkBlockInfo
    { kind := .bulkDenseContent
      isLarge := false
      overallBlockLen := 0
      offset := offset
      uncompressedLen := header.smallGetDataLength.toNat
      executorBlockKind := header.getExecutorBlockKind
      hasFirstRowNum := header.getHasFirstRowNum
      firstRowNum := readFirstRowNum memory offset header.getHasFirstRowNum
      rowCount := extHeader.denseGetLargeRowCount.toNat
      isCompressed := false
      compressedLen := header.smallGetCompressedLength.toNat }
    headerLen blockLimitLen version

/-- The examination of a block header by `AppendOnlyStorageRead_ReadNextBlock`:
the common information first, then that of the kind. -/
def readBlockInfo (memory : Memory) (usingChecksums : Bool) (blockLimitLen : Nat)
    (version : AOSegfileFormatVersion) : Except AOHeaderCheckError BlockInfo := do
  let (kind, headerLen) ← getHeaderInfo memory usingChecksums
  match kind with
  | .smallContent => getSmallContentHeaderInfo memory headerLen usingChecksums blockLimitLen version
  | .largeContent => getLargeContentHeaderInfo memory headerLen usingChecksums
  | .nonBulkDenseContent =>
    getNonBulkDenseContentHeaderInfo memory headerLen usingChecksums blockLimitLen version
  | .bulkDenseContent =>
    getBulkDenseContentHeaderInfo memory headerLen usingChecksums blockLimitLen version

end Greengage.AppendOnly
