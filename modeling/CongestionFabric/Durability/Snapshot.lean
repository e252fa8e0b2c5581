import CongestionFabric.Durability.Journal

namespace CongestionFabric

def kSnapshotMagic : UInt32 := 0x4E434653
def kSnapshotFooterMagic : UInt32 := 0x4E434645
def kSnapshotHeaderSize : Nat := 72
def kSnapshotFooterSize : Nat := 32

structure SnapshotHeader where
  magic : UInt32 := kSnapshotMagic
  format : UInt16 := 0
  reserved : UInt16 := 0
  headerCrc : UInt32 := 0
  reserved2 : UInt32 := 0
  epoch : UInt64 := 0
  coordinatorBoot : UInt64 := 0
  coordinatorBootCounter : UInt64 := 0
  lastSequence : UInt64 := 0
  recordCount : UInt64 := 0
  payloadBytes : UInt64 := 0
  payloadCrc : UInt32 := 0
  reserved3 : UInt32 := 0
  deriving DecidableEq

structure SnapshotFooter where
  magic : UInt32 := kSnapshotFooterMagic
  footerCrc : UInt32 := 0
  recordCount : UInt64 := 0
  payloadBytes : UInt64 := 0
  payloadCrc : UInt32 := 0
  reserved : UInt32 := 0
  deriving DecidableEq

structure SnapshotContents where
  header : SnapshotHeader := {}
  records : List JournalRecord := []

structure SnapshotOptions where
  maxBytes : Nat := limits.kMaxSnapshotBytes
  maxRecords : Nat := limits.kMaxDurableHistoryEntries

open ByteWriter in
def encodeSnapshotHeader (header : SnapshotHeader) : Bytes :=
  u32 header.magic ++ u16 header.format ++ u16 header.reserved ++ u32 header.headerCrc ++
    u32 header.reserved2 ++ u64 header.epoch ++ u64 header.coordinatorBoot ++
    u64 header.coordinatorBootCounter ++ u64 header.lastSequence ++ u64 header.recordCount ++
    u64 header.payloadBytes ++ u32 header.payloadCrc ++ u32 header.reserved3

def SnapshotHeader.computedHeaderCrc (header : SnapshotHeader) : UInt32 :=
  crc32c (encodeSnapshotHeader { header with headerCrc := 0 })

open ByteReader in
def readSnapshotHeader : ByteReader SnapshotHeader := do
  return {
    magic := ← u32, format := ← u16, reserved := ← u16, headerCrc := ← u32, reserved2 := ← u32
    epoch := ← u64, coordinatorBoot := ← u64, coordinatorBootCounter := ← u64
    lastSequence := ← u64, recordCount := ← u64, payloadBytes := ← u64, payloadCrc := ← u32
    reserved3 := ← u32 }

def decodeSnapshotHeader (bytes : Bytes) : SnapshotHeader :=
  match ByteReader.decode readSnapshotHeader bytes with
  | .error _ => { magic := 0 }
  | .ok header =>
    if header.computedHeaderCrc ≠ header.headerCrc then { header with magic := 0 } else header

open ByteWriter in
def encodeSnapshotFooter (footer : SnapshotFooter) : Bytes :=
  u32 footer.magic ++ u32 footer.footerCrc ++ u64 footer.recordCount ++ u64 footer.payloadBytes ++
    u32 footer.payloadCrc ++ u32 footer.reserved

def SnapshotFooter.computedFooterCrc (footer : SnapshotFooter) : UInt32 :=
  crc32c (encodeSnapshotFooter { footer with footerCrc := 0 })

open ByteReader in
def readSnapshotFooter : ByteReader SnapshotFooter := do
  return {
    magic := ← u32, footerCrc := ← u32, recordCount := ← u64, payloadBytes := ← u64
    payloadCrc := ← u32, reserved := ← u32 }

def decodeSnapshotFooter (bytes : Bytes) : SnapshotFooter :=
  match ByteReader.decode readSnapshotFooter bytes with
  | .error _ => { magic := 0 }
  | .ok footer =>
    if footer.computedFooterCrc ≠ footer.footerCrc then { footer with magic := 0 } else footer

/-- Records read off the body, with the accounting the footer repeats. -/
structure SnapshotBody where
  records : List JournalRecord := []
  payloadBytes : UInt64 := 0
  rollingCrc : UInt32 := 0

/-- Read the declared number of records and require that nothing follows them. -/
def readSnapshotBody : Nat → Bytes → SnapshotBody → Result SnapshotBody
  | 0, body, acc => do
    refuseIf (body ≠ []) .malformed "snapshot contains bytes beyond its declared record count"
    return acc
  | count + 1, body, acc => do
    refuseIf (body.length < kRecordHeaderSize) .truncated
      "snapshot ended inside a record header"
    let header := decodeHeader (body.take kRecordHeaderSize)
    refuseIf (header.magic ≠ kRecordMagic) .integrityFailure
      "snapshot record header failed its integrity check"
    refuseIf (header.format ≠ kFormatVersion) .unsupported
      "snapshot record format version is not supported"
    let total := kRecordHeaderSize + header.payloadLen.toNat
    refuseIf (body.length < total) .truncated "snapshot ended inside a record payload"
    let payload := (body.drop kRecordHeaderSize).take header.payloadLen.toNat
    refuseIf (crc32c payload ≠ header.payloadCrc) .integrityFailure
      "snapshot record payload failed its integrity check"
    readSnapshotBody count (body.drop total) {
      records := acc.records ++ [⟨header, payload⟩]
      payloadBytes := acc.payloadBytes + header.payloadLen.toUInt64
      rollingCrc := crc32cContinue acc.rollingCrc payload }

def readSnapshot (data : Bytes) (options : SnapshotOptions) : Result SnapshotContents := do
  refuseIf (data.length > options.maxBytes) .oversized "file exceeds the permitted size"
  refuseIf (data.length < kSnapshotHeaderSize + kSnapshotFooterSize) .truncated
    "snapshot container is shorter than its framing"
  let header := decodeSnapshotHeader (data.take kSnapshotHeaderSize)
  refuseIf (header.magic ≠ kSnapshotMagic) .integrityFailure
    "snapshot header failed its integrity check"
  refuseIf (header.format ≠ kFormatVersion) .unsupported
    "snapshot format version is not supported"
  let footer := decodeSnapshotFooter (data.drop (data.length - kSnapshotFooterSize))
  refuseIf (footer.magic ≠ kSnapshotFooterMagic) .truncated
    "snapshot has no valid footer and was never completed"
  refuseIf (footer.recordCount ≠ header.recordCount ∨ footer.payloadBytes ≠ header.payloadBytes ∨
    footer.payloadCrc ≠ header.payloadCrc) .integrityFailure
    "snapshot header and footer disagree"
  refuseIf (header.recordCount.toNat > options.maxRecords) .oversized
    "snapshot declares more records than permitted"
  let middle := (data.take (data.length - kSnapshotFooterSize)).drop kSnapshotHeaderSize
  let body ← readSnapshotBody header.recordCount.toNat middle {}
  refuseIf (body.payloadBytes ≠ header.payloadBytes ∨ body.rollingCrc ≠ header.payloadCrc)
    .integrityFailure "snapshot payload accounting does not match"
  return { header, records := body.records }

def sealSnapshotRecord (record : JournalRecord) : JournalRecord :=
  let header := { record.header with
    magic := kRecordMagic, format := kFormatVersion
    payloadLen := UInt32.ofNat record.payload.length, payloadCrc := crc32c record.payload }
  { record with header := { header with headerCrc := header.computedHeaderCrc } }

/-- The container a snapshot is written as; the replacement of the old file is atomic. -/
def writeSnapshot (header : SnapshotHeader) (records : List JournalRecord)
    (options : SnapshotOptions) : Result Bytes := do
  refuseIf (records.length > options.maxRecords) .limitExceeded
    "snapshot would exceed the permitted record count"
  refuseIf (∃ record ∈ records, record.payload.length > limits.kMaxJournalRecordBytes) .oversized
    "snapshot record exceeds the permitted size"
  let body := records.flatMap fun record => (sealSnapshotRecord record).encode
  let recordCount := UInt64.ofNat records.length
  let payloadBytes := UInt64.ofNat (records.map (·.payload.length)).sum
  let payloadCrc := records.foldl (fun crc record => crc32cContinue crc record.payload) 0
  let header := { header with
    magic := kSnapshotMagic, format := kFormatVersion, recordCount, payloadBytes, payloadCrc }
  let header := { header with headerCrc := header.computedHeaderCrc }
  let footer : SnapshotFooter := { recordCount, payloadBytes, payloadCrc }
  let footer := { footer with footerCrc := footer.computedFooterCrc }
  let container := encodeSnapshotHeader header ++ body ++ encodeSnapshotFooter footer
  refuseIf (container.length > options.maxBytes) .limitExceeded
    "snapshot would exceed the permitted size"
  return container

end CongestionFabric
