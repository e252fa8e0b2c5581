import CongestionFabric.Core.StrongId
import CongestionFabric.Durability.Codec
import CongestionFabric.Durability.Crc32c
import CongestionFabric.Lib.FramedLog

namespace CongestionFabric

inductive RecordType where
  | unknown | intent | payload | commit | abort | rebase | count
  | undeclared (raw : UInt16) (h : 7 ≤ raw.toNat)
  deriving DecidableEq

namespace RecordType

def toRaw : RecordType → UInt16
  | undeclared raw _ => raw
  | e => UInt16.ofNat e.ctorIdx

def ofRaw (raw : UInt16) : RecordType :=
  if h : raw.toNat < 7 then
    [unknown, intent, payload, commit, abort, rebase, count][raw.toNat]
  else undeclared raw (Nat.le_of_not_lt h)

@[simp] theorem ofRaw_toRaw (e : RecordType) : ofRaw e.toRaw = e := by
  cases e with
  | undeclared raw h => simp [toRaw, ofRaw, Nat.not_lt.mpr h]
  | _ => rfl

end RecordType

def kRecordMagic : UInt32 := 0x4E434652
def kRecordHeaderSize : Nat := 64
def kFormatVersion : UInt16 := 1

/-- The fixed 64-byte record header. -/
structure RecordHeader where
  magic : UInt32 := kRecordMagic
  format : UInt16 := 0
  type : UInt16 := 0
  headerCrc : UInt32 := 0
  payloadLen : UInt32 := 0
  payloadCrc : UInt32 := 0
  reserved : UInt32 := 0
  sequence : UInt64 := 0
  epoch : UInt64 := 0
  generation : UInt64 := 0
  transaction : UInt64 := 0
  reserved2 : UInt32 := 0
  reserved3 : UInt32 := 0
  deriving DecidableEq

open ByteWriter in
def encodeHeader (header : RecordHeader) : Bytes :=
  u32 header.magic ++ (u16 header.format ++ (u16 header.type ++ (u32 header.headerCrc ++
    (u32 header.payloadLen ++ (u32 header.payloadCrc ++ (u32 header.reserved ++
    (u64 header.sequence ++ (u64 header.epoch ++ (u64 header.generation ++
    (u64 header.transaction ++ (u32 header.reserved2 ++ u32 header.reserved3)))))))))))

def RecordHeader.computedHeaderCrc (header : RecordHeader) : UInt32 :=
  crc32c (encodeHeader { header with headerCrc := 0 })

open ByteReader in
def readHeader : ByteReader RecordHeader := do
  return {
    magic := ← u32, format := ← u16, type := ← u16, headerCrc := ← u32, payloadLen := ← u32
    payloadCrc := ← u32, reserved := ← u32, sequence := ← u64, epoch := ← u64
    generation := ← u64, transaction := ← u64, reserved2 := ← u32, reserved3 := ← u32 }

/-- A header whose check does not match comes back with its magic cleared. -/
def decodeHeader (bytes : Bytes) : RecordHeader :=
  match ByteReader.decode readHeader bytes with
  | .error _ => { magic := 0 }
  | .ok header =>
    if header.computedHeaderCrc ≠ header.headerCrc then { header with magic := 0 } else header

structure JournalRecord where
  header : RecordHeader := {}
  payload : Bytes := []
  deriving DecidableEq

namespace JournalRecord

def encode (record : JournalRecord) : Bytes := encodeHeader record.header ++ record.payload

def type (record : JournalRecord) : RecordType := RecordType.ofRaw record.header.type

end JournalRecord

structure JournalOptions where
  maxRecordBytes : Nat := limits.kMaxJournalRecordBytes
  maxJournalBytes : Nat := limits.kMaxJournalBytes
  syncOnAppend : Bool := true
  readOnly : Bool := false

inductive ReplayStatus where
  | empty | complete | truncatedTail | corrupt
  deriving DecidableEq

structure JournalReplay where
  records : List JournalRecord := []
  fileBytes : Nat := 0
  validBytes : Nat := 0
  droppedBytes : Nat := 0
  rejectedRecords : Nat := 0
  status : ReplayStatus := .empty
  detail : String := ""

/-- What the disk does with one append: keep it, refuse the write in its middle, take the write and
keep part of it when it is flushed, or keep it all without bringing it to stable storage. -/
inductive DiskFate where
  | kept
  | shortWrite (written : Nat)
  | shortFlush (written : Nat)
  | unflushed
  deriving DecidableEq

/-- The open journal with the bytes of its file; `fates` is what the disk will do with the next
appends, and once it is used up the disk keeps everything. -/
structure Journal where
  options : JournalOptions := {}
  file : Bytes := []
  isOpen : Bool := false
  size : Nat := 0
  nextSequence : UInt64 := 1
  fates : List DiskFate := []

namespace Journal

def openFile (file : Option Bytes) (options : JournalOptions) : Result Journal :=
  match file with
  | some bytes => .ok { options, file := bytes, isOpen := true, size := bytes.length }
  | none =>
    if options.readOnly then fail .ioError "cannot open the journal"
    else .ok { options, isOpen := true }

def resumeSequence (journal : Journal) (next : UInt64) : Journal :=
  if next > journal.nextSequence then { journal with nextSequence := next } else journal

def recordOf (type : RecordType) (epoch : EpochId) (generation sequence : UInt64)
    (transaction : TransactionId) (payload : Bytes) : JournalRecord :=
  let header : RecordHeader := {
    format := kFormatVersion, type := type.toRaw, payloadLen := UInt32.ofNat payload.length
    payloadCrc := crc32c payload, sequence, epoch := epoch.value, generation
    transaction := transaction.value }
  { header := { header with headerCrc := header.computedHeaderCrc }, payload }

def append (journal : Journal) (type : RecordType) (epoch : EpochId) (generation : UInt64)
    (transaction : TransactionId) (payload : Bytes) : Journal × VoidResult :=
  if journal.options.readOnly then (journal, fail .unauthorized "journal is open read-only")
  else if !journal.isOpen then (journal, fail .closed "journal is not open")
  else if payload.length > journal.options.maxRecordBytes then
    (journal, fail .oversized "journal record exceeds the permitted size")
  else
    let projected := journal.size + kRecordHeaderSize + payload.length
    if projected > journal.options.maxJournalBytes then
      (journal, fail .limitExceeded "journal would exceed its permitted size")
    else
      let bytes :=
        (recordOf type epoch generation journal.nextSequence transaction payload).encode
      let rest := journal.fates.tail
      let counted := { journal with
        size := projected, nextSequence := journal.nextSequence + 1, fates := rest }
      match journal.fates.head?, journal.options.syncOnAppend with
      | some (.shortWrite written), _ =>
        ({ journal with
            file := journal.file ++ bytes.take (min written (bytes.length - 1)), fates := rest },
          fail .ioError "short write to the journal")
      -- the stream takes the bytes, so that they are counted before the flush reports the failure
      | some (.shortFlush written), true =>
        ({ counted with file := journal.file ++ bytes.take written },
          fail .ioError "fflush failed")
      | some .unflushed, true =>
        ({ counted with file := journal.file ++ bytes },
          fail .ioError "flush to stable storage failed")
      | _, _ => ({ counted with file := journal.file ++ bytes }, succeed)

/-- The record at the front of the unread bytes. -/
def readRecord (maxRecordBytes : Nat) (data : Bytes) : Head JournalRecord String :=
  if data.length < kRecordHeaderSize then
    .short "trailing bytes are shorter than a record header"
  else
    let header := decodeHeader (data.take kRecordHeaderSize)
    if header.magic ≠ kRecordMagic then .bad "record header failed its integrity check"
    else if header.format ≠ kFormatVersion then .bad "record format version is not supported"
    else if header.payloadLen.toNat > maxRecordBytes then
      .bad "record declares a payload beyond the permitted size"
    else
      let total := kRecordHeaderSize + header.payloadLen.toNat
      if data.length < total then .short "record payload is incomplete"
      else
        let payload := (data.drop kRecordHeaderSize).take header.payloadLen.toNat
        if crc32c payload ≠ header.payloadCrc then .bad "record payload failed its integrity check"
        else .record ⟨header, payload⟩ (data.drop total)

def stopStatus (records : List JournalRecord) : ScanStop String → ReplayStatus
  | .done => if records = [] then .empty else .complete
  -- a tear inside the very first record is not told from an empty file
  | .short _ => if records = [] then .empty else .truncatedTail
  | .bad _ => .corrupt

def stopDetail : ScanStop String → String
  | .done => ""
  | .short why | .bad why => why

def replay (journal : Journal) : Result JournalReplay :=
  if journal.file.length > journal.options.maxJournalBytes then
    fail .oversized "file exceeds the permitted size"
  else
    let scan := Scan.run (readRecord journal.options.maxRecordBytes) journal.file
    .ok {
      records := scan.records
      fileBytes := journal.file.length
      validBytes := journal.file.length - scan.tail.length
      droppedBytes := scan.tail.length
      rejectedRecords := match scan.stop with
        | .bad _ => 1
        | _ => 0
      status := stopStatus scan.records scan.stop
      detail := stopDetail scan.stop }

def truncateTo (journal : Journal) (validBytes : Nat) : Result Journal :=
  if journal.options.readOnly then fail .unauthorized "journal is open read-only"
  else if !journal.isOpen then fail .closed "journal is not open"
  else if validBytes > journal.size then
    fail .invalidArgument "refusing to grow the journal by truncation"
  else .ok { journal with file := journal.file.take validBytes, size := validBytes }

def rebase (journal : Journal) (epoch : EpochId) (generation : UInt64) : Journal × VoidResult :=
  if journal.options.readOnly then (journal, fail .unauthorized "journal is open read-only")
  else if !journal.isOpen then (journal, fail .closed "journal is not open")
  else { journal with file := [], size := 0 }.append .rebase epoch generation {} []

end Journal

end CongestionFabric
