import CongestionFabric.Durability.Snapshot
import CongestionFabric.Durability.StoreCodec

namespace CongestionFabric

def kMutationPrefix : Nat := 2

def frameBody (kind : MutationKind) (body : Bytes) : Bytes := ByteWriter.u16 kind.toRaw ++ body

def framedKind (framed : Bytes) : MutationKind :=
  MutationKind.ofRaw (UInt16.ofNat (fromLittleEndian (framed.take kMutationPrefix)))

def unframeBody (framed : Bytes) : Result (MutationKind × Bytes) := do
  refuseIf (framed.length < kMutationPrefix) .truncated
    "durable payload has no mutation kind prefix"
  refuseIf ((framedKind framed).named = false) .malformed
    "durable payload names an unknown mutation kind"
  return (framedKind framed, framed.drop kMutationPrefix)

def decodeIntentKind (payload : Bytes) : Option MutationKind :=
  if payload.length < kMutationPrefix then none
  else if (framedKind payload).named then some (framedKind payload)
  else none

structure StoreOptions where
  maxHistoryEntries : UInt64 := UInt64.ofNat limits.kMaxDurableHistoryEntries
  maxInterventionRecords : UInt64 := UInt64.ofNat limits.kMaxInterventionHistory
  maxFences : UInt64 := 65536
  maxAttempts : UInt64 := 65536
  maxProvenance : UInt64 := 65536
  maxDomains : UInt64 := UInt64.ofNat limits.kMaxDomains
  syncOnAppend : Bool := true
  readOnly : Bool := false
  tolerateCorruptSnapshot : Bool := true

structure StoreReplay where
  snapshotPresent : Bool := false
  snapshotLoaded : Bool := false
  snapshotCorrupt : Bool := false
  journalPresent : Bool := false
  journalTruncated : Bool := false
  journalStatus : ReplayStatus := .empty
  recordsRead : Nat := 0
  recordsApplied : Nat := 0
  recordsSkipped : Nat := 0
  recordsRejected : Nat := 0
  unfinishedAttempts : Nat := 0
  ambiguousAttempts : Nat := 0
  tornBytes : Nat := 0
  integrityFailure : Bool := false
  detail : String := ""
  lastEpoch : EpochId := {}
  lastSequence : UInt64 := 0
  deriving DecidableEq

/-- A decoded mutation body. -/
inductive Mutation where
  | policySet (policy : CongestionPolicy)
  | topologySet (topology : TopologySnapshot)
  | capacitySet (capacity : CapacitySnapshot)
  | domainState (state : DomainState)
  | intervention (record : InterventionRecord)
  | fence (record : FenceRecord)
  | epochAdvance (mark : Store.EpochMark)
  | revalidation (record : RevalidationRecord)
  | historyAppend (entry : HistoryEntry)
  | attemptRecord (record : AttemptRecord)
  | provenanceAppend (provenance : Provenance)

def pushUnless {α : Type} (duplicate : α → Bool) (records : List α) (record : α) : List α :=
  if records.any duplicate then records else records ++ [record]

def DurableDocument.applyMutation (document : DurableDocument) : Mutation → DurableDocument
  | .policySet policy => { document with policy := some policy }
  | .topologySet topology => { document with topology := some topology }
  | .capacitySet capacity => { document with capacity := some capacity }
  | .domainState state => { document with domains := document.domains.insert state.domain state }
  | .intervention record =>
    { document with
      interventions := pushUnless (fun found => found.id = record.id) document.interventions record }
  | .fence record =>
    { document with
      fences := pushUnless (fun found => found.id = record.id) document.fences record }
  | .epochAdvance mark =>
    { document with
      epoch := mark.epoch
      coordinatorBoot := mark.boot
      coordinatorBootCounter := mark.counter }
  | .revalidation record =>
    { document with revalidations := document.revalidations ++ [record] }
  | .historyAppend entry => { document with history := document.history ++ [entry] }
  | .attemptRecord record => { document with attempts := document.attempts ++ [record] }
  | .provenanceAppend provenance =>
    { document with
      provenance := pushUnless (fun found => found.id = provenance.id) document.provenance
        provenance }

/-- The decoding that `validate_body` checks and `apply` performs, kind by kind. -/
def decodeBody (kind : MutationKind) (payload : Bytes) : Result Mutation :=
  match kind with
  | .policySet => return .policySet (← Store.decodePolicy payload)
  | .topologySet => return .topologySet (← Store.decodeTopology payload)
  | .capacitySet => return .capacitySet (← Store.decodeCapacity payload)
  | .domainState => return .domainState (← Store.decodeDomainState payload)
  | .intervention => return .intervention (← Store.decodeIntervention payload)
  | .fence => return .fence (← Store.decodeFence payload)
  | .epochAdvance => return .epochAdvance (← Store.decodeEpoch payload)
  | .revalidation => return .revalidation (← Store.decodeRevalidation payload)
  | .historyAppend => return .historyAppend (← Store.decodeHistory payload)
  | .attemptRecord => return .attemptRecord (← Store.decodeAttempt payload)
  | .provenanceAppend => return .provenanceAppend (← Store.decodeProvenance payload)
  | .unknown | .count | .undeclared _ _ => fail .malformed "unknown durable mutation kind"

def validateBody (kind : MutationKind) (payload : Bytes) : VoidResult := do
  let _ ← decodeBody kind payload

def DurableDocument.apply (document : DurableDocument) (kind : MutationKind) (payload : Bytes) :
    Result DurableDocument := do
  return document.applyMutation (← decodeBody kind payload)

/-- What a directory holds: the journal and the snapshot, when they exist. -/
structure Disk where
  journal : Option Bytes := none
  snapshot : Option Bytes := none
  deriving DecidableEq

structure Store where
  options : StoreOptions := {}
  journal : Journal := {}
  snapshot : Option Bytes := none
  document : DurableDocument := {}
  report : StoreReplay := {}
  prunedRecords : Nat := 0
  isOpen : Bool := false

namespace Store

def disk (store : Store) : Disk := ⟨some store.journal.file, store.snapshot⟩

/-- The records a bounded container keeps, newest last; a zero bound keeps everything. -/
def trim {α : Type} (records : List α) (limit : UInt64) : List α :=
  if limit = 0 then records else records.drop (records.length - limit.toNat)

def pruneDocument (store : Store) : Store :=
  let d := store.document
  let kept : DurableDocument := { d with
    history := trim d.history store.options.maxHistoryEntries
    interventions := trim d.interventions store.options.maxInterventionRecords
    fences := trim d.fences store.options.maxFences
    attempts := trim d.attempts store.options.maxAttempts
    provenance := trim d.provenance store.options.maxProvenance
    revalidations := trim d.revalidations store.options.maxAttempts }
  let removed := (d.history.length - kept.history.length) +
    (d.interventions.length - kept.interventions.length) + (d.fences.length - kept.fences.length) +
    (d.attempts.length - kept.attempts.length) + (d.provenance.length - kept.provenance.length) +
    (d.revalidations.length - kept.revalidations.length)
  { store with document := kept, prunedRecords := store.prunedRecords + removed }

def enforceGrowthLimits (store : Store) (kind : MutationKind) : VoidResult :=
  refuseIf (kind = .domainState ∧ store.document.domains.size ≥ store.options.maxDomains.toNat)
    .limitExceeded "durable domain count is at its bound"

/-- What is checked before anything is written. -/
def admitMutation (store : Store) (kind : MutationKind) (payload : Bytes) : VoidResult := do
  refuseIf (store.isOpen = false) .closed "store is not open"
  refuseIf (kind.named = false) .invalidArgument "durable mutation has no kind"
  refuseIf (payload.length + kMutationPrefix > limits.kMaxJournalRecordBytes) .oversized
    "durable mutation body exceeds the permitted size"
  store.enforceGrowthLimits kind
  validateBody kind payload

def intentBody (kind : MutationKind) (stamp : MutationStamp) : Bytes :=
  ByteWriter.u16 kind.toRaw ++ stamp.attempt.put ++ ByteWriter.u64 stamp.tick

def commitBody (kind : MutationKind) (framed : Bytes) : Bytes :=
  ByteWriter.u16 kind.toRaw ++ ByteWriter.u32 (crc32c framed)

/-- The three records of a commit, up to the first append that fails. -/
def appendGroup (journal : Journal) (kind : MutationKind) (payload : Bytes)
    (stamp : MutationStamp) : Journal × VoidResult :=
  let framed := frameBody kind payload
  let transaction : TransactionId := ⟨journal.nextSequence⟩
  let generation := stamp.generation.value
  match journal.append .intent stamp.epoch generation transaction (intentBody kind stamp) with
  | (journal, .error status) => (journal, .error status)
  | (journal, .ok _) =>
    match journal.append .payload stamp.epoch generation transaction framed with
    | (journal, .error status) => (journal, .error status)
    | (journal, .ok _) =>
      journal.append .commit stamp.epoch generation transaction (commitBody kind framed)

/-- The mutation is applied only once its commit record is in the journal. -/
def commit (store : Store) (kind : MutationKind) (payload : Bytes) (stamp : MutationStamp) :
    Store × VoidResult :=
  match store.admitMutation kind payload with
  | .error status => (store, .error status)
  | .ok _ =>
    match appendGroup store.journal kind payload stamp with
    | (journal, .error status) => ({ store with journal }, .error status)
    | (journal, .ok _) =>
      match store.document.apply kind payload with
      | .error status => ({ store with journal }, .error status)
      | .ok document =>
        (pruneDocument { store with
          journal
          document := { document with
            lastSequence := journal.nextSequence - 1
            authorityGeneration := stamp.generation
            mutationCount := document.mutationCount + 1 } }, succeed)

def commitEncoded (store : Store) (kind : MutationKind) (encoded : Result Bytes)
    (stamp : MutationStamp) : Store × VoidResult :=
  match encoded with
  | .error status => (store, .error status)
  | .ok payload => store.commit kind payload stamp

def setPolicy (store : Store) (policy : CongestionPolicy) (stamp : MutationStamp) :
    Store × VoidResult :=
  store.commitEncoded .policySet (encodePolicy policy) stamp

def setTopology (store : Store) (topology : TopologySnapshot) (stamp : MutationStamp) :
    Store × VoidResult :=
  store.commitEncoded .topologySet (encodeTopology topology) stamp

def setCapacity (store : Store) (capacity : CapacitySnapshot) (stamp : MutationStamp) :
    Store × VoidResult :=
  store.commitEncoded .capacitySet (encodeCapacity capacity) stamp

def putDomainState (store : Store) (state : DomainState) (stamp : MutationStamp) :
    Store × VoidResult :=
  if ¬store.document.domains.contains state.domain ∧
      store.document.domains.size ≥ store.options.maxDomains.toNat then
    (store, fail .limitExceeded "durable domain count is at its bound")
  else store.commitEncoded .domainState (encodeDomainState state) stamp

def appendIntervention (store : Store) (record : InterventionRecord) (stamp : MutationStamp) :
    Store × VoidResult :=
  store.commitEncoded .intervention (encodeIntervention record) stamp

def appendFence (store : Store) (record : FenceRecord) (stamp : MutationStamp) :
    Store × VoidResult :=
  store.commitEncoded .fence (encodeFence record) stamp

def appendHistory (store : Store) (entry : HistoryEntry) (stamp : MutationStamp) :
    Store × VoidResult :=
  store.commitEncoded .historyAppend (encodeHistory entry) stamp

def appendAttempt (store : Store) (record : AttemptRecord) (stamp : MutationStamp) :
    Store × VoidResult :=
  store.commitEncoded .attemptRecord (encodeAttempt record) stamp

def appendProvenance (store : Store) (provenance : Provenance) (stamp : MutationStamp) :
    Store × VoidResult :=
  store.commitEncoded .provenanceAppend (encodeProvenance provenance) stamp

def advanceEpoch (store : Store) (epoch : EpochId) (boot : BootId) (bootCounter : UInt64)
    (stamp : MutationStamp) : Store × VoidResult :=
  store.commitEncoded .epochAdvance (encodeEpoch epoch boot bootCounter)
    { stamp with epoch := epoch }

def writeRevalidation (store : Store) (record : RevalidationRecord) (stamp : MutationStamp) :
    Store × VoidResult :=
  store.commitEncoded .revalidation (encodeRevalidation record) stamp

/-! ### Recovery -/

structure PendingTransaction where
  kind : MutationKind := .unknown
  payload : Option Bytes := none
  sequence : UInt64 := 0

/-- What replay has rebuilt so far. -/
@[ext]
structure Recovery where
  document : DurableDocument := {}
  pending : SortedMap TransactionId PendingTransaction := ∅
  report : StoreReplay := {}

def Recovery.reject (r : Recovery) : Recovery :=
  { r with report := { r.report with recordsRejected := r.report.recordsRejected + 1 } }

def noteIntent (r : Recovery) (record : JournalRecord) : Recovery :=
  match decodeIntentKind record.payload with
  | none => r.reject
  | some kind =>
    let transaction : TransactionId := ⟨record.header.transaction⟩
    let slot := r.pending.findD transaction {}
    { r with
      pending := r.pending.insert transaction
        { slot with kind, sequence := record.header.sequence } }

def notePayload (r : Recovery) (record : JournalRecord) : Recovery :=
  let transaction : TransactionId := ⟨record.header.transaction⟩
  let slot := r.pending.findD transaction {}
  { r with
    pending := r.pending.insert transaction
      { slot with
        payload := some record.payload
        sequence := if slot.sequence = 0 then record.header.sequence else slot.sequence } }

def noteCommit (r : Recovery) (record : JournalRecord) : Recovery :=
  let transaction : TransactionId := ⟨record.header.transaction⟩
  match (r.pending.find? transaction).bind (·.payload) with
  | none => r.reject
  | some payload =>
    let forgotten := { r with pending := r.pending.erase transaction }
    match unframeBody payload with
    | .error _ => forgotten.reject
    | .ok (kind, body) =>
      match r.document.apply kind body with
      | .error _ => forgotten.reject
      | .ok document =>
        { forgotten with
          document := { document with lastSequence := record.header.sequence }
          report := { r.report with recordsApplied := r.report.recordsApplied + 1 } }

def covered (r : Recovery) (record : JournalRecord) : Recovery :=
  { r with document := { r.document with lastSequence := record.header.sequence } }

def replayRecord (r : Recovery) (record : JournalRecord) : Recovery :=
  let r := { r with report := { r.report with recordsRead := r.report.recordsRead + 1 } }
  if record.header.sequence ≤ r.document.lastSequence then
    { r with report := { r.report with recordsSkipped := r.report.recordsSkipped + 1 } }
  else match record.type with
    | .intent => noteIntent r record
    | .payload => notePayload r record
    | .commit => noteCommit r record
    | .abort =>
      covered { r with pending := r.pending.erase ⟨record.header.transaction⟩ } record
    | .rebase => covered r record
    | .unknown | .count => r.reject
    | .undeclared _ _ => r

def ambiguousAttempt (epoch : EpochId) (transaction : TransactionId)
    (slot : PendingTransaction) : AttemptRecord where
  attempt := ⟨transaction.value⟩
  transaction
  kind := slot.kind
  state := .ambiguous
  epoch
  recordedTick := 0
  detail := text "unfinished attempt recovered from the journal"

/-- The payloads left without a commit, in transaction order. -/
def ambiguousAttempts (r : Recovery) : List AttemptRecord :=
  (r.pending.entries.filter fun e => e.2.payload.isSome).map fun e =>
    ambiguousAttempt r.document.epoch e.1 e.2

def retainAmbiguous (r : Recovery) : Recovery :=
  let found := ambiguousAttempts r
  { r with
    document := { r.document with attempts := r.document.attempts ++ found }
    report := { r.report with
      unfinishedAttempts := r.report.unfinishedAttempts + found.length
      ambiguousAttempts := r.report.ambiguousAttempts + found.length
      recordsRejected := r.report.recordsRejected + found.length } }

/-- The sum of the bounds wraps as the machine's does. -/
def snapshotOptions (options : StoreOptions) : SnapshotOptions where
  maxRecords := (options.maxHistoryEntries + options.maxDomains + options.maxInterventionRecords +
    options.maxFences + options.maxAttempts + options.maxProvenance + 8).toNat

def corruptSnapshot (report : StoreReplay) (detail : String) : StoreReplay :=
  { report with snapshotCorrupt := true, integrityFailure := true, detail }

/-- Apply the records of a snapshot up to the first one that is refused. -/
def loadRecords : List JournalRecord → DurableDocument × StoreReplay →
    DurableDocument × StoreReplay
  | [], acc => acc
  | record :: rest, (document, report) =>
    match unframeBody record.payload with
    | .error status =>
      (document, corruptSnapshot report ("snapshot record refused: " ++ status.describe))
    | .ok (kind, body) =>
      match document.apply kind body with
      | .error status =>
        (document, corruptSnapshot report ("snapshot record rejected: " ++ status.describe))
      | .ok document => loadRecords rest (document, report)

/-- The document and the report after the snapshot, before the journal. -/
def loadSnapshot (snapshot : Option Bytes) (options : StoreOptions) :
    Result (DurableDocument × StoreReplay) :=
  match snapshot with
  | none => .ok ({}, {})
  | some data =>
    let report : StoreReplay := { snapshotPresent := true }
    match readSnapshot data (snapshotOptions options) with
    | .error status =>
      if options.tolerateCorruptSnapshot then
        .ok ({}, corruptSnapshot report ("snapshot refused: " ++ status.describe))
      else .error status
    | .ok contents =>
      let base : DurableDocument := {
        lastSequence := contents.header.lastSequence
        epoch := ⟨contents.header.epoch⟩
        coordinatorBoot := ⟨contents.header.coordinatorBoot⟩
        coordinatorBootCounter := contents.header.coordinatorBootCounter }
      let (document, report) := loadRecords contents.records (base, report)
      .ok (document, { report with snapshotLoaded := !report.snapshotCorrupt })

def journalOptions (options : StoreOptions) : JournalOptions where
  syncOnAppend := options.syncOnAppend
  readOnly := options.readOnly

def noteTear (report : StoreReplay) (replay : JournalReplay) : StoreReplay :=
  { report with
    tornBytes := replay.droppedBytes, integrityFailure := true, detail := replay.detail }

/-- Cut a torn tail off, unless the store only reads. -/
def settleTail (journal : Journal) (replay : JournalReplay) (report : StoreReplay)
    (readOnly : Bool) : Result (Journal × StoreReplay) :=
  if replay.status = .truncatedTail then
    if readOnly then .ok (journal, noteTear report replay)
    else do
      let journal ← journal.truncateTo replay.validBytes
      return (journal, { noteTear report replay with journalTruncated := true })
  else .ok (journal, report)

def openDisk (disk : Disk) (options : StoreOptions) : Result Store := do
  let (document, report) ← loadSnapshot disk.snapshot options
  let journal ← Journal.openFile disk.journal (journalOptions options)
  let replay ← journal.replay
  let report := { report with journalPresent := true, journalStatus := replay.status }
  if replay.status = .corrupt then
    fail .corrupt "durable journal failed its integrity check" replay.detail
  else
    let recovery :=
      retainAmbiguous (replay.records.foldl replayRecord { document, report })
    let journal := journal.resumeSequence (recovery.document.lastSequence + 1)
    let (journal, report) ← settleTail journal replay recovery.report options.readOnly
    return {
      options, journal, snapshot := disk.snapshot, document := recovery.document, isOpen := true
      report := { report with
        lastEpoch := recovery.document.epoch, lastSequence := recovery.document.lastSequence } }

/-! ### Compaction -/

def encodeAll {α : Type} (kind : MutationKind) (encode : α → Result Bytes) :
    List α → Result (List (MutationKind × Bytes))
  | [] => .ok []
  | record :: rest => do
    let body ← encode record
    let bodies ← encodeAll kind encode rest
    return (kind, body) :: bodies

/-- The epoch mark of a document, once it has an epoch and a boot. -/
def epochMarkOf (d : DurableDocument) : List EpochMark :=
  if d.epoch.valid ∧ d.coordinatorBoot.valid then
    [⟨d.epoch, d.coordinatorBoot, d.coordinatorBootCounter⟩]
  else []

/-- The bodies a document is compacted into, in snapshot order. -/
def documentBodies (d : DurableDocument) : Result (List (MutationKind × Bytes)) := do
  let policy ← encodeAll .policySet encodePolicy d.policy.toList
  let topology ← encodeAll .topologySet encodeTopology d.topology.toList
  let capacity ← encodeAll .capacitySet encodeCapacity d.capacity.toList
  let epoch ← encodeAll .epochAdvance (fun m => encodeEpoch m.epoch m.boot m.counter)
    (epochMarkOf d)
  let domains ← encodeAll .domainState encodeDomainState d.domains.values
  let interventions ← encodeAll .intervention encodeIntervention d.interventions
  let fences ← encodeAll .fence encodeFence d.fences
  let history ← encodeAll .historyAppend encodeHistory d.history
  let attempts ← encodeAll .attemptRecord encodeAttempt d.attempts
  let provenance ← encodeAll .provenanceAppend encodeProvenance d.provenance
  let revalidations ← encodeAll .revalidation encodeRevalidation d.revalidations
  return policy ++ topology ++ capacity ++ epoch ++ domains ++ interventions ++ fences ++
    history ++ attempts ++ provenance ++ revalidations

def snapshotRecord (epoch : EpochId) (index : Nat) (body : MutationKind × Bytes) : JournalRecord where
  header := {
    format := kFormatVersion, type := RecordType.payload.toRaw
    sequence := UInt64.ofNat (index + 1), epoch := epoch.value }
  payload := frameBody body.1 body.2

def validateBodies : List (MutationKind × Bytes) → VoidResult
  | [] => succeed
  | (kind, body) :: rest => do
    validateBody kind body
    validateBodies rest

/-- The document a verified snapshot rebuilds from nothing. -/
def recoverScratch : List JournalRecord → DurableDocument → Result DurableDocument
  | [], document => .ok document
  | record :: rest, document =>
    match unframeBody record.payload with
    | .error status => .error status
    | .ok (kind, body) =>
      match document.apply kind body with
      | .error status =>
        fail .integrityFailure "compacted snapshot cannot be recovered" status.describe
      | .ok document => recoverScratch rest document

/-- The snapshot container of a document, checked as far as memory allows. -/
def compact (document : DurableDocument) : Result (Bytes × SnapshotOptions × Nat) := do
  let bodies ← documentBodies document
  let records := bodies.zipIdx.map fun e => snapshotRecord document.epoch e.2 e.1
  validateBodies bodies
  let options : SnapshotOptions := { maxRecords := records.length + 1 }
  let container ← writeSnapshot {
    epoch := document.epoch.value, coordinatorBoot := document.coordinatorBoot.value
    coordinatorBootCounter := document.coordinatorBootCounter
    lastSequence := document.lastSequence } records options
  return (container, options, records.length)

/-- Read the written container back and rebuild a document from it. -/
def verifySnapshot (document : DurableDocument) (container : Bytes) (options : SnapshotOptions)
    (count : Nat) : VoidResult := do
  let verified ← readSnapshot container options
  refuseIf (verified.records.length ≠ count) .integrityFailure
    "compacted snapshot does not read back intact"
  let scratch ← recoverScratch verified.records {}
  refuseIf (scratch.policy.isSome ≠ document.policy.isSome ∨
    scratch.domains.size ≠ document.domains.size ∨
    scratch.fences.length ≠ document.fences.length) .integrityFailure
    "compacted snapshot recovers a different document"

/-- The journal is emptied only after the new snapshot has been read back. -/
def checkpoint (store : Store) : Store × VoidResult :=
  if store.isOpen = false then (store, fail .closed "store is not open")
  else match compact store.document with
    | .error status => (store, .error status)
    | .ok (container, options, count) =>
      let store := { store with snapshot := some container }
      match verifySnapshot store.document container options count with
      | .error status => (store, .error status)
      | .ok _ =>
        let (journal, result) := store.journal.rebase store.document.epoch
          store.document.authorityGeneration.value
        ({ store with journal }, result)

end Store

end CongestionFabric
