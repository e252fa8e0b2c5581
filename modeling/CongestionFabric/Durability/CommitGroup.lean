import CongestionFabric.Durability.JournalFraming
import CongestionFabric.Durability.Store

namespace CongestionFabric

namespace Journal

variable {journal : Journal} {type : RecordType} {epoch : EpochId} {generation : UInt64}
  {transaction : TransactionId} {payload : Bytes}

/-- The journal after a record is kept whole. -/
def keeping (journal : Journal) (record : JournalRecord) : Journal :=
  { journal with
    file := journal.file ++ record.encode
    size := journal.size + kRecordHeaderSize + record.payload.length
    nextSequence := journal.nextSequence + 1 }

/-- On a disk that keeps everything an append changes nothing or keeps its record. -/
theorem append_cases (hf : journal.fates = []) (type : RecordType) (epoch : EpochId)
    (generation : UInt64) (transaction : TransactionId) (payload : Bytes) :
    (∃ status, journal.append type epoch generation transaction payload =
      (journal, .error status)) ∨
    (journal.append type epoch generation transaction payload =
        (journal.keeping
          (recordOf type epoch generation journal.nextSequence transaction payload), .ok ()) ∧
      payload.length ≤ journal.options.maxRecordBytes ∧
      journal.size + kRecordHeaderSize + payload.length ≤ journal.options.maxJournalBytes) := by
  unfold append
  split
  next => exact .inl ⟨_, rfl⟩
  next =>
    split
    next => exact .inl ⟨_, rfl⟩
    next =>
      split
      next => exact .inl ⟨_, rfl⟩
      next hlen =>
        dsimp only
        split
        next => exact .inl ⟨_, rfl⟩
        next hsize =>
          refine .inr ⟨?_, not_lt.mp hlen, not_lt.mp hsize⟩
          simp [hf, keeping, recordOf, succeed]

@[simp] theorem recordOf_sequence (sequence : UInt64) :
    (recordOf type epoch generation sequence transaction payload).header.sequence = sequence := rfl

@[simp] theorem recordOf_transaction (sequence : UInt64) :
    (recordOf type epoch generation sequence transaction payload).header.transaction =
      transaction.value := rfl

@[simp] theorem recordOf_payload (sequence : UInt64) :
    (recordOf type epoch generation sequence transaction payload).payload = payload := rfl

@[simp] theorem recordOf_type (sequence : UInt64) :
    (recordOf type epoch generation sequence transaction payload).type = type :=
  RecordType.ofRaw_toRaw type

end Journal

theorem framedKind_u16 (kind : MutationKind) (rest : Bytes) :
    framedKind (ByteWriter.u16 kind.toRaw ++ rest) = kind := by
  have htake : (ByteWriter.u16 kind.toRaw ++ rest).take kMutationPrefix =
      ByteWriter.u16 kind.toRaw := List.take_left' (by simp [ByteWriter.u16, kMutationPrefix])
  rw [framedKind, htake, ByteWriter.u16, fromLittleEndian_of_lt kind.toRaw.toNat_lt]
  simp

theorem unframeBody_frameBody {kind : MutationKind} (h : kind.named = true) (body : Bytes) :
    unframeBody (frameBody kind body) = .ok (kind, body) := by
  have hdrop : (frameBody kind body).drop kMutationPrefix = body :=
    List.drop_left' (by simp [ByteWriter.u16, kMutationPrefix])
  have hlen : ¬(frameBody kind body).length < kMutationPrefix := by
    simp only [frameBody, ByteWriter.u16, List.length_append, littleEndian_length,
      kMutationPrefix]
    omega
  have hkind : framedKind (frameBody kind body) = kind := framedKind_u16 kind body
  simp [unframeBody, hkind, hdrop, hlen, h, refuseIf, succeed, bind, Except.bind, pure,
    Except.pure]

namespace Store

theorem decodeIntentKind_intentBody {kind : MutationKind} (h : kind.named = true)
    (stamp : MutationStamp) : decodeIntentKind (intentBody kind stamp) = some kind := by
  have hkind : framedKind (intentBody kind stamp) = kind := by
    rw [intentBody, List.append_assoc]
    exact framedKind_u16 kind _
  have hlen : ¬(intentBody kind stamp).length < kMutationPrefix := by
    simp only [intentBody, ByteWriter.u16, List.length_append, littleEndian_length,
      kMutationPrefix]
    omega
  rw [decodeIntentKind, if_neg hlen, hkind, if_pos h]

def intentRecord (kind : MutationKind) (stamp : MutationStamp) (sequence : UInt64) :
    JournalRecord :=
  Journal.recordOf .intent stamp.epoch stamp.generation.value sequence ⟨sequence⟩
    (intentBody kind stamp)

def payloadRecord (kind : MutationKind) (payload : Bytes) (stamp : MutationStamp)
    (sequence : UInt64) : JournalRecord :=
  Journal.recordOf .payload stamp.epoch stamp.generation.value (sequence + 1) ⟨sequence⟩
    (frameBody kind payload)

def commitRecord (kind : MutationKind) (payload : Bytes) (stamp : MutationStamp)
    (sequence : UInt64) : JournalRecord :=
  Journal.recordOf .commit stamp.epoch stamp.generation.value (sequence + 1 + 1) ⟨sequence⟩
    (commitBody kind (frameBody kind payload))

/-- The records of one commit that starts at a sequence number. -/
def groupRecords (kind : MutationKind) (payload : Bytes) (stamp : MutationStamp)
    (sequence : UInt64) : List JournalRecord :=
  [intentRecord kind stamp sequence, payloadRecord kind payload stamp sequence,
    commitRecord kind payload stamp sequence]

/-- A journal whose disk keeps everything, with its records. -/
structure Holds (journal : Journal) (records : List JournalRecord) : Prop where
  kept : journal.fates = []
  recordBound : journal.options.maxRecordBytes = limits.kMaxJournalRecordBytes
  journalBound : journal.options.maxJournalBytes = limits.kMaxJournalBytes
  file : journal.file = logOf JournalRecord.encode records
  size : journal.size = journal.file.length
  fits : journal.size ≤ limits.kMaxJournalBytes
  whole : ∀ record ∈ records, Sealed limits.kMaxJournalRecordBytes record

theorem Holds.keeping {journal : Journal} {records : List JournalRecord}
    (h : Holds journal records) (type : RecordType) (epoch : EpochId) (generation : UInt64)
    (sequence : UInt64) (transaction : TransactionId) {payload : Bytes}
    (hlen : payload.length ≤ journal.options.maxRecordBytes)
    (hsize : journal.size + kRecordHeaderSize + payload.length ≤
      journal.options.maxJournalBytes) :
    Holds (journal.keeping (Journal.recordOf type epoch generation sequence transaction payload))
      (records ++ [Journal.recordOf type epoch generation sequence transaction payload]) where
  kept := h.kept
  recordBound := h.recordBound
  journalBound := h.journalBound
  file := by simp [Journal.keeping, h.file]
  size := by simp [Journal.keeping, h.size, JournalRecord.encode, Nat.add_assoc]
  fits := h.journalBound ▸ hsize
  whole := fun record hr => by
    rcases List.mem_append.mp hr with hr | hr
    · exact h.whole record hr
    · rw [List.mem_singleton.mp hr]
      exact recordOf_sealed (by decide) (h.recordBound ▸ hlen)

/-- An append, whatever its outcome, leaves a log of whole records. -/
theorem Holds.append {journal : Journal} {records : List JournalRecord} (h : Holds journal records)
    (type : RecordType) (epoch : EpochId) (generation : UInt64) (transaction : TransactionId)
    (payload : Bytes) : ∃ written,
      Holds (journal.append type epoch generation transaction payload).1 (records ++ written) := by
  rcases Journal.append_cases h.kept type epoch generation transaction payload with
    ⟨status, he⟩ | ⟨he, hlen, hsize⟩
  · refine ⟨[], ?_⟩
    rw [he, List.append_nil]
    exact h
  · refine ⟨[Journal.recordOf type epoch generation journal.nextSequence transaction payload], ?_⟩
    rw [he]
    exact h.keeping type epoch generation journal.nextSequence transaction hlen hsize

/-- So does a commit group, up to the first append that fails. -/
theorem Holds.appendGroup {journal : Journal} {records : List JournalRecord}
    (h : Holds journal records) (kind : MutationKind) (payload : Bytes) (stamp : MutationStamp) :
    ∃ written, Holds (appendGroup journal kind payload stamp).1 (records ++ written) := by
  unfold Store.appendGroup
  dsimp only
  obtain ⟨first, h₁⟩ := h.append .intent stamp.epoch stamp.generation.value
    ⟨journal.nextSequence⟩ (intentBody kind stamp)
  split
  next he =>
    rw [he] at h₁
    exact ⟨first, h₁⟩
  next he =>
    rw [he] at h₁
    obtain ⟨second, h₂⟩ := h₁.append .payload stamp.epoch stamp.generation.value
      ⟨journal.nextSequence⟩ (frameBody kind payload)
    split
    next he₂ =>
      rw [he₂] at h₂
      exact ⟨first ++ second, List.append_assoc .. ▸ h₂⟩
    next he₂ =>
      rw [he₂] at h₂
      obtain ⟨third, h₃⟩ := h₂.append .commit stamp.epoch stamp.generation.value
        ⟨journal.nextSequence⟩ (commitBody kind (frameBody kind payload))
      refine ⟨first ++ (second ++ third), ?_⟩
      rw [← List.append_assoc, ← List.append_assoc]
      exact h₃

/-- A commit group stops at the first append that fails, with the records before it at the end of the
journal. -/
theorem appendGroup_cases {journal : Journal} {records : List JournalRecord} (h : Holds journal records)
    (kind : MutationKind) (payload : Bytes) (stamp : MutationStamp) :
    let n := journal.nextSequence
    (∃ status, appendGroup journal kind payload stamp = (journal, .error status)) ∨
    (∃ status after, appendGroup journal kind payload stamp = (after, .error status) ∧
      Holds after (records ++ [intentRecord kind stamp n]) ∧ after.nextSequence = n + 1) ∨
    (∃ status after, appendGroup journal kind payload stamp = (after, .error status) ∧
      Holds after (records ++ [intentRecord kind stamp n] ++ [payloadRecord kind payload stamp n]) ∧
      after.nextSequence = n + 1 + 1) ∨
    (∃ after, appendGroup journal kind payload stamp = (after, .ok ()) ∧
      Holds after (records ++ groupRecords kind payload stamp n) ∧
      after.nextSequence = n + 1 + 1 + 1 ∧ after.options = journal.options ∧
      after.isOpen = journal.isOpen) := by
  intro n
  unfold appendGroup
  dsimp only
  rcases Journal.append_cases h.kept .intent stamp.epoch stamp.generation.value ⟨n⟩
    (intentBody kind stamp) with ⟨status, he⟩ | ⟨he, hl₁, hs₁⟩
  · rw [he]
    exact .inl ⟨status, rfl⟩
  obtain ⟨j₁, he₁, h₁, hn₁, ho₁, hp₁⟩ : ∃ j₁, _ = (j₁, _) ∧
      Holds j₁ (records ++ [intentRecord kind stamp n]) ∧ j₁.nextSequence = n + 1 ∧
      j₁.options = journal.options ∧ j₁.isOpen = journal.isOpen :=
    ⟨_, he, h.keeping .intent stamp.epoch stamp.generation.value n ⟨n⟩ hl₁ hs₁, rfl, rfl, rfl⟩
  rw [he₁]
  dsimp only
  rcases Journal.append_cases h₁.kept .payload stamp.epoch stamp.generation.value ⟨n⟩
    (frameBody kind payload) with ⟨status, he⟩ | ⟨he, hl₂, hs₂⟩
  · rw [he]
    exact .inr (.inl ⟨status, j₁, rfl, h₁, hn₁⟩)
  obtain ⟨j₂, he₂, h₂, hn₂, ho₂, hp₂⟩ : ∃ j₂, _ = (j₂, _) ∧
      Holds j₂ (records ++ [intentRecord kind stamp n] ++ [payloadRecord kind payload stamp n]) ∧
      j₂.nextSequence = n + 1 + 1 ∧ j₂.options = journal.options ∧ j₂.isOpen = journal.isOpen := by
    refine ⟨_, he, ?_, congrArg (· + 1) hn₁, ho₁, hp₁⟩
    have hkept := h₁.keeping .payload stamp.epoch stamp.generation.value j₁.nextSequence ⟨n⟩ hl₂ hs₂
    rw [hn₁] at hkept
    rw [hn₁]
    exact hkept
  rw [he₂]
  dsimp only
  rcases Journal.append_cases h₂.kept .commit stamp.epoch stamp.generation.value ⟨n⟩
    (commitBody kind (frameBody kind payload)) with ⟨status, he⟩ | ⟨he, hl₃, hs₃⟩
  · rw [he]
    exact .inr (.inr (.inl ⟨status, j₂, rfl, h₂, hn₂⟩))
  · rw [he]
    refine .inr (.inr (.inr ⟨_, rfl, ?_, congrArg (· + 1) hn₂, ho₂, hp₂⟩))
    have hkept := h₂.keeping .commit stamp.epoch stamp.generation.value j₂.nextSequence ⟨n⟩ hl₃ hs₃
    rw [hn₂] at hkept
    rw [hn₂]
    rw [List.append_assoc, List.append_assoc] at hkept
    exact hkept

/-- A commit group fails, or puts its three records at the end of the journal. -/
theorem appendGroup_ok {journal journal' : Journal} {records : List JournalRecord}
    {kind : MutationKind} {payload : Bytes} {stamp : MutationStamp} (h : Holds journal records)
    (hok : appendGroup journal kind payload stamp = (journal', .ok ())) :
    Holds journal' (records ++ groupRecords kind payload stamp journal.nextSequence) ∧
      journal'.nextSequence = journal.nextSequence + 1 + 1 + 1 ∧
      journal'.options = journal.options ∧ journal'.isOpen = journal.isOpen := by
  rcases appendGroup_cases h kind payload stamp with ⟨_, he⟩ | ⟨_, _, he, _⟩ | ⟨_, _, he, _⟩ |
    ⟨after, he, hkept⟩
  · cases (Prod.mk.inj (hok.symm.trans he)).2
  · cases (Prod.mk.inj (hok.symm.trans he)).2
  · cases (Prod.mk.inj (hok.symm.trans he)).2
  · obtain ⟨rfl, _⟩ := Prod.mk.inj (hok.symm.trans he)
    exact hkept

end Store

end CongestionFabric
