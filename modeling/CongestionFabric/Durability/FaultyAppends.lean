import CongestionFabric.Durability.CrashRecovery

namespace CongestionFabric

/-- The flush fails with all these bytes in the file. -/
def DiskFate.keepsAll (length : Nat) : DiskFate → Bool
  | .shortFlush written => length ≤ written
  | .unflushed => true
  | .kept | .shortWrite _ => false

namespace Journal

variable {journal : Journal} {type : RecordType} {epoch : EpochId} {generation : UInt64}
  {transaction : TransactionId} {payload : Bytes}

/-- The append meets no failure that it reports. -/
def passes (journal : Journal) : DiskFate → Bool
  | .kept => true
  | .shortWrite _ => false
  | .shortFlush _ | .unflushed => !journal.options.syncOnAppend

/-- Replay does not read the file to its end. -/
def endsTorn (journal : Journal) : Bool :=
  journal.replay.toOption.all fun replay => replay.droppedBytes ≠ 0

/-- What an append does to a journal, of whose next appends it takes the first fate. -/
inductive Appended (journal : Journal) (record : JournalRecord) (fate : DiskFate)
    (rest : List DiskFate) : Journal × VoidResult → Prop where
  | refused (status : Status) : Appended journal record fate rest (journal, .error status)
  | cut (status : Status) (written : Nat) (hpart : written < record.encode.length)
      (hlen : record.payload.length ≤ journal.options.maxRecordBytes) :
      Appended journal record fate rest
        ({ journal with file := journal.file ++ record.encode.take written, fates := rest },
          .error status)
  | unflushed (status : Status) (written : Nat) (hfate : journal.passes fate = false)
      (hall : record.encode.length ≤ written → fate.keepsAll record.encode.length = true)
      (hlen : record.payload.length ≤ journal.options.maxRecordBytes)
      (hsize : journal.size + kRecordHeaderSize + record.payload.length ≤
        journal.options.maxJournalBytes) :
      Appended journal record fate rest
        ({ journal.keeping record with
            file := journal.file ++ record.encode.take written, fates := rest }, .error status)
  | kept (hfate : journal.passes fate = true)
      (hlen : record.payload.length ≤ journal.options.maxRecordBytes)
      (hsize : journal.size + kRecordHeaderSize + record.payload.length ≤
        journal.options.maxJournalBytes) :
      Appended journal record fate rest ({ journal.keeping record with fates := rest }, .ok ())

theorem encode_pos (record : JournalRecord) : 0 < record.encode.length := by
  rw [JournalRecord.encode, List.length_append, encodeHeader_length]
  exact Nat.lt_add_right _ (by decide)

theorem append_appended {fate : DiskFate} {rest : List DiskFate}
    (hf : journal.fates = fate :: rest) (type : RecordType) (epoch : EpochId) (generation : UInt64)
    (transaction : TransactionId) (payload : Bytes) :
    Appended journal (recordOf type epoch generation journal.nextSequence transaction payload) fate
      rest (journal.append type epoch generation transaction payload) := by
  have hpayload : (recordOf type epoch generation journal.nextSequence transaction
      payload).payload = payload := rfl
  generalize hrecord : recordOf type epoch generation journal.nextSequence transaction payload =
    record at hpayload
  unfold append
  rw [hrecord]
  split
  next => exact .refused _
  next =>
    split
    next => exact .refused _
    next =>
      split
      next => exact .refused _
      next hlen =>
        dsimp only
        split
        next => exact .refused _
        next hsize =>
          rw [← hpayload] at hlen hsize ⊢
          rw [hf, List.head?_cons, List.tail_cons]
          have hlen := Nat.not_lt.mp hlen
          have hsize := Nat.not_lt.mp hsize
          have hpos := encode_pos record
          cases fate with
          | kept => exact .kept rfl hlen hsize
          | shortWrite written =>
            refine .cut _ _ ?_ hlen
            omega
          | shortFlush written =>
            cases hsync : journal.options.syncOnAppend with
            | true =>
              exact .unflushed _ _ (by simp [passes, hsync]) (by simp [DiskFate.keepsAll]) hlen hsize
            | false => exact .kept (by simp [passes, hsync]) hlen hsize
          | unflushed =>
            cases hsync : journal.options.syncOnAppend with
            | true =>
              have hout := @Appended.unflushed journal record .unflushed rest
                ⟨.ioError, "flush to stable storage failed", ""⟩ record.encode.length
                (by simp [passes, hsync]) (fun _ => rfl) hlen hsize
              rw [List.take_length] at hout
              exact hout
            | false => exact .kept (by simp [passes, hsync]) hlen hsize

theorem append_ok {fate : DiskFate} {rest : List DiskFate} (hf : journal.fates = fate :: rest)
    {after : Journal} (h : journal.append type epoch generation transaction payload =
      (after, .ok ())) :
    journal.passes fate = true ∧ after.fates = rest ∧ after.options = journal.options := by
  have hout := append_appended hf type epoch generation transaction payload
  rw [h] at hout
  cases hout with
  | kept hfate => exact ⟨hfate, rfl, rfl⟩

theorem passes_congr {after : Journal} (h : after.options = journal.options) :
    after.passes = journal.passes := by
  funext fate
  cases fate with
  | shortFlush written => exact congrArg (fun options => !options.syncOnAppend) h
  | unflushed => exact congrArg (fun options => !options.syncOnAppend) h
  | _ => rfl

end Journal

/-- A commit with what the disk does to each of its three appends. -/
structure FaultyCommit where
  kind : MutationKind
  payload : Bytes
  stamp : MutationStamp := {}
  onIntent : DiskFate := .kept
  onPayload : DiskFate := .kept
  onCommit : DiskFate := .kept

def FaultyCommit.fates (c : FaultyCommit) : List DiskFate := [c.onIntent, c.onPayload, c.onCommit]

namespace Store

variable {journal : Journal} {records : List JournalRecord} {record : JournalRecord}
  {fate : DiskFate} {rest : List DiskFate} {c : FaultyCommit}

/-! ### One append -/

/-- A journal of whole records, which counts at least their bytes: a flush that fails leaves more
counted than there is. -/
structure Counts (journal : Journal) (records : List JournalRecord) : Prop where
  recordBound : journal.options.maxRecordBytes = limits.kMaxJournalRecordBytes
  journalBound : journal.options.maxJournalBytes = limits.kMaxJournalBytes
  file : journal.file = logOf JournalRecord.encode records
  size : journal.file.length ≤ journal.size
  fits : journal.size ≤ limits.kMaxJournalBytes
  numbered : journal.nextSequence.toNat ≤ journal.size + 1
  whole : ∀ record ∈ records, Sealed limits.kMaxJournalRecordBytes record

theorem Counts.room (h : Counts journal records) : journal.nextSequence.toNat + 3 < 2 ^ 64 := by
  have hnumbered := h.numbered
  have hfits := h.fits
  have hmax : limits.kMaxJournalBytes + 5 < 2 ^ 64 := by decide
  omega

/-- What the disk will do is no part of what is counted. -/
theorem Counts.meeting (h : Counts journal records) (fates : List DiskFate) :
    Counts { journal with fates } records :=
  ⟨h.recordBound, h.journalBound, h.file, h.size, h.fits, h.numbered, h.whole⟩

/-- Bytes after the records that are no whole record are dropped by replay. -/
theorem Counts.endsTorn (h : Counts journal records) {after : Journal}
    (hoptions : after.options = journal.options)
    {part : Bytes} (hfile : after.file = journal.file ++ part) (hpart : part ≠ [])
    (htorn : TornTail JournalRecord.encode (Sealed limits.kMaxJournalRecordBytes) part) :
    after.endsTorn = true := by
  obtain ⟨why, hscan⟩ := Scan.run_logOf_torn Journal.framing h.whole htorn hpart
  rw [← h.file, ← hfile] at hscan
  unfold Journal.endsTorn Journal.replay
  rw [hoptions, h.recordBound, hscan]
  split_ifs
  · rfl
  · simp [Except.toOption, hpart]

/-- Whole records after the others. -/
theorem Counts.extend (h : Counts journal records) (after : Journal)
    (hoptions : after.options = journal.options) {part : Bytes} (hfile : after.file = journal.file ++ part)
    (hsize : journal.size + part.length ≤ after.size) (hfits : after.size ≤ limits.kMaxJournalBytes)
    (hnumbered : after.nextSequence.toNat ≤ after.size + 1) (written : List JournalRecord)
    (hpart : part = logOf JournalRecord.encode written)
    (hwhole : ∀ record ∈ written, Sealed limits.kMaxJournalRecordBytes record) :
    Counts after (records ++ written) where
  recordBound := hoptions ▸ h.recordBound
  journalBound := hoptions ▸ h.journalBound
  file := by rw [hfile, hpart, h.file, logOf_append]
  size := by
    have hsize₀ := h.size
    rw [hfile, List.length_append]
    omega
  fits := hfits
  numbered := hnumbered
  whole := fun record hr => (List.mem_append.mp hr).elim (h.whole record) (hwhole record)

/-- An append that failed in the middle leaves nothing of its record, or a tear. -/
theorem Counts.part (h : Counts journal records) (after : Journal)
    (hoptions : after.options = journal.options) {written : Nat} (hfile : after.file = journal.file ++ record.encode.take written)
    (hpart : written < record.encode.length)
    (hsealed : Sealed limits.kMaxJournalRecordBytes record) (hsize : journal.size ≤ after.size)
    (hfits : after.size ≤ limits.kMaxJournalBytes)
    (hnumbered : after.nextSequence.toNat ≤ after.size + 1) :
    Counts after records ∨ after.endsTorn = true := by
  by_cases hnone : record.encode.take written = []
  · left
    rw [hnone] at hfile
    have hcounts := h.extend after hoptions hfile hsize hfits hnumbered [] rfl (by simp)
    rwa [List.append_nil] at hcounts
  · right
    refine h.endsTorn hoptions hfile hnone (.inr ⟨record, hsealed, List.take_prefix _ _, ?_⟩)
    intro hsame
    have hlength := congrArg List.length hsame
    rw [List.length_take] at hlength
    omega

/-- What an append does to a journal of whole records. -/
inductive Outcome (journal : Journal) (records : List JournalRecord) (record : JournalRecord)
    (fate : DiskFate) (rest : List DiskFate) : Journal × VoidResult → Prop where
  | nothing {after : Journal} (status : Status) (counts : Counts after records)
      (next : journal.nextSequence.toNat ≤ after.nextSequence.toNat) :
      Outcome journal records record fate rest (after, .error status)
  | torn {after : Journal} (status : Status) (torn : after.endsTorn = true) :
      Outcome journal records record fate rest (after, .error status)
  | unflushed {after : Journal} (status : Status) (hfails : journal.passes fate = false)
      (hall : fate.keepsAll record.encode.length = true) (counts : Counts after (records ++ [record]))
      (next : journal.nextSequence.toNat + 1 ≤ after.nextSequence.toNat) :
      Outcome journal records record fate rest (after, .error status)
  | kept {after : Journal} (hfate : journal.passes fate = true)
      (counts : Counts after (records ++ [record]))
      (next : after.nextSequence = journal.nextSequence + 1) (fates : after.fates = rest)
      (options : after.options = journal.options) :
      Outcome journal records record fate rest (after, .ok ())

theorem Counts.outcome (h : Counts journal records) (hf : journal.fates = fate :: rest)
    (type : RecordType) (epoch : EpochId) (generation : UInt64) (transaction : TransactionId)
    (payload : Bytes) :
    Outcome journal records
      (Journal.recordOf type epoch generation journal.nextSequence transaction payload) fate rest
      (journal.append type epoch generation transaction payload) := by
  have hout := Journal.append_appended hf type epoch generation transaction payload
  have hsealed : payload.length ≤ limits.kMaxJournalRecordBytes →
      Sealed limits.kMaxJournalRecordBytes
        (Journal.recordOf type epoch generation journal.nextSequence transaction payload) :=
    recordOf_sealed (by decide)
  have hpayload : (Journal.recordOf type epoch generation journal.nextSequence transaction
      payload).payload = payload := rfl
  generalize Journal.recordOf type epoch generation journal.nextSequence transaction payload =
    record at hout hsealed hpayload ⊢
  generalize journal.append type epoch generation transaction payload = out at hout
  rw [← hpayload] at hsealed
  have hencode : record.encode.length = kRecordHeaderSize + record.payload.length := by
    rw [JournalRecord.encode, List.length_append, encodeHeader_length]
  have hrecord := h.recordBound
  have hjournal := h.journalBound
  have hnumbered := h.numbered
  have hfits := h.fits
  obtain ⟨hnext, _, _⟩ := toNat_next h.room
  have hgrows : journal.size + record.encode.length ≤ (journal.keeping record).size := by
    rw [hencode, ← Nat.add_assoc]
    exact le_refl _
  have hcounted : (journal.keeping record).nextSequence.toNat ≤
      (journal.keeping record).size + 1 := by
    have hpos := Journal.encode_pos record
    show (journal.nextSequence + 1).toNat ≤ _
    omega
  have hkeeping : record.payload.length ≤ limits.kMaxJournalRecordBytes →
      journal.size + kRecordHeaderSize + record.payload.length ≤ journal.options.maxJournalBytes →
      Counts (journal.keeping record) (records ++ [record]) := fun hlen hsize =>
    h.extend (journal.keeping record) rfl rfl hgrows (hjournal ▸ hsize) hcounted [record] (by simp)
      (by simpa using hsealed hlen)
  cases hout with
  | refused status => exact .nothing status h (le_refl _)
  | cut status written hpart hlen =>
    rw [hrecord] at hlen
    rcases h.part { journal with file := journal.file ++ record.encode.take written, fates := rest }
        rfl rfl hpart (hsealed hlen) (le_refl _) hfits hnumbered with hcounts | htorn
    · exact .nothing status hcounts (le_refl _)
    · exact .torn status htorn
  | unflushed status written hfate hall hlen hsize =>
    rw [hrecord] at hlen
    by_cases hpart : written < record.encode.length
    · rcases h.part { journal.keeping record with
          file := journal.file ++ record.encode.take written, fates := rest } rfl rfl hpart
          (hsealed hlen) (hgrows.trans' (Nat.le_add_right _ _)) (hjournal ▸ hsize) hcounted with
        hcounts | htorn
      · exact .nothing status hcounts (hnext ▸ Nat.le_succ _)
      · exact .torn status htorn
    · have hwhole := Nat.not_lt.mp hpart
      refine .unflushed status hfate (hall hwhole) ?_ (le_of_eq hnext.symm)
      rw [List.take_of_length_le hwhole]
      exact (hkeeping hlen hsize).meeting rest
  | kept hfate hlen hsize =>
    rw [hrecord] at hlen
    exact .kept hfate ((hkeeping hlen hsize).meeting rest) rfl rfl rfl

/-! ### A commit group -/

/-- No append of the commit meets a failure that it reports. -/
def passesAll (journal : Journal) (c : FaultyCommit) : Prop :=
  journal.passes c.onIntent = true ∧ journal.passes c.onPayload = true ∧
    journal.passes c.onCommit = true

/-- The commit record is in the file and its append is reported as failed. -/
def sealsUnflushed (journal : Journal) (c : FaultyCommit) : Prop :=
  journal.passes c.onIntent = true ∧ journal.passes c.onPayload = true ∧
    journal.passes c.onCommit = false ∧
    c.onCommit.keepsAll
      (commitRecord c.kind c.payload c.stamp journal.nextSequence).encode.length = true

/-- What a commit group does to a journal of whole records. -/
inductive Grouped (journal : Journal) (records : List JournalRecord) (c : FaultyCommit) :
    Journal × VoidResult → Prop where
  | stopped {after : Journal} {written : List JournalRecord} (status : Status)
      (hfront : written = [] ∨ written = [intentRecord c.kind c.stamp journal.nextSequence] ∨
        written = [intentRecord c.kind c.stamp journal.nextSequence,
          payloadRecord c.kind c.payload c.stamp journal.nextSequence])
      (counts : Counts after (records ++ written))
      (next : journal.nextSequence.toNat ≤ after.nextSequence.toNat) :
      Grouped journal records c (after, .error status)
  | torn {after : Journal} (status : Status) (torn : after.endsTorn = true) :
      Grouped journal records c (after, .error status)
  | unflushed {after : Journal} (status : Status) (hseals : sealsUnflushed journal c) :
      Grouped journal records c (after, .error status)
  | done {after : Journal} (hpasses : passesAll journal c)
      (counts : Counts after
        (records ++ groupRecords c.kind c.payload c.stamp journal.nextSequence))
      (next : after.nextSequence = journal.nextSequence + 1 + 1 + 1) :
      Grouped journal records c (after, .ok ())

theorem Counts.grouped (h : Counts journal records) (hf : journal.fates = c.fates) :
    Grouped journal records c (Store.appendGroup journal c.kind c.payload c.stamp) := by
  obtain ⟨hone, htwo, _⟩ := toNat_next h.room
  unfold Store.appendGroup
  dsimp only
  have h₁ := h.outcome hf .intent c.stamp.epoch c.stamp.generation.value ⟨journal.nextSequence⟩
    (intentBody c.kind c.stamp)
  generalize journal.append .intent _ _ _ _ = out₁ at h₁
  cases h₁ with
  | nothing status counts next =>
    exact .stopped status (.inl rfl) (by rwa [List.append_nil]) next
  | torn status torn => exact .torn status torn
  | unflushed status _ _ counts next =>
    exact .stopped status (.inr (.inl rfl)) counts ((Nat.le_succ _).trans next)
  | @kept j₁ hpass₁ counts₁ next₁ fates₁ options₁ =>
    have h₂ := counts₁.outcome fates₁ .payload c.stamp.epoch c.stamp.generation.value
      ⟨journal.nextSequence⟩ (frameBody c.kind c.payload)
    have hnext₁ := congrArg UInt64.toNat next₁
    rw [next₁] at h₂
    dsimp only
    generalize j₁.append .payload _ _ _ _ = out₂ at h₂
    cases h₂ with
    | nothing status counts next => exact .stopped status (.inr (.inl rfl)) counts (by omega)
    | torn status torn => exact .torn status torn
    | unflushed status _ _ counts next =>
      rw [List.append_assoc] at counts
      exact .stopped status (.inr (.inr rfl)) counts (by omega)
    | @kept j₂ hpass₂ counts₂ next₂ fates₂ options₂ =>
      rw [List.append_assoc] at counts₂
      rw [next₁] at next₂
      have h₃ := counts₂.outcome fates₂ .commit c.stamp.epoch c.stamp.generation.value
        ⟨journal.nextSequence⟩ (commitBody c.kind (frameBody c.kind c.payload))
      have hoptions : j₂.options = journal.options := options₂.trans options₁
      have hnext₂ := congrArg UInt64.toNat next₂
      rw [Journal.passes_congr options₁] at hpass₂
      rw [next₂] at h₃
      dsimp only
      generalize j₂.append .commit _ _ _ _ = out₃ at h₃
      cases h₃ with
      | nothing status counts next => exact .stopped status (.inr (.inr rfl)) counts (by omega)
      | torn status torn => exact .torn status torn
      | unflushed status hfails hall =>
        rw [Journal.passes_congr hoptions] at hfails
        exact .unflushed status ⟨hpass₁, hpass₂, hfails, hall⟩
      | kept hpass₃ counts₃ next₃ =>
        rw [Journal.passes_congr hoptions] at hpass₃
        rw [List.append_assoc] at counts₃
        rw [next₂] at next₃
        exact .done ⟨hpass₁, hpass₂, hpass₃⟩ counts₃ next₃

/-- A group succeeds only when no append fails. -/
theorem appendGroup_passes (hf : journal.fates = c.fates)
    (hok : (appendGroup journal c.kind c.payload c.stamp).2 = .ok ()) : passesAll journal c := by
  unfold appendGroup at hok
  dsimp only at hok
  split at hok
  next => cases hok
  next j₁ _ he =>
    obtain ⟨hpass₁, fates₁, options₁⟩ := Journal.append_ok hf he
    split at hok
    next => cases hok
    next j₂ _ he₂ =>
      obtain ⟨hpass₂, fates₂, options₂⟩ := Journal.append_ok fates₁ he₂
      obtain ⟨hpass₃, _, _⟩ := Journal.append_ok fates₂ (Prod.ext rfl hok)
      rw [Journal.passes_congr options₁] at hpass₂
      rw [Journal.passes_congr (options₂.trans options₁)] at hpass₃
      exact ⟨hpass₁, hpass₂, hpass₃⟩

/-! ### Replaying what a commit left -/

theorem replay_front (hk : c.kind.named = true) {r : Recovery} {n : UInt64}
    (hbehind : r.document.lastSequence < n) (hroom : n.toNat + 3 < 2 ^ 64) :
    let r₁ := replayRecord r (intentRecord c.kind c.stamp n)
    let r₂ := replayRecord r₁ (payloadRecord c.kind c.payload c.stamp n)
    r₁.document = r.document ∧ r₂.document = r.document ∧
      (r₂.pending.find? ⟨n⟩).bind (·.payload) = some (frameBody c.kind c.payload) := by
  intro r₁ r₂
  obtain ⟨hone, _, _⟩ := toNat_next hroom
  have hbehind' := UInt64.lt_iff_toNat_lt.mp hbehind
  have hdocument₁ : r₁.document = r.document := (replay_intent c.stamp hk hbehind).1
  have hnext : r₁.document.lastSequence < n + 1 := by
    rw [hdocument₁, UInt64.lt_iff_toNat_lt]
    omega
  obtain ⟨hdocument₂, slot, hslot, hpending⟩ : r₂.document = r₁.document ∧
      ∃ slot : PendingTransaction, slot.payload = some (frameBody c.kind c.payload) ∧
        r₂.pending = r₁.pending.insert ⟨n⟩ slot := replay_payload hnext
  refine ⟨hdocument₁, hdocument₂.trans hdocument₁, ?_⟩
  rw [hpending, SortedMap.find?_insert_self]
  exact hslot

/-- A whole group commits its mutation, whatever is pending. -/
theorem replay_whole (hk : c.kind.named = true) {r : Recovery} {n : UInt64}
    (hbehind : r.document.lastSequence < n) (hroom : n.toNat + 3 < 2 ^ 64)
    {document : DurableDocument} (hd : r.document.apply c.kind c.payload = .ok document) :
    ((groupRecords c.kind c.payload c.stamp n).foldl replayRecord r).document =
      { document with lastSequence := n + 1 + 1 } := by
  obtain ⟨_, htwo, _⟩ := toNat_next hroom
  obtain ⟨_, hdocument, hwaits⟩ := replay_front hk hbehind hroom
  have hbehind' := UInt64.lt_iff_toNat_lt.mp hbehind
  unfold groupRecords
  rw [List.foldl_cons, List.foldl_cons, List.foldl_cons, List.foldl_nil]
  refine (replay_commit hk ?_ hwaits ?_).1
  · rw [hdocument, UInt64.lt_iff_toNat_lt]
    omega
  · rw [hdocument]
    exact hd

end Store

/-- A process that goes on after commits that fail: its store, the mutations whose commit returned
success, whether the last commit did, and whether one that failed has left a part of a record at the
end of the file. -/
structure Persevering where
  store : Store
  durable : List (MutationKind × Bytes) := []
  succeeded : Bool := false
  torn : Bool := false

namespace Persevering

/-- The store with the disk as the commit will find it. -/
def facing (w : Persevering) (c : FaultyCommit) : Store :=
  { w.store with journal := { w.store.journal with fates := c.fates } }

def commit (w : Persevering) (c : FaultyCommit) : Persevering :=
  match (w.facing c).commit c.kind c.payload c.stamp with
  | (store, .ok _) => ⟨store, w.durable ++ [(c.kind, c.payload)], true, w.torn⟩
  | (store, .error _) => ⟨store, w.durable, false, w.torn || store.journal.endsTorn⟩

/-- The commit record is not left behind by an append that is reported as failed, and a commit that
nothing stops comes after none that has torn the file. -/
structure Sheltered (w : Persevering) (c : FaultyCommit) : Prop where
  sealed : w.store.admitMutation c.kind c.payload = .ok () →
    ¬ Store.sealsUnflushed w.store.journal c
  even : w.store.admitMutation c.kind c.payload = .ok () → Store.passesAll w.store.journal c →
    w.torn = false

/-- Any open of the directory succeeds, with the fold of the past mutations and of those whose commit
returned success, and the unfinished attempts besides. -/
def Recovers (past : List (MutationKind × Bytes)) (w : Persevering) : Prop :=
  ∀ options, ∃ opened folded found,
    Store.openDisk w.store.disk options = .ok opened ∧
    ({} : DurableDocument).applyAll (past ++ w.durable) = .ok folded ∧
    opened.document = { folded with
      lastSequence := opened.document.lastSequence
      attempts := folded.attempts ++ found } ∧
    ∀ attempt ∈ found, attempt.state = .ambiguous

variable {past : List (MutationKind × Bytes)} {w : Persevering} {c : FaultyCommit}
  {records : List JournalRecord}

/-- The journal holds whole records whose replay is the fold of the mutations reported durable. -/
structure Kept (past : List (MutationKind × Bytes)) (w : Persevering)
    (records : List JournalRecord) : Prop where
  counts : Store.Counts w.store.journal records
  snapshot : w.store.snapshot = none
  folds : ∃ folded, ({} : DurableDocument).applyAll (past ++ w.durable) = .ok folded ∧
    (Store.replayFrom {} records).document =
      { folded with lastSequence := (Store.replayFrom {} records).document.lastSequence }
  behind : (Store.replayFrom {} records).document.lastSequence < w.store.journal.nextSequence

theorem Kept.recovers (h : Kept past w records) : Recovers past w := by
  intro options
  obtain ⟨folded, hfolded, hreplay⟩ := h.folds
  have hload : Store.loadSnapshot w.store.disk.snapshot options = .ok ({}, {}) := by
    have hnone : w.store.disk.snapshot = none := h.snapshot
    rw [hnone]
    rfl
  have hfile : w.store.disk.journal = some (logOf JournalRecord.encode records ++ []) := by
    rw [List.append_nil]
    exact congrArg some h.counts.file
  have hfit : (logOf JournalRecord.encode records ++ []).length ≤ limits.kMaxJournalBytes := by
    rw [List.append_nil, ← h.counts.file]
    exact h.counts.size.trans h.counts.fits
  obtain ⟨opened, hopen, _, hdocument, _⟩ :=
    Store.openDisk_torn hload hfile hfit h.counts.whole (.inl rfl) (.inl rfl) (.inl rfl)
  refine ⟨opened, folded, _, hopen, hfolded, ?_,
    Store.ambiguousAttempts_state (Store.replayFrom {} records)⟩
  rw [hdocument]
  simp only [Store.retainAmbiguous]
  rw [hreplay]

theorem replayFrom_append (base : DurableDocument) (records written : List JournalRecord) :
    Store.replayFrom base (records ++ written) =
      written.foldl Store.replayRecord (Store.replayFrom base records) := List.foldl_append

/-- Records of a group that stopped change nothing that replay has rebuilt. -/
theorem Kept.stopped (h : Kept past w records) (hk : c.kind.named = true)
    {written : List JournalRecord} (hfront : written = [] ∨
      written = [Store.intentRecord c.kind c.stamp w.store.journal.nextSequence] ∨
      written = [Store.intentRecord c.kind c.stamp w.store.journal.nextSequence,
        Store.payloadRecord c.kind c.payload c.stamp w.store.journal.nextSequence]) :
    (Store.replayFrom {} (records ++ written)).document = (Store.replayFrom {} records).document := by
  obtain ⟨hintent, hpayload, _⟩ := Store.replay_front hk h.behind h.counts.room
  rw [replayFrom_append]
  rcases hfront with rfl | rfl | rfl
  · rfl
  · exact hintent
  · exact hpayload

/-- A whole group folds its mutation onto what replay has rebuilt. -/
theorem Kept.done (h : Kept past w records) (hk : c.kind.named = true)
    (hvalid : validateBody c.kind c.payload = .ok ()) :
    let n := w.store.journal.nextSequence
    let replayed := Store.replayFrom {} (records ++ Store.groupRecords c.kind c.payload c.stamp n)
    (∃ folded, ({} : DurableDocument).applyAll (past ++ (w.durable ++ [(c.kind, c.payload)])) =
        .ok folded ∧
      replayed.document = { folded with lastSequence := replayed.document.lastSequence }) ∧
    replayed.document.lastSequence = n + 1 + 1 := by
  intro n replayed
  obtain ⟨folded, hfold, hreplay⟩ := h.folds
  obtain ⟨after, happly⟩ := DurableDocument.apply_of_validateBody hvalid folded
  have happly' : (Store.replayFrom {} records).document.apply c.kind c.payload = .ok { after with
      lastSequence := (Store.replayFrom {} records).document.lastSequence } := by
    rw [hreplay]
    exact DurableDocument.apply_lastSequence happly _
  have hdocument : replayed.document = { after with lastSequence := n + 1 + 1 } := by
    show (Store.replayFrom {} (records ++ _)).document = _
    have hwhole := Store.replay_whole hk h.behind h.counts.room happly'
    rw [replayFrom_append]
    exact hwhole
  refine ⟨⟨after, ?_, by rw [hdocument]⟩, by rw [hdocument]⟩
  rw [← List.append_assoc, DurableDocument.applyAll, List.foldlM_append]
  exact bind_ok.mpr ⟨folded, hfold, bind_ok.mpr ⟨after, happly, rfl⟩⟩

/-- A commit over whole records leaves whole records, or fails and leaves a tear that is noted. -/
theorem Kept.commit (h : Kept past w records) (hs : Sheltered w c) :
    (∃ records', Kept past (w.commit c) records') ∨
      (w.commit c).torn = true ∧ (w.commit c).succeeded = false := by
  have hgrouped := Store.Counts.grouped (h.counts.meeting c.fates) rfl
  have hadmits : (w.facing c).admitMutation c.kind c.payload =
    w.store.admitMutation c.kind c.payload := rfl
  have hbehind := UInt64.lt_iff_toNat_lt.mp h.behind
  unfold Persevering.commit Store.commit
  cases hadmit : (w.facing c).admitMutation c.kind c.payload with
  | error status =>
    exact .inl ⟨records, h.counts.meeting c.fates, h.snapshot, h.folds, h.behind⟩
  | ok _ =>
    rw [hadmits] at hadmit
    obtain ⟨_, hkind, hvalid⟩ := Store.admitMutation_ok hadmit
    dsimp only
    change Store.Grouped (w.facing c).journal records c
      (Store.appendGroup (w.facing c).journal c.kind c.payload c.stamp) at hgrouped
    generalize Store.appendGroup (w.facing c).journal c.kind c.payload c.stamp = out at hgrouped
    cases hgrouped with
    | @stopped after written status hfront counts next =>
      have hsame := h.stopped hkind hfront
      have hnext : w.store.journal.nextSequence.toNat ≤ after.nextSequence.toNat := next
      refine .inl ⟨_, counts, h.snapshot, hsame ▸ h.folds, ?_⟩
      rw [hsame]
      show _ < after.nextSequence
      exact UInt64.lt_iff_toNat_lt.mpr (by omega)
    | torn status torn => exact .inr ⟨by simp [torn], rfl⟩
    | unflushed status hseals => exact absurd hseals (hs.sealed hadmit)
    | @done after hpasses counts next =>
      obtain ⟨document, happly⟩ := DurableDocument.apply_of_validateBody hvalid (w.facing c).document
      obtain ⟨hfolds, hlast⟩ := h.done hkind hvalid
      obtain ⟨_, htwo, hthree⟩ := Store.toNat_next h.counts.room
      have hnext : after.nextSequence = w.store.journal.nextSequence + 1 + 1 + 1 := next
      dsimp only
      rw [happly]
      refine .inl ⟨_, counts, h.snapshot, hfolds, ?_⟩
      show (Store.replayFrom {} (records ++ Store.groupRecords c.kind c.payload c.stamp
        w.store.journal.nextSequence)).document.lastSequence < after.nextSequence
      rw [hlast, hnext]
      exact UInt64.lt_iff_toNat_lt.mpr (by omega)

/-- After a tear no sheltered commit succeeds. -/
theorem torn_commit (htorn : w.torn = true) (hs : Sheltered w c) :
    (w.commit c).torn = true ∧ (w.commit c).succeeded = false := by
  have hadmits : (w.facing c).admitMutation c.kind c.payload =
    w.store.admitMutation c.kind c.payload := rfl
  unfold Persevering.commit Store.commit
  cases hadmit : (w.facing c).admitMutation c.kind c.payload with
  | error status => exact ⟨by simp [htorn], rfl⟩
  | ok _ =>
    dsimp only
    cases hgroup : Store.appendGroup (w.facing c).journal c.kind c.payload c.stamp with
    | mk after result =>
      cases result with
      | error status => exact ⟨by simp [htorn], rfl⟩
      | ok _ =>
        have hpasses : Store.passesAll (w.facing c).journal c :=
          Store.appendGroup_passes rfl (congrArg Prod.snd hgroup)
        rw [hs.even (hadmits ▸ hadmit) hpasses] at htorn
        cases htorn

/-- A store that commits and crashes built up holds whole records. -/
theorem Kept.start {past : Logged} (h : past.Sound) :
    Kept past.ledger.committed ⟨past.store, [], false, false⟩ past.ledger.records := by
  have hposition := h.whole.position
  have hlength := h.length_lt
  have hone : (1 : UInt64).toNat = 1 := rfl
  have hnext : past.store.journal.nextSequence.toNat =
      (Store.replayFrom {} past.ledger.records).document.lastSequence.toNat + 1 := by
    rw [h.resumes, UInt64.toNat_add, hone, Nat.mod_eq_of_lt (by omega)]
  constructor
  · refine ⟨h.holds.recordBound, h.holds.journalBound, h.holds.file, le_of_eq h.holds.size.symm,
      h.holds.fits, ?_, h.holds.whole⟩
    have hbytes := h.holds.length_le_size
    have hrecords : past.ledger.records.length = past.ledger.length := List.length_map _
    show past.store.journal.nextSequence.toNat ≤ past.store.journal.size + 1
    omega
  · exact h.snapshot
  · rw [List.append_nil]
    exact h.whole.folds
  · show _ < past.store.journal.nextSequence
    exact UInt64.lt_iff_toNat_lt.mpr (by omega)

def Step (w : Persevering) (c : FaultyCommit) (w' : Persevering) : Prop := w.commit c = w'

/-- Whole records, or a tear after which no commit has succeeded. -/
def KeptOrTorn (past : List (MutationKind × Bytes)) (w : Persevering) : Prop :=
  (∃ records, Kept past w records) ∨ w.torn = true ∧ w.succeeded = false

theorem KeptOrTorn.step (h : KeptOrTorn past w) (hs : Sheltered w c) :
    KeptOrTorn past (w.commit c) := by
  rcases h with ⟨records, hkept⟩ | ⟨htorn, _⟩
  · exact hkept.commit hs
  · exact .inr (torn_commit htorn hs)

variable {options : StoreOptions} {store : Store} {before : List (Event Logged Move)}
  {built : Logged} {es : List (Event Persevering FaultyCommit)}

/-- In a run of commits of which some appends fail, each of them sheltered, the directory opens after
every commit that succeeds, with exactly the mutations whose commit returned success. -/
theorem sheltered_faults_lose_nothing (hwritable : options.readOnly = false)
    (hopen : Store.openDisk {} options = .ok store)
    (hbuilt : Run Logged.Step ⟨store, []⟩ before built)
    (run : Run Step ⟨built.store, [], false, false⟩ es w)
    (hsheltered : ∀ e ∈ es, Sheltered e.before e.input) (hsucceeded : w.succeeded = true) :
    Recovers built.ledger.committed w := by
  have hsound : built.Sound := hbuilt.invariant (Logged.Sound.start hwritable hopen)
    fun _ _ _ hs hstep => hs.step hstep
  have hfinal : KeptOrTorn built.ledger.committed w := by
    apply (run.guarded hsheltered).invariant (.inl ⟨_, Kept.start hsound⟩)
    intro s c s' hs hstep
    obtain ⟨rfl, hshelter⟩ := hstep
    exact hs.step hshelter
  rcases hfinal with ⟨records, hkept⟩ | ⟨_, hfailed⟩
  · exact hkept.recovers
  · rw [hfailed] at hsucceeded
    cases hsucceeded

/-- An epoch advance. -/
def advanceTo (epoch : UInt64) (onIntent onPayload : DiskFate) : FaultyCommit where
  kind := .epochAdvance
  payload := ByteWriter.u64 epoch ++ ByteWriter.u64 1 ++ ByteWriter.u64 epoch
  stamp := { epoch := ⟨epoch⟩ }
  onIntent := onIntent
  onPayload := onPayload

/-- The first intent is cut after ten bytes, and the next commit returns success. -/
def cutIntent : List FaultyCommit := [advanceTo 1 (.shortWrite 10) .kept, advanceTo 2 .kept .kept]

/-- The first payload is not written at all, nothing of the second intent stays when it is flushed,
and the next commit returns success. -/
def missingPayload : List FaultyCommit :=
  [advanceTo 1 .kept (.shortWrite 0), advanceTo 2 (.shortFlush 0) .kept, advanceTo 3 .kept .kept]

def fresh : Persevering := ⟨.fresh, [], false, false⟩

set_option maxRecDepth 100000 in
theorem cutIntent_unreadable :
    (cutIntent.foldl commit fresh).succeeded = true ∧
      (Store.openDisk (cutIntent.foldl commit fresh).store.disk {}).isOk = false := by
  decide +kernel

/-- What a failed append left makes the directory of a later success unreadable. -/
theorem cut_append_loses : ¬ ∀ (es : List (Event Persevering FaultyCommit)) (w : Persevering),
    Run Step fresh es w → w.succeeded = true → Recovers [] w := by
  intro h
  obtain ⟨hsucceeded, hunreadable⟩ := cutIntent_unreadable
  have run := Run.of_events commit fresh cutIntent
  obtain ⟨opened, _, _, hopen, _⟩ := h _ _ run hsucceeded {}
  rw [hopen] at hunreadable
  cases hunreadable

set_option maxRecDepth 100000 in
theorem missingPayload_sheltered :
    (∀ e ∈ events commit fresh missingPayload, e.input.onCommit = .kept ∧ e.before.torn = false) ∧
    (missingPayload.foldl commit fresh).succeeded = true ∧
    (missingPayload.foldl commit fresh).durable.length = 1 ∧
    (missingPayload.foldl commit fresh).store.journal.file.length + 82 =
      (missingPayload.foldl commit fresh).store.journal.size := by
  decide +kernel

/-- Of three commits only the last returns success, and the journal counts an intent that is not in
the file. -/
theorem sheltered_faults_missing_payload :
    Recovers [] (missingPayload.foldl commit fresh) ∧
      (missingPayload.foldl commit fresh).durable.length = 1 ∧
      (missingPayload.foldl commit fresh).store.journal.file.length + 82 =
        (missingPayload.foldl commit fresh).store.journal.size := by
  obtain ⟨hevents, hsucceeded, hcounted⟩ := missingPayload_sheltered
  have run := Run.of_events commit fresh missingPayload
  refine ⟨sheltered_faults_lose_nothing rfl Store.openDisk_fresh .start run ?_ hsucceeded, hcounted⟩
  intro e he
  obtain ⟨hcommit, heven⟩ := hevents e he
  refine ⟨fun _ hseals => ?_, fun _ _ => heven⟩
  rw [Store.sealsUnflushed, hcommit] at hseals
  cases hseals.2.2.1

end Persevering

end CongestionFabric
