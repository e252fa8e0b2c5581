import CongestionFabric.Durability.CommitGroup
import CongestionFabric.Durability.Damage

namespace CongestionFabric

/-- One call of `Journal::append`. -/
structure Append where
  type : RecordType
  epoch : EpochId
  generation : UInt64
  transaction : TransactionId
  payload : Bytes

namespace Journal

/-- The appends of a caller that stops at the first one refused. -/
def appendAll : Journal → List Append → Journal × VoidResult
  | journal, [] => (journal, succeed)
  | journal, entry :: rest =>
    match journal.append entry.type entry.epoch entry.generation entry.transaction
      entry.payload with
    | (journal, .ok _) => journal.appendAll rest
    | (journal, .error status) => (journal, .error status)

/-- The records of appends that begin at a sequence. -/
def recordsFrom : UInt64 → List Append → List JournalRecord
  | _, [] => []
  | sequence, entry :: rest =>
    recordOf entry.type entry.epoch entry.generation sequence entry.transaction entry.payload ::
      recordsFrom (sequence + 1) rest

variable {journal journal' : Journal} {options : JournalOptions} {appends : List Append}

/-- Every append taken is a sealed record at the end of the file. -/
theorem appendAll_ok (hf : journal.fates = []) (hopen : journal.options = options)
    (hfits : journal.file.length = journal.size ∧ journal.size ≤ options.maxJournalBytes)
    (hwidth : ∀ entry ∈ appends, entry.payload.length < 2 ^ 32)
    (h : journal.appendAll appends = (journal', .ok ())) :
    journal'.file = journal.file ++
        logOf JournalRecord.encode (recordsFrom journal.nextSequence appends) ∧
      (∀ record ∈ recordsFrom journal.nextSequence appends,
        Sealed options.maxRecordBytes record) ∧
      journal'.file.length ≤ options.maxJournalBytes := by
  induction appends generalizing journal with
  | nil =>
    have hsame : journal = journal' := congrArg Prod.fst h
    subst hsame
    refine ⟨?_, fun _ hr => absurd hr List.not_mem_nil, ?_⟩
    · rw [recordsFrom, logOf_nil, List.append_nil]
    · omega
  | cons entry rest ih =>
    rw [appendAll] at h
    rcases append_cases hf entry.type entry.epoch entry.generation entry.transaction
      entry.payload with ⟨status, herror⟩ | ⟨hkept, hlen, hsize⟩
    · rw [herror] at h
      cases congrArg Prod.snd h
    · rw [hkept] at h
      rw [hopen] at hlen hsize
      have hentry := hwidth entry List.mem_cons_self
      have hown : Sealed entry.payload.length (recordOf entry.type entry.epoch entry.generation
        journal.nextSequence entry.transaction entry.payload) := recordOf_sealed hentry (le_refl _)
      have hpayload : (recordOf entry.type entry.epoch entry.generation journal.nextSequence
        entry.transaction entry.payload).payload = entry.payload := rfl
      unfold recordsFrom
      generalize recordOf entry.type entry.epoch entry.generation journal.nextSequence
        entry.transaction entry.payload = record at hown hpayload h ⊢
      have hgrows : record.encode.length = kRecordHeaderSize + entry.payload.length := by
        rw [JournalRecord.encode, List.length_append, encodeHeader_length, hpayload]
      have hfits' : (journal.keeping record).file.length = (journal.keeping record).size ∧
          (journal.keeping record).size ≤ options.maxJournalBytes := by
        simp only [keeping, List.length_append, hgrows, hpayload]
        omega
      have hwidth' := fun later hl => hwidth later (List.mem_cons_of_mem _ hl)
      obtain ⟨hfile, hrest, hbounded⟩ :=
        @ih (journal.keeping record) hf hopen hfits' hwidth' h
      refine ⟨?_, ?_, hbounded⟩
      · rw [hfile, logOf_cons, ← List.append_assoc]
        rfl
      · intro found hr
        rcases List.mem_cons.mp hr with rfl | hr
        · exact { hown with bounded := hpayload ▸ hlen }
        · exact hrest found hr

/-- What replay makes of a file within the size bound. -/
theorem replay_scan {data : Bytes} {cut : Journal} (hopen : openFile (some data) options = .ok cut)
    (hbounded : data.length ≤ options.maxJournalBytes) :
    ∃ replay, cut.replay = .ok replay ∧
      ∀ scan, Scan.run (readRecord options.maxRecordBytes) data = scan →
        replay.records = scan.records ∧
        replay.validBytes = data.length - scan.tail.length ∧
        replay.droppedBytes = scan.tail.length ∧
        replay.status = stopStatus scan.records scan.stop := by
  obtain rfl := Except.ok.inj hopen
  unfold replay
  rw [if_neg (not_lt.mpr hbounded)]
  refine ⟨_, rfl, ?_⟩
  rintro scan rfl
  exact ⟨rfl, rfl, rfl, rfl⟩

/-- How replay reads a part of the file the records were appended to: the whole records in it and no
others, every byte accounted for, and complete if the part ends where a record does. -/
def Classified (options : JournalOptions) (records : List JournalRecord) (part : Bytes) : Prop :=
  ∃ cut replay count, openFile (some part) options = .ok cut ∧ cut.replay = .ok replay ∧
    count ≤ records.length ∧ replay.records = records.take count ∧
    (∀ k ≤ records.length,
      k ≤ count ↔ (logOf JournalRecord.encode (records.take k)).length ≤ part.length) ∧
    replay.validBytes = (logOf JournalRecord.encode (records.take count)).length ∧
    replay.validBytes + replay.droppedBytes = part.length ∧
    (replay.status = .complete ↔
      part ≠ [] ∧ ∃ k, part = logOf JournalRecord.encode (records.take k))

/-- How replay reads the file with a byte of it changed: as corrupt, with the records before the
one that was hit. -/
def Detected (options : JournalOptions) (records : List JournalRecord) (data : Bytes) : Prop :=
  ∃ damaged replay read record rest part,
    openFile (some data) options = .ok damaged ∧ damaged.replay = .ok replay ∧
    records = read ++ record :: rest ∧
    data = logOf JournalRecord.encode read ++ (part ++ logOf JournalRecord.encode rest) ∧
    DiffersOnce record.encode part ∧ replay.status = .corrupt ∧ replay.records = read

theorem classified {records : List JournalRecord} {part : Bytes}
    (hsealed : ∀ record ∈ records, Sealed options.maxRecordBytes record)
    (hbounded : part.length ≤ options.maxJournalBytes)
    (hpart : part <+: logOf JournalRecord.encode records) : Classified options records part := by
  obtain ⟨tail, htake, htorn⟩ := logOf_take hsealed part.length
  have hcount : ∀ k ≤ records.length, k ≤ wholeRecords JournalRecord.encode records part.length ↔
      (logOf JournalRecord.encode (records.take k)).length ≤ part.length :=
    fun k hk => le_wholeRecords hk
  have hle := wholeRecords_le JournalRecord.encode records part.length
  generalize wholeRecords JournalRecord.encode records part.length = count at htake hcount hle
  rw [← List.prefix_iff_eq_take.mp hpart] at htake
  have hread : ∀ record ∈ records.take count, Sealed options.maxRecordBytes record :=
    fun record hr => hsealed record (List.mem_of_mem_take hr)
  obtain ⟨replay, hreplay, hscan⟩ := @replay_scan options _ _ rfl hbounded
  have hlen := congrArg List.length htake
  rw [List.length_append] at hlen
  refine ⟨_, replay, count, rfl, hreplay, hle, ?_⟩
  by_cases htail : tail = []
  · rw [htail, List.append_nil] at htake
    rw [htail, List.length_nil, Nat.add_zero] at hlen
    obtain ⟨hrecords, hvalid, hdropped, hstatus⟩ := hscan ⟨records.take count, [], .done⟩
      (htake ▸ Scan.run_logOf framing hread)
    rw [List.length_nil] at hvalid hdropped
    refine ⟨hrecords, hcount, by omega, by omega, ?_⟩
    rw [hstatus, stopStatus]
    by_cases hnone : records.take count = []
    · rw [if_pos hnone]
      rw [hnone, logOf_nil] at htake
      exact ⟨fun h => ReplayStatus.noConfusion h, fun h => absurd htake h.1⟩
    · rw [if_neg hnone]
      have hpos := length_le_logOf (@framing options.maxRecordBytes).nonempty (records.take count)
      have hsome := List.length_pos_iff.mpr hnone
      refine ⟨fun _ => ⟨?_, count, htake⟩, fun _ => rfl⟩
      apply List.length_pos_iff.mp
      omega
  · obtain ⟨why, hrun⟩ := Scan.run_logOf_torn framing hread htorn htail
    obtain ⟨hrecords, hvalid, hdropped, hstatus⟩ := hscan ⟨records.take count, tail, .short why⟩
      (htake ▸ hrun)
    have hrest := List.length_pos_iff.mpr htail
    dsimp only at hvalid hdropped
    refine ⟨hrecords, hcount, by omega, by omega, ?_⟩
    rw [hstatus, stopStatus]
    constructor
    · intro h
      split at h <;> cases h
    · rintro ⟨_, k, hk⟩
      -- a boundary at the end of the part would be that of a whole record more
      have hmin : records.take k = records.take (min k records.length) := by
        rw [← List.take_take, List.take_length]
      have hwhole : min k records.length ≤ count := by
        rw [hcount _ (Nat.min_le_right _ _), ← hmin, ← hk]
      have hfront : records.take k <+: records.take count := by
        rw [hmin]
        exact List.take_prefix_take_left hwhole
      obtain ⟨more, hmore⟩ := hfront
      have hsplit := congrArg (fun rs => (logOf JournalRecord.encode rs).length) hmore
      simp only [logOf_append, List.length_append] at hsplit
      rw [← hk] at hsplit
      omega

theorem detected {records : List JournalRecord} {data : Bytes}
    (hsealed : ∀ record ∈ records, Sealed options.maxRecordBytes record)
    (hbounded : data.length ≤ options.maxJournalBytes)
    (h : DiffersOnce (logOf JournalRecord.encode records) data) :
    Detected options records data := by
  obtain ⟨read, record, rest, part, rfl, rfl, hpart⟩ := h.in_log
  obtain ⟨tail, why, hrun⟩ := Scan.run_logOf_damaged guarded hsealed hpart
  obtain ⟨replay, hreplay, hscan⟩ := @replay_scan options _ _ rfl hbounded
  obtain ⟨hrecords, _, _, hstatus⟩ := hscan _ hrun
  exact ⟨_, replay, read, record, rest, part, rfl, hreplay, rfl, rfl, hpart, hstatus, hrecords⟩

/-- Replay classifies every part of the file of a journal and every change of one byte in it. A
payload is within the width of its length field. -/
theorem replay_classifies {start : Journal} {next : UInt64}
    (hopen : openFile none options = .ok start)
    (hwidth : ∀ entry ∈ appends, entry.payload.length < 2 ^ 32)
    (h : (start.resumeSequence next).appendAll appends = (journal, .ok ())) :
    (∀ part, part <+: journal.file →
      Classified options (recordsFrom (start.resumeSequence next).nextSequence appends) part) ∧
    ∀ data, DiffersOnce journal.file data →
      Detected options (recordsFrom (start.resumeSequence next).nextSequence appends) data := by
  have hstart : start = { options, isOpen := true } := by
    unfold openFile at hopen
    dsimp only at hopen
    split at hopen
    · cases hopen
    · exact (Except.ok.inj hopen).symm
  have hresumed : (start.resumeSequence next).fates = [] ∧
      (start.resumeSequence next).options = options ∧
      (start.resumeSequence next).file = [] ∧ (start.resumeSequence next).size = 0 := by
    rw [hstart]
    unfold resumeSequence
    split <;> exact ⟨rfl, rfl, rfl, rfl⟩
  obtain ⟨hf, hoptions, hfile, hsize⟩ := hresumed
  have hfits : (start.resumeSequence next).file.length = (start.resumeSequence next).size ∧
      (start.resumeSequence next).size ≤ options.maxJournalBytes := by
    rw [hfile, hsize]
    exact ⟨rfl, Nat.zero_le _⟩
  obtain ⟨hlog, hsealed, hbounded⟩ := appendAll_ok hf hoptions hfits hwidth h
  rw [hfile, List.nil_append] at hlog
  refine ⟨fun part hpart => ?_, fun data hdata => ?_⟩
  · exact classified hsealed (hpart.length_le.trans hbounded) (hlog ▸ hpart)
  · rw [hdata.length_eq] at hbounded
    exact detected hsealed hbounded (hlog ▸ hdata)

/-- An intent and its payload, appended to a new journal. -/
def intentAndPayload : List Append :=
  [⟨.intent, ⟨1⟩, 1, ⟨1⟩, [3, 0]⟩, ⟨.payload, ⟨1⟩, 1, ⟨1⟩, [7, 7, 7]⟩]

theorem replay_classifies_pair : ∃ start journal, openFile none {} = .ok start ∧
    (start.resumeSequence 5).appendAll intentAndPayload = (journal, .ok ()) ∧
    (∀ part, part <+: journal.file →
      Classified {} (recordsFrom (start.resumeSequence 5).nextSequence intentAndPayload) part) ∧
    ∀ data, DiffersOnce journal.file data →
      Detected {} (recordsFrom (start.resumeSequence 5).nextSequence intentAndPayload) data := by
  have hwidth : ∀ entry ∈ intentAndPayload, entry.payload.length < 2 ^ 32 := by
    unfold intentAndPayload
    simp
  obtain ⟨start, hstart⟩ : ∃ start, openFile none {} = .ok start := ⟨_, rfl⟩
  obtain ⟨journal, hjournal⟩ : ∃ journal,
      (start.resumeSequence 5).appendAll intentAndPayload = (journal, .ok ()) := by
    obtain rfl := Except.ok.inj hstart
    exact ⟨_, rfl⟩
  exact ⟨start, journal, hstart, hjournal, replay_classifies hstart hwidth hjournal⟩

end Journal

end CongestionFabric
