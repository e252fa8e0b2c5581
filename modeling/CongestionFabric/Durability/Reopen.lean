import CongestionFabric.Durability.StoreCall

namespace CongestionFabric

namespace Journal

variable {journal : Journal} {records : List JournalRecord} {part : Bytes}

variable (journal) in
/-- What replay reads from a journal whose last record may be torn. -/
theorem replay_torn (hfile : journal.file = logOf JournalRecord.encode records ++ part)
    (hbound : journal.options.maxRecordBytes = limits.kMaxJournalRecordBytes)
    (hfit : journal.file.length ≤ journal.options.maxJournalBytes)
    (hwhole : ∀ record ∈ records, Sealed limits.kMaxJournalRecordBytes record)
    (htorn : TornTail JournalRecord.encode (Sealed limits.kMaxJournalRecordBytes) part)
    (hfirst : part = [] ∨ records ≠ []) :
    ∃ replay, journal.replay = .ok replay ∧ replay.records = records ∧
      replay.validBytes = (logOf JournalRecord.encode records).length ∧
      replay.status ≠ .corrupt ∧ (replay.status = .truncatedTail ↔ part ≠ []) := by
  have hlen : journal.file.length - part.length =
      (logOf JournalRecord.encode records).length := by
    rw [hfile, List.length_append, Nat.add_sub_cancel]
  unfold replay
  rw [if_neg (not_lt.mpr hfit), hbound]
  by_cases hpart : part = []
  · subst hpart
    have hscan : Scan.run (readRecord limits.kMaxJournalRecordBytes) journal.file =
        ⟨records, [], .done⟩ := by
      rw [hfile, List.append_nil]
      exact Scan.run_logOf framing hwhole
    rw [hscan]
    refine ⟨_, rfl, rfl, hlen, ?_, ?_⟩
    · dsimp only [stopStatus]
      split <;> simp
    · dsimp only [stopStatus]
      split <;> simp
  · obtain ⟨why, hscan⟩ := Scan.run_logOf_torn framing hwhole htorn hpart
    have hrecords : records ≠ [] := hfirst.resolve_left hpart
    rw [hfile, hscan]
    refine ⟨_, rfl, rfl, hfile ▸ hlen, ?_, ?_⟩
    · simp [stopStatus, hrecords]
    · simp [stopStatus, hrecords, hpart]

@[simp] theorem resumeSequence_eq (next : UInt64) :
    journal.resumeSequence next =
      { journal with
        nextSequence := if next > journal.nextSequence then next else journal.nextSequence } := by
  unfold resumeSequence
  split_ifs <;> rfl

/-- A journal resumes after the last sequence number it has seen. -/
theorem resumeSequence_next {next : UInt64} (h : journal.nextSequence = 1) (hn : next ≠ 0) :
    (journal.resumeSequence next).nextSequence = next := by
  unfold resumeSequence
  split_ifs with hgt
  · rfl
  · have hlt := UInt64.not_lt.mp hgt
    rw [h, UInt64.le_iff_toNat_le] at hlt
    have hpos : next.toNat ≠ 0 := fun h0 => hn (UInt64.toNat_inj.mp h0)
    have hone : (1 : UInt64).toNat = 1 := rfl
    rw [h]
    exact UInt64.toNat_inj.mp (by omega)

end Journal

namespace Store

/-- Replay over a document, before the unfinished attempts are listed. -/
def replayFrom (document : DurableDocument) (records : List JournalRecord) : Recovery :=
  records.foldl replayRecord { document }

theorem replayRecord_report (r : Recovery) (report : StoreReplay) (record : JournalRecord) :
    (replayRecord { r with report } record).document = (replayRecord r record).document ∧
      (replayRecord { r with report } record).pending = (replayRecord r record).pending := by
  unfold replayRecord
  dsimp only
  split_ifs
  · exact ⟨rfl, rfl⟩
  · cases record.type with
    | intent =>
      dsimp only [noteIntent]
      split <;> exact ⟨rfl, rfl⟩
    | commit =>
      dsimp only [noteCommit]
      split
      · exact ⟨rfl, rfl⟩
      · split
        · exact ⟨rfl, rfl⟩
        · split <;> exact ⟨rfl, rfl⟩
    | _ => exact ⟨rfl, rfl⟩

/-- The report has no part in what replay rebuilds. -/
theorem foldl_replayRecord_report (records : List JournalRecord) (r : Recovery)
    (report : StoreReplay) :
    (records.foldl replayRecord { r with report }).document =
        (records.foldl replayRecord r).document ∧
      (records.foldl replayRecord { r with report }).pending =
        (records.foldl replayRecord r).pending := by
  induction records generalizing r report with
  | nil => exact ⟨rfl, rfl⟩
  | cons record rest ih =>
    obtain ⟨hdocument, hpending⟩ := replayRecord_report r report record
    have hstep : replayRecord { r with report } record =
        { replayRecord r record with report := (replayRecord { r with report } record).report } :=
      Recovery.ext hdocument hpending rfl
    rw [List.foldl_cons, List.foldl_cons, hstep]
    exact ih _ _

theorem retainAmbiguous_document {r r' : Recovery} (hdocument : r.document = r'.document)
    (hpending : r.pending = r'.pending) :
    (retainAmbiguous r).document = (retainAmbiguous r').document := by
  simp only [retainAmbiguous, ambiguousAttempts, hdocument, hpending]

variable {disk : Disk} {options : StoreOptions} {document : DurableDocument} {report : StoreReplay}
  {records : List JournalRecord} {part : Bytes}

/-- The store an open returns, from the settled journal. -/
def opened (disk : Disk) (options : StoreOptions) (document : DurableDocument)
    (settled : Journal × StoreReplay) : Store where
  options
  journal := settled.1
  snapshot := disk.snapshot
  document
  isOpen := true
  report := { settled.2 with lastEpoch := document.epoch, lastSequence := document.lastSequence }

theorem openDisk_eq {journal : Journal} {replay : JournalReplay}
    (hload : loadSnapshot disk.snapshot options = .ok (document, report))
    (hopen : Journal.openFile disk.journal (journalOptions options) = .ok journal)
    (hreplay : journal.replay = .ok replay) (hclean : replay.status ≠ .corrupt) :
    ∃ recovery : Recovery,
      recovery.document = (retainAmbiguous (replayFrom document replay.records)).document ∧
      openDisk disk options =
        (settleTail (journal.resumeSequence (recovery.document.lastSequence + 1)) replay
          recovery.report options.readOnly).map (opened disk options recovery.document) := by
  have hrecovery := foldl_replayRecord_report replay.records { document }
    { report with journalPresent := true, journalStatus := replay.status }
  refine ⟨_, retainAmbiguous_document hrecovery.1 hrecovery.2, ?_⟩
  unfold openDisk
  simp only [hload, hopen, hreplay, bind, Except.bind, if_neg hclean]
  rfl

/-- A writable open cuts the torn tail off; what stays is the log of the whole records. -/
theorem settleTail_holds (replay : JournalReplay) (readOnly : Bool) (journal : Journal)
    (hfile : journal.file = logOf JournalRecord.encode records ++ part)
    (hoptions : journal.options = { readOnly, syncOnAppend := journal.options.syncOnAppend })
    (hsize : journal.size = journal.file.length) (hopen : journal.isOpen = true)
    (hfates : journal.fates = []) (hfit : journal.file.length ≤ limits.kMaxJournalBytes)
    (hwhole : ∀ record ∈ records, Sealed limits.kMaxJournalRecordBytes record)
    (hvalid : replay.validBytes = (logOf JournalRecord.encode records).length)
    (htail : replay.status = .truncatedTail ↔ part ≠ [])
    (hwrite : part = [] ∨ readOnly = false) (report : StoreReplay) :
    ∃ settled report', settleTail journal replay report readOnly = .ok (settled, report') ∧
      Holds settled records ∧ settled.nextSequence = journal.nextSequence := by
  have hrecord : journal.options.maxRecordBytes = limits.kMaxJournalRecordBytes := by rw [hoptions]
  have hjournal : journal.options.maxJournalBytes = limits.kMaxJournalBytes := by rw [hoptions]
  have hread : journal.options.readOnly = readOnly := by rw [hoptions]
  by_cases hpart : part = []
  · have hstatus : replay.status ≠ .truncatedTail := fun h => htail.mp h hpart
    have hlog : journal.file = logOf JournalRecord.encode records := by
      rw [hfile, hpart, List.append_nil]
    exact ⟨journal, report, by rw [settleTail, if_neg hstatus],
      ⟨hfates, hrecord, hjournal, hlog, hsize, hsize ▸ hfit, hwhole⟩, rfl⟩
  · have hwritable : readOnly = false := hwrite.resolve_left hpart
    have hcut : journal.file.take replay.validBytes = logOf JournalRecord.encode records := by
      rw [hfile, hvalid]
      exact List.take_left' rfl
    have hle : replay.validBytes ≤ journal.size := by
      rw [hsize, hfile, hvalid, List.length_append]
      exact Nat.le_add_right _ _
    have htruncate : journal.truncateTo replay.validBytes =
        .ok { journal with
          file := journal.file.take replay.validBytes, size := replay.validBytes } := by
      unfold Journal.truncateTo
      rw [if_neg (by simp [hread, hwritable]), if_neg (by simp [hopen]), if_neg (not_lt.mpr hle)]
    refine ⟨{ journal with
      file := journal.file.take replay.validBytes, size := replay.validBytes },
      { noteTear report replay with journalTruncated := true }, ?_,
      ⟨hfates, hrecord, hjournal, hcut, ?_, ?_, hwhole⟩, rfl⟩
    · rw [settleTail, if_pos (htail.mpr hpart), hwritable, htruncate]
      rfl
    · rw [hcut]
      exact hvalid
    · exact le_trans hle (hsize ▸ hfit)

/-- Opening a journal with a whole first record reads every whole record and cuts the rest off. -/
theorem openDisk_torn (hload : loadSnapshot disk.snapshot options = .ok (document, report))
    (hfile : disk.journal = some (logOf JournalRecord.encode records ++ part))
    (hfit : (logOf JournalRecord.encode records ++ part).length ≤ limits.kMaxJournalBytes)
    (hwhole : ∀ record ∈ records, Sealed limits.kMaxJournalRecordBytes record)
    (htorn : TornTail JournalRecord.encode (Sealed limits.kMaxJournalRecordBytes) part)
    (hfirst : part = [] ∨ records ≠ []) (hwrite : part = [] ∨ options.readOnly = false) :
    ∃ store, openDisk disk options = .ok store ∧ Holds store.journal records ∧
      store.document = (retainAmbiguous (replayFrom document records)).document ∧
      store.snapshot = disk.snapshot ∧ store.options = options ∧
      ((replayFrom document records).document.lastSequence + 1 ≠ 0 →
        store.journal.nextSequence =
          (replayFrom document records).document.lastSequence + 1) := by
  generalize hbytes : logOf JournalRecord.encode records ++ part = bytes at hfile hfit
  have hopen : Journal.openFile disk.journal (journalOptions options) =
      .ok { options := journalOptions options, file := bytes, isOpen := true
            size := bytes.length } := by
    rw [hfile]
    rfl
  obtain ⟨replay, hreplay, hrecords, hvalid, hclean, htail⟩ :=
    Journal.replay_torn { options := journalOptions options, file := bytes
                          isOpen := true, size := bytes.length } hbytes.symm rfl hfit hwhole htorn hfirst
  obtain ⟨recovery, hdocument, heq⟩ := openDisk_eq hload hopen hreplay hclean
  rw [hrecords] at hdocument
  have hsequence : recovery.document.lastSequence =
      (replayFrom document records).document.lastSequence := congrArg (·.lastSequence) hdocument
  obtain ⟨settled, report', hsettle, hholds, hkept⟩ :=
    settleTail_holds replay options.readOnly
      (Journal.resumeSequence { options := journalOptions options, file := bytes
                                isOpen := true, size := bytes.length }
        (recovery.document.lastSequence + 1))
      (by simpa using hbytes.symm) (by simp [journalOptions]) (by simp) (by simp) (by simp)
      (by simpa using hfit) hwhole hvalid htail hwrite recovery.report
  rw [hsettle] at heq
  refine ⟨_, heq, hholds, hdocument, rfl, rfl, fun h0 => ?_⟩
  rw [← hsequence] at h0 ⊢
  exact hkept.trans (Journal.resumeSequence_next rfl h0)

/-- A missing journal opens as an empty one. -/
theorem openDisk_none (hwritable : options.readOnly = false) :
    openDisk {} options = openDisk { journal := some [] } options := by
  have hfile : Journal.openFile none (journalOptions options) =
      Journal.openFile (some []) (journalOptions options) := by
    simp [Journal.openFile, journalOptions, hwritable]
  simp only [openDisk, hfile]

/-- What a crash leaves of a store: the first bytes of its journal. -/
def crashed (store : Store) (kept : Nat) : Disk :=
  { store.disk with journal := some (store.journal.file.take kept) }

/-- The store over an empty directory. -/
def fresh : Store where
  journal := { isOpen := true }
  report := { journalPresent := true }
  isOpen := true

theorem openDisk_fresh : openDisk {} {} = .ok fresh := rfl

end Store

end CongestionFabric
