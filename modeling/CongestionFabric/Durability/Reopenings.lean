import CongestionFabric.Durability.BadSnapshot
import CongestionFabric.Durability.Damage
import CongestionFabric.Durability.ReadOnly
import CongestionFabric.Durability.TornJournal

namespace CongestionFabric

namespace Store

variable {options : StoreOptions} {disk : Disk} {document : DurableDocument} {report : StoreReplay}
  {file : Bytes}

/-! ### What an open makes of a journal file -/

/-- The records a journal file holds from its first byte on. -/
def scanOf (file : Bytes) : Scan JournalRecord String :=
  Scan.run (Journal.readRecord limits.kMaxJournalRecordBytes) file

/-- The bytes of the whole records, once there is one. -/
def wholeBytes (file : Bytes) : Bytes :=
  if (scanOf file).records = [] then file else logOf JournalRecord.encode (scanOf file).records

/-- The journal ends inside a record that is not its first. -/
def torn (file : Bytes) : Bool :=
  Journal.stopStatus (scanOf file).records (scanOf file).stop = .truncatedTail

/-- The journal is within its bound and no record of it is damaged. -/
def Intact (file : Bytes) : Prop :=
  file.length ≤ limits.kMaxJournalBytes ∧ ∀ why, (scanOf file).stop ≠ .bad why

theorem scanOf_found (file : Bytes) :
    (∀ record ∈ (scanOf file).records, Sealed limits.kMaxJournalRecordBytes record) ∧
      file = logOf JournalRecord.encode (scanOf file).records ++ (scanOf file).tail :=
  let found := Scan.run_found Journal.exactFraming file
  ⟨found.1, found.2.1⟩

theorem scanOf_stop (file : Bytes) :
    (scanOf file).tail = [] ∧ (scanOf file).stop = .done ∨
      (scanOf file).tail ≠ [] ∧
        ((∃ why, Journal.readRecord limits.kMaxJournalRecordBytes (scanOf file).tail = .short why ∧
            (scanOf file).stop = .short why) ∨
          ∃ why, Journal.readRecord limits.kMaxJournalRecordBytes (scanOf file).tail = .bad why ∧
            (scanOf file).stop = .bad why) :=
  (Scan.run_found Journal.exactFraming file).2.2

/-- The whole records are still all there is once the rest has been cut off. -/
theorem scanOf_again (file : Bytes) : scanOf (logOf JournalRecord.encode (scanOf file).records) =
    ⟨(scanOf file).records, [], .done⟩ :=
  Scan.run_again Journal.exactFraming file

theorem wholeBytes_cases (file : Bytes) :
    (scanOf file).records = [] ∧ wholeBytes file = file ∨
      (scanOf file).records ≠ [] ∧
        scanOf (wholeBytes file) = ⟨(scanOf file).records, [], .done⟩ := by
  unfold wholeBytes
  split_ifs with hnone
  · exact .inl ⟨hnone, rfl⟩
  · exact .inr ⟨hnone, scanOf_again file⟩

theorem scanOf_wholeBytes (file : Bytes) :
    (scanOf (wholeBytes file)).records = (scanOf file).records := by
  rcases wholeBytes_cases file with ⟨_, hsame⟩ | ⟨_, hscan⟩
  · rw [hsame]
  · rw [hscan]

theorem wholeBytes_initial (file : Bytes) : wholeBytes file <+: file := by
  unfold wholeBytes
  split_ifs with hnone
  · exact List.prefix_rfl
  · conv => rhs; rw [(scanOf_found file).2]
    exact List.prefix_append _ _

theorem wholeBytes_intact (h : Intact file) : Intact (wholeBytes file) := by
  refine ⟨le_trans (wholeBytes_initial file).length_le h.1, fun why hbad => ?_⟩
  rcases wholeBytes_cases file with ⟨_, hsame⟩ | ⟨_, hscan⟩
  · rw [hsame] at hbad
    exact h.2 why hbad
  · simp [hscan] at hbad

theorem torn_wholeBytes (file : Bytes) : torn (wholeBytes file) = false := by
  rcases wholeBytes_cases file with ⟨hnone, hsame⟩ | ⟨hsome, hscan⟩
  · rw [hsame, torn, hnone]
    cases (scanOf file).stop <;> simp [Journal.stopStatus]
  · simp [torn, hscan, Journal.stopStatus, hsome]

/-- Only a torn journal has anything cut off. -/
theorem wholeBytes_eq_iff (h : Intact file) : wholeBytes file = file ↔ torn file = false := by
  constructor
  · intro heq
    rw [← heq]
    exact torn_wholeBytes file
  · intro htorn
    unfold wholeBytes
    split_ifs with hnone
    · rfl
    · rcases scanOf_stop file with ⟨htail, _⟩ | ⟨_, ⟨why, _, hshort⟩ | ⟨why, _, hbad⟩⟩
      · conv => rhs; rw [(scanOf_found file).2, htail, List.append_nil]
      · simp [torn, hshort, Journal.stopStatus, hnone] at htorn
      · exact absurd hbad (h.2 why)

/-! ### What an open makes of a directory -/

/-- The part of a report that replay leaves alone. -/
def flags (report : StoreReplay) : Bool × Bool × Bool :=
  (report.snapshotCorrupt, report.integrityFailure, report.journalTruncated)

theorem replayRecord_flags (r : Recovery) (record : JournalRecord) :
    flags (replayRecord r record).report = flags r.report := by
  unfold replayRecord
  dsimp only
  split_ifs
  · rfl
  · cases record.type with
    | intent =>
      dsimp only [noteIntent]
      split <;> rfl
    | commit =>
      dsimp only [noteCommit]
      split
      · rfl
      · split
        · rfl
        · split <;> rfl
    | _ => rfl

theorem foldl_replayRecord_flags (records : List JournalRecord) (r : Recovery) :
    flags (records.foldl replayRecord r).report = flags r.report := by
  induction records generalizing r with
  | nil => rfl
  | cons record rest ih => exact (ih _).trans (replayRecord_flags r record)

theorem loadRecords_truncated (records : List JournalRecord) (document : DurableDocument)
    (report : StoreReplay) : (loadRecords records (document, report)).2.journalTruncated =
      report.journalTruncated := by
  induction records generalizing document with
  | nil => rfl
  | cons record rest ih =>
    unfold loadRecords
    split
    · rfl
    · split
      · rfl
      · exact ih _

theorem loadSnapshot_truncated {snapshot : Option Bytes}
    (h : loadSnapshot snapshot options = .ok (document, report)) :
    report.journalTruncated = false := by
  unfold loadSnapshot at h
  split at h
  · obtain ⟨_, rfl⟩ := Prod.mk.inj (Except.ok.inj h)
    rfl
  · dsimp only at h
    split at h
    · split_ifs at h
      obtain ⟨_, rfl⟩ := Prod.mk.inj (Except.ok.inj h)
      rfl
    · obtain ⟨_, rfl⟩ := Prod.mk.inj (Except.ok.inj h)
      exact loadRecords_truncated _ _ _

/-- What an open recovers: the document, and the sequence number it would write next. -/
def recovered (store : Store) : DurableDocument × UInt64 :=
  (store.document, store.journal.nextSequence)

/-- The store an open returns over an intact journal. -/
structure OpenedOver (disk : Disk) (options : StoreOptions) (document : DurableDocument)
    (report : StoreReplay) (file : Bytes) (store : Store) : Prop where
  document : store.document =
    (retainAmbiguous (replayFrom document (scanOf file).records)).document
  next : store.journal.nextSequence =
    if store.document.lastSequence + 1 > 1 then store.document.lastSequence + 1 else 1
  disk : store.disk =
    { disk with journal := some (if options.readOnly then file else wholeBytes file) }
  snapshotCorrupt : store.report.snapshotCorrupt = report.snapshotCorrupt
  integrityFailure : store.report.integrityFailure = (report.integrityFailure || torn file)
  truncated : store.report.journalTruncated = (torn file && !options.readOnly)

theorem replay_intact {journal : Journal} (hfile : journal.file = file)
    (hoptions : journal.options = journalOptions options) (h : Intact file) :
    ∃ replay, journal.replay = .ok replay ∧ replay.records = (scanOf file).records ∧
      replay.validBytes = (logOf JournalRecord.encode (scanOf file).records).length ∧
      replay.status ≠ .corrupt ∧ (replay.status = .truncatedTail ↔ torn file = true) := by
  have hbytes := congrArg List.length (scanOf_found file).2
  rw [List.length_append] at hbytes
  have hscan : Scan.run (Journal.readRecord journal.options.maxRecordBytes) journal.file =
      scanOf file := by
    rw [hfile, hoptions]
    rfl
  have hfits : ¬journal.file.length > journal.options.maxJournalBytes := by
    rw [hfile, hoptions]
    exact not_lt.mpr h.1
  unfold Journal.replay
  rw [if_neg hfits]
  dsimp only
  rw [hscan]
  refine ⟨_, rfl, rfl, ?_, ?_, by simp [torn]⟩
  · rw [hfile]
    exact Nat.sub_eq_of_eq_add hbytes
  · dsimp only
    rcases scanOf_stop file with ⟨_, hdone⟩ | ⟨_, ⟨why, _, hshort⟩ | ⟨why, _, hbad⟩⟩
    · rw [hdone]
      simp only [Journal.stopStatus]
      split_ifs <;> simp
    · rw [hshort]
      simp only [Journal.stopStatus]
      split_ifs <;> simp
    · exact absurd hbad (h.2 why)

/-- What settling leaves of an intact journal, and what it reports. -/
theorem settleTail_intact {journal : Journal} {replay : JournalReplay} (hfile : journal.file = file)
    (hread : journal.options.readOnly = options.readOnly) (hopen : journal.isOpen = true)
    (hsize : journal.size = file.length) (h : Intact file)
    (hvalid : replay.validBytes = (logOf JournalRecord.encode (scanOf file).records).length)
    (htorn : replay.status = .truncatedTail ↔ torn file = true) (report : StoreReplay)
    (hnew : report.journalTruncated = false) :
    ∃ settled report', settleTail journal replay report options.readOnly = .ok (settled, report') ∧
      settled.file = (if options.readOnly then file else wholeBytes file) ∧
      settled.nextSequence = journal.nextSequence ∧
      report'.snapshotCorrupt = report.snapshotCorrupt ∧
      report'.integrityFailure = (report.integrityFailure || torn file) ∧
      report'.journalTruncated = (torn file && !options.readOnly) := by
  have hsplit := (scanOf_found file).2
  unfold settleTail
  by_cases htear : torn file = true
  · have hsome : (scanOf file).records ≠ [] := by
      intro hnone
      have hwhole : wholeBytes file = file := if_pos hnone
      rw [← hwhole, torn_wholeBytes] at htear
      cases htear
    rw [if_pos (htorn.mpr htear)]
    by_cases hreads : options.readOnly = true
    · rw [if_pos hreads]
      exact ⟨_, _, rfl, by simp [hfile, hreads], rfl, rfl, by simp [noteTear, htear],
        by simp [noteTear, hnew, hreads]⟩
    · have hcut : journal.file.take replay.validBytes = wholeBytes file := by
        have htake := congrArg (List.take replay.validBytes) hsplit
        unfold wholeBytes
        rw [if_neg hsome, hfile]
        exact htake.trans (hvalid ▸ List.take_left' rfl)
      have hle : ¬replay.validBytes > journal.size := by
        have hbytes := congrArg List.length hsplit
        rw [List.length_append] at hbytes
        omega
      have htruncate : journal.truncateTo replay.validBytes =
          .ok { journal with file := wholeBytes file, size := replay.validBytes } := by
        unfold Journal.truncateTo
        rw [if_neg (by simp [hread, hreads]), if_neg (by simp [hopen]), if_neg hle, hcut]
      rw [if_neg hreads, htruncate]
      exact ⟨_, _, rfl, by simp [hreads], rfl, rfl, by simp [noteTear, htear],
        by simp [htear, hreads]⟩
  · have hwhole : wholeBytes file = file :=
      (wholeBytes_eq_iff h).mpr (Bool.eq_false_iff.mpr htear)
    rw [if_neg (fun hstatus => htear (htorn.mp hstatus))]
    exact ⟨_, _, rfl, by simp [hfile, hwhole], rfl, rfl, by simp [htear], by simp [htear, hnew]⟩

/-- An intact journal opens in either mode; a writable open cuts its torn tail off. -/
theorem openDisk_intact (hload : loadSnapshot disk.snapshot options = .ok (document, report))
    (hfile : disk.journal = some file) (h : Intact file) :
    ∃ store, openDisk disk options = .ok store ∧
      OpenedOver disk options document report file store := by
  have hopen : Journal.openFile disk.journal (journalOptions options) =
      .ok { options := journalOptions options, file, isOpen := true, size := file.length } := by
    rw [hfile]
    rfl
  obtain ⟨replay, hreplay, hrecords, hvalid, hclean, htorn⟩ :=
    @replay_intact options file { options := journalOptions options, file, isOpen := true
                                  size := file.length } rfl rfl h
  have hrecovery := foldl_replayRecord_report replay.records { document }
    { report with journalPresent := true, journalStatus := replay.status }
  have hflags := foldl_replayRecord_flags replay.records { document, report :=
    { report with journalPresent := true, journalStatus := replay.status } }
  generalize hfound : replay.records.foldl replayRecord { document, report := { report with
    journalPresent := true, journalStatus := replay.status } } = recovery at hrecovery hflags
  simp only [flags, Prod.mk.injEq] at hflags
  obtain ⟨hcorrupt, hintegrity, htruncated⟩ := hflags
  rw [loadSnapshot_truncated hload] at htruncated
  obtain ⟨settled, report', hsettle, hkept, hnext, hcorrupt', hintegrity', htruncated'⟩ :=
    @settleTail_intact options file
      (Journal.resumeSequence { options := journalOptions options, file, isOpen := true
                                size := file.length }
        ((retainAmbiguous recovery).document.lastSequence + 1)) replay (by simp) (by simp [journalOptions])
      (by simp) (by simp) h hvalid htorn (retainAmbiguous recovery).report htruncated
  refine ⟨opened disk options (retainAmbiguous recovery).document (settled, report'), ?_, ?_⟩
  · unfold openDisk
    simp only [hload, hopen, hreplay, bind, Except.bind, if_neg hclean, hfound, hsettle]
    rfl
  · constructor
    · exact (retainAmbiguous_document hrecovery.1 hrecovery.2).trans (by rw [hrecords]; rfl)
    · exact hnext.trans (by rw [Journal.resumeSequence_eq]; rfl)
    · exact congrArg (fun bytes => { disk with journal := some bytes }) hkept
    · exact hcorrupt'.trans hcorrupt
    · exact hintegrity'.trans (congrArg (· || torn file) hintegrity)
    · exact htruncated'

/-- A damaged or oversized journal is refused alike in every mode. -/
theorem openDisk_damaged (h : ¬Intact file) : ∃ status : Status,
    ∀ (disk : Disk) (options : StoreOptions), disk.journal = some file →
      (loadSnapshot disk.snapshot options).isOk = true → openDisk disk options = .error status := by
  by_cases hlong : file.length ≤ limits.kMaxJournalBytes
  · obtain ⟨why, hbad⟩ : ∃ why, (scanOf file).stop = .bad why := by
      by_contra hnone
      exact h ⟨hlong, fun why hstop => hnone ⟨why, hstop⟩⟩
    refine ⟨⟨.corrupt, "durable journal failed its integrity check", why⟩, ?_⟩
    intro disk options hfile hload
    obtain ⟨⟨document, report⟩, hload⟩ := Result.exists_of_isOk hload
    have hscan : Scan.run (Journal.readRecord (journalOptions options).maxRecordBytes) file =
        scanOf file := rfl
    have hfits : ¬file.length > (journalOptions options).maxJournalBytes := not_lt.mpr hlong
    unfold openDisk Journal.openFile Journal.replay
    rw [hfile]
    simp only [hload, bind, Except.bind, if_neg hfits, hscan, hbad, Journal.stopStatus, if_true]
    rfl
  · refine ⟨⟨.oversized, "file exceeds the permitted size", ""⟩, ?_⟩
    intro disk options hfile hload
    obtain ⟨⟨document, report⟩, hload⟩ := Result.exists_of_isOk hload
    have hfits : file.length > (journalOptions options).maxJournalBytes := not_le.mp hlong
    unfold openDisk Journal.openFile Journal.replay
    rw [hfile]
    simp only [hload, bind, Except.bind, if_pos hfits]
    rfl

/-! ### Opening again and again -/

/-- Open a directory in one mode after the other; each open finds what the one before it left. -/
def openings (options : StoreOptions) : Disk → List Bool → List (Result Store)
  | _, [] => []
  | disk, readOnly :: rest =>
    match openDisk disk { options with readOnly } with
    | .error status => .error status :: openings options disk rest
    | .ok store => .ok store :: openings options store.disk rest

/-- The directory after opens in the given modes. -/
def settledDisk (disk : Disk) (file : Bytes) (modes : List Bool) : Disk :=
  { disk with journal := some (if false ∈ modes then wholeBytes file else file) }

/-- One open of a directory that has been opened in the modes `before`. -/
theorem openDisk_settled (hload : loadSnapshot disk.snapshot options = .ok (document, report))
    (h : Intact file) (before : List Bool) (mode : Bool) :
    ∃ store, openDisk (settledDisk disk file before) { options with readOnly := mode } = .ok store ∧
      store.document = (retainAmbiguous (replayFrom document (scanOf file).records)).document ∧
      store.journal.nextSequence =
        (if store.document.lastSequence + 1 > 1 then store.document.lastSequence + 1 else 1) ∧
      store.disk = settledDisk disk file (before ++ [mode]) ∧
      (store.report.journalTruncated = true ↔
        mode = false ∧ false ∉ before ∧ wholeBytes file ≠ file) := by
  have hwhole : wholeBytes (wholeBytes file) = wholeBytes file :=
    (wholeBytes_eq_iff (wholeBytes_intact h)).mpr (torn_wholeBytes file)
  have htorn : torn file = true ↔ wholeBytes file ≠ file := by
    rw [ne_eq, wholeBytes_eq_iff h, Bool.not_eq_false]
  by_cases hbefore : false ∈ before
  · obtain ⟨store, hopen, hover⟩ :=
      @openDisk_intact { options with readOnly := mode } (settledDisk disk file before) document
        report (wholeBytes file) hload (by simp [settledDisk, hbefore]) (wholeBytes_intact h)
    refine ⟨store, hopen, ?_, hover.next, ?_, ?_⟩
    · rw [hover.document, scanOf_wholeBytes]
    · rw [hover.disk]
      simp [settledDisk, hbefore, hwhole]
    · rw [hover.truncated, torn_wholeBytes]
      simp [hbefore]
  · obtain ⟨store, hopen, hover⟩ :=
      @openDisk_intact { options with readOnly := mode } (settledDisk disk file before) document
        report file hload (by simp [settledDisk, hbefore]) h
    refine ⟨store, hopen, hover.document, hover.next, ?_, ?_⟩
    · rw [hover.disk]
      cases mode <;> simp [settledDisk, hbefore]
    · rw [hover.truncated]
      simp [hbefore, ← htorn, and_comm]

theorem openings_settled (hload : loadSnapshot disk.snapshot options = .ok (document, report))
    (h : Intact file) (modes before : List Bool) (i : Nat) (opened : Result Store)
    (hopened : (openings options (settledDisk disk file before) modes)[i]? = some opened) :
    ∃ store, opened = .ok store ∧
      store.document = (retainAmbiguous (replayFrom document (scanOf file).records)).document ∧
      store.journal.nextSequence =
        (if store.document.lastSequence + 1 > 1 then store.document.lastSequence + 1 else 1) ∧
      store.disk = settledDisk disk file (before ++ modes.take (i + 1)) ∧
      (store.report.journalTruncated = true ↔
        modes[i]? = some false ∧ false ∉ before ++ modes.take i ∧ wholeBytes file ≠ file) := by
  induction modes generalizing before i with
  | nil => simp [openings] at hopened
  | cons mode rest ih =>
    obtain ⟨store, hopen, hdocument, hnext, hdisk, htruncated⟩ :=
      openDisk_settled hload h before mode
    unfold openings at hopened
    rw [hopen] at hopened
    dsimp only at hopened
    cases i with
    | zero =>
      rw [List.getElem?_cons_zero] at hopened
      refine ⟨store, (Option.some.inj hopened).symm, hdocument, hnext, ?_, ?_⟩
      · simpa using hdisk
      · simpa using htruncated
    | succ i =>
      rw [List.getElem?_cons_succ, hdisk] at hopened
      have hrest := ih (before ++ [mode]) i hopened
      simpa using hrest

theorem openings_refused {status : Status}
    (h : ∀ mode, openDisk disk { options with readOnly := mode } = .error status)
    (modes : List Bool) : ∀ opened ∈ openings options disk modes, opened = .error status := by
  induction modes with
  | nil => simp [openings]
  | cons mode rest ih =>
    unfold openings
    rw [h mode]
    simpa using ih

/-- Opening a directory in any mode, any number of times, recovers one document and one sequence
number to write next, or fails each time with the same status. The first writable open cuts a torn
tail off; no other open changes a byte. -/
theorem openings_agree (hfile : disk.journal = some file) (modes : List Bool) (i : Nat)
    (opened : Result Store) (hopened : (openings options disk modes)[i]? = some opened) :
    opened.map recovered = (openDisk disk { options with readOnly := true }).map recovered ∧
      ∀ store, opened = .ok store →
        store.disk = settledDisk disk file (modes.take (i + 1)) ∧
        (store.report.journalTruncated = true ↔
          modes[i]? = some false ∧ false ∉ modes.take i ∧ wholeBytes file ≠ file) := by
  have hstart : settledDisk disk file [] = disk := by
    unfold settledDisk
    rw [if_neg List.not_mem_nil, ← hfile]
  have hrefused : ∀ status : Status,
      (∀ mode, openDisk disk { options with readOnly := mode } = .error status) →
        opened.map recovered = (openDisk disk { options with readOnly := true }).map recovered ∧
        ∀ store, opened ≠ .ok store := by
    intro status hstatus
    have herror := openings_refused hstatus modes opened (List.mem_of_getElem? hopened)
    rw [herror, hstatus true]
    exact ⟨rfl, by simp⟩
  cases hload : loadSnapshot disk.snapshot options with
  | error status =>
    have hmode : ∀ mode, openDisk disk { options with readOnly := mode } = .error status := by
      intro mode
      have hloads : loadSnapshot disk.snapshot { options with readOnly := mode } = .error status :=
        hload
      unfold openDisk
      rw [hloads]
      rfl
    exact ⟨(hrefused status hmode).1, fun store hok => absurd hok ((hrefused status hmode).2 store)⟩
  | ok loaded =>
    obtain ⟨document, report⟩ := loaded
    by_cases hintact : Intact file
    · rw [← hstart] at hopened
      obtain ⟨store, hok, hdocument, hnext, hdisk, htruncated⟩ :=
        openings_settled hload hintact modes [] i opened hopened
      obtain ⟨reading, hopen, hdocument', hnext', _⟩ := openDisk_settled hload hintact [] true
      rw [hstart] at hopen
      refine ⟨?_, fun store' hok' => ?_⟩
      · rw [hok, hopen]
        simp only [Except.map, recovered, hdocument, hnext, hdocument', hnext']
      · obtain rfl := Except.ok.inj (hok.symm.trans hok')
        exact ⟨hdisk, htruncated⟩
    · obtain ⟨status, hdamaged⟩ := openDisk_damaged hintact
      have hmode := fun mode => hdamaged disk { options with readOnly := mode } hfile
        (congrArg Result.isOk (show loadSnapshot disk.snapshot { options with readOnly := mode } =
          .ok (document, report) from hload))
      exact ⟨(hrefused status hmode).1,
        fun store hok => absurd hok ((hrefused status hmode).2 store)⟩

/-- A commit torn in its last record. -/
def tornOnce : Disk := (fresh.advanced 1).crashed 232

set_option maxRecDepth 100000 in
theorem openings_torn : ((openings {} tornOnce [true, false])[1]?).any (fun opened =>
    opened.toOption.any fun store => store.report.journalTruncated) = true := by
  decide +kernel

/-- A commit torn in its last record is read as it stands, and cut by the writable open after it. -/
theorem openings_agree_torn : ∃ store,
    (openings {} tornOnce [true, false])[1]? = some (.ok store) ∧
    store.report.journalTruncated = true ∧
    store.disk = settledDisk tornOnce ((fresh.advanced 1).journal.file.take 232)
      [true, false] := by
  obtain ⟨opened, hopened, hany⟩ := (Option.any_eq_true _ _).mp openings_torn
  cases opened with
  | error status => simp [Except.toOption] at hany
  | ok store =>
    have hagree := @openings_agree {} tornOnce _ rfl [true, false] 1 (.ok store) hopened
    exact ⟨store, hopened, by simpa [Except.toOption] using hany, (hagree.2 store rfl).1⟩

end Store

end CongestionFabric
