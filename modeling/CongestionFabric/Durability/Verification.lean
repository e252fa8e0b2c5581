import CongestionFabric.Durability.Reopenings

namespace CongestionFabric

namespace Store

variable {options : StoreOptions} {disk : Disk} {file : Bytes}

/-! ### The inspection tool -/

def ctlOptions : StoreOptions where
  readOnly := true
  tolerateCorruptSnapshot := true

def openReadOnly (disk : Disk) : Result Store := openDisk disk ctlOptions

/-- The exit status of `verify`. -/
def runVerify (disk : Disk) : Nat :=
  match openReadOnly disk with
  | .error _ => 1
  | .ok store =>
    let clean := !store.report.integrityFailure && !store.report.snapshotCorrupt
    if clean then 0 else 1

/-! ### What a directory has to hold -/

/-- Sealed records one after the other, and after them nothing; or only the beginning of a first. -/
def WellKeptJournal (file : Bytes) : Prop :=
  ∃ records part, file = logOf JournalRecord.encode records ++ part ∧
    (∀ record ∈ records, Sealed limits.kMaxJournalRecordBytes record) ∧
    (part = [] ∨ records = [] ∧ part ≠ [] ∧
      ∃ why, Journal.readRecord limits.kMaxJournalRecordBytes part = .short why)

/-- A container that reads, with records that all decode and apply. -/
def WellKeptSnapshot (data : Bytes) (options : StoreOptions) : Prop :=
  ∃ contents, readSnapshot data (snapshotOptions options) = .ok contents ∧
    ∀ record ∈ contents.records, ¬Refused record

/-- A directory with nothing damaged in it. -/
structure WellKept (disk : Disk) : Prop where
  journal : ∃ file, disk.journal = some file ∧ file.length ≤ limits.kMaxJournalBytes ∧
    WellKeptJournal file
  snapshot : ∀ data ∈ disk.snapshot, WellKeptSnapshot data {}

theorem wellKeptJournal_iff (hfit : file.length ≤ limits.kMaxJournalBytes) :
    WellKeptJournal file ↔ Intact file ∧ torn file = false := by
  constructor
  · rintro ⟨records, part, hfile, hsealed, hpart⟩
    have hscan : scanOf file = { scanOf part with records := records ++ (scanOf part).records } := by
      rw [hfile]
      exact Scan.run_logOf_append Journal.framing part hsealed
    rcases hpart with hnil | ⟨hnone, hne, why, hshort⟩
    · have hdone : scanOf part = ⟨[], [], .done⟩ := by
        rw [hnil]
        rfl
      refine ⟨⟨hfit, fun why hbad => ?_⟩, ?_⟩
      · simp [hscan, hdone] at hbad
      · simp only [torn, hscan, hdone, Journal.stopStatus]
        split_ifs <;> simp
    · have hstop : scanOf part = ⟨[], part, .short why⟩ := Scan.run_short hshort hne
      refine ⟨⟨hfit, fun why hbad => ?_⟩, ?_⟩
      · simp [hscan, hstop] at hbad
      · simp [torn, hscan, hstop, hnone, Journal.stopStatus]
  · rintro ⟨hintact, htorn⟩
    obtain ⟨hsealed, hfile⟩ := scanOf_found file
    refine ⟨_, _, hfile, hsealed, ?_⟩
    rcases scanOf_stop file with ⟨htail, _⟩ | ⟨hne, ⟨why, hshort, hstop⟩ | ⟨why, _, hbad⟩⟩
    · exact .inl htail
    · have hnone : (scanOf file).records = [] := by
        by_contra hsome
        simp [torn, hstop, Journal.stopStatus, hsome] at htorn
      exact .inr ⟨hnone, hne, why, hshort⟩
    · exact absurd hbad (hintact.2 why)

theorem loadRecords_flagged {record : JournalRecord} (h : Refused record)
    (rest : List JournalRecord) (document : DurableDocument) (report : StoreReplay) :
    ∃ detail, loadRecords (record :: rest) (document, report) =
      (document, corruptSnapshot report detail) := by
  unfold loadRecords
  split
  next => exact ⟨_, rfl⟩
  next kind body hunframe =>
    split
    next => exact ⟨_, rfl⟩
    next applied happly =>
      obtain ⟨mutation, hdecode, _⟩ := bind_ok.mp happly
      exact absurd hdecode (h kind body hunframe mutation)

/-- Loading flags a snapshot exactly when one of its records is refused. -/
theorem loadRecords_flags (records : List JournalRecord) (document : DurableDocument)
    (report : StoreReplay) (hclean : report.snapshotCorrupt = false ∧ report.integrityFailure = false) :
    ∃ found : Bool, (loadRecords records (document, report)).2.snapshotCorrupt = found ∧
      (loadRecords records (document, report)).2.integrityFailure = found ∧
      (found = false ↔ ∀ record ∈ records, ¬Refused record) := by
  induction records generalizing document with
  | nil => exact ⟨false, hclean.1, hclean.2, by simp⟩
  | cons record rest ih =>
    rcases refused_or_applied record with hrefused | ⟨kind, body, mutation, hunframe, hdecode⟩
    · obtain ⟨detail, hload⟩ := loadRecords_flagged hrefused rest document report
      rw [hload]
      exact ⟨true, rfl, rfl, by simp [hrefused]⟩
    · have hkept : ¬Refused record := fun hrefused => hrefused kind body hunframe mutation hdecode
      rw [loadRecords_applied hunframe hdecode]
      obtain ⟨found, hcorrupt, hintegrity, hfound⟩ := ih (document.applyMutation mutation)
      exact ⟨found, hcorrupt, hintegrity, by simp [hfound, hkept]⟩

/-- What loading a snapshot says of it: nothing is flagged exactly when it is well kept, and only one
that is not can be refused. -/
theorem loadSnapshot_flags (snapshot : Option Bytes) (options : StoreOptions) :
    (∃ document report, loadSnapshot snapshot options = .ok (document, report) ∧
        report.snapshotCorrupt = report.integrityFailure ∧
        (report.integrityFailure = false ↔ ∀ data ∈ snapshot, WellKeptSnapshot data options)) ∨
      (∃ status, loadSnapshot snapshot options = .error status) ∧
        options.tolerateCorruptSnapshot = false ∧
        ¬∀ data ∈ snapshot, WellKeptSnapshot data options := by
  cases snapshot with
  | none => exact .inl ⟨_, _, rfl, rfl, by simp⟩
  | some data =>
    cases hread : readSnapshot data (snapshotOptions options) with
    | error status =>
      have hbad : ¬WellKeptSnapshot data options := by
        rintro ⟨contents, hcontents, _⟩
        rw [hread] at hcontents
        cases hcontents
      by_cases htolerate : options.tolerateCorruptSnapshot = true
      · refine .inl ⟨{}, corruptSnapshot { snapshotPresent := true }
          ("snapshot refused: " ++ status.describe), ?_, rfl, ?_⟩
        · simp [loadSnapshot, hread, htolerate]
        · simp [corruptSnapshot, hbad]
      · refine .inr ⟨⟨status, ?_⟩, by simpa using htolerate, by simpa using hbad⟩
        simp [loadSnapshot, hread, htolerate]
    | ok contents =>
      obtain ⟨found, hcorrupt, hintegrity, hfound⟩ := loadRecords_flags contents.records
        (markedDocument contents.header) { snapshotPresent := true } ⟨rfl, rfl⟩
      have hload : loadSnapshot (some data) options =
          .ok ((loadRecords contents.records
              (markedDocument contents.header, { snapshotPresent := true })).1,
            { (loadRecords contents.records
                (markedDocument contents.header, { snapshotPresent := true })).2 with
              snapshotLoaded := !(loadRecords contents.records
                (markedDocument contents.header, { snapshotPresent := true })).2.snapshotCorrupt }) := by
        unfold loadSnapshot
        dsimp only
        rw [hread]
        rfl
      refine .inl ⟨_, _, hload, hcorrupt.trans hintegrity.symm, ?_⟩
      have hkept : WellKeptSnapshot data options ↔ ∀ record ∈ contents.records, ¬Refused record := by
        constructor
        · rintro ⟨contents', hread', hrecords⟩
          obtain rfl := Except.ok.inj (hread.symm.trans hread')
          exact hrecords
        · exact fun hrecords => ⟨contents, hread, hrecords⟩
      simp [hintegrity, hfound, hkept]

/-- An open that reports no integrity failure and leaves every byte where it was. -/
def OpensClean (disk : Disk) (options : StoreOptions) : Prop :=
  ∃ store, openDisk disk options = .ok store ∧ store.disk = disk ∧
    store.report.integrityFailure = false

theorem wellKept_journal_none (h : disk.journal = none) : ¬WellKept disk := by
  intro hkept
  obtain ⟨file, hfile, _⟩ := hkept.journal
  rw [h] at hfile
  cases hfile

/-- What an open of a directory with a journal shows of it. -/
theorem openDisk_flags (hfile : disk.journal = some file) :
    (∃ store, openDisk disk options = .ok store ∧
      (store.report.snapshotCorrupt = true → store.report.integrityFailure = true) ∧
      (store.report.integrityFailure = false ↔
        torn file = false ∧ Intact file ∧ ∀ data ∈ disk.snapshot, WellKeptSnapshot data options) ∧
      (torn file = false → store.disk = disk)) ∨
    (∃ status, openDisk disk options = .error status) ∧
      ¬(Intact file ∧ ∀ data ∈ disk.snapshot, WellKeptSnapshot data options) := by
  rcases loadSnapshot_flags disk.snapshot options with
    ⟨document, report, hload, hcorrupt, hkept⟩ | ⟨⟨status, hload⟩, _, hbad⟩
  · by_cases hintact : Intact file
    · obtain ⟨store, hopen, hover⟩ := openDisk_intact hload hfile hintact
      refine .inl ⟨store, hopen, fun hfound => ?_, ?_, fun htorn => ?_⟩
      · rw [hover.integrityFailure, ← hcorrupt, ← hover.snapshotCorrupt, hfound, Bool.true_or]
      · rw [hover.integrityFailure, Bool.or_eq_false_iff, hkept]
        simp [hintact, and_comm]
      · rw [hover.disk, (wholeBytes_eq_iff hintact).mpr htorn, ite_self, ← hfile]
    · obtain ⟨status, hdamaged⟩ := openDisk_damaged hintact
      exact .inr ⟨⟨status, hdamaged disk options hfile (congrArg Result.isOk hload)⟩,
        fun h => hintact h.1⟩
  · refine .inr ⟨⟨status, ?_⟩, fun h => hbad h.2⟩
    unfold openDisk
    rw [hload]
    rfl

/-- Opening cleanly is the same in every mode, tolerant or not: it takes a well-kept directory. -/
theorem opensClean_iff (hbounds : snapshotOptions options = snapshotOptions {}) :
    OpensClean disk options ↔ WellKept disk := by
  have hsnapshot : ∀ data, WellKeptSnapshot data options ↔ WellKeptSnapshot data {} := by
    intro data
    unfold WellKeptSnapshot
    rw [hbounds]
  cases hfile : disk.journal with
  | none =>
    refine iff_of_false ?_ (wellKept_journal_none hfile)
    rintro ⟨store, _, hdisk, _⟩
    rw [← hdisk] at hfile
    cases hfile
  | some file =>
    have hwell : WellKept disk ↔ torn file = false ∧ Intact file ∧
        ∀ data ∈ disk.snapshot, WellKeptSnapshot data options := by
      constructor
      · intro hkept
        obtain ⟨file', hfile', hfit, hjournal⟩ := hkept.journal
        obtain rfl := Option.some.inj (hfile.symm.trans hfile')
        obtain ⟨hintact, htorn⟩ := (wellKeptJournal_iff hfit).mp hjournal
        exact ⟨htorn, hintact, fun data hdata => (hsnapshot data).mpr (hkept.snapshot data hdata)⟩
      · rintro ⟨htorn, hintact, hdata⟩
        exact ⟨⟨file, hfile, hintact.1, (wellKeptJournal_iff hintact.1).mpr ⟨hintact, htorn⟩⟩,
          fun data hmem => (hsnapshot data).mp (hdata data hmem)⟩
    rw [hwell]
    rcases @openDisk_flags options disk file hfile with
      ⟨store, hopen, _, hflags, hdisk⟩ | ⟨⟨status, hopen⟩, hbad⟩
    · constructor
      · rintro ⟨store', hopen', _, hclean⟩
        obtain rfl := Except.ok.inj (hopen.symm.trans hopen')
        exact hflags.mp hclean
      · intro hkept
        exact ⟨store, hopen, hdisk hkept.1, hflags.mpr hkept⟩
    · refine iff_of_false ?_ (fun hkept => hbad hkept.2)
      rintro ⟨store', hopen', _⟩
      rw [hopen] at hopen'
      cases hopen'

theorem runVerify_eq_zero : runVerify disk = 0 ↔ OpensClean disk ctlOptions := by
  unfold runVerify OpensClean openReadOnly
  cases hopen : openDisk disk ctlOptions with
  | error status => simp
  | ok store =>
    obtain ⟨_, hdisk⟩ := openDisk_readOnly rfl hopen
    have hflagged : store.report.snapshotCorrupt = true → store.report.integrityFailure = true := by
      rcases hfile : disk.journal with _ | file
      · rw [← hdisk] at hfile
        cases hfile
      · rcases @openDisk_flags ctlOptions disk file hfile with
          ⟨store', hopen', hflagged, _⟩ | ⟨⟨status, hopen'⟩, _⟩
        · obtain rfl := Except.ok.inj (hopen.symm.trans hopen')
          exact hflagged
        · rw [hopen] at hopen'
          cases hopen'
    cases hintegrity : store.report.integrityFailure <;>
      cases hcorrupt : store.report.snapshotCorrupt <;> simp_all

/-- `verify` passes a directory exactly when it holds a log of sealed records, at most with the
beginning of a first one, and no snapshot or one that reads with all its records; and exactly then a
writable open that tolerates no damage finds none and changes no byte. -/
theorem verify_exact (disk : Disk) : (runVerify disk = 0 ↔ WellKept disk) ∧
    (runVerify disk = 0 ↔ OpensClean disk { tolerateCorruptSnapshot := false }) := by
  have hreads : OpensClean disk ctlOptions ↔ WellKept disk := opensClean_iff rfl
  have hstrict : OpensClean disk { tolerateCorruptSnapshot := false } ↔ WellKept disk :=
    opensClean_iff rfl
  exact ⟨runVerify_eq_zero.trans hreads, runVerify_eq_zero.trans (hreads.trans hstrict.symm)⟩

end Store

end CongestionFabric
