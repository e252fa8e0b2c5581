import CongestionFabric.Durability.Reopen
import CongestionFabric.Durability.SnapshotDamage

namespace CongestionFabric

namespace Store

variable {options : StoreOptions} {disk : Disk} {document : DurableDocument} {report : StoreReplay}

/-! ### Opening over any journal -/

/-- The journal can be opened and is not found corrupt. -/
def JournalReadable (file : Option Bytes) (options : StoreOptions) (journal : Journal)
    (replay : JournalReplay) : Prop :=
  Journal.openFile file (journalOptions options) = .ok journal ∧ journal.replay = .ok replay ∧
    replay.status ≠ .corrupt

theorem replay_validBytes {journal : Journal} {replay : JournalReplay}
    (h : journal.replay = .ok replay) : replay.validBytes ≤ journal.file.length := by
  unfold Journal.replay at h
  split at h
  · cases h
  · obtain rfl := Except.ok.inj h
    exact Nat.sub_le _ _

/-- A journal that was opened is settled whatever its tail. -/
theorem settleTail_opened {file : Option Bytes} {journal : Journal} {replay : JournalReplay}
    (h : JournalReadable file options journal replay) (next : UInt64) (report : StoreReplay) :
    ∃ settled report', settleTail (journal.resumeSequence next) replay report options.readOnly =
        .ok (settled, report') ∧ report'.recordsSkipped = report.recordsSkipped := by
  obtain ⟨hopen, hreplay, _⟩ := h
  have hvalid := replay_validBytes hreplay
  have hjournal : journal.options.readOnly = options.readOnly ∧ journal.isOpen = true ∧
      journal.size = journal.file.length := by
    unfold Journal.openFile at hopen
    split at hopen
    · obtain rfl := Except.ok.inj hopen
      exact ⟨rfl, rfl, rfl⟩
    · split at hopen
      · cases hopen
      · obtain rfl := Except.ok.inj hopen
        exact ⟨rfl, rfl, rfl⟩
  obtain ⟨hread, hisOpen, hsize⟩ := hjournal
  rw [Journal.resumeSequence_eq]
  unfold settleTail
  by_cases htail : replay.status = .truncatedTail
  · rw [if_pos htail]
    by_cases hreadOnly : options.readOnly = true
    · rw [if_pos hreadOnly]
      exact ⟨_, _, rfl, rfl⟩
    · rw [if_neg hreadOnly]
      have hcut : replay.validBytes ≤ journal.size := hsize ▸ hvalid
      unfold Journal.truncateTo
      rw [if_neg (by simp [hread, hreadOnly]), if_neg (by simp [hisOpen]),
        if_neg (not_lt.mpr hcut)]
      exact ⟨_, _, rfl, rfl⟩
  · rw [if_neg htail]
    exact ⟨_, _, rfl, rfl⟩

/-- How many records are skipped does not depend on what else was reported. -/
theorem replayRecord_skipped (r : Recovery) (report : StoreReplay)
    (h : report.recordsSkipped = r.report.recordsSkipped) (record : JournalRecord) :
    (replayRecord { r with report } record).report.recordsSkipped =
      (replayRecord r record).report.recordsSkipped := by
  unfold replayRecord
  dsimp only
  split_ifs
  · rw [h]
  · cases record.type with
    | intent =>
      dsimp only [noteIntent]
      split <;> exact h
    | commit =>
      dsimp only [noteCommit]
      split
      · exact h
      · split
        · exact h
        · split <;> exact h
    | _ => exact h

theorem foldl_replayRecord_skipped (records : List JournalRecord) (r : Recovery)
    (report : StoreReplay) (h : report.recordsSkipped = r.report.recordsSkipped) :
    (records.foldl replayRecord { r with report }).report.recordsSkipped =
      (records.foldl replayRecord r).report.recordsSkipped := by
  induction records generalizing r report with
  | nil => exact h
  | cons record rest ih =>
    obtain ⟨hdocument, hpending⟩ := replayRecord_report r report record
    have hstep : replayRecord { r with report } record =
        { replayRecord r record with report := (replayRecord { r with report } record).report } :=
      Recovery.ext hdocument hpending rfl
    rw [List.foldl_cons, List.foldl_cons, hstep]
    exact ih _ _ (replayRecord_skipped r report h record)

/-- An open replays the journal onto the document its snapshot loaded as. -/
theorem openDisk_loaded {journal : Journal} {replay : JournalReplay}
    (hload : loadSnapshot disk.snapshot options = .ok (document, report))
    (h : JournalReadable disk.journal options journal replay) :
    ∃ store, openDisk disk options = .ok store ∧
      store.document = (retainAmbiguous (replayFrom document replay.records)).document ∧
      (report.recordsSkipped = 0 → store.report.recordsSkipped =
        (replayFrom document replay.records).report.recordsSkipped) := by
  obtain ⟨hopen, hreplay, hclean⟩ := h
  have hrecovery := foldl_replayRecord_report replay.records { document }
    { report with journalPresent := true, journalStatus := replay.status }
  have hskipped := foldl_replayRecord_skipped replay.records { document }
    { report with journalPresent := true, journalStatus := replay.status }
  generalize hfound : replay.records.foldl replayRecord { document, report := { report with
    journalPresent := true, journalStatus := replay.status } } = recovery at hrecovery hskipped
  obtain ⟨settled, report', hsettle, hkept⟩ := settleTail_opened ⟨hopen, hreplay, hclean⟩
    ((retainAmbiguous recovery).document.lastSequence + 1) (retainAmbiguous recovery).report
  refine ⟨opened disk options (retainAmbiguous recovery).document (settled, report'), ?_, ?_, ?_⟩
  · unfold openDisk
    simp only [hload, hopen, hreplay, bind, Except.bind, if_neg hclean, hfound, hsettle]
    rfl
  · exact retainAmbiguous_document hrecovery.1 hrecovery.2
  · intro hzero
    exact hkept.trans (hskipped hzero)

theorem replay_nothing (document : DurableDocument) :
    (retainAmbiguous (replayFrom document [])).document = document := by
  change { document with attempts := document.attempts ++ [] } = document
  rw [List.append_nil]

theorem openDisk_refused {store : Store} (h : openDisk disk options = .ok store) :
    ∃ document report journal replay,
      loadSnapshot disk.snapshot options = .ok (document, report) ∧
      JournalReadable disk.journal options journal replay := by
  obtain ⟨⟨document, report⟩, hload, h⟩ := bind_ok.mp h
  obtain ⟨journal, hopen, h⟩ := bind_ok.mp h
  obtain ⟨replay, hreplay, h⟩ := bind_ok.mp h
  refine ⟨document, report, journal, replay, hload, hopen, hreplay, ?_⟩
  intro hcorrupt
  dsimp only at h
  rw [if_pos hcorrupt] at h
  cases h

/-! ### The records of a snapshot -/

/-- A record that does not unframe, or whose body does not decode to a mutation that applies. -/
def Refused (record : JournalRecord) : Prop :=
  ∀ kind body, unframeBody record.payload = .ok (kind, body) →
    ∀ mutation, decodeBody kind body ≠ .ok mutation

theorem refused_or_applied (record : JournalRecord) : Refused record ∨
    ∃ kind body mutation, unframeBody record.payload = .ok (kind, body) ∧
      decodeBody kind body = .ok mutation := by
  by_cases h : Refused record
  · exact .inl h
  · unfold Refused at h
    push Not at h
    obtain ⟨kind, body, hunframe, mutation, hdecode⟩ := h
    exact .inr ⟨kind, body, mutation, hunframe, hdecode⟩

theorem loadRecords_refused {record : JournalRecord} (h : Refused record)
    (rest : List JournalRecord) (document : DurableDocument) (report : StoreReplay) :
    ∃ report', loadRecords (record :: rest) (document, report) = (document, report') ∧
      report'.recordsSkipped = report.recordsSkipped := by
  unfold loadRecords
  split
  next => exact ⟨_, rfl, rfl⟩
  next kind body hunframe =>
    split
    next => exact ⟨_, rfl, rfl⟩
    next applied happly =>
      obtain ⟨mutation, hdecode, _⟩ := bind_ok.mp happly
      exact absurd hdecode (h kind body hunframe mutation)

theorem decodeBody_epoch {kind : MutationKind} {body : Bytes} {mark : EpochMark}
    (h : decodeBody kind body = .ok (.epochAdvance mark)) : mark.epoch.valid = true := by
  cases kind with
  | epochAdvance =>
    obtain ⟨found, hdecode, hp⟩ := bind_ok.mp h
    obtain rfl := Mutation.epochAdvance.inj (Except.ok.inj hp)
    obtain ⟨read, _, hdecode⟩ := bind_ok.mp hdecode
    obtain ⟨_, hcheck, hp⟩ := bind_ok.mp hdecode
    obtain rfl := Except.ok.inj hp
    have hcheck := refuseIf_ok.mp hcheck
    simp only [not_or, not_not] at hcheck
    exact hcheck.1
  | unknown => cases h
  | count => cases h
  | undeclared => cases h
  | _ =>
    obtain ⟨_, _, hp⟩ := bind_ok.mp h
    cases Except.ok.inj hp

theorem loadRecords_applied {record : JournalRecord} {kind : MutationKind} {body : Bytes}
    {mutation : Mutation} (hunframe : unframeBody record.payload = .ok (kind, body))
    (hdecode : decodeBody kind body = .ok mutation) (rest : List JournalRecord)
    (document : DurableDocument) (report : StoreReplay) :
    loadRecords (record :: rest) (document, report) =
      loadRecords rest (document.applyMutation mutation, report) := by
  have happly : document.apply kind body = .ok (document.applyMutation mutation) :=
    bind_ok.mpr ⟨mutation, hdecode, rfl⟩
  rw [loadRecords, hunframe]
  dsimp only
  rw [happly]

/-- Applying a mutation leaves something in the document. -/
theorem applyMutation_ne_empty {kind : MutationKind} {body : Bytes} {mutation : Mutation}
    (h : decodeBody kind body = .ok mutation) (document : DurableDocument) :
    document.applyMutation mutation ≠ {} := by
  have hpush {α : Type} (duplicate : α → Bool) (records : List α) (record : α) :
      pushUnless duplicate records record ≠ [] := by
    unfold pushUnless
    split
    next hany =>
      intro hnil
      rw [hnil] at hany
      cases hany
    next => exact List.append_ne_nil_of_right_ne_nil _ (List.cons_ne_nil _ _)
  have hsnoc {α : Type} (records : List α) (record : α) : records ++ [record] ≠ [] :=
    List.append_ne_nil_of_right_ne_nil _ (List.cons_ne_nil _ _)
  intro hempty
  cases mutation with
  | policySet policy => cases congrArg (·.policy) hempty
  | topologySet topology => cases congrArg (·.topology) hempty
  | capacitySet capacity => cases congrArg (·.capacity) hempty
  | domainState state =>
    have hdomains := congrArg (·.domains) hempty
    have hfound := document.domains.find?_insert_self state.domain state
    rw [show document.domains.insert state.domain state = ∅ from hdomains] at hfound
    cases hfound
  | intervention record => exact hpush _ _ _ (congrArg (·.interventions) hempty)
  | fence record => exact hpush _ _ _ (congrArg (·.fences) hempty)
  | epochAdvance mark =>
    have hepoch : mark.epoch = {} := congrArg (·.epoch) hempty
    have hvalid := decodeBody_epoch h
    rw [hepoch] at hvalid
    cases hvalid
  | revalidation record => exact hsnoc _ _ (congrArg (·.revalidations) hempty)
  | historyAppend entry => exact hsnoc _ _ (congrArg (·.history) hempty)
  | attemptRecord record => exact hsnoc _ _ (congrArg (·.attempts) hempty)
  | provenanceAppend provenance => exact hpush _ _ _ (congrArg (·.provenance) hempty)

/-- What was loaded is what the first records were loaded onto, or something is left of them. -/
theorem loadRecords_document (records : List JournalRecord) (document : DurableDocument)
    (report : StoreReplay) :
    (loadRecords records (document, report)).1 = document ∨
      (loadRecords records (document, report)).1 ≠ {} := by
  induction records generalizing document report with
  | nil => exact .inl rfl
  | cons record rest ih =>
    unfold loadRecords
    split
    next => exact .inl rfl
    next kind body hunframe =>
      split
      next => exact .inl rfl
      next applied happly =>
        obtain ⟨mutation, hdecode, hd⟩ := bind_ok.mp happly
        obtain rfl := Except.ok.inj hd
        rcases ih (document.applyMutation mutation) report with hsame | hne
        · right
          rw [hsame]
          exact applyMutation_ne_empty hdecode document
        · exact .inr hne

/-! ### Refusing a bad snapshot -/

/-- The container check fails, or a record of the container is refused. -/
def BadSnapshot (data : Bytes) (options : StoreOptions) : Prop :=
  ∀ contents, readSnapshot data (snapshotOptions options) = .ok contents →
    ∃ record ∈ contents.records, Refused record

/-- A directory with a bad snapshot is refused in full: it opens only when that is tolerated, with
the document, and over the skipped records, of its journal alone. -/
def RefusedInFull (disk : Disk) (options : StoreOptions) : Prop :=
  ∀ store, openDisk disk options = .ok store → options.tolerateCorruptSnapshot = true ∧
    ∃ alone, openDisk { disk with snapshot := none } options = .ok alone ∧
      store.document = alone.document ∧
      store.report.recordsSkipped = alone.report.recordsSkipped

/-- Nothing of a bad snapshot is loaded: its container check fails, or, where that is tolerated, its
marks are null and its first record is refused. -/
def LeavesNothing (data : Bytes) (options : StoreOptions) : Prop :=
  ∀ contents, readSnapshot data (snapshotOptions options) = .ok contents →
    options.tolerateCorruptSnapshot = true ∧ contents.header.lastSequence = 0 ∧
      contents.header.epoch = 0 ∧ contents.header.coordinatorBoot = 0 ∧
      contents.header.coordinatorBootCounter = 0 ∧
      ∀ record ∈ contents.records.head?, Refused record

/-- The document a container's records are loaded onto. -/
def markedDocument (header : SnapshotHeader) : DurableDocument where
  lastSequence := header.lastSequence
  epoch := ⟨header.epoch⟩
  coordinatorBoot := ⟨header.coordinatorBoot⟩
  coordinatorBootCounter := header.coordinatorBootCounter

theorem markedDocument_empty {header : SnapshotHeader} (h : markedDocument header = {}) :
    header.lastSequence = 0 ∧ header.epoch = 0 ∧ header.coordinatorBoot = 0 ∧
      header.coordinatorBootCounter = 0 :=
  ⟨congrArg (·.lastSequence) h, congrArg (·.epoch.value) h, congrArg (·.coordinatorBoot.value) h,
    congrArg (·.coordinatorBootCounter) h⟩

theorem loadSnapshot_read {data : Bytes} {contents : SnapshotContents}
    (h : readSnapshot data (snapshotOptions options) = .ok contents) :
    ∃ report, loadSnapshot (some data) options =
        .ok ((loadRecords contents.records
          (markedDocument contents.header, { snapshotPresent := true })).1, report) ∧
      report.recordsSkipped = (loadRecords contents.records
        (markedDocument contents.header, { snapshotPresent := true })).2.recordsSkipped := by
  unfold loadSnapshot
  dsimp only
  rw [h]
  exact ⟨_, rfl, rfl⟩

/-- With nothing loaded a directory opens as its journal does. -/
theorem refusedInFull_of_empty {data : Bytes} {file : Option Bytes} {report : StoreReplay}
    (htolerate : options.tolerateCorruptSnapshot = true)
    (hload : loadSnapshot (some data) options = .ok ({}, report))
    (hreport : report.recordsSkipped = 0) : RefusedInFull ⟨file, some data⟩ options := by
  intro store hopen
  obtain ⟨_, _, journal, replay, _, hjournal⟩ := openDisk_refused hopen
  obtain ⟨found, hfound, hdocument, hskipped⟩ :=
    @openDisk_loaded options ⟨file, some data⟩ _ _ _ _ hload hjournal
  obtain ⟨alone, halone, hdocument', hskipped'⟩ :=
    @openDisk_loaded options ⟨file, none⟩ {} {} _ _ rfl hjournal
  obtain rfl := Except.ok.inj (hopen.symm.trans hfound)
  exact ⟨htolerate, alone, halone, hdocument.trans hdocument'.symm,
    (hskipped hreport).trans (hskipped' rfl).symm⟩

/-- A bad snapshot is refused in full, whatever the journal, exactly when nothing of it is loaded. -/
theorem bad_snapshot_refused_iff {data : Bytes} (hbad : BadSnapshot data options) :
    (∀ journal, RefusedInFull ⟨journal, some data⟩ options) ↔ LeavesNothing data options := by
  cases hread : readSnapshot data (snapshotOptions options) with
  | error status =>
    refine ⟨fun _ contents hcontents => ?_, fun _ journal => ?_⟩
    · rw [hread] at hcontents
      cases hcontents
    · have hload : loadSnapshot (some data) options =
          if options.tolerateCorruptSnapshot then
            .ok ({}, corruptSnapshot { snapshotPresent := true }
              ("snapshot refused: " ++ status.describe))
          else .error status := by
        unfold loadSnapshot
        dsimp only
        rw [hread]
      by_cases htolerate : options.tolerateCorruptSnapshot = true
      · rw [if_pos htolerate] at hload
        exact refusedInFull_of_empty htolerate hload rfl
      · intro store hopen
        obtain ⟨_, _, _, _, hloaded, _⟩ := openDisk_refused hopen
        rw [if_neg htolerate] at hload
        cases hload.symm.trans hloaded
  | ok contents =>
    obtain ⟨report, hload, hreport⟩ := loadSnapshot_read hread
    have hall : LeavesNothing data options ↔ options.tolerateCorruptSnapshot = true ∧
        contents.header.lastSequence = 0 ∧ contents.header.epoch = 0 ∧
        contents.header.coordinatorBoot = 0 ∧ contents.header.coordinatorBootCounter = 0 ∧
        ∀ record ∈ contents.records.head?, Refused record := by
      constructor
      · intro h
        exact h contents hread
      · intro h found hfound
        obtain rfl := Except.ok.inj (hread.symm.trans hfound)
        exact h
    rw [hall]
    obtain ⟨bad, hmem, hrefused⟩ := hbad contents hread
    obtain ⟨record, rest, hrecords⟩ := List.exists_cons_of_ne_nil (List.ne_nil_of_mem hmem)
    constructor
    · intro h
      -- the empty journal brings to light whatever was loaded
      have hempty : JournalReadable (some []) options
          { options := journalOptions options, isOpen := true }
          { status := .empty } := ⟨rfl, rfl, by decide⟩
      obtain ⟨store, hopen, hdocument, _⟩ :=
        @openDisk_loaded options ⟨some [], some data⟩ _ _ _ _ hload hempty
      obtain ⟨htolerate, alone, halone, hsame, _⟩ := h (some []) store hopen
      obtain ⟨found, hfound, hdocument', _⟩ :=
        @openDisk_loaded options ⟨some [], none⟩ {} {} _ _ rfl hempty
      obtain rfl := Except.ok.inj (halone.symm.trans hfound)
      rw [hdocument, hdocument', replay_nothing, replay_nothing] at hsame
      have hnothing : (loadRecords contents.records
          (markedDocument contents.header, { snapshotPresent := true })).1 = {} := hsame
      have hmarks : markedDocument contents.header = {} := by
        rcases loadRecords_document contents.records (markedDocument contents.header)
          { snapshotPresent := true } with hkept | hne
        · exact hkept.symm.trans hnothing
        · exact absurd hnothing hne
      obtain ⟨hlast, hepoch, hboot, hcounter⟩ := markedDocument_empty hmarks
      refine ⟨htolerate, hlast, hepoch, hboot, hcounter, ?_⟩
      rw [hrecords]
      rintro found hfound
      obtain rfl := Option.some.inj hfound
      rcases refused_or_applied record with hr | ⟨kind, body, mutation, hunframe, hdecode⟩
      · exact hr
      · rw [hrecords, loadRecords_applied hunframe hdecode] at hnothing
        have hne := applyMutation_ne_empty hdecode (markedDocument contents.header)
        rcases loadRecords_document rest ((markedDocument contents.header).applyMutation mutation)
          { snapshotPresent := true } with hkept | hleft
        · exact absurd (hkept.symm.trans hnothing) hne
        · exact absurd hnothing hleft
    · rintro ⟨htolerate, hlast, hepoch, hboot, hcounter, hfirst⟩ journal
      have hmarks : markedDocument contents.header = {} := by
        unfold markedDocument
        rw [hlast, hepoch, hboot, hcounter]
      obtain ⟨loaded, hloaded, hskipped⟩ := loadRecords_refused
        (hfirst record (by rw [hrecords]; rfl)) rest (markedDocument contents.header)
        { snapshotPresent := true }
      rw [hrecords, hloaded] at hload hreport
      rw [hmarks] at hload
      exact refusedInFull_of_empty htolerate hload (hreport.trans hskipped)

/-- A container with marks, around one record without a body. -/
def markedSnapshot : Bytes :=
  match writeSnapshot { epoch := 3, lastSequence := 5 } [{}] {} with
  | .ok container => container
  | .error _ => []

theorem markedSnapshot_read : ∃ contents,
    readSnapshot markedSnapshot (snapshotOptions {}) = .ok contents ∧
      contents.header.epoch = 3 ∧ contents.header.lastSequence = 5 ∧
      contents.records = [sealSnapshotRecord {}] := by
  have hfits : Snapshottable [{}] {} := ⟨by decide, by decide, by decide⟩
  obtain ⟨container, hwrite⟩ := hfits.writes { epoch := 3, lastSequence := 5 }
  obtain ⟨header, footer, hcontainer, hlen, hagrees, hepoch, _, _, hlast, _⟩ :=
    writeSnapshot_ok (by decide) hwrite
  have hmarked : markedSnapshot = container := by
    unfold markedSnapshot
    rw [hwrite]
  have hbytes : ({} : SnapshotOptions).maxBytes = (snapshotOptions {}).maxBytes := rfl
  rw [hcontainer, hbytes] at hlen
  refine ⟨⟨header, [sealSnapshotRecord {}]⟩, ?_, hepoch, hlast, rfl⟩
  rw [hmarked, hcontainer, hagrees.read hlen]
  exact if_pos (by decide)

theorem refused_bare : Refused (sealSnapshotRecord {}) := by
  intro kind body hunframe
  cases hunframe

theorem markedSnapshot_bad : BadSnapshot markedSnapshot {} := by
  obtain ⟨contents, hread, _, _, hrecords⟩ := markedSnapshot_read
  intro found hfound
  obtain rfl := Except.ok.inj (hread.symm.trans hfound)
  rw [hrecords]
  exact ⟨_, List.mem_singleton_self _, refused_bare⟩

/-- Over a bad record a store opens that was not to tolerate it, and one that was keeps the marks of
the snapshot. -/
theorem bad_snapshot_kept : BadSnapshot markedSnapshot {} ∧
    (∃ store, openDisk ⟨some [], some markedSnapshot⟩ { tolerateCorruptSnapshot := false } =
      .ok store) ∧
    ∃ store, openDisk ⟨some [], some markedSnapshot⟩ {} = .ok store ∧
      store.document.epoch = ⟨3⟩ ∧ store.document.lastSequence = 5 := by
  refine ⟨markedSnapshot_bad, ?_⟩
  obtain ⟨contents, hread, hepoch, hlast, hrecords⟩ := markedSnapshot_read
  have hopens : ∀ tolerate : Bool, ∃ store,
      openDisk ⟨some [], some markedSnapshot⟩ { tolerateCorruptSnapshot := tolerate } = .ok store ∧
        store.document = markedDocument contents.header := by
    intro tolerate
    obtain ⟨report, hload, _⟩ :=
      @loadSnapshot_read { tolerateCorruptSnapshot := tolerate } _ _ hread
    obtain ⟨_, hloaded, _⟩ := loadRecords_refused refused_bare [] (markedDocument contents.header)
      { snapshotPresent := true }
    rw [hrecords, hloaded] at hload
    obtain ⟨store, hopen, hdocument, _⟩ := @openDisk_loaded { tolerateCorruptSnapshot := tolerate }
      ⟨some [], some markedSnapshot⟩ _ _ _ { status := .empty } hload ⟨rfl, rfl, by decide⟩
    exact ⟨store, hopen, hdocument.trans (replay_nothing _)⟩
  obtain ⟨strict, hstrict, _⟩ := hopens false
  obtain ⟨store, hopen, hdocument⟩ := hopens true
  refine ⟨⟨strict, hstrict⟩, store, hopen, ?_, ?_⟩
  · rw [hdocument, markedDocument, hepoch]
  · rw [hdocument, markedDocument, hlast]

theorem bad_snapshot_refused_iff_marked :
    (∀ journal, RefusedInFull ⟨journal, some markedSnapshot⟩ {}) ↔ LeavesNothing markedSnapshot {} :=
  bad_snapshot_refused_iff markedSnapshot_bad

end Store

end CongestionFabric
