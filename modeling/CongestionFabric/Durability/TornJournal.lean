import CongestionFabric.Durability.Reopen
import CongestionFabric.Lib.Run

namespace CongestionFabric

namespace Store

/-- The file is empty or its first record is whole. -/
def WholeFirst (journal : Bytes) : Prop :=
  journal = [] ∨ ∃ record rest,
    Journal.readRecord limits.kMaxJournalRecordBytes journal = .record record rest

instance (journal : Bytes) : Decidable (WholeFirst journal) :=
  if hnil : journal = [] then isTrue (.inl hnil)
  else match h : Journal.readRecord limits.kMaxJournalRecordBytes journal with
    | .record record rest => isTrue (.inr ⟨record, rest, h⟩)
    | .short _ => isFalse (not_or.mpr ⟨hnil, fun ⟨_, _, hw⟩ => nomatch h.symm.trans hw⟩)
    | .bad _ => isFalse (not_or.mpr ⟨hnil, fun ⟨_, _, hw⟩ => nomatch h.symm.trans hw⟩)

/-- The attempts a journal leaves unfinished over a document. -/
def unfinished (document : DurableDocument) (journal : Bytes) : List AttemptRecord :=
  ambiguousAttempts (replayFrom document
    (Scan.run (Journal.readRecord limits.kMaxJournalRecordBytes) journal).records)

/-- What is done to a store and to its directory. -/
inductive Upkeep where
  | call (stamp : MutationStamp) (c : StoreCall)
  | checkpoint
  | crash (kept : Nat) (snapshot : Option Bytes) (options : StoreOptions)

/-- Calls and checkpoints with any outcome, and crashes that spare the first record, under any
snapshot file, each followed by a writable open. -/
inductive Maintained (store : Store) : Upkeep → Store → Prop where
  | call (stamp : MutationStamp) (c : StoreCall) :
      Maintained store (.call stamp c) (store.call stamp c).1
  | checkpoint : Maintained store .checkpoint store.checkpoint.1
  | crash {kept : Nat} {snapshot : Option Bytes} {options : StoreOptions} {store' : Store}
      (hfirst : WholeFirst (store.journal.file.take kept)) (hwritable : options.readOnly = false)
      (hopen : openDisk ⟨some (store.journal.file.take kept), snapshot⟩ options = .ok store') :
      Maintained store (.crash kept snapshot options) store'

variable {store store' : Store} {records : List JournalRecord} {options : StoreOptions}

/-- What is left of a log that spares the first record: whole records and a torn one after them. -/
theorem Holds.take {journal : Journal} (h : Holds journal records) (kept : Nat) :
    ∃ read part, journal.file.take kept = logOf JournalRecord.encode read ++ part ∧
      (∀ record ∈ read, Sealed limits.kMaxJournalRecordBytes record) ∧
      TornTail JournalRecord.encode (Sealed limits.kMaxJournalRecordBytes) part ∧
      (journal.file.take kept).length ≤ limits.kMaxJournalBytes := by
  obtain ⟨part, htake, htorn⟩ := logOf_take h.whole kept
  refine ⟨_, part, by rw [h.file, htake], fun record hr => h.whole record (List.mem_of_mem_take hr),
    htorn, ?_⟩
  rw [List.length_take]
  exact le_trans (Nat.min_le_right _ _) (h.size ▸ h.fits)

theorem WholeFirst.records_or_nil (read : List JournalRecord) {part : Bytes}
    (h : WholeFirst (logOf JournalRecord.encode read ++ part))
    (htorn : TornTail JournalRecord.encode (Sealed limits.kMaxJournalRecordBytes) part) :
    part = [] ∨ read ≠ [] := by
  by_cases hread : read = []
  · left
    subst hread
    rcases h with hnil | ⟨record, rest, hwhole⟩
    · exact hnil
    · rcases htorn with hnil | ⟨r, hr, hp, hne⟩
      · exact hnil
      · obtain ⟨why, hshort⟩ := Journal.readRecord_torn hr hp hne
        exact absurd (hwhole.symm.trans hshort) nofun
  · exact .inr hread

theorem Holds.call (h : Holds store.journal records) (stamp : MutationStamp) (c : StoreCall) :
    ∃ written, Holds (store.call stamp c).1.journal (records ++ written) := by
  have hsame : ∃ written, Holds store.journal (records ++ written) :=
    ⟨[], by rw [List.append_nil]; exact h⟩
  rcases store.call_cases stamp c with ⟨status, hr⟩ | ⟨payload, _, hc⟩
  · rw [hr]
    exact hsame
  · rw [hc]
    unfold commit
    split
    next => exact hsame
    next =>
      have hgroup := h.appendGroup c.kind payload (c.stamped stamp)
      split
      next he =>
        rw [he] at hgroup
        exact hgroup
      next he =>
        rw [he] at hgroup
        split <;> exact hgroup

theorem Holds.checkpoint (h : Holds store.journal records) :
    ∃ records', Holds store.checkpoint.1.journal records' := by
  unfold Store.checkpoint
  split
  next => exact ⟨records, h⟩
  next =>
    split
    next => exact ⟨records, h⟩
    next =>
      dsimp only
      split
      next => exact ⟨records, h⟩
      next =>
        dsimp only [Journal.rebase]
        split
        next => exact ⟨records, h⟩
        next =>
          split
          next => exact ⟨records, h⟩
          next =>
            have hempty : Holds { store.journal with file := [], size := 0 } [] :=
              ⟨h.kept, h.recordBound, h.journalBound, rfl, rfl, Nat.zero_le _, by simp⟩
            obtain ⟨written, hw⟩ := hempty.append .rebase store.document.epoch
              store.document.authorityGeneration.value {} []
            exact ⟨_, hw⟩

theorem loadSnapshot_of_openDisk {disk : Disk} (h : openDisk disk options = .ok store) :
    ∃ document report, loadSnapshot disk.snapshot options = .ok (document, report) := by
  obtain ⟨⟨document, report⟩, hload, _⟩ := bind_ok.mp h
  exact ⟨document, report, hload⟩

/-- The journal of a maintained store is a log of whole records. -/
theorem Maintained.holds {upkeep : Upkeep} (hstep : Maintained store upkeep store')
    (h : ∃ records, Holds store.journal records) : ∃ records, Holds store'.journal records := by
  obtain ⟨records, h⟩ := h
  cases hstep with
  | call stamp c =>
    obtain ⟨written, hw⟩ := h.call stamp c
    exact ⟨_, hw⟩
  | checkpoint => exact h.checkpoint
  | @crash kept snapshot options _ hfirst hwritable hopen =>
    obtain ⟨read, part, htake, hsealed, htorn, hfit⟩ := h.take kept
    obtain ⟨document, report, hload⟩ := loadSnapshot_of_openDisk hopen
    rw [htake] at hfirst hfit
    obtain ⟨found, hfound, hholds, _⟩ := openDisk_torn hload (congrArg some htake) hfit hsealed
      htorn (hfirst.records_or_nil read htorn) (.inr hwritable)
    obtain rfl := Except.ok.inj (hopen.symm.trans hfound)
    exact ⟨read, hholds⟩

/-- A store that has committed calls since it was opened over a document and some records. -/
structure Continued (base : DurableDocument) (snapshot : Option Bytes) (read : List JournalRecord)
    (calls : List StoreCall) (store : Store) (written : List JournalRecord) : Prop where
  holds : Holds store.journal (read ++ written)
  snapshot : store.snapshot = snapshot
  resumes : store.journal.nextSequence =
    (replayFrom base (read ++ written)).document.lastSequence + 1
  position : (replayFrom base (read ++ written)).document.lastSequence.toNat =
    (replayFrom base read).document.lastSequence.toNat + 3 * calls.length
  pending : ∀ transaction slot,
    (replayFrom base (read ++ written)).pending.find? transaction = some slot →
      (replayFrom base read).pending.find? transaction = some slot
  folds : ∃ folded, (replayFrom base read).document.applyCalls calls = .ok folded ∧
    (replayFrom base (read ++ written)).document =
      { folded with lastSequence := (replayFrom base (read ++ written)).document.lastSequence }

theorem Continued.commit {base : DurableDocument} {snapshot : Option Bytes}
    {read written : List JournalRecord} {calls : List StoreCall}
    (h : Continued base snapshot read calls store written) {stamp : MutationStamp} {c : StoreCall}
    (hcall : store.call stamp c = (store', .ok ()))
    (hroom : (replayFrom base read).document.lastSequence.toNat + 3 * (calls.length + 1) < 2 ^ 64) :
    ∃ written', Continued base snapshot read (calls ++ [c]) store' (written ++ written') := by
  obtain ⟨payload, hencoded, hcommit⟩ : ∃ payload, c.encoded = .ok payload ∧
      store.call stamp c = store.commit c.kind payload (c.stamped stamp) := by
    rcases store.call_cases stamp c with ⟨status, hr⟩ | hc
    · rw [hr] at hcall
      cases (Prod.mk.inj hcall).2
    · exact hc
  obtain ⟨hkind, hholds, hnext, happly, hsnapshot, _⟩ := commit_ok h.holds (hcommit ▸ hcall)
  obtain ⟨folded, hfold, hreplay⟩ := h.folds
  obtain ⟨after, hafter⟩ := happly folded
  have hresumes := h.resumes
  have hposition := h.position
  have hpending := h.pending
  generalize hr : replayFrom base (read ++ written) = r at *
  have happly : r.document.apply c.kind payload =
      .ok { after with lastSequence := r.document.lastSequence } := by
    rw [hreplay]
    exact DurableDocument.apply_lastSequence hafter _
  obtain ⟨hdocument, hgone⟩ := replay_group_pending (c.stamped stamp) hkind
    (by omega) happly
  have hgroup : replayFrom base (read ++ (written ++ groupRecords c.kind payload (c.stamped stamp)
      store.journal.nextSequence)) = (groupRecords c.kind payload (c.stamped stamp)
        (r.document.lastSequence + 1)).foldl replayRecord r := by
    rw [← List.append_assoc, replayFrom, List.foldl_append, hresumes, ← hr]
    rfl
  refine ⟨groupRecords c.kind payload (c.stamped stamp) store.journal.nextSequence,
    List.append_assoc .. ▸ hholds, hsnapshot.trans h.snapshot, ?_, ?_, ?_, after,
    DurableDocument.applyCalls_snoc hfold hencoded hafter, ?_⟩
  · rw [hgroup, hdocument, hnext, hresumes]
  · obtain ⟨_, _, hlast⟩ := toNat_next (s := r.document.lastSequence) (by omega)
    rw [hgroup, hdocument, List.length_append, List.length_singleton]
    dsimp only
    omega
  · rw [hgroup]
    exact fun transaction slot hf => hpending transaction slot (hgone transaction slot hf)
  · rw [hgroup, hdocument]

variable {base : DurableDocument} {report report' : StoreReplay} {snapshot : Option Bytes}
  {read : List JournalRecord} {part : Bytes} {calls : List (Event Store (MutationStamp × StoreCall))}
  {first last : Store} {options' : StoreOptions}

/-- A successful call of a setter. -/
def Commits (store : Store) (input : MutationStamp × StoreCall) (store' : Store) : Prop :=
  store.call input.1 input.2 = (store', .ok ())

theorem Continued.run (run : Run Commits first calls last)
    (h : Continued base snapshot read [] first [])
    (hroom : (replayFrom base read).document.lastSequence.toNat + 3 * calls.length < 2 ^ 64) :
    ∃ written, Continued base snapshot read (calls.map (·.input.2)) last written := by
  induction run with
  | start => exact ⟨[], h⟩
  | @next calls store store' input _ hcall ih =>
    rw [List.length_append, List.length_singleton] at hroom
    obtain ⟨written, hw⟩ := ih (by omega)
    obtain ⟨written', hw'⟩ := hw.commit hcall (by simpa using hroom)
    exact ⟨_, by simpa using hw'⟩

theorem scan_records (hsealed : ∀ record ∈ read, Sealed limits.kMaxJournalRecordBytes record)
    (htorn : TornTail JournalRecord.encode (Sealed limits.kMaxJournalRecordBytes) part) :
    (Scan.run (Journal.readRecord limits.kMaxJournalRecordBytes)
      (logOf JournalRecord.encode read ++ part)).records = read := by
  by_cases hpart : part = []
  · rw [hpart, List.append_nil, Scan.run_logOf Journal.framing hsealed]
  · obtain ⟨why, hscan⟩ := Scan.run_logOf_torn Journal.framing hsealed htorn hpart
    rw [hscan]

theorem replay_short (journal : Journal)
    (hbound : journal.options.maxRecordBytes = limits.kMaxJournalRecordBytes)
    (hfit : journal.file.length ≤ journal.options.maxJournalBytes)
    (htorn : TornTail JournalRecord.encode (Sealed limits.kMaxJournalRecordBytes) journal.file)
    (hpart : journal.file ≠ []) :
    ∃ replay, journal.replay = .ok replay ∧ replay.records = [] ∧ replay.status = .empty := by
  obtain ⟨why, hscan⟩ := Scan.run_torn Journal.framing htorn hpart
  unfold Journal.replay
  rw [if_neg (not_lt.mpr hfit), hbound, hscan]
  exact ⟨_, rfl, rfl, rfl⟩

/-- A file that holds less than one record reads as empty and is left as it is. -/
theorem openDisk_short (disk : Disk)
    (hload : loadSnapshot disk.snapshot options = .ok (base, report))
    (hfile : disk.journal = some part)
    (htorn : TornTail JournalRecord.encode (Sealed limits.kMaxJournalRecordBytes) part)
    (hpart : part ≠ []) (hfit : part.length ≤ limits.kMaxJournalBytes) :
    ∃ store, openDisk disk options = .ok store ∧ store.disk = disk ∧
      store.document = (retainAmbiguous (replayFrom base [])).document := by
  have hopen : Journal.openFile disk.journal (journalOptions options) =
      .ok { options := journalOptions options, file := part, isOpen := true
            size := part.length } := by
    rw [hfile]
    rfl
  obtain ⟨replay, hreplay, hrecords, hstatus⟩ := replay_short
    { options := journalOptions options, file := part, isOpen := true, size := part.length }
    rfl hfit htorn hpart
  obtain ⟨recovery, hdocument, heq⟩ := openDisk_eq hload hopen hreplay (by simp [hstatus])
  rw [settleTail, if_neg (by simp [hstatus])] at heq
  rw [hrecords] at hdocument
  refine ⟨_, heq, ?_, hdocument⟩
  obtain ⟨journal, snapshot⟩ := disk
  cases hfile
  simp [opened, Store.disk]

/-- Reopening a store whose journal holds its records. -/
theorem Holds.reopen (h : Holds store.journal records)
    (hload : loadSnapshot store.snapshot options = .ok (base, report)) :
    ∃ second, openDisk store.disk options = .ok second ∧
      second.document = (retainAmbiguous (replayFrom base records)).document := by
  have hfit : (logOf JournalRecord.encode records ++ []).length ≤ limits.kMaxJournalBytes := by
    rw [List.append_nil, ← h.file, ← h.size]
    exact h.fits
  have hfile : store.disk.journal = some (logOf JournalRecord.encode records ++ []) := by
    rw [List.append_nil, ← h.file]
    rfl
  have hkept : loadSnapshot store.disk.snapshot options = .ok (base, report) := hload
  obtain ⟨second, hopen, _, hdocument, _⟩ := openDisk_torn hkept hfile hfit h.whole (.inl rfl) (.inl rfl) (.inl rfl)
  exact ⟨second, hopen, hdocument⟩

theorem openDisk_empty (hwritable : options.readOnly = false)
    (hopen : openDisk {} options = .ok store) : ∃ records, Holds store.journal records := by
  have hload : loadSnapshot ({ journal := some [] } : Disk).snapshot options = .ok ({}, {}) := rfl
  have hfile : ({ journal := some [] } : Disk).journal =
      some (logOf JournalRecord.encode [] ++ []) := rfl
  obtain ⟨store', hopen', hholds, _⟩ :=
    openDisk_torn hload hfile (by decide) (by simp) (.inl rfl) (.inl rfl) (.inl rfl)
  obtain rfl := Except.ok.inj (hopen.symm.trans ((openDisk_none hwritable).trans hopen'))
  exact ⟨[], hholds⟩

/-! ### Reopening after commits -/

/-- Replay that finds nothing unfinished gives the document as it is. -/
theorem retainAmbiguous_none {r : Recovery} (h : ambiguousAttempts r = []) :
    (retainAmbiguous r).document = r.document := by
  rw [retainAmbiguous, h]
  dsimp only
  rw [List.append_nil]

/-- Reopening a store nothing was committed to since it was opened. -/
theorem Holds.reopen_same (h : Holds first.journal read)
    (hdocument : first.document = (retainAmbiguous (replayFrom base read)).document)
    (hload : loadSnapshot first.snapshot options' = .ok (base, report')) :
    ∃ second, openDisk first.disk options' = .ok second ∧ second.document = first.document := by
  obtain ⟨second, hopen, hsecond⟩ := h.reopen hload
  exact ⟨second, hopen, hsecond.trans hdocument.symm⟩

theorem Continued.start (hjournal : Holds first.journal read) (hsnapshot : first.snapshot = snapshot)
    (hresume : (replayFrom base read).document.lastSequence + 1 ≠ 0 →
      first.journal.nextSequence = (replayFrom base read).document.lastSequence + 1)
    (hroom : (replayFrom base read).document.lastSequence.toNat + 3 < 2 ^ 64) :
    Continued base snapshot read [] first [] := by
  have hnonzero : (replayFrom base read).document.lastSequence + 1 ≠ 0 := fun hzero => by
    have hnext := (toNat_next hroom).1
    rw [hzero] at hnext
    exact absurd hnext.symm (Nat.succ_ne_zero _)
  refine ⟨?_, hsnapshot, ?_, ?_, ?_, (replayFrom base read).document, rfl, ?_⟩
  all_goals rw [List.append_nil]
  · exact hjournal
  · exact hresume hnonzero
  · rfl
  · exact fun _ _ hf => hf

/-- Where nothing was unfinished, reopening finds what was recovered and what was committed since. -/
theorem Continued.survives {calls : List StoreCall} {written : List JournalRecord}
    (h : Continued base snapshot read calls last written)
    (hnone : ambiguousAttempts (replayFrom base read) = [])
    (hload : loadSnapshot snapshot options' = .ok (base, report')) :
    ∃ after second, (replayFrom base read).document.applyCalls calls = .ok after ∧
      openDisk last.disk options' = .ok second ∧
      second.document = { after with
        lastSequence := UInt64.ofNat
          ((replayFrom base read).document.lastSequence.toNat + 3 * calls.length) } := by
  obtain ⟨after, hafter, hreplay⟩ := h.folds
  obtain ⟨second, hopen, hsecond⟩ := h.holds.reopen (h.snapshot ▸ hload)
  refine ⟨after, second, hafter, hopen, ?_⟩
  have hsettled : ambiguousAttempts (replayFrom base (read ++ written)) = [] :=
    ambiguousAttempts_nil.mpr fun transaction slot hf =>
      ambiguousAttempts_nil.mp hnone transaction slot (h.pending transaction slot hf)
  rw [hsecond, retainAmbiguous_none hsettled, ← h.position, UInt64.ofNat_toNat]
  exact hreplay

/-- Over any snapshot, a journal cut by a crash opens; and when its first record was spared and it
leaves nothing unfinished, or when nothing is committed, it opens again after any commits, with just
what the first open recovered and the commits. -/
theorem commits_survive_reopen {options₀ : StoreOptions} {store₀ : Store}
    {es : List (Event Store Upkeep)} {kept : Nat} (hwritable₀ : options₀.readOnly = false)
    (hopen₀ : openDisk {} options₀ = .ok store₀) (produced : Run Maintained store₀ es store)
    (hwritable : options.readOnly = false)
    (hload : loadSnapshot snapshot options = .ok (base, report)) :
    ∃ first, openDisk ⟨some (store.journal.file.take kept), snapshot⟩ options = .ok first ∧
      ∀ {calls last options' report'}, Run Commits first calls last →
        (WholeFirst (store.journal.file.take kept) ∧
          unfinished base (store.journal.file.take kept) = [] ∨ calls = []) →
        first.document.lastSequence.toNat + 3 * calls.length < 2 ^ 64 →
        loadSnapshot snapshot options' = .ok (base, report') →
        ∃ after second, first.document.applyCalls (calls.map (·.input.2)) = .ok after ∧
          openDisk last.disk options' = .ok second ∧
          second.document = { after with
            lastSequence := UInt64.ofNat
              (first.document.lastSequence.toNat + 3 * calls.length) } := by
  obtain ⟨records, hholds⟩ : ∃ records, Holds store.journal records :=
    produced.invariant (P := fun s => ∃ records, Holds s.journal records)
      (openDisk_empty hwritable₀ hopen₀) fun _ _ _ h hstep => hstep.holds h
  obtain ⟨read, part, htake, hsealed, htorn, hfit⟩ := hholds.take kept
  rw [htake] at hfit ⊢
  by_cases hfirst : part = [] ∨ read ≠ []
  · have hdisk : loadSnapshot
        (⟨some (logOf JournalRecord.encode read ++ part), snapshot⟩ : Disk).snapshot options =
          .ok (base, report) := hload
    obtain ⟨first, hopen, hjournal, hdocument, hsnapshot, _, hresume⟩ :=
      openDisk_torn hdisk rfl hfit hsealed htorn hfirst (.inr hwritable)
    refine ⟨first, hopen, fun {calls last options' report'} run hcondition hroom hload' => ?_⟩
    have hkept : first.snapshot = snapshot := hsnapshot
    by_cases hcalls : calls = []
    · subst hcalls
      obtain rfl := run.nil_eq
      obtain ⟨second, hopen', hsame⟩ := hjournal.reopen_same hdocument (hkept ▸ hload')
      exact ⟨last.document, second, rfl, hopen', by simp [hsame]⟩
    · have hnone : ambiguousAttempts (replayFrom base read) = [] := by
        have hnone := (hcondition.resolve_right hcalls).2
        rwa [unfinished, scan_records hsealed htorn] at hnone
      rw [retainAmbiguous_none hnone] at hdocument
      rw [hdocument] at hroom ⊢
      have hlength : 0 < calls.length := List.length_pos_iff.mpr hcalls
      obtain ⟨written, hw⟩ :=
        (Continued.start hjournal hkept hresume (by omega)).run run hroom
      have hsurvives := hw.survives hnone hload'
      rwa [List.length_map] at hsurvives
  · obtain ⟨hpart, hread⟩ := not_or.mp hfirst
    rw [not_not] at hread
    subst hread
    obtain ⟨first, hopen, hdisk, hdocument⟩ := openDisk_short ⟨some part, snapshot⟩
      hload rfl htorn hpart hfit
    refine ⟨first, hopen, fun {calls last options' report'} run hcondition _ hload' => ?_⟩
    have hcalls : calls = [] := hcondition.resolve_left fun hw =>
      (WholeFirst.records_or_nil [] hw.1 htorn).elim hpart (absurd rfl)
    subst hcalls
    obtain rfl := run.nil_eq
    obtain ⟨second, hopen', _, hdocument'⟩ := openDisk_short ⟨some part, snapshot⟩
      hload' rfl htorn hpart hfit
    have hsame : second.document = last.document := hdocument'.trans hdocument.symm
    exact ⟨last.document, second, rfl, hdisk ▸ hopen', by simp [hsame]⟩

def advanced (store : Store) (n : UInt64) : Store :=
  (store.call {} (.advanceEpoch ⟨n⟩ ⟨1⟩ n)).1

/-- Two commits on an empty directory. -/
def advancedTwice : Store := (fresh.advanced 1).advanced 2

theorem produced_once : ∃ es, Run Maintained fresh es (fresh.advanced 1) :=
  ⟨_, Run.start.next (Maintained.call {} (.advanceEpoch ⟨1⟩ ⟨1⟩ 1))⟩

theorem produced_twice : ∃ es, Run Maintained fresh es advancedTwice := by
  obtain ⟨es, produced⟩ := produced_once
  exact ⟨_, produced.next (Maintained.call {} (.advanceEpoch ⟨2⟩ ⟨1⟩ 2))⟩

/-- What an open makes of the first bytes of a journal. -/
@[irreducible]
def afterCrash (store : Store) (kept : Nat) : Store :=
  match openDisk (store.crashed kept) {} with
  | .ok store => store
  | .error _ => {}

set_option maxRecDepth 100000 in
theorem afterCrash_midgroup : WholeFirst (advancedTwice.journal.file.take 334) ∧
    unfinished {} (advancedTwice.journal.file.take 334) = [] ∧
    ((afterCrash advancedTwice 334).call {} (.advanceEpoch ⟨3⟩ ⟨1⟩ 3)).2 = .ok () ∧
    (afterCrash advancedTwice 334).document.lastSequence = 3 ∧
    (afterCrash advancedTwice 334).document.epoch = ⟨1⟩ ∧
    ((afterCrash advancedTwice 334).document.applyCalls [.advanceEpoch ⟨3⟩ ⟨1⟩ 3]).map
      (·.epoch) = .ok ⟨3⟩ := by
  decide +kernel

set_option maxRecDepth 100000 in
/-- A crash in the payload record of the second of two commits, and a third commit after it: the
first and the third are there when the store is opened again. -/
theorem commits_survive_reopen_midgroup : ∃ after second,
    (afterCrash advancedTwice 334).document.applyCalls [.advanceEpoch ⟨3⟩ ⟨1⟩ 3] = .ok after ∧
      openDisk ((afterCrash advancedTwice 334).advanced 3).disk {} = .ok second ∧
      second.document = { after with lastSequence := 6 } ∧ after.epoch = ⟨3⟩ := by
  obtain ⟨hfirst, hnone, hcall, hsequence, -, hepoch⟩ := afterCrash_midgroup
  obtain ⟨es, produced⟩ := produced_twice
  have hload : loadSnapshot none {} = .ok ({}, {}) := rfl
  obtain ⟨first, hopen, hsurvive⟩ := @commits_survive_reopen _ {} {} {} none {} _ es 334 rfl
    openDisk_fresh produced rfl hload
  have hsame : first = afterCrash advancedTwice 334 := by
    have hcrashed : openDisk (advancedTwice.crashed 334) {} = .ok first := hopen
    rw [afterCrash, hcrashed]
  subst hsame
  have hcommit : Commits (afterCrash advancedTwice 334) ({}, .advanceEpoch ⟨3⟩ ⟨1⟩ 3)
      ((afterCrash advancedTwice 334).advanced 3) := Prod.ext rfl hcall
  obtain ⟨after, second, hafter, hsecond, hdocument⟩ := hsurvive
    (Run.start.next hcommit) (.inl ⟨hfirst, hnone⟩) (by rw [hsequence]; decide) hload
  have hafter' : ((afterCrash advancedTwice 334).document.applyCalls
    [.advanceEpoch ⟨3⟩ ⟨1⟩ 3]) = .ok after := hafter
  rw [hafter'] at hepoch
  rw [hsequence] at hdocument
  exact ⟨after, second, hafter', hsecond, hdocument, Except.ok.inj hepoch⟩

set_option maxRecDepth 100000 in
theorem afterCrash_torn : (openDisk ((fresh.advanced 1).crashed 10) {}).isOk = true ∧
    ((afterCrash (fresh.advanced 1) 10).call {} (.advanceEpoch ⟨2⟩ ⟨1⟩ 2)).2 = .ok () ∧
    (openDisk ((afterCrash (fresh.advanced 1) 10).advanced 2).disk {}).code = .corrupt := by
  decide +kernel

set_option maxRecDepth 100000 in
theorem afterCrash_unfinished : (openDisk ((fresh.advanced 1).crashed 200) {}).isOk = true ∧
    ((afterCrash (fresh.advanced 1) 200).call {} (.advanceEpoch ⟨2⟩ ⟨1⟩ 2)).2 = .ok () ∧
    (afterCrash (fresh.advanced 1) 200).document.attempts.length = 1 ∧
    (openDisk ((afterCrash (fresh.advanced 1) 200).advanced 2).disk {}).map
      (fun second => second.document.attempts.length) = .ok 0 := by
  decide +kernel

/-- Ten bytes of the first record left: the next commit is written after them, and the journal it
is in is refused. A whole payload left without its commit: the attempt that the first open lists is
gone from the second once something is committed. -/
theorem torn_journal_appended_past : ∃ (produced : Store) (es : List (Event Store Upkeep)),
    openDisk {} {} = .ok fresh ∧ Run Maintained fresh es produced ∧
      (∃ first last calls, openDisk ⟨some (produced.journal.file.take 10), none⟩ {} = .ok first ∧
        Run Commits first calls last ∧ (openDisk last.disk {}).code = .corrupt) ∧
      ∃ first last calls, openDisk ⟨some (produced.journal.file.take 200), none⟩ {} = .ok first ∧
        Run Commits first calls last ∧ first.document.attempts.length = 1 ∧
        (openDisk last.disk {}).map (fun second => second.document.attempts.length) = .ok 0 := by
  have hfound : ∀ kept, (openDisk ((fresh.advanced 1).crashed kept) {}).isOk = true →
      openDisk ⟨some ((fresh.advanced 1).journal.file.take kept), none⟩ {} =
        .ok (afterCrash (fresh.advanced 1) kept) := by
    intro kept hopen
    obtain ⟨first, hfirst⟩ := Result.exists_of_isOk hopen
    rw [afterCrash, hfirst]
    exact hfirst
  have hcommits : ∀ kept,
      ((afterCrash (fresh.advanced 1) kept).call {} (.advanceEpoch ⟨2⟩ ⟨1⟩ 2)).2 = .ok () →
      Commits (afterCrash (fresh.advanced 1) kept) ({}, .advanceEpoch ⟨2⟩ ⟨1⟩ 2)
        ((afterCrash (fresh.advanced 1) kept).advanced 2) := fun kept hcall => Prod.ext rfl hcall
  obtain ⟨es, produced⟩ := produced_once
  obtain ⟨hopen, hcall, hcorrupt⟩ := afterCrash_torn
  obtain ⟨hopen', hcall', hlisted, hlost⟩ := afterCrash_unfinished
  exact ⟨_, es, openDisk_fresh, produced,
    ⟨_, _, _, hfound 10 hopen, Run.start.next (hcommits 10 hcall), hcorrupt⟩,
    ⟨_, _, _, hfound 200 hopen', Run.start.next (hcommits 200 hcall'), hlisted, hlost⟩⟩

end Store

end CongestionFabric
