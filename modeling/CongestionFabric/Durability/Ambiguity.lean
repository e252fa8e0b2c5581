import CongestionFabric.Durability.DanglingPayloads

namespace CongestionFabric

/-- The attempts a call records. -/
def StoreCall.appended : StoreCall → List AttemptRecord
  | .appendAttempt record => [record]
  | _ => []

/-- The entries of the group a call writes. -/
def StoreCall.entries (c : StoreCall) (stamp : MutationStamp) (n : UInt64) (author : Nat) :
    List JournalEntry :=
  match c.encoded with
  | .ok body => Store.groupEntries c.kind body (c.stamped stamp) n author
  | .error _ => []

/-- A store with the records of its journal, the number of calls so far, how many records the last
open found in the journal, how many the snapshot has, and what the opens reported. -/
structure Attempted where
  store : Store
  entries : List JournalEntry := []
  made : Nat := 0
  opened : Nat := 0
  saved : Nat := 0
  reports : List AttemptReport := []

inductive Incident where
  | call (stamp : MutationStamp) (c : StoreCall)
  | checkpoint
  | crash (kept : Nat) (options : StoreOptions)
  | halfway (options : StoreOptions)

namespace Attempted

open Store

def called (w : Attempted) (stamp : MutationStamp) (c : StoreCall) : Attempted :=
  let store := (w.store.call stamp c).1
  let written := (store.journal.nextSequence - w.store.journal.nextSequence).toNat
  { w with
    store
    entries := w.entries ++ (c.entries stamp w.store.journal.nextSequence w.made).take written
    made := w.made + 1 }

def checkpointed (w : Attempted) : Attempted :=
  match w.store.checkpoint with
  | (store, .error _) => { w with store }
  | (store, .ok _) =>
    { w with
      store
      entries := [⟨Journal.recordOf .rebase w.store.document.epoch
        w.store.document.authorityGeneration.value w.store.journal.nextSequence {} [], w.made⟩]
      opened := 0
      saved := w.store.document.compactCalls.length }

/-- The entries that lie whole in the first bytes of the journal. -/
def kept (w : Attempted) (n : Nat) : List JournalEntry :=
  w.entries.take (wholeRecords JournalRecord.encode (recordsOf w.entries) n)

def reopened (w : Attempted) (store : Store) (base : DurableDocument)
    (entries : List JournalEntry) : Attempted :=
  { w with
    store, entries, opened := entries.length, reports := w.reports ++ reportsOf base entries }

/-- Calls and checkpoints with any outcome; crashes that keep what the last open found in the journal
and any of the bytes written since; and crashes of a checkpoint between its snapshot and its rebase.
A writable open follows each crash. -/
inductive Step (w : Attempted) : Incident → Attempted → Prop where
  | call (stamp : MutationStamp) (c : StoreCall) : Step w (.call stamp c) (w.called stamp c)
  | checkpoint : Step w .checkpoint w.checkpointed
  | crash {n : Nat} {options : StoreOptions} {base : DurableDocument} {report : StoreReplay}
      {store : Store} (hkept : w.opened ≤ (w.kept n).length) (hwritable : options.readOnly = false)
      (hload : loadSnapshot w.store.snapshot options = .ok (base, report))
      (hopen : openDisk (w.store.crashed n) options = .ok store) :
      Step w (.crash n options) (w.reopened store base (w.kept n))
  | halfway {options : StoreOptions} {container : Bytes} {bounds : SnapshotOptions} {count : Nat}
      {base : DurableDocument} {report : StoreReplay} {store : Store}
      (hcompact : compact w.store.document = .ok (container, bounds, count))
      (hwritable : options.readOnly = false)
      (hload : loadSnapshot (some container) options = .ok (base, report))
      (hopen : openDisk { w.store.disk with snapshot := some container } options = .ok store) :
      Step w (.halfway options) { w.reopened store base w.entries with
        saved := w.store.document.compactCalls.length }

/-- What opens have reported ambiguous is in the document just once, and under one identity they have
reported the attempt of one call. -/
structure Remembers (w : Attempted) : Prop where
  once : ∀ report ∈ w.reports, ambiguousCount w.store.document report.attempt = 1
  told : Told w.reports

/-- The call passes the checks of a commit. -/
def Admits (store : Store) (c : StoreCall) : Prop :=
  ∃ body, c.encoded = .ok body ∧ store.admitMutation c.kind body = .ok ()

/-- The next transaction is not one that was reported, the counter can go on, the attempts stay within
their bound, and the call records no ambiguous attempt of its own under an identity that is or may
still be reported. -/
structure Clear (w : Attempted) (c : StoreCall) : Prop where
  unreported : ⟨w.store.journal.nextSequence⟩ ∉ identities w.reports
  counter : w.store.journal.nextSequence.toNat + 3 < 2 ^ 64
  bounded : Within w.store.options.maxAttempts (w.store.document.attempts ++ c.appended).length
  own : ∀ record ∈ c.appended, record.state = .ambiguous →
    record.attempt ∉ identities w.reports ∧
      record.attempt.value < w.store.journal.nextSequence ∧
      ∀ entry ∈ w.entries, entry.pays record.attempt = false

/-- Calls are clear when they are admitted, an open admits the records of the snapshot, a crash leaves
nothing or a whole record, and a checkpoint is not cut short while its journal holds the payload of
a reported attempt beyond the position of the document. -/
def Sheltered (w : Attempted) : Incident → Prop
  | .call _ c => Admits w.store c → w.Clear c
  | .checkpoint => w.store.journal.nextSequence.toNat + 1 < 2 ^ 64
  | .crash n options => w.saved ≤ (snapshotOptions options).maxRecords ∧
      (w.store.journal.file.take n = [] ∨ w.kept n ≠ [])
  | .halfway options =>
    w.store.document.compactCalls.length ≤ (snapshotOptions options).maxRecords ∧
      ∀ entry ∈ w.entries, ∀ id ∈ identities w.reports, entry.pays id = true →
        entry.record.header.sequence ≤ w.store.document.lastSequence

/-! ### Calls -/

variable {w w' : Attempted} {store : Store} {stamp : MutationStamp} {c : StoreCall} {body : Bytes}
  {records : List JournalRecord} {base : DurableDocument} {id : AttemptId}

/-- A call that is not admitted leaves the store. -/
theorem call_refused (h : ¬Admits store c) : (store.call stamp c).1 = store := by
  rcases store.call_cases stamp c with ⟨_, hr⟩ | ⟨body, hencoded, hc⟩
  · rw [hr]
  · rw [hc]
    cases hadmitted : store.admitMutation c.kind body with
    | error status =>
      unfold Store.commit
      rw [hadmitted]
    | ok _ => exact absurd ⟨body, hencoded, hadmitted⟩ h

/-- An admitted call writes nothing, stops early, or commits. -/
inductive Outcome (store : Store) (stamp : MutationStamp) (c : StoreCall) (body : Bytes)
    (records : List JournalRecord) : Store → Prop where
  | refused : Outcome store stamp c body records store
  | stopped {k : Nat} {journal : Journal} (hk : k ≤ 2)
      (holds : Holds journal
        (records ++ (groupRecords c.kind body (c.stamped stamp) store.journal.nextSequence).take k))
      (next : journal.nextSequence.toNat = store.journal.nextSequence.toNat + k) :
      Outcome store stamp c body records { store with journal }
  | committed {journal : Journal} {mutation : Mutation}
      (hm : decodeBody c.kind body = .ok mutation)
      (holds : Holds journal
        (records ++ groupRecords c.kind body (c.stamped stamp) store.journal.nextSequence))
      (next : journal.nextSequence = store.journal.nextSequence + 1 + 1 + 1) :
      Outcome store stamp c body records (pruneDocument
        (store.recorded journal (store.document.applyMutation mutation) (c.stamped stamp).generation))

variable (stamp) in
theorem call_outcome (hholds : Holds store.journal records) (hadmits : Admits store c)
    (hcounter : store.journal.nextSequence.toNat + 3 < 2 ^ 64) :
    ∃ body, c.encoded = .ok body ∧ body.length < 2 ^ 64 ∧
      Outcome store stamp c body records (store.call stamp c).1 := by
  obtain ⟨body, hencoded, hadmitted⟩ := hadmits
  obtain ⟨hone, htwo, _⟩ := toNat_next hcounter
  refine ⟨body, hencoded, admitMutation_length hadmitted, ?_⟩
  rcases store.call_cases stamp c with ⟨_, hr⟩ | ⟨found, hfound, hc⟩
  · rw [hr]
    exact .refused
  · obtain rfl := Except.ok.inj (hencoded.symm.trans hfound)
    rw [hc]
    rcases appendGroup_cases hholds c.kind body (c.stamped stamp) with ⟨status, he⟩ |
      ⟨status, after, he, hafter, hnext⟩ | ⟨status, after, he, hafter, hnext⟩ |
      ⟨after, he, hafter, hnext, _⟩
    · unfold Store.commit
      rw [hadmitted, he]
      exact .refused
    · unfold Store.commit
      rw [hadmitted, he]
      refine .stopped (k := 1) (by omega) hafter ?_
      rw [hnext]
      exact hone
    · unfold Store.commit
      rw [hadmitted, he]
      rw [List.append_assoc] at hafter
      refine .stopped (k := 2) (by omega) hafter ?_
      rw [hnext]
      exact htwo
    · obtain ⟨mutation, hm, _⟩ := bind_ok.mp (admitMutation_ok hadmitted).2.2
      rw [commit_of_recorded hadmitted he hm]
      exact .committed hm hafter hnext

/-- What the mutation of a call adds to the attempts. -/
theorem attempts_record (lists : Retained) (c : StoreCall) :
    (lists.record c.mutation).attempts = lists.attempts ++ c.appended := by
  cases c with
  | appendAttempt record => rfl
  | _ => exact (List.append_nil _).symm

theorem attempts_applyMutation {mutation : Mutation} (hencoded : c.encoded = .ok body)
    (hlength : body.length < 2 ^ 64) (hm : decodeBody c.kind body = .ok mutation)
    (d : DurableDocument) : (d.applyMutation mutation).attempts = d.attempts ++ c.appended := by
  have hlists := DurableDocument.retained_applyMutation d mutation
  rw [StoreCall.record_decodeBody hencoded hlength hm] at hlists
  exact (congrArg Retained.attempts hlists).trans (attempts_record d.retained c)

theorem take_entries (hencoded : c.encoded = .ok body) (n : UInt64) (author k : Nat) :
    (c.entries stamp n author).take k =
      (groupEntries c.kind body (c.stamped stamp) n author).take k := by
  unfold StoreCall.entries
  rw [hencoded]

theorem recordsOf_group (entries : List JournalEntry) (kind : MutationKind) (body : Bytes)
    (stamp : MutationStamp) (n : UInt64) (author k : Nat) :
    recordsOf (entries ++ (groupEntries kind body stamp n author).take k) =
      recordsOf entries ++ (groupRecords kind body stamp n).take k := by
  unfold recordsOf groupEntries
  rw [List.map_append, ← List.map_take, List.map_map]
  exact congrArg _ (List.map_id _)

/-! ### Soundness of a run -/

/-- The journal holds the entries over a snapshot that loads as `base`; from the last open on, every
front of them accounts for what was reported, and so does the document. -/
structure Sound (base : DurableDocument) (w : Attempted) : Prop where
  holds : Holds w.store.journal (recordsOf w.entries)
  writable : w.store.journal.options.readOnly = false
  running : w.store.journal.isOpen = true
  loads : ∀ options : StoreOptions, w.saved ≤ (snapshotOptions options).maxRecords →
    ∃ report, loadSnapshot w.store.snapshot options = .ok (base, report)
  founded : DurableDocument.Normal base
  normal : DurableDocument.Normal w.store.document
  found : w.opened ≤ w.entries.length
  traced : ∀ k, w.opened ≤ k → Traced base (w.entries.take k) w.reports
  behind : ∀ k, w.opened ≤ k →
    (replayFrom base (recordsOf (w.entries.take k))).document.lastSequence <
      w.store.journal.nextSequence
  placed : Placed w.store.document
    (replayFrom base (recordsOf w.entries)).document.lastSequence w.entries
  once : ∀ id ∈ identities w.reports, ambiguousCount w.store.document id = 1
  same : ∀ id ∉ identities w.reports, ambiguousCount w.store.document id =
    ambiguousCount (replayFrom base (recordsOf w.entries)).document id
  below : ∀ id ∉ identities w.reports, ambiguousCount w.store.document id ≠ 0 →
    id.value ≤ w.store.document.lastSequence
  told : Told w.reports

theorem Sound.whole (h : Sound base w) : Traced base w.entries w.reports ∧
    (replayFrom base (recordsOf w.entries)).document.lastSequence <
      w.store.journal.nextSequence := by
  have htraced := h.traced w.entries.length h.found
  have hbehind := h.behind w.entries.length h.found
  rw [List.take_length] at htraced hbehind
  exact ⟨htraced, hbehind⟩

theorem Sound.remembers (h : Sound base w) : w.Remembers :=
  ⟨fun _ hreport => h.once _ (List.mem_map_of_mem hreport), h.told⟩

/-- Entries are added at the end; the fronts from the last open on are old ones, or hold all the old
entries and a front of the new. -/
theorem fronts {P : List JournalEntry → Prop} {entries written : List JournalEntry} {opened : Nat}
    (hold : ∀ k, opened ≤ k → P (entries.take k)) (hnew : ∀ k, P (entries ++ written.take k)) :
    ∀ k, opened ≤ k → P ((entries ++ written).take k) := by
  intro k hk
  rw [List.take_append]
  rcases Nat.le_total k entries.length with hle | hge
  · rw [Nat.sub_eq_zero_of_le hle, List.take_zero, List.append_nil]
    exact hold k hk
  · rw [List.take_of_length_le hge]
    exact hnew _

/-- What the entries of a group account for, cut anywhere. -/
theorem Sound.group (h : Sound base w) (hclear : w.Clear c) (body : Bytes) (stamp : MutationStamp)
    (k : Nat) (hk : k ≤ 2) :
    Traced base (w.entries ++ (groupEntries c.kind body (c.stamped stamp)
        w.store.journal.nextSequence w.made).take k) w.reports ∧
      (replayFrom base (recordsOf (w.entries ++ (groupEntries c.kind body (c.stamped stamp)
        w.store.journal.nextSequence w.made).take k))).document =
          (replayFrom base (recordsOf w.entries)).document :=
  (h.whole.1.group c.kind_named h.whole.2 hclear.counter hclear.unreported).1 k hk

theorem ambiguousCount_append {d d' : DurableDocument} {appended : List AttemptRecord}
    (h : d'.attempts = d.attempts ++ appended) (id : AttemptId) :
    ambiguousCount d' id = ambiguousCount d id +
      appended.countP fun record => record.state = .ambiguous ∧ record.attempt = id := by
  unfold ambiguousCount
  rw [h, List.countP_append]

theorem Sound.groupCommitted (h : Sound base w) (hclear : w.Clear c)
    (hencoded : c.encoded = .ok body) (hlength : body.length < 2 ^ 64) {mutation : Mutation}
    (hm : decodeBody c.kind body = .ok mutation) (stamp : MutationStamp) :
    Traced base (w.entries ++ groupEntries c.kind body (c.stamped stamp)
        w.store.journal.nextSequence w.made) w.reports ∧
      (replayFrom base (recordsOf (w.entries ++ groupEntries c.kind body (c.stamped stamp)
        w.store.journal.nextSequence w.made))).document =
          { (replayFrom base (recordsOf w.entries)).document.applyMutation mutation with
            lastSequence := w.store.journal.nextSequence + 1 + 1 } := by
  obtain ⟨htraced, hbehind⟩ := h.whole
  refine (htraced.group c.kind_named hbehind hclear.counter hclear.unreported).2 mutation _ hm
    (fun d id => ambiguousCount_append (attempts_applyMutation hencoded hlength hm d) id)
    fun id hsome => ?_
  obtain ⟨record, hrecord, hfound⟩ := List.countP_pos_iff.mp (Nat.pos_of_ne_zero hsome)
  obtain ⟨hstate, rfl⟩ := of_decide_eq_true hfound
  obtain ⟨hid, hlt, hnone⟩ := hclear.own record hrecord hstate
  refine ⟨hid, hlt, Bool.eq_false_iff.mpr fun hwait => ?_⟩
  obtain ⟨author, hauthor⟩ := Option.isSome_iff_exists.mp (htraced.owned _ hwait)
  obtain ⟨entry, hentry, _⟩ := Option.map_eq_some_iff.mp hauthor
  have hpays := List.find?_some hentry
  have hpays : entry.pays record.attempt = true := hpays
  rw [hnone entry (List.mem_reverse.mp (List.mem_of_find?_eq_some hentry))] at hpays
  cases hpays

/-- The entries a call leaves, from how far it moved the counter. -/
theorem called_entries {after : Store} {k : Nat} (hcall : (w.store.call stamp c).1 = after)
    (hencoded : c.encoded = .ok body)
    (hnext : after.journal.nextSequence.toNat = w.store.journal.nextSequence.toNat + k) :
    w.called stamp c = { w with
      store := after
      entries := w.entries ++ (groupEntries c.kind body (c.stamped stamp)
        w.store.journal.nextSequence w.made).take k
      made := w.made + 1 } := by
  have hle : w.store.journal.nextSequence ≤ after.journal.nextSequence := by
    rw [UInt64.le_iff_toNat_le]
    omega
  have hmoved : (after.journal.nextSequence - w.store.journal.nextSequence).toNat = k := by
    rw [UInt64.toNat_sub_of_le _ _ hle]
    omega
  unfold called
  rw [hcall]
  dsimp only
  rw [hmoved, take_entries hencoded]

theorem called_refused (hcall : (w.store.call stamp c).1 = w.store) :
    w.called stamp c = { w with made := w.made + 1 } := by
  unfold called
  rw [hcall]
  dsimp only
  rw [UInt64.sub_self, show (0 : UInt64).toNat = 0 from rfl, List.take_zero, List.append_nil]

/-- A call that stops early leaves its document and the front of its group. -/
theorem Sound.stopped (h : Sound base w) (hclear : w.Clear c) {journal : Journal} {k : Nat}
    (hk : k ≤ 2)
    (hholds : Holds journal (recordsOf w.entries ++ (groupRecords c.kind body (c.stamped stamp)
      w.store.journal.nextSequence).take k))
    (hnext : journal.nextSequence.toNat = w.store.journal.nextSequence.toNat + k)
    (hwritable : journal.options.readOnly = false) (hrunning : journal.isOpen = true) :
    Sound base { w with
      store := { w.store with journal }
      entries := w.entries ++ (groupEntries c.kind body (c.stamped stamp)
        w.store.journal.nextSequence w.made).take k
      made := w.made + 1 } := by
  have hle : w.store.journal.nextSequence ≤ journal.nextSequence := by
    rw [UInt64.le_iff_toNat_le]
    omega
  have hfront : ∀ j, ((groupEntries c.kind body (c.stamped stamp) w.store.journal.nextSequence
      w.made).take k).take j = (groupEntries c.kind body (c.stamped stamp)
        w.store.journal.nextSequence w.made).take (min j k) := fun j => List.take_take
  have hgroup := fun j => h.group hclear body stamp (min j k) (by omega)
  obtain ⟨_, hdocument⟩ := h.group hclear body stamp k hk
  refine ⟨recordsOf_group _ _ _ _ _ _ _ ▸ hholds, hwritable, hrunning, h.loads, h.founded, h.normal,
    ?_, ?_, ?_, ?_, h.once, ?_, h.below, h.told⟩
  · exact Nat.le_trans h.found (by rw [List.length_append]; exact Nat.le_add_right _ _)
  · refine fronts (P := fun entries => Traced base entries w.reports) h.traced fun j => ?_
    rw [hfront]
    exact (hgroup j).1
  · refine fronts (P := fun entries =>
      (replayFrom base (recordsOf entries)).document.lastSequence < journal.nextSequence)
      (fun j hj => UInt64.lt_of_lt_of_le (h.behind j hj) hle) fun j => ?_
    rw [hfront, (hgroup j).2]
    exact UInt64.lt_of_lt_of_le h.whole.2 hle
  · dsimp only
    rw [hdocument]
    exact h.placed.append _
  · dsimp only
    rw [hdocument]
    exact h.same

/-- The attempts of a document that a commit leaves within their bound. -/
theorem ambiguousCount_recorded {journal : Journal} {mutation : Mutation}
    {generation : AuthorityGeneration} (hencoded : c.encoded = .ok body)
    (hlength : body.length < 2 ^ 64) (hm : decodeBody c.kind body = .ok mutation)
    (hbounded : Within store.options.maxAttempts (store.document.attempts ++ c.appended).length)
    (id : AttemptId) :
    ambiguousCount (pruneDocument (store.recorded journal (store.document.applyMutation mutation)
        generation)).document id = ambiguousCount store.document id +
      c.appended.countP fun record => record.state = .ambiguous ∧ record.attempt = id := by
  have hattempts := attempts_applyMutation hencoded hlength hm store.document
  refine ambiguousCount_append ?_ id
  show trim (store.document.applyMutation mutation).attempts store.options.maxAttempts = _
  rw [hattempts]
  exact trim_of_within hbounded

/-- A call that commits. -/
theorem Sound.committed (h : Sound base w) (hclear : w.Clear c) (hencoded : c.encoded = .ok body)
    (hlength : body.length < 2 ^ 64) {journal : Journal} {mutation : Mutation}
    (hm : decodeBody c.kind body = .ok mutation)
    (hholds : Holds journal (recordsOf w.entries ++ groupRecords c.kind body (c.stamped stamp)
      w.store.journal.nextSequence))
    (hnext : journal.nextSequence = w.store.journal.nextSequence + 1 + 1 + 1)
    (hwritable : journal.options.readOnly = false) (hrunning : journal.isOpen = true)
    (hnormal : DurableDocument.Normal (pruneDocument (w.store.recorded journal
      (w.store.document.applyMutation mutation) (c.stamped stamp).generation)).document) :
    Sound base { w with
      store := pruneDocument (w.store.recorded journal (w.store.document.applyMutation mutation)
        (c.stamped stamp).generation)
      entries := w.entries ++ groupEntries c.kind body (c.stamped stamp)
        w.store.journal.nextSequence w.made
      made := w.made + 1 } := by
  obtain ⟨_, htwo, hthree⟩ := toNat_next hclear.counter
  have hposition := UInt64.lt_iff_toNat_lt.mp h.whole.2
  have hjournal := congrArg UInt64.toNat hnext
  have hle : w.store.journal.nextSequence ≤ journal.nextSequence := by
    rw [UInt64.le_iff_toNat_le]
    omega
  obtain ⟨htraced, hdocument⟩ := h.groupCommitted hclear hencoded hlength hm stamp
  have hlast : journal.nextSequence - 1 = w.store.journal.nextSequence + 1 + 1 := by
    rw [hnext]
    exact UInt64.add_sub_cancel _ _
  have hcount := @ambiguousCount_recorded w.store c body journal mutation
    (c.stamped stamp).generation hencoded hlength hm hclear.bounded
  have hreplayed : ∀ id, ambiguousCount (replayFrom base (recordsOf (w.entries ++ groupEntries c.kind
      body (c.stamped stamp) w.store.journal.nextSequence w.made))).document id =
        ambiguousCount (replayFrom base (recordsOf w.entries)).document id +
          c.appended.countP fun record => record.state = .ambiguous ∧ record.attempt = id := by
    intro id
    rw [hdocument]
    exact ambiguousCount_append (attempts_applyMutation hencoded hlength hm _) id
  have hother : ∀ id, (c.appended.countP fun record =>
      record.state = .ambiguous ∧ record.attempt = id) ≠ 0 →
        id ∉ identities w.reports ∧ id.value < w.store.journal.nextSequence := by
    intro id hsome
    obtain ⟨record, hrecord, hfound⟩ := List.countP_pos_iff.mp (Nat.pos_of_ne_zero hsome)
    obtain ⟨hstate, rfl⟩ := of_decide_eq_true hfound
    obtain ⟨hid, hlt, _⟩ := hclear.own record hrecord hstate
    exact ⟨hid, hlt⟩
  have hgroup := fun j hj => h.group hclear body stamp j hj
  have hfull : ∀ j, 2 < j → (groupEntries c.kind body (c.stamped stamp)
      w.store.journal.nextSequence w.made).take j = groupEntries c.kind body (c.stamped stamp)
        w.store.journal.nextSequence w.made := fun j hj => List.take_of_length_le hj
  refine ⟨?_, hwritable, hrunning, h.loads, h.founded, hnormal, ?_, ?_, ?_, .inl ?_, ?_, ?_, ?_,
    h.told⟩
  · have hrecords := recordsOf_group w.entries c.kind body (c.stamped stamp)
      w.store.journal.nextSequence w.made 3
    rw [hfull 3 (by omega)] at hrecords
    rw [hrecords]
    exact hholds
  · exact Nat.le_trans h.found (by rw [List.length_append]; exact Nat.le_add_right _ _)
  · refine fronts (P := fun entries => Traced base entries w.reports) h.traced fun j => ?_
    rcases Nat.lt_or_ge 2 j with hj | hj
    · rw [hfull j hj]
      exact htraced
    · exact (hgroup j hj).1
  · refine fronts (P := fun entries =>
      (replayFrom base (recordsOf entries)).document.lastSequence < journal.nextSequence)
      (fun j hj => UInt64.lt_of_lt_of_le (h.behind j hj) hle) fun j => ?_
    rcases Nat.lt_or_ge 2 j with hj | hj
    · rw [hfull j hj, hdocument, UInt64.lt_iff_toNat_lt]
      show (w.store.journal.nextSequence + 1 + 1).toNat < _
      omega
    · rw [(hgroup j hj).2]
      exact UInt64.lt_of_lt_of_le h.whole.2 hle
  · rw [hdocument]
    exact hlast
  · intro id hid
    have hnone : (c.appended.countP fun record =>
        record.state = .ambiguous ∧ record.attempt = id) = 0 := by
      by_contra hsome
      exact (hother id hsome).1 hid
    dsimp only
    rw [hcount, hnone]
    exact h.once id hid
  · intro id hid
    dsimp only
    rw [hcount, hreplayed, h.same id hid]
  · intro id hid hsome
    dsimp only at hsome
    rw [hcount] at hsome
    show id.value ≤ journal.nextSequence - 1
    rw [hlast, UInt64.le_iff_toNat_le, htwo]
    by_cases hold : ambiguousCount w.store.document id = 0
    · have hlt := UInt64.lt_iff_toNat_lt.mp (hother id (by omega)).2
      omega
    · have hle' := UInt64.le_iff_toNat_le.mp (h.below id hid hold)
      have hplaced := UInt64.le_iff_toNat_le.mp h.placed.le
      omega

/-- A call of any outcome. -/
theorem Sound.called (h : Sound base w) (hsheltered : Admits w.store c → w.Clear c) :
    Sound base (w.called stamp c) := by
  have hstay : Sound base { w with made := w.made + 1 } :=
    ⟨h.holds, h.writable, h.running, h.loads, h.founded, h.normal, h.found, h.traced, h.behind,
      h.placed, h.once, h.same, h.below, h.told⟩
  by_cases hadmits : Admits w.store c
  · have hclear := hsheltered hadmits
    obtain ⟨body, hencoded, hlength, hout⟩ := call_outcome stamp h.holds hadmits hclear.counter
    obtain ⟨_, hwritable, hrunning⟩ := call_journal
      (P := fun j => j.fates = [] ∧ j.options.readOnly = false ∧ j.isOpen = true)
      (fun j type epoch generation transaction payload hj => by
        rcases Journal.append_cases hj.1 type epoch generation transaction payload with
          ⟨_, he⟩ | ⟨he, _⟩
        · rw [he]
          exact hj
        · rw [he]
          exact hj)
      ⟨h.holds.kept, h.writable, h.running⟩ stamp c
    have hnormal : DurableDocument.Normal (w.store.call stamp c).1.document := by
      rcases call_document w.store stamp c with hsame | ⟨hkept, _⟩
      · rw [hsame]
        exact h.normal
      · exact hkept h.normal
    generalize hcall : (w.store.call stamp c).1 = after at hout hwritable hrunning hnormal
    cases hout with
    | refused =>
      rw [called_refused hcall]
      exact hstay
    | @stopped k journal hk hholds hnext =>
      rw [called_entries hcall hencoded hnext]
      exact h.stopped hclear hk hholds hnext hwritable hrunning
    | @committed journal mutation hm hholds hnext =>
      have hthree := (toNat_next hclear.counter).2.2
      have hnext' : (pruneDocument (w.store.recorded journal (w.store.document.applyMutation mutation)
          (c.stamped stamp).generation)).journal.nextSequence.toNat =
            w.store.journal.nextSequence.toNat + 3 := by
        show journal.nextSequence.toNat = _
        rw [hnext, hthree]
      rw [called_entries hcall hencoded hnext', List.take_of_length_le (Nat.le_refl 3)]
      exact h.committed hclear hencoded hlength hm hholds hnext hwritable hrunning hnormal
  · rw [called_refused (call_refused hadmits)]
    exact hstay

/-- A checkpoint of any outcome. -/
theorem Sound.checkpointed (h : Sound base w)
    (hcounter : w.store.journal.nextSequence.toNat + 1 < 2 ^ 64) :
    ∃ base', Sound base' w.checkpointed := by
  rcases checkpoint_total h.holds h.normal h.writable h.running with ⟨status, hc⟩ | ⟨after, hc⟩
  · refine ⟨base, ?_⟩
    unfold Attempted.checkpointed
    rw [hc]
    exact h
  · obtain ⟨container, _, _, rebased, hcompact, rfl, hholds, hnext⟩ := checkpoint_ok h.holds hc
    obtain ⟨loaded, hcontent, hlast, hloads⟩ := compact_loads h.normal hcompact
    have hlt : w.store.document.lastSequence < w.store.journal.nextSequence :=
      UInt64.lt_of_le_of_lt h.placed.le h.whole.2
    have hcount : ∀ id, ambiguousCount loaded id = ambiguousCount w.store.document id := by
      intro id
      unfold ambiguousCount
      rw [show loaded.attempts = w.store.document.attempts from congrArg (·.attempts) hcontent]
    have honce : ∀ id ∈ identities w.reports, ambiguousCount loaded id = 1 := by
      intro id hid
      rw [hcount]
      exact h.once id hid
    have hbelow : ∀ id ∉ identities w.reports, ambiguousCount loaded id ≠ 0 →
        id.value ≤ loaded.lastSequence := by
      intro id hid hsome
      rw [hcount] at hsome
      rw [hlast]
      exact h.below id hid hsome
    obtain ⟨entry, hentry⟩ : ∃ entry : JournalEntry, entry = ⟨Journal.recordOf .rebase
        w.store.document.epoch w.store.document.authorityGeneration.value
        w.store.journal.nextSequence {} [], w.made⟩ := ⟨_, rfl⟩
    have htype : entry.record.type = .rebase := by
      rw [hentry]
      exact Journal.recordOf_type _
    have hsequence : entry.record.header.sequence = w.store.journal.nextSequence := by
      rw [hentry]
      rfl
    obtain ⟨hrebased, hdocument⟩ :=
      Traced.rebased honce hbelow htype (by rw [hlast, hsequence]; exact hlt)
    have hsucc : w.store.journal.nextSequence < w.store.journal.nextSequence + 1 := lt_succ hcounter
    have hfront : ∀ k, [entry].take k = [] ∨ [entry].take k = [entry] := by
      intro k
      cases k with
      | zero => exact .inl rfl
      | succ k => exact .inr (List.take_of_length_le (Nat.succ_le_succ (Nat.zero_le k)))
    obtain ⟨hoptions, hrunning⟩ := @checkpoint_journal w.store h.holds.kept
    rw [hc] at hoptions hrunning
    have hwritable : rebased.options.readOnly = false := by
      rw [show rebased.options = w.store.journal.options from hoptions]
      exact h.writable
    refine ⟨loaded, ?_⟩
    have hresult : w.checkpointed = { w with
        store := { w.store with snapshot := some container, journal := rebased }
        entries := [entry]
        opened := 0
        saved := w.store.document.compactCalls.length } := by
      unfold Attempted.checkpointed
      rw [hc, hentry]
    rw [hresult]
    refine ⟨hentry ▸ hholds, hwritable, hrunning.trans h.running,
      fun options hsaved => ⟨_, hloads options hsaved⟩, h.normal.congr hcontent, h.normal,
      Nat.zero_le _, fun k _ => ?_, fun k _ => ?_, .inr ?_, h.once, fun id hid => ?_, h.below,
      h.told⟩
    · rcases hfront k with hk | hk
      · dsimp only
        rw [hk]
        exact .emptied honce hbelow
      · dsimp only
        rw [hk]
        exact hrebased
    · dsimp only
      rw [hnext]
      rcases hfront k with hk | hk
      · rw [hk]
        show loaded.lastSequence < _
        rw [hlast]
        exact UInt64.lt_trans hlt hsucc
      · rw [hk, hdocument, hsequence]
        exact hsucc
    · refine ⟨entry, [], rfl, htype, ?_, ?_⟩
      · rw [hdocument]
      · rw [hdocument, hsequence]
        exact hlt
    · dsimp only
      rw [hdocument]
      exact (hcount id).symm

/-- An open after a crash, over what the crash left. -/
theorem Sound.reopened {disk : Disk} {options : StoreOptions} {report : StoreReplay}
    {entries : List JournalEntry} {part : Bytes} {saved : Nat}
    (hload : loadSnapshot disk.snapshot options = .ok (base, report))
    (hloads : ∀ options : StoreOptions, saved ≤ (snapshotOptions options).maxRecords →
      ∃ report, loadSnapshot disk.snapshot options = .ok (base, report))
    (hfile : disk.journal = some (logOf JournalRecord.encode (recordsOf entries) ++ part))
    (hfit : (logOf JournalRecord.encode (recordsOf entries) ++ part).length ≤
      limits.kMaxJournalBytes)
    (hwhole : ∀ record ∈ recordsOf entries, Sealed limits.kMaxJournalRecordBytes record)
    (htorn : TornTail JournalRecord.encode (Sealed limits.kMaxJournalRecordBytes) part)
    (hfirst : part = [] ∨ recordsOf entries ≠ []) (hwritable : options.readOnly = false)
    (hopen : openDisk disk options = .ok store) (hfounded : DurableDocument.Normal base)
    (htraced : Traced base entries w.reports) (htold : Told w.reports)
    (hroom : (replayFrom base (recordsOf entries)).document.lastSequence.toNat + 1 < 2 ^ 64) :
    Sound base { w.reopened store base entries with saved } := by
  obtain ⟨found, hfound, hholds, hdocument, hsnapshot, _, hresume⟩ :=
    openDisk_torn hload hfile hfit hwhole htorn hfirst (.inr hwritable)
  obtain rfl := Except.ok.inj (hopen.symm.trans hfound)
  obtain ⟨_, _, _, hoptions, hrunning⟩ := openDisk_fields hopen
  have hlt := lt_succ hroom
  have hnext := hresume fun hzero => by
    rw [hzero] at hlt
    exact absurd (UInt64.lt_iff_toNat_lt.mp hlt) (Nat.not_lt_zero _)
  have hreported := htraced.reported
  have hnormal := replayFrom_normal hfounded (recordsOf entries)
  have hcount : ∀ id, ambiguousCount store.document id =
      ambiguousCount (replayFrom base (recordsOf entries)).document id +
        if waits (replayFrom base (recordsOf entries)) id then 1 else 0 := by
    intro id
    rw [hdocument]
    exact count_retainAmbiguous _ id
  have hsame : ∀ id ∉ identities (w.reports ++ reportsOf base entries),
      ambiguousCount store.document id =
        ambiguousCount (replayFrom base (recordsOf entries)).document id := by
    intro id hid
    have hnone : waits (replayFrom base (recordsOf entries)) id ≠ true :=
      fun hwait => hid (mem_identities_append.mpr (.inr hwait))
    rw [hcount, if_neg hnone, Nat.add_zero]
  refine ⟨hholds, ?_, hrunning, ?_, hfounded, ?_, Nat.le_refl _, fun k hk => ?_, fun k hk => ?_,
    .inl ?_, fun id hid => ?_, hsame, fun id hid hsome => ?_, htold.reported htraced⟩
  · show store.journal.options.readOnly = false
    rw [hoptions]
    exact hwritable
  · intro options' hsaved
    obtain ⟨report', hload'⟩ := hloads options' hsaved
    exact ⟨report', by rw [← hload', ← hsnapshot]; rfl⟩
  · show DurableDocument.Normal store.document
    rw [hdocument]
    exact ⟨hnormal.policy, hnormal.keyed, hnormal.interventions, hnormal.fences,
      hnormal.provenance⟩
  · have hk : entries.length ≤ k := hk
    show Traced base (entries.take k) (w.reports ++ reportsOf base entries)
    rw [List.take_of_length_le hk]
    exact hreported
  · have hk : entries.length ≤ k := hk
    show (replayFrom base (recordsOf (entries.take k))).document.lastSequence <
      store.journal.nextSequence
    rw [List.take_of_length_le hk, hnext]
    exact hlt
  · show store.document.lastSequence = _
    rw [hdocument]
    rfl
  · show ambiguousCount store.document id = 1
    rw [hcount]
    exact hreported.once id hid
  · have hsome : ambiguousCount store.document id ≠ 0 := hsome
    rw [hsame id hid] at hsome
    show id.value ≤ store.document.lastSequence
    rw [hdocument]
    exact (hreported.free id hid hsome).1

theorem recordsOf_take (entries : List JournalEntry) (k : Nat) :
    recordsOf (entries.take k) = (recordsOf entries).take k := List.map_take

/-- A crash that leaves nothing or a whole record, and the open after it. -/
theorem Sound.crash (h : Sound base w) {n : Nat} {options : StoreOptions} {base' : DurableDocument}
    {report : StoreReplay} (hkept : w.opened ≤ (w.kept n).length)
    (hwritable : options.readOnly = false)
    (hload : loadSnapshot w.store.snapshot options = .ok (base', report))
    (hopen : openDisk (w.store.crashed n) options = .ok store)
    (hsheltered : w.Sheltered (.crash n options)) :
    Sound base' (w.reopened store base' (w.kept n)) := by
  obtain ⟨hsaved, hfirst⟩ := hsheltered
  obtain ⟨report', hload'⟩ := h.loads options hsaved
  obtain ⟨rfl, _⟩ := Prod.mk.inj (Except.ok.inj (hload.symm.trans hload'))
  obtain ⟨part, htake, htorn⟩ := logOf_take h.holds.whole n
  have hrecords := recordsOf_take w.entries
    (wholeRecords JournalRecord.encode (recordsOf w.entries) n)
  have hbytes : w.store.journal.file.take n =
      logOf JournalRecord.encode (recordsOf (w.kept n)) ++ part := by
    rw [h.holds.file, htake, ← hrecords]
    rfl
  have hlength : w.opened ≤ wholeRecords JournalRecord.encode (recordsOf w.entries) n :=
    Nat.le_trans hkept (List.length_take_le _ _)
  have hbehind := h.behind _ hlength
  have hroom := UInt64.lt_iff_toNat_lt.mp hbehind
  have hbound := w.store.journal.nextSequence.toNat_lt
  have hfit : (logOf JournalRecord.encode (recordsOf (w.kept n)) ++ part).length ≤
      limits.kMaxJournalBytes := by
    rw [← hbytes, List.length_take]
    exact Nat.le_trans (Nat.min_le_right _ _) (h.holds.size ▸ h.holds.fits)
  have hwhole : ∀ record ∈ recordsOf (w.kept n),
      Sealed limits.kMaxJournalRecordBytes record := by
    intro record hrecord
    have hmem : record ∈ (recordsOf w.entries).take
        (wholeRecords JournalRecord.encode (recordsOf w.entries) n) := hrecords ▸ hrecord
    exact h.holds.whole record (List.mem_of_mem_take hmem)
  have hpart : part = [] ∨ recordsOf (w.kept n) ≠ [] := by
    rcases hfirst with hnothing | hsome
    · rw [hbytes] at hnothing
      exact .inl (List.append_eq_nil_iff.mp hnothing).2
    · exact .inr fun hnil => hsome (List.map_eq_nil_iff.mp hnil)
  exact Sound.reopened hload h.loads (congrArg some hbytes) hfit hwhole htorn hpart hwritable hopen
    h.founded (h.traced _ hlength) h.told (by show _ + 1 < _; omega)

/-- A crash of a checkpoint after its snapshot, and the open after it. -/
theorem Sound.halfway (h : Sound base w) {options : StoreOptions} {container : Bytes}
    {bounds : SnapshotOptions} {count : Nat} {base' : DurableDocument} {report : StoreReplay}
    (hcompact : compact w.store.document = .ok (container, bounds, count))
    (hwritable : options.readOnly = false)
    (hload : loadSnapshot (some container) options = .ok (base', report))
    (hopen : openDisk { w.store.disk with snapshot := some container } options = .ok store)
    (hsheltered : w.Sheltered (.halfway options)) :
    Sound base' { w.reopened store base' w.entries with
      saved := w.store.document.compactCalls.length } := by
  obtain ⟨hcount, hcovered⟩ := hsheltered
  obtain ⟨loaded, hcontent, hlast, hloads⟩ := compact_loads h.normal hcompact
  obtain ⟨rfl, _⟩ := Prod.mk.inj (Except.ok.inj (hload.symm.trans (hloads options hcount)))
  obtain ⟨htraced, hbehind⟩ := h.whole
  have hplaced : Placed base' (replayFrom base (recordsOf w.entries)).document.lastSequence
      w.entries := by
    have hplaced := h.placed
    unfold Placed at hplaced ⊢
    rw [hlast]
    exact hplaced
  have hattempts : ∀ id, ambiguousCount base' id = ambiguousCount w.store.document id := by
    intro id
    unfold ambiguousCount
    rw [show base'.attempts = w.store.document.attempts from congrArg (·.attempts) hcontent]
  have honce : ∀ id ∈ identities w.reports, ambiguousCount base' id = 1 := by
    intro id hid
    rw [hattempts]
    exact h.once id hid
  have hsame : ∀ id ∉ identities w.reports, ambiguousCount base' id =
      ambiguousCount (replayFrom base (recordsOf w.entries)).document id := by
    intro id hid
    rw [hattempts]
    exact h.same id hid
  obtain ⟨hcompacted, hdocument⟩ := htraced.compacted hplaced honce hsame (hlast ▸ hcovered)
  have hfit : (logOf JournalRecord.encode (recordsOf w.entries) ++ []).length ≤
      limits.kMaxJournalBytes := by
    rw [List.append_nil, ← h.holds.file, ← h.holds.size]
    exact h.holds.fits
  have hfile : ({ w.store.disk with snapshot := some container } : Disk).journal =
      some (logOf JournalRecord.encode (recordsOf w.entries) ++ []) := by
    rw [List.append_nil, ← h.holds.file]
    rfl
  have hroom := UInt64.lt_iff_toNat_lt.mp hbehind
  have hbound := w.store.journal.nextSequence.toNat_lt
  refine Sound.reopened hload (fun options' hsaved => ⟨_, hloads options' hsaved⟩) hfile hfit
    h.holds.whole (.inl rfl) (.inl rfl) hwritable hopen (h.normal.congr hcontent) hcompacted h.told ?_
  rw [hdocument]
  show (replayFrom base (recordsOf w.entries)).document.lastSequence.toNat + 1 < _
  omega

theorem Sound.step {incident : Incident} (h : Sound base w) (hstep : Step w incident w')
    (hsheltered : w.Sheltered incident) : ∃ base', Sound base' w' := by
  cases hstep with
  | call stamp c => exact ⟨base, h.called hsheltered⟩
  | checkpoint => exact h.checkpointed hsheltered
  | crash hkept hwritable hload hopen =>
    exact ⟨_, h.crash hkept hwritable hload hopen hsheltered⟩
  | halfway hcompact hwritable hload hopen =>
    exact ⟨_, h.halfway hcompact hwritable hload hopen hsheltered⟩

/-- The store of an empty directory. -/
theorem Sound.start {options : StoreOptions} (hwritable : options.readOnly = false)
    (hopen : openDisk {} options = .ok store) : Sound {} { store } := by
  have hload : loadSnapshot ({ journal := some [] } : Disk).snapshot options = .ok ({}, {}) := rfl
  have hfile : ({ journal := some [] } : Disk).journal =
      some (logOf JournalRecord.encode (recordsOf []) ++ []) := rfl
  have hopen' : openDisk { journal := some [] } options = .ok store :=
    (openDisk_none hwritable).symm.trans hopen
  have htraced : Traced {} [] [] :=
    .emptied (fun id hid => absurd hid List.not_mem_nil) fun id _ hsome => absurd rfl hsome
  have htold : Told [] :=
    ⟨fun _ hreport => absurd hreport List.not_mem_nil,
      fun _ hreport => absurd hreport List.not_mem_nil⟩
  exact @Sound.reopened { store } store {} _ options {} [] [] 0 hload (fun _ _ => ⟨{}, rfl⟩) hfile
    (by decide) (fun _ hrecord => absurd hrecord List.not_mem_nil) (.inl rfl) (.inl rfl) hwritable
    hopen' .empty htraced htold (by decide)

/-- In every run of calls, checkpoints and crashes that are sheltered, what an open reported ambiguous
stays in the document just once, under an identity of its own. -/
theorem sheltered_ambiguity_kept {options : StoreOptions} {es : List (Event Attempted Incident)}
    (hwritable : options.readOnly = false) (hopen : openDisk {} options = .ok store)
    (run : Run Step { store } es w) (hsheltered : ∀ e ∈ es, e.before.Sheltered e.input) :
    w.Remembers := by
  have hsound : ∃ base, Sound base w := by
    apply (run.guarded hsheltered).invariant (P := fun w => ∃ base, Sound base w)
      ⟨_, .start hwritable hopen⟩
    intro s incident s' ⟨base, hs⟩ ⟨hstep, hshelter⟩
    exact hs.step hstep hshelter
  obtain ⟨base, hbase⟩ := hsound
  exact hbase.remembers

/-- The state after a crash, when the open after it succeeds. -/
def crashedAt (w : Attempted) (n : Nat) : Attempted :=
  match loadSnapshot w.store.snapshot {}, openDisk (w.store.crashed n) {} with
  | .ok (base, _), .ok store => w.reopened store base (w.kept n)
  | _, _ => w

theorem Clear.sheltered (h : w.Clear c) : w.Sheltered (.call stamp c) := fun _ => h

theorem sheltered_checkpoint {n : UInt64} (hnext : w.store.journal.nextSequence = n)
    (hn : n.toNat + 1 < 2 ^ 64) : w.Sheltered .checkpoint := by
  show w.store.journal.nextSequence.toNat + 1 < 2 ^ 64
  rw [hnext]
  exact hn

/-- A call that records no attempt is clear when its transaction was not reported. -/
theorem clear_of_next {n : UInt64} (hnext : w.store.journal.nextSequence = n)
    (hn : n.toNat + 3 < 2 ^ 64) (hunreported : ⟨n⟩ ∉ identities w.reports) (hc : c.appended = [])
    (hbounded : Within w.store.options.maxAttempts w.store.document.attempts.length) : w.Clear c := by
  refine ⟨hnext ▸ hunreported, hnext ▸ hn, ?_, ?_⟩
  · rw [hc, List.append_nil]
    exact hbounded
  · rw [hc]
    intro record hrecord
    cases hrecord

theorem step_crashedAt {n : Nat} (hload : (loadSnapshot w.store.snapshot {}).isOk = true)
    (hopen : (openDisk (w.store.crashed n) {}).isOk = true)
    (hkept : w.opened ≤ (w.kept n).length) : Step w (.crash n {}) (w.crashedAt n) := by
  obtain ⟨⟨base, report⟩, hbase⟩ := Result.exists_of_isOk hload
  obtain ⟨store, hstore⟩ := Result.exists_of_isOk hopen
  unfold crashedAt
  rw [hbase, hstore]
  exact .crash hkept rfl hbase hstore

/-- An epoch advance. -/
def advance (w : Attempted) (n : UInt64) : Attempted := w.called {} (.advanceEpoch ⟨n⟩ ⟨1⟩ n)

theorem reports_crashedAt {report : AttemptReport} (h : report ∈ w.reports) (n : Nat) :
    report ∈ (w.crashedAt n).reports := by
  unfold crashedAt
  split
  · exact List.mem_append_left _ h
  · exact h

theorem reports_advance (w : Attempted) (n : UInt64) : (w.advance n).reports = w.reports := rfl

theorem reports_checkpointed (w : Attempted) : w.checkpointed.reports = w.reports := by
  unfold checkpointed
  split <;> rfl

/-- A first commit that crashes inside its commit record. -/
def reporting : Attempted := (({ store := .fresh } : Attempted).advance 1).crashedAt 200

/-- The next commit takes its transaction over, and the journal is opened again. -/
def forgetting : Attempted := (reporting.advance 2).crashedAt 1000

/-- A checkpoint comes before the next commit. -/
def keeping : Attempted := (reporting.checkpointed.advance 2).crashedAt 1000

theorem Step.advance (w : Attempted) (n : UInt64) :
    Step w (.call {} (.advanceEpoch ⟨n⟩ ⟨1⟩ n)) (w.advance n) := .call {} _

/-- The run up to the report. -/
def reportingEvents : List (Event Attempted Incident) :=
  [⟨{ store := .fresh }, .call {} (.advanceEpoch ⟨1⟩ ⟨1⟩ 1),
      ({ store := .fresh } : Attempted).advance 1⟩,
    ⟨({ store := .fresh } : Attempted).advance 1, .crash 200 {}, reporting⟩]

/-- The run with a checkpoint between the report and the next commit. -/
def keepingEvents : List (Event Attempted Incident) :=
  reportingEvents ++ [⟨reporting, .checkpoint, reporting.checkpointed⟩] ++
    [⟨reporting.checkpointed, .call {} (.advanceEpoch ⟨2⟩ ⟨1⟩ 2),
      reporting.checkpointed.advance 2⟩] ++
    [⟨reporting.checkpointed.advance 2, .crash 1000 {}, keeping⟩]

theorem keepingEvents_sheltered (hreported : reporting.reports = [⟨⟨1⟩, some 0⟩])
    (hfirst : 0 < ((({ store := .fresh } : Attempted).advance 1).kept 200).length)
    (hnext : reporting.store.journal.nextSequence = 1)
    (hnext' : reporting.checkpointed.store.journal.nextSequence = 2)
    (hbounded : Within reporting.checkpointed.store.options.maxAttempts
      reporting.checkpointed.store.document.attempts.length)
    (hsaved : (reporting.checkpointed.advance 2).saved ≤ (snapshotOptions {}).maxRecords)
    (hsome : 0 < ((reporting.checkpointed.advance 2).kept 1000).length) :
    ∀ e ∈ keepingEvents, e.before.Sheltered e.input := by
  have hunreported : ⟨2⟩ ∉ identities reporting.checkpointed.reports := by
    rw [reports_checkpointed, hreported]
    decide
  have hcall : Clear { store := .fresh } (.advanceEpoch ⟨1⟩ ⟨1⟩ 1) :=
    clear_of_next rfl (by decide) List.not_mem_nil rfl (.inr (by decide))
  have hcall' : Clear reporting.checkpointed (.advanceEpoch ⟨2⟩ ⟨1⟩ 2) :=
    clear_of_next hnext' (by decide) hunreported rfl hbounded
  have hcheckpoint : Sheltered reporting .checkpoint := sheltered_checkpoint hnext (by decide)
  intro e he
  simp only [keepingEvents, reportingEvents, List.cons_append, List.nil_append, List.mem_cons,
    List.not_mem_nil, or_false] at he
  rcases he with rfl | rfl | rfl | rfl | rfl
  · exact hcall.sheltered
  · exact ⟨Nat.zero_le _, .inr (List.ne_nil_of_length_pos hfirst)⟩
  · dsimp only
    exact hcheckpoint
  · dsimp only
    exact hcall'.sheltered
  · exact ⟨hsaved, .inr (List.ne_nil_of_length_pos hsome)⟩

set_option maxRecDepth 100000 in
theorem forgetting_opens :
    (openDisk ((({ store := .fresh } : Attempted).advance 1).store.crashed 200) {}).isOk = true ∧
      0 < ((({ store := .fresh } : Attempted).advance 1).kept 200).length ∧
      reporting.reports = [⟨⟨1⟩, some 0⟩] ∧
      (loadSnapshot (reporting.advance 2).store.snapshot {}).isOk = true ∧
      (openDisk ((reporting.advance 2).store.crashed 1000) {}).isOk = true ∧
      (reporting.advance 2).opened ≤ ((reporting.advance 2).kept 1000).length ∧
      ambiguousCount forgetting.store.document ⟨1⟩ = 0 := by
  decide +kernel

/-- The commit after a report takes the transaction over, and the next open forgets the attempt. -/
theorem next_commit_forgets : ¬ ∀ (es : List (Event Attempted Incident)) (w : Attempted),
    Run Step { store := .fresh } es w → w.Remembers := by
  intro h
  obtain ⟨hfirst, _, hreported, hload, hopen, hkept, hcount⟩ := forgetting_opens
  have hreporting : Step (({ store := .fresh } : Attempted).advance 1) (.crash 200 {}) reporting :=
    step_crashedAt rfl hfirst (Nat.zero_le _)
  have run : Run Step { store := .fresh } _ forgetting :=
    (((Run.start.next (Step.advance _ 1)).next hreporting).next (Step.advance _ 2)).next
      (step_crashedAt hload hopen hkept)
  have hreport : ⟨⟨1⟩, some 0⟩ ∈ (reporting.advance 2).reports := by
    rw [reports_advance, hreported]
    exact List.mem_singleton_self _
  have honce := (h _ _ run).once _ (reports_crashedAt hreport 1000)
  have hcount' : ambiguousCount forgetting.store.document ⟨1⟩ = 1 := honce
  rw [hcount] at hcount'
  cases hcount'

set_option maxRecDepth 100000 in
theorem keeping_opens :
    (loadSnapshot (reporting.checkpointed.advance 2).store.snapshot {}).isOk = true ∧
      (openDisk ((reporting.checkpointed.advance 2).store.crashed 1000) {}).isOk = true ∧
      (reporting.checkpointed.advance 2).opened ≤
        ((reporting.checkpointed.advance 2).kept 1000).length ∧
      0 < ((reporting.checkpointed.advance 2).kept 1000).length ∧
      (reporting.checkpointed.advance 2).saved ≤ (snapshotOptions {}).maxRecords ∧
      reporting.store.journal.nextSequence = 1 ∧
      reporting.checkpointed.store.journal.nextSequence = 2 ∧
      Within reporting.checkpointed.store.options.maxAttempts
        reporting.checkpointed.store.document.attempts.length := by
  decide +kernel

/-- The attempt is still there after a checkpoint and another commit. -/
theorem sheltered_ambiguity_kept_keeping : ambiguousCount keeping.store.document ⟨1⟩ = 1 := by
  obtain ⟨hfirst, hsome, hreported, _⟩ := forgetting_opens
  obtain ⟨hload, hopen, hkept, hsome', hsaved, hnext, hnext', hbounded⟩ := keeping_opens
  have hreporting : Step (({ store := .fresh } : Attempted).advance 1) (.crash 200 {}) reporting :=
    step_crashedAt rfl hfirst (Nat.zero_le _)
  have run : Run Step { store := .fresh } keepingEvents keeping :=
    ((((Run.start.next (Step.advance _ 1)).next hreporting).next .checkpoint).next
      (Step.advance _ 2)).next (step_crashedAt hload hopen hkept)
  have hremembers : keeping.Remembers :=
    sheltered_ambiguity_kept (rfl : ({} : StoreOptions).readOnly = false) openDisk_fresh run
      (keepingEvents_sheltered hreported hsome hnext hnext' hbounded hsaved hsome')
  have hreport : ⟨⟨1⟩, some 0⟩ ∈ (reporting.checkpointed.advance 2).reports := by
    rw [reports_advance, reports_checkpointed, hreported]
    exact List.mem_singleton_self _
  have hkeeping : ⟨⟨1⟩, some 0⟩ ∈ keeping.reports := by
    rw [keeping]
    exact reports_crashedAt hreport 1000
  exact hremembers.once ⟨⟨1⟩, some 0⟩ hkeeping

end Attempted

end CongestionFabric
