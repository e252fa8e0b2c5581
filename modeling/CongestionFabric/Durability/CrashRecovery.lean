import CongestionFabric.Durability.Reopen
import CongestionFabric.Lib.Run

namespace CongestionFabric

/-- What a journal record is, of which transaction. -/
inductive Mark where
  | intent
  | payload
  | commit (kind : MutationKind) (body : Bytes)

namespace Mark

def isCommit : Mark → Bool
  | commit _ _ => true
  | _ => false

def isPayload : Mark → Bool
  | payload => true
  | _ => false

def transaction? : Mark → Option (MutationKind × Bytes)
  | commit kind body => some (kind, body)
  | _ => none

end Mark

/-- A record written to the journal with what it was written for. -/
structure LedgerEntry where
  record : JournalRecord
  mark : Mark

abbrev Ledger := List LedgerEntry

namespace Ledger

def records (ledger : Ledger) : List JournalRecord := ledger.map (·.record)

/-- The transactions whose commit record is in the ledger, in order. -/
def committed (ledger : Ledger) : List (MutationKind × Bytes) :=
  ledger.filterMap (·.mark.transaction?)

/-- A payload record follows the last commit record. -/
def dangling (ledger : Ledger) : Bool :=
  ((ledger.map (·.mark)).reverse.takeWhile fun m => !m.isCommit).any Mark.isPayload

/-- The entries a committed call adds. -/
def group (kind : MutationKind) (payload : Bytes) (stamp : MutationStamp) (sequence : UInt64) :
    Ledger :=
  [⟨Store.intentRecord kind stamp sequence, .intent⟩,
    ⟨Store.payloadRecord kind payload stamp sequence, .payload⟩,
    ⟨Store.commitRecord kind payload stamp sequence, .commit kind payload⟩]

@[simp] theorem dangling_intent (ledger : Ledger) (record : JournalRecord) :
    dangling (ledger ++ [⟨record, .intent⟩]) = dangling ledger := by
  simp [dangling, Mark.isCommit, Mark.isPayload]

@[simp] theorem dangling_payload (ledger : Ledger) (record : JournalRecord) :
    dangling (ledger ++ [⟨record, .payload⟩]) = true := by
  simp [dangling, Mark.isCommit, Mark.isPayload]

@[simp] theorem dangling_commit (ledger : Ledger) (record : JournalRecord) (kind : MutationKind)
    (body : Bytes) : dangling (ledger ++ [⟨record, .commit kind body⟩]) = false := by
  simp [dangling, Mark.isCommit]

end Ledger

/-- The fold of transactions over a document. -/
def DurableDocument.applyAll (document : DurableDocument)
    (transactions : List (MutationKind × Bytes)) : Result DurableDocument :=
  transactions.foldlM (fun d t => d.apply t.1 t.2) document

namespace Store

/-- The replay of a ledger is the fold of its transactions over the base, with at most the next
transaction pending. -/
structure Replays (base : DurableDocument) (ledger : Ledger) : Prop where
  folds : ∃ folded, base.applyAll ledger.committed = .ok folded ∧
    (replayFrom base ledger.records).document =
      { folded with lastSequence := (replayFrom base ledger.records).document.lastSequence }
  nextOnly : NextOnly (replayFrom base ledger.records)
  waits : waiting (replayFrom base ledger.records) = ledger.dangling
  position : (replayFrom base ledger.records).document.lastSequence.toNat ≤ ledger.length

variable {base : DurableDocument} {ledger : Ledger} {kind : MutationKind} {payload : Bytes}
  {stamp : MutationStamp}

variable (base) in
theorem replayFrom_snoc (entries : Ledger) (entry : LedgerEntry) :
    replayFrom base (Ledger.records (entries ++ [entry])) =
      replayRecord (replayFrom base entries.records) entry.record := by
  simp [replayFrom, Ledger.records]

theorem committed_snoc (entries : Ledger) (entry : LedgerEntry) :
    Ledger.committed (entries ++ [entry]) =
      entries.committed ++ entry.mark.transaction?.toList := by
  cases h : entry.mark.transaction? <;> simp [Ledger.committed, h]

variable (stamp) in
/-- Each record of a commit group in turn. -/
theorem Replays.group (h : Replays base ledger) (hk : kind.named = true)
    (happly : ∀ document : DurableDocument,
      ∃ document', document.apply kind payload = .ok document')
    (hroom : (replayFrom base ledger.records).document.lastSequence.toNat + 3 < 2 ^ 64) :
    let n := (replayFrom base ledger.records).document.lastSequence + 1
    let e₁ : LedgerEntry := ⟨intentRecord kind stamp n, .intent⟩
    let e₂ : LedgerEntry := ⟨payloadRecord kind payload stamp n, .payload⟩
    let e₃ : LedgerEntry := ⟨commitRecord kind payload stamp n, .commit kind payload⟩
    Replays base (ledger ++ [e₁]) ∧ Replays base (ledger ++ [e₁] ++ [e₂]) ∧
      Replays base (ledger ++ [e₁] ++ [e₂] ++ [e₃]) ∧
      (replayFrom base (Ledger.records (ledger ++ [e₁] ++ [e₂] ++ [e₃]))).document.lastSequence =
        n + 1 + 1 := by
  intro n e₁ e₂ e₃
  obtain ⟨folded, hfold, hdoc⟩ := h.folds
  obtain ⟨document, hd⟩ := happly folded
  have hd' : (replayFrom base ledger.records).document.apply kind payload =
      .ok { document with
        lastSequence := (replayFrom base ledger.records).document.lastSequence } := by
    rw [hdoc]
    exact DurableDocument.apply_lastSequence hd _
  obtain ⟨⟨d₁, o₁, w₁⟩, ⟨d₂, o₂, w₂⟩, d₃, p₃⟩ := replay_group stamp hk hroom h.nextOnly hd'
  have r₁ := replayFrom_snoc base ledger e₁
  have r₂ := replayFrom_snoc base (ledger ++ [e₁]) e₂
  have r₃ := replayFrom_snoc base (ledger ++ [e₁] ++ [e₂]) e₃
  rw [r₁] at r₂
  rw [r₂] at r₃
  have hn : (n + 1 + 1).toNat ≤ ledger.length + 3 := by
    have hp := h.position
    have hone : (1 : UInt64).toNat = 1 := rfl
    have hle : n.toNat ≤ (replayFrom base ledger.records).document.lastSequence.toNat + 1 := by
      rw [UInt64.toNat_add, hone]
      exact Nat.mod_le _ _
    have hle₁ : (n + 1).toNat ≤ n.toNat + 1 := by
      rw [UInt64.toNat_add, hone]
      exact Nat.mod_le _ _
    have hle₂ : (n + 1 + 1).toNat ≤ (n + 1).toNat + 1 := by
      rw [UInt64.toNat_add, hone]
      exact Nat.mod_le _ _
    omega
  refine ⟨⟨?_, ?_, ?_, ?_⟩, ⟨?_, ?_, ?_, ?_⟩, ⟨?_, ?_, ?_, ?_⟩, ?_⟩
  · exact ⟨folded, by rw [committed_snoc]; simpa [e₁, Mark.transaction?] using hfold,
      by rw [r₁, d₁]; exact hdoc⟩
  · rw [r₁]; exact o₁
  · rw [r₁, Ledger.dangling_intent]; exact w₁.trans h.waits
  · rw [r₁, d₁]; simpa using Nat.le_succ_of_le h.position
  · refine ⟨folded, ?_, by rw [r₂, d₂]; exact hdoc⟩
    rw [committed_snoc, committed_snoc]
    simpa [e₁, e₂, Mark.transaction?] using hfold
  · rw [r₂]; exact o₂
  · rw [r₂, Ledger.dangling_payload]; exact w₂
  · rw [r₂, d₂]; have := h.position; simp; omega
  · refine ⟨document, ?_, by rw [r₃, d₃]⟩
    rw [committed_snoc, committed_snoc, committed_snoc]
    simp only [e₁, e₂, e₃, Mark.transaction?, Option.toList, List.append_nil]
    rw [DurableDocument.applyAll, List.foldlM_append]
    exact bind_ok.mpr ⟨folded, hfold, by simp [hd]⟩
  · intro transaction found hf
    rw [r₃, p₃] at hf
    cases hf
  · rw [r₃, Ledger.dangling_commit, waiting, p₃]
    rfl
  · have hlength : (ledger ++ [e₁] ++ [e₂] ++ [e₃]).length = ledger.length + 3 := by simp
    rw [r₃, d₃, hlength]
    exact hn
  · rw [r₃, d₃]

theorem Holds.length_le_size {journal : Journal} {records : List JournalRecord}
    (h : Holds journal records) : records.length ≤ journal.size := by
  rw [h.size, h.file]
  have hframing : Framing (Journal.readRecord limits.kMaxJournalRecordBytes) JournalRecord.encode
      (Sealed limits.kMaxJournalRecordBytes) := Journal.framing
  exact length_le_logOf hframing.nonempty records

theorem Holds.length_le {journal : Journal} {records : List JournalRecord}
    (h : Holds journal records) : records.length ≤ limits.kMaxJournalBytes :=
  h.length_le_size.trans h.fits

end Store

/-- The entries whose record lies whole in the first bytes of the journal. -/
def Ledger.kept (ledger : Ledger) (n : Nat) : Ledger :=
  ledger.take (wholeRecords JournalRecord.encode ledger.records n)

/-- A store with the ledger of its journal. -/
structure Logged where
  store : Store
  ledger : Ledger

inductive Move where
  | call (stamp : MutationStamp) (c : StoreCall)
  | crash (kept : Nat) (options : StoreOptions)

namespace Logged

/-- Calls that commit, calls that are refused before anything is written, and crashes that leave
a whole record, each followed by a writable open. -/
inductive Step (w : Logged) : Move → Logged → Prop where
  | committed {stamp : MutationStamp} {c : StoreCall} {payload : Bytes} {store : Store}
      (hencoded : c.encoded = .ok payload) (hcall : w.store.call stamp c = (store, .ok ())) :
      Step w (.call stamp c) ⟨store, w.ledger ++
        Ledger.group c.kind payload (c.stamped stamp) w.store.journal.nextSequence⟩
  | refused {stamp : MutationStamp} {c : StoreCall} {status : Status} {store : Store}
      (hcall : w.store.call stamp c = (store, .error status))
      (hjournal : store.journal = w.store.journal) : Step w (.call stamp c) ⟨store, w.ledger⟩
  | crashed {kept : Nat} {options : StoreOptions} {store : Store}
      (hwhole : w.ledger.kept kept ≠ []) (hwritable : options.readOnly = false)
      (hopen : Store.openDisk (w.store.crashed kept) options = .ok store) :
      Step w (.crash kept options) ⟨store, w.ledger.kept kept⟩

/-- The journal holds the ledger, every prefix of the ledger replays to the fold of its committed
transactions, and the next commit goes on where the replay ends. -/
structure Sound (w : Logged) : Prop where
  holds : Store.Holds w.store.journal w.ledger.records
  snapshot : w.store.snapshot = none
  replays : ∀ k, Store.Replays {} (w.ledger.take k)
  resumes : w.store.journal.nextSequence =
    (Store.replayFrom {} w.ledger.records).document.lastSequence + 1

variable {w w' : Logged}

theorem Sound.length_lt (h : Sound w) : w.ledger.length + 3 < 2 ^ 64 := by
  have hle : w.ledger.records.length ≤ limits.kMaxJournalBytes := h.holds.length_le
  have hlen : w.ledger.records.length = w.ledger.length := List.length_map _
  have hmax : limits.kMaxJournalBytes + 3 < 2 ^ 64 := by decide
  omega

theorem Sound.whole (h : Sound w) : Store.Replays {} w.ledger := by
  have := h.replays w.ledger.length
  rwa [List.take_length] at this

/-- A writable open after a crash that leaves a whole record. -/
theorem Sound.reopen (h : Sound w) {n : Nat} {options : StoreOptions}
    (hwhole : w.ledger.kept n ≠ []) (hwritable : options.readOnly = false) :
    ∃ store, Store.openDisk (w.store.crashed n) options = .ok store ∧
      store.document = (Store.retainAmbiguous
        (Store.replayFrom {} (w.ledger.kept n).records)).document ∧
      Sound ⟨store, w.ledger.kept n⟩ := by
  obtain ⟨part, htake, htorn⟩ := logOf_take h.holds.whole n
  have hrecords : (w.ledger.kept n).records =
      w.ledger.records.take (wholeRecords JournalRecord.encode w.ledger.records n) := List.map_take
  have hbytes : w.store.journal.file.take n =
      logOf JournalRecord.encode (w.ledger.kept n).records ++ part := by
    rw [h.holds.file, htake, hrecords]
  have hfit : (w.store.journal.file.take n).length ≤ limits.kMaxJournalBytes := by
    rw [List.length_take]
    exact le_trans (Nat.min_le_right _ _) (h.holds.size ▸ h.holds.fits)
  have hsealed : ∀ record ∈ (w.ledger.kept n).records,
      Sealed limits.kMaxJournalRecordBytes record := fun record hr =>
    h.holds.whole record (List.mem_of_mem_take (hrecords ▸ hr))
  have hne : (w.ledger.kept n).records ≠ [] := by simpa [Ledger.records] using hwhole
  have hload : Store.loadSnapshot (w.store.crashed n).snapshot options = .ok ({}, {}) := by
    have hnone : (w.store.crashed n).snapshot = none := h.snapshot
    rw [hnone]
    rfl
  have hpre : ∀ k, Store.Replays {} ((w.ledger.kept n).take k) := fun k => by
    rw [Ledger.kept, List.take_take]
    exact h.replays _
  obtain ⟨store, hopen, hholds, hdocument, hsnapshot, _, hresume⟩ :=
    Store.openDisk_torn hload (congrArg some hbytes) (hbytes ▸ hfit) hsealed htorn (.inr hne)
      (.inr hwritable)
  refine ⟨store, hopen, hdocument, hholds, hsnapshot.trans h.snapshot, hpre, hresume ?_⟩
  have hposition := (hpre (w.ledger.kept n).length).position
  rw [List.take_length] at hposition
  have hlength : (w.ledger.kept n).length ≤ w.ledger.length := by
    rw [Ledger.kept, List.length_take]
    exact Nat.min_le_right _ _
  have hroom := h.length_lt
  intro hzero
  have hwrap := congrArg UInt64.toNat hzero
  rw [UInt64.toNat_add, Nat.mod_eq_of_lt (by have : (1 : UInt64).toNat = 1 := rfl; omega)] at hwrap
  exact absurd hwrap (Nat.succ_ne_zero _)

/-- A committed call extends the ledger by a group that replays at every cut. -/
theorem Sound.committed (h : Sound w) {stamp : MutationStamp} {c : StoreCall} {payload : Bytes}
    {store : Store} (hencoded : c.encoded = .ok payload)
    (hcall : w.store.call stamp c = (store, .ok ())) :
    Sound ⟨store, w.ledger ++
      Ledger.group c.kind payload (c.stamped stamp) w.store.journal.nextSequence⟩ := by
  obtain ⟨payload', he, hcommit⟩ : ∃ payload', c.encoded = .ok payload' ∧
      w.store.call stamp c = w.store.commit c.kind payload' (c.stamped stamp) := by
    rcases w.store.call_cases stamp c with ⟨status, hr⟩ | hc
    · rw [hr] at hcall
      cases (Prod.mk.inj hcall).2
    · exact hc
  obtain rfl : payload = payload' := Except.ok.inj (hencoded.symm.trans he)
  obtain ⟨hkind, hholds, hnext, happly, hsnapshot, _⟩ :=
    Store.commit_ok h.holds (hcommit ▸ hcall)
  have hroom : (Store.replayFrom {} w.ledger.records).document.lastSequence.toNat + 3 < 2 ^ 64 :=
    lt_of_le_of_lt (Nat.add_le_add_right h.whole.position 3) h.length_lt
  obtain ⟨h₁, h₂, h₃, hlast⟩ := h.whole.group (c.stamped stamp) hkind happly hroom
  rw [← h.resumes] at h₁ h₂ h₃ hlast
  have hgroup : Ledger.records (w.ledger ++
      Ledger.group c.kind payload (c.stamped stamp) w.store.journal.nextSequence) =
      w.ledger.records ++ Store.groupRecords c.kind payload (c.stamped stamp)
        w.store.journal.nextSequence := List.map_append
  refine ⟨hgroup ▸ hholds, hsnapshot.trans h.snapshot, fun k => ?_, ?_⟩
  · rcases Nat.lt_or_ge w.ledger.length k with hk | hk
    · obtain ⟨j, rfl⟩ := Nat.exists_eq_add_of_lt hk
      rw [Nat.add_assoc, List.take_length_add_append]
      match j with
      | 0 => exact h₁
      | 1 => simpa [Ledger.group] using h₂
      | j + 2 =>
        simpa [Ledger.group] using h₃
    · rw [List.take_append_of_le_length hk]
      exact h.replays k
  · rw [hnext]
    rw [List.append_assoc, List.append_assoc] at hlast
    exact congrArg (· + 1) hlast.symm

theorem Sound.step {move : Move} (h : Sound w) (hstep : Step w move w') : Sound w' := by
  cases hstep with
  | committed hencoded hcall => exact h.committed hencoded hcall
  | @refused stamp c status store hcall hjournal =>
    have hsame : store = w.store := by
      rcases w.store.call_cases stamp c with ⟨_, hr⟩ | ⟨_, _, hc⟩
      · exact (Prod.mk.inj (hcall.symm.trans hr)).1
      · exact Store.commit_refused (hc ▸ hcall) hjournal
    rw [hsame]
    exact h
  | crashed hwhole hwritable hopen =>
    obtain ⟨store', hopen', _, hsound⟩ := h.reopen hwhole hwritable
    obtain rfl := Except.ok.inj (hopen.symm.trans hopen')
    exact hsound

/-- The store over an empty disk. -/
theorem Sound.start {options : StoreOptions} {store : Store} (hwritable : options.readOnly = false)
    (hopen : Store.openDisk {} options = .ok store) : Sound ⟨store, []⟩ := by
  have hload : Store.loadSnapshot ({ journal := some [] } : Disk).snapshot options = .ok ({}, {}) := rfl
  have hfile : ({ journal := some [] } : Disk).journal =
      some (logOf JournalRecord.encode [] ++ []) := rfl
  obtain ⟨store', hopen', hholds, _, hsnapshot, _, hresume⟩ :=
    Store.openDisk_torn hload hfile (by decide) (by simp) (.inl rfl) (.inl rfl) (.inl rfl)
  obtain rfl := Except.ok.inj (hopen.symm.trans ((Store.openDisk_none hwritable).trans hopen'))
  refine ⟨hholds, hsnapshot, fun k => ?_, hresume (by decide)⟩
  rw [List.take_nil]
  exact ⟨⟨{}, rfl, rfl⟩, fun _ _ hf => (nomatch hf), rfl, le_refl 0⟩

variable {options options' : StoreOptions} {store : Store} {es : List (Event Logged Move)}

/-- After any run of commits and crashes, a crash that leaves a whole record recovers the fold of
the transactions whose commit record it leaves whole, and lists an unfinished attempt exactly when
a payload is left without its commit. -/
theorem recovers_committed (hwritable : options.readOnly = false)
    (hopen : Store.openDisk {} options = .ok store) (run : Run Step ⟨store, []⟩ es w) {n : Nat}
    (hwhole : w.ledger.kept n ≠ []) (hwritable' : options'.readOnly = false) :
    w.store.journal.file = logOf JournalRecord.encode w.ledger.records ∧
    ∃ recovered folded ambiguous,
      Store.openDisk (w.store.crashed n) options' = .ok recovered ∧
      ({} : DurableDocument).applyAll (w.ledger.kept n).committed = .ok folded ∧
      recovered.document = { folded with
        lastSequence := recovered.document.lastSequence
        attempts := folded.attempts ++ ambiguous } ∧
      ambiguous.length = (if (w.ledger.kept n).dangling then 1 else 0) ∧
      ∀ attempt ∈ ambiguous, attempt.state = .ambiguous := by
  have hsound : Sound w := run.invariant (Sound.start hwritable hopen) fun _ _ _ hs hstep =>
    hs.step hstep
  obtain ⟨recovered, hrecovered, hdocument, hafter⟩ := hsound.reopen hwhole hwritable'
  obtain ⟨⟨folded, hfolded, hreplay⟩, hnext, hwaits, _⟩ := hafter.whole
  refine ⟨hsound.holds.file, recovered, folded, _, hrecovered, hfolded, ?_,
    (Store.ambiguousAttempts_length hnext).trans (by rw [hwaits]),
    Store.ambiguousAttempts_state _⟩
  rw [hdocument]
  simp only [Store.retainAmbiguous]
  rw [hreplay]

/-- Two epoch advances on an empty disk. -/
def advancing : Logged × Logged × Logged :=
  let advance (w : Logged) (n : UInt64) : Logged :=
    let c : StoreCall := .advanceEpoch ⟨n⟩ ⟨1⟩ n
    let payload := match c.encoded with
      | .ok payload => payload
      | .error _ => []
    ⟨(w.store.call {} c).1,
      w.ledger ++ Ledger.group c.kind payload (c.stamped {}) w.store.journal.nextSequence⟩
  let first : Logged := ⟨.fresh, []⟩
  (first, advance first 1, advance (advance first 1) 2)

set_option maxRecDepth 100000 in
theorem advancing_calls :
    (advancing.1.store.call {} (.advanceEpoch ⟨1⟩ ⟨1⟩ 1)).2 = .ok () ∧
      (advancing.2.1.store.call {} (.advanceEpoch ⟨2⟩ ⟨1⟩ 2)).2 = .ok () := by
  decide +kernel

set_option maxRecDepth 100000 in
theorem advancing_cut : 0 < (advancing.2.2.ledger.kept 474).length ∧
    (advancing.2.2.ledger.kept 474).dangling = true ∧
    (({} : DurableDocument).applyAll (advancing.2.2.ledger.kept 474).committed).map
      (fun d => (d.epoch, d.attempts.length)) = .ok (⟨1⟩, 0) := by
  decide +kernel

/-- A crash ten bytes before the end of the second commit record. -/
theorem recovers_committed_advancing : ∃ recovered,
    Store.openDisk (advancing.2.2.store.crashed 474) {} = .ok recovered ∧
      recovered.document.epoch = ⟨1⟩ ∧ recovered.document.attempts.length = 1 := by
  obtain ⟨hfirst, hsecond⟩ := advancing_calls
  obtain ⟨hkept, hdangling, hfold⟩ := advancing_cut
  have step₁ : Step advancing.1 (.call {} (.advanceEpoch ⟨1⟩ ⟨1⟩ 1)) _ :=
    .committed rfl (Prod.ext rfl hfirst)
  have run₁ : Run Step advancing.1 _ advancing.2.1 := Run.start.next step₁
  have step₂ : Step _ (.call {} (.advanceEpoch ⟨2⟩ ⟨1⟩ 2)) _ :=
    .committed rfl (Prod.ext rfl hsecond)
  have run₂ : Run Step advancing.1 _ advancing.2.2 := run₁.next step₂
  obtain ⟨-, recovered, folded, ambiguous, hrecovered, hfolded, hdocument, hcount, -⟩ :=
    recovers_committed rfl Store.openDisk_fresh run₂ (List.ne_nil_of_length_pos hkept)
      (rfl : ({} : StoreOptions).readOnly = false)
  rw [hfolded] at hfold
  obtain ⟨hepoch, hattempts⟩ := Prod.mk.inj (Except.ok.inj hfold)
  rw [hdangling, if_pos rfl] at hcount
  refine ⟨recovered, hrecovered, ?_, ?_⟩
  · rw [hdocument]
    exact hepoch
  · rw [hdocument, List.length_append, hattempts, hcount]

end Logged

end CongestionFabric
