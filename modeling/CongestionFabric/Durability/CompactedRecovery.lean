import CongestionFabric.Durability.DanglingPayloads
import CongestionFabric.Durability.TornJournal

namespace CongestionFabric

/-- What a document says, without the bounded lists. -/
def DurableDocument.core (d : DurableDocument) : DurableDocument :=
  { d.content with
    history := [], interventions := [], fences := [], attempts := [], provenance := []
    revalidations := [] }

namespace DurableDocument

variable {d d' e : DurableDocument} {kind : MutationKind} {payload : Bytes}
  {transactions : List (MutationKind × Bytes)}

theorem core_applyMutation (d : DurableDocument) (m : Mutation) :
    (d.applyMutation m).core = (d.core.applyMutation m).core := by
  cases m <;> rfl

theorem core_apply (hsame : d.core = d'.core) (h : d.apply kind payload = .ok e) :
    ∃ e', d'.apply kind payload = .ok e' ∧ e.core = e'.core := by
  obtain ⟨mutation, hdecode, hpure⟩ := bind_ok.mp h
  obtain rfl := Except.ok.inj hpure
  refine ⟨d'.applyMutation mutation, bind_ok.mpr ⟨mutation, hdecode, rfl⟩, ?_⟩
  rw [core_applyMutation, hsame, ← core_applyMutation]

/-- The document says what the transactions add up to. -/
def Recalls (transactions : List (MutationKind × Bytes)) (d : DurableDocument) : Prop :=
  ∃ folded, ({} : DurableDocument).applyAll transactions = .ok folded ∧ d.core = folded.core

theorem Recalls.congr (h : Recalls transactions d) (hsame : d'.core = d.core) :
    Recalls transactions d' := by
  obtain ⟨folded, hfolded, hcore⟩ := h
  exact ⟨folded, hfolded, hsame.trans hcore⟩

theorem Recalls.snoc (h : Recalls transactions d) (happly : d.apply kind payload = .ok e) :
    Recalls (transactions ++ [(kind, payload)]) e := by
  obtain ⟨folded, hfolded, hcore⟩ := h
  obtain ⟨folded', hfolded', hcore'⟩ := core_apply hcore happly
  refine ⟨folded', ?_, hcore'⟩
  unfold applyAll at hfolded ⊢
  rw [List.foldlM_append]
  exact bind_ok.mpr ⟨folded, hfolded, by simp [hfolded']⟩

theorem core_of_content (h : d.content = d'.content) : d.core = d'.core := by
  unfold core
  rw [h]

end DurableDocument

/-- A record of the journal with the transaction it commits, when the snapshot does not cover it. -/
structure Posting where
  record : JournalRecord
  transaction : Option (MutationKind × Bytes) := none

/-- A store with the records of its journal and the transactions its snapshot holds, which has so many
records. -/
structure Compacted where
  store : Store
  postings : List Posting := []
  saved : List (MutationKind × Bytes) := []
  covering : Nat := 0

/-- Calls, checkpoints, crashes that leave some of the journal, and crashes of a checkpoint between its
snapshot and its rebase. -/
inductive Upset where
  | call (stamp : MutationStamp) (c : StoreCall)
  | checkpoint
  | crash (kept : Nat) (options : StoreOptions)
  | halfway (options : StoreOptions)

namespace Compacted

open Store DurableDocument

def recordsOf (postings : List Posting) : List JournalRecord := postings.map (·.record)

def posted (postings : List Posting) : List (MutationKind × Bytes) :=
  postings.filterMap (·.transaction)

/-- What has been committed, in order. -/
def transactions (w : Compacted) : List (MutationKind × Bytes) := w.saved ++ posted w.postings

def group (kind : MutationKind) (payload : Bytes) (stamp : MutationStamp) (n : UInt64) :
    List Posting :=
  [⟨intentRecord kind stamp n, none⟩, ⟨payloadRecord kind payload stamp n, none⟩,
    ⟨commitRecord kind payload stamp n, some (kind, payload)⟩]

/-- The postings that lie whole in the first bytes of the journal. -/
def kept (w : Compacted) (n : Nat) : List Posting :=
  w.postings.take (wholeRecords JournalRecord.encode (recordsOf w.postings) n)

/-- The postings of a journal that a snapshot covers. -/
def covered (postings : List Posting) : List Posting :=
  postings.map fun posting => ⟨posting.record, none⟩

/-- Calls that commit, calls that are refused before anything is written, checkpoints, and crashes at
any byte of the journal that leaves a whole record or nothing of it, or between the snapshot of a
checkpoint and its rebase. An open that admits the records of the snapshot follows each crash. -/
inductive Step (w : Compacted) : Upset → Compacted → Prop where
  | committed {stamp : MutationStamp} {c : StoreCall} {payload : Bytes} {store : Store}
      (hencoded : c.encoded = .ok payload) (hcall : w.store.call stamp c = (store, .ok ()))
      (hroom : w.store.journal.nextSequence.toNat + 3 < 2 ^ 64) :
      Step w (.call stamp c)
        { w with
          store
          postings := w.postings ++
            group c.kind payload (c.stamped stamp) w.store.journal.nextSequence }
  | refused {stamp : MutationStamp} {c : StoreCall} {status : Status} {store : Store}
      (hcall : w.store.call stamp c = (store, .error status))
      (hjournal : store.journal = w.store.journal) : Step w (.call stamp c) { w with store }
  | checkpoint {store : Store} (hcheckpoint : w.store.checkpoint = (store, .ok ()))
      (hroom : w.store.journal.nextSequence.toNat + 1 < 2 ^ 64) :
      Step w .checkpoint
        { store := store
          saved := w.transactions
          postings := [⟨Journal.recordOf .rebase w.store.document.epoch
            w.store.document.authorityGeneration.value w.store.journal.nextSequence {} [], none⟩]
          covering := w.store.document.compactCalls.length }
  | crash {n : Nat} {options : StoreOptions} {store : Store}
      (hwhole : w.kept n ≠ [] ∨ w.store.journal.file.take n = [])
      (hwritable : options.readOnly = false)
      (hcovering : w.covering ≤ (snapshotOptions options).maxRecords)
      (hopen : openDisk (w.store.crashed n) options = .ok store) :
      Step w (.crash n options) { w with store, postings := w.kept n }
  | halfway {options : StoreOptions} {container : Bytes} {bounds : SnapshotOptions} {count : Nat}
      {store : Store} (hcompact : compact w.store.document = .ok (container, bounds, count))
      (hwritable : options.readOnly = false)
      (hcovering : w.store.document.compactCalls.length ≤ (snapshotOptions options).maxRecords)
      (hopen : openDisk { w.store.disk with snapshot := some container } options = .ok store) :
      Step w (.halfway options)
        { store := store
          saved := w.transactions
          postings := covered w.postings
          covering := w.store.document.compactCalls.length }

/-! ### The journal over its snapshot -/

variable {base base' : DurableDocument} {postings : List Posting} {records : List JournalRecord}
  {saved : List (MutationKind × Bytes)} {w w' : Compacted} {store : Store} {c : StoreCall}
  {stamp : MutationStamp} {payload : Bytes} {kind : MutationKind} {options : StoreOptions}

theorem replayRecord_ahead (r : Recovery) (record : JournalRecord) :
    r.document.lastSequence ≤ (replayRecord r record).document.lastSequence := by
  by_cases hskip : record.header.sequence ≤ r.document.lastSequence
  · have hsame := (replayRecord_covered hskip).1
    rw [hsame]
    exact UInt64.le_refl _
  · rcases replayRecord_lastSequence r record with hsame | hrecord
    · rw [hsame]
      exact UInt64.le_refl _
    · rw [hrecord]
      exact UInt64.le_of_lt (UInt64.not_le.mp hskip)

/-- Replay goes forward only. -/
theorem replayFrom_ahead (read rest : List JournalRecord) :
    (replayFrom base read).document.lastSequence ≤
      (replayFrom base (read ++ rest)).document.lastSequence := by
  unfold replayFrom
  rw [List.foldl_append]
  generalize read.foldl replayRecord { document := base } = r
  induction rest generalizing r with
  | nil => exact UInt64.le_refl _
  | cons record rest ih => exact UInt64.le_trans (replayRecord_ahead r record) (ih _)

/-- The front of a journal replays to what it commits, and what it leaves unfinished is intents and
payloads. -/
structure Front (base : DurableDocument) (saved : List (MutationKind × Bytes))
    (postings : List Posting) : Prop where
  recalls : Recalls (saved ++ posted postings) (replayFrom base (recordsOf postings)).document
  quiet : ∀ posting ∈ postings, posting.record.type = .intent ∨ posting.record.type = .payload ∨
    posting.record.header.sequence ≤
      (replayFrom base (recordsOf postings)).document.lastSequence

theorem replayFrom_snoc (postings : List Posting) (posting : Posting) :
    replayFrom base (recordsOf (postings ++ [posting])) =
      replayRecord (replayFrom base (recordsOf postings)) posting.record := by
  simp [replayFrom, recordsOf]

theorem posted_append (postings postings' : List Posting) :
    posted (postings ++ postings') = posted postings ++ posted postings' := List.filterMap_append

/-- An intent or a payload goes on without a word. -/
theorem Front.unfinished {posting : Posting} (h : Front base saved postings)
    (hdocument : (replayFrom base (recordsOf (postings ++ [posting]))).document =
      (replayFrom base (recordsOf postings)).document)
    (htype : posting.record.type = .intent ∨ posting.record.type = .payload)
    (hnone : posting.transaction = none) : Front base saved (postings ++ [posting]) := by
  constructor
  · rw [posted_append, hdocument]
    simpa [posted, hnone] using h.recalls
  · intro found hfound
    rw [hdocument]
    rcases List.mem_append.mp hfound with hold | hnew
    · exact h.quiet found hold
    · obtain rfl := List.mem_singleton.mp hnew
      rcases htype with hintent | hpayload
      · exact .inl hintent
      · exact .inr (.inl hpayload)

/-- A commit record applies its transaction. -/
theorem Front.commits {posting : Posting} {document : DurableDocument}
    (h : Front base saved postings)
    (happly : (replayFrom base (recordsOf postings)).document.apply kind payload = .ok document)
    (hdocument : (replayFrom base (recordsOf (postings ++ [posting]))).document =
      { document with lastSequence := posting.record.header.sequence })
    (hsome : posting.transaction = some (kind, payload)) :
    Front base saved (postings ++ [posting]) := by
  constructor
  · have hposted : saved ++ posted (postings ++ [posting]) =
        saved ++ posted postings ++ [(kind, payload)] := by
      rw [posted_append, List.append_assoc]
      simp [posted, hsome]
    rw [hposted, hdocument]
    exact (h.recalls.snoc happly).congr rfl
  · intro found hfound
    rcases List.mem_append.mp hfound with hold | hnew
    · have hahead := @replayFrom_ahead base (recordsOf postings) [posting.record]
      have hrecords : recordsOf (postings ++ [posting]) = recordsOf postings ++ [posting.record] :=
        List.map_append
      rw [← hrecords] at hahead
      rcases h.quiet found hold with hintent | hpayload | hle
      · exact .inl hintent
      · exact .inr (.inl hpayload)
      · exact .inr (.inr (UInt64.le_trans hle hahead))
    · obtain rfl := List.mem_singleton.mp hnew
      rw [hdocument]
      exact .inr (.inr (UInt64.le_refl _))

variable (stamp) in
/-- A commit group replays at every cut. -/
theorem Front.group (h : Front base saved postings) (hk : kind.named = true)
    (happly : ∀ document : DurableDocument,
      ∃ document', document.apply kind payload = .ok document')
    (hroom : (replayFrom base (recordsOf postings)).document.lastSequence.toNat + 3 < 2 ^ 64) :
    let n := (replayFrom base (recordsOf postings)).document.lastSequence + 1
    (∀ k, Front base saved (postings ++ (group kind payload stamp n).take k)) ∧
      (replayFrom base (recordsOf (postings ++ group kind payload stamp n))).document.lastSequence =
        n + 1 + 1 := by
  intro n
  obtain ⟨document, hd⟩ := happly (replayFrom base (recordsOf postings)).document
  obtain ⟨⟨d₁, _⟩, ⟨d₂, _⟩, d₃, _⟩ := replay_group_records stamp hk hroom hd
  have r₁ := @replayFrom_snoc base postings ⟨intentRecord kind stamp n, none⟩
  have r₂ := @replayFrom_snoc base (postings ++ [⟨intentRecord kind stamp n, none⟩])
    ⟨payloadRecord kind payload stamp n, none⟩
  have r₃ := @replayFrom_snoc base (postings ++ [⟨intentRecord kind stamp n, none⟩] ++
    [⟨payloadRecord kind payload stamp n, none⟩])
    ⟨commitRecord kind payload stamp n, some (kind, payload)⟩
  rw [r₁] at r₂
  rw [r₂] at r₃
  have f₁ : Front base saved (postings ++ [⟨intentRecord kind stamp n, none⟩]) :=
    h.unfinished ((congrArg (·.document) r₁).trans d₁) (.inl (Journal.recordOf_type _)) rfl
  have hsame₂ : (replayFrom base (recordsOf (postings ++ [⟨intentRecord kind stamp n, none⟩] ++
      [⟨payloadRecord kind payload stamp n, none⟩]))).document =
      (replayFrom base (recordsOf postings)).document := (congrArg (·.document) r₂).trans d₂
  have f₂ := f₁.unfinished (hsame₂.trans ((congrArg (·.document) r₁).trans d₁).symm)
    (.inr (Journal.recordOf_type _)) rfl
  have f₃ := f₂.commits (hsame₂ ▸ hd) ((congrArg (·.document) r₃).trans d₃) rfl
  constructor
  · intro k
    match k with
    | 0 => simpa [Compacted.group] using h
    | 1 => simpa [Compacted.group] using f₁
    | 2 => simpa [Compacted.group] using f₂
    | k + 3 => simpa [Compacted.group] using f₃
  · have hlast := congrArg DurableDocument.lastSequence ((congrArg (·.document) r₃).trans d₃)
    simpa [Compacted.group] using hlast

/-- The record of a rebase is passed over. -/
theorem Front.rebased {posting : Posting} (h : Recalls saved base)
    (htype : posting.record.type = .rebase) (hnone : posting.transaction = none)
    (hlast : base.lastSequence < posting.record.header.sequence) :
    ∀ k, Front base saved ([posting].take k) := by
  obtain ⟨hdocument, _⟩ := replayFrom_rebase htype hlast
  intro k
  cases k with
  | zero => exact ⟨by simpa [posted, recordsOf, replayFrom] using h, by simp⟩
  | succ k =>
    rw [List.take_succ_cons, List.take_nil]
    constructor
    · have hposted : posted [posting] = [] := by simp [posted, hnone]
      rw [hposted, List.append_nil]
      exact h.congr ((congrArg core hdocument).trans rfl)
    · intro found hfound
      obtain rfl := List.mem_singleton.mp hfound
      have hreplayed : (replayFrom base (recordsOf [found])).document.lastSequence =
          found.record.header.sequence := congrArg DurableDocument.lastSequence hdocument
      rw [hreplayed]
      exact .inr (.inr (UInt64.le_refl _))

/-! ### Runs -/

def entriesOf (postings : List Posting) : List JournalEntry :=
  postings.map fun posting => ⟨posting.record, 0⟩

theorem recordsOf_entriesOf (postings : List Posting) :
    Store.recordsOf (entriesOf postings) = recordsOf postings := by
  simp [Store.recordsOf, entriesOf, recordsOf, Function.comp_def]

/-- The journal holds the postings over a snapshot that loads as `base`, every front of them replays to
what it commits, and the document and the next record are where the replay ends. -/
structure Sound (base : DurableDocument) (w : Compacted) : Prop where
  holds : Holds w.store.journal (recordsOf w.postings)
  loads : ∀ options : StoreOptions, w.covering ≤ (snapshotOptions options).maxRecords →
    ∃ report, loadSnapshot w.store.snapshot options = .ok (base, report)
  founded : Normal base
  normal : Normal w.store.document
  recalls : Recalls w.transactions w.store.document
  fronts : ∀ k, Front base w.saved (w.postings.take k)
  resumes : w.store.journal.nextSequence.toNat =
    (replayFrom base (recordsOf w.postings)).document.lastSequence.toNat + 1
  placed : Placed w.store.document
    (replayFrom base (recordsOf w.postings)).document.lastSequence (entriesOf w.postings)

theorem Sound.whole (h : Sound base w) : Front base w.saved w.postings := by
  have hfront := h.fronts w.postings.length
  rwa [List.take_length] at hfront

/-- A commit applies its transaction to the document, but for what it trims. -/
theorem commit_document {store' : Store} (h : store.commit kind payload stamp = (store', .ok ())) :
    ∃ document, store.document.apply kind payload = .ok document ∧
      store'.document.core = document.core ∧
      store'.document.lastSequence = store'.journal.nextSequence - 1 ∧
      (Normal store.document → Normal store'.document) := by
  unfold commit at h
  split at h
  next => cases (Prod.mk.inj h).2
  next =>
    split at h
    next => cases (Prod.mk.inj h).2
    next =>
      split at h
      next => cases (Prod.mk.inj h).2
      next document happly =>
        obtain ⟨rfl, _⟩ := Prod.mk.inj h
        refine ⟨document, happly, rfl, rfl, fun hnormal => ?_⟩
        have hafter := hnormal.apply happly
        exact pruneDocument_normal
          ⟨hafter.policy, hafter.keyed, hafter.interventions, hafter.fences, hafter.provenance⟩

theorem fronts_append {α : Type} {P : List α → Prop} {xs ys : List α} (hold : ∀ k, P (xs.take k))
    (hnew : ∀ k, P (xs ++ ys.take k)) : ∀ k, P ((xs ++ ys).take k) := by
  intro k
  rw [List.take_append]
  rcases Nat.le_total k xs.length with hle | hge
  · rw [Nat.sub_eq_zero_of_le hle, List.take_zero, List.append_nil]
    exact hold k
  · rw [List.take_of_length_le hge]
    exact hnew _

theorem Sound.committed (h : Sound base w) (hencoded : c.encoded = .ok payload)
    (hcall : w.store.call stamp c = (store, .ok ()))
    (hroom : w.store.journal.nextSequence.toNat + 3 < 2 ^ 64) :
    Sound base { w with
      store
      postings := w.postings ++
        group c.kind payload (c.stamped stamp) w.store.journal.nextSequence } := by
  obtain ⟨payload', he, hcommit⟩ : ∃ payload', c.encoded = .ok payload' ∧
      w.store.call stamp c = w.store.commit c.kind payload' (c.stamped stamp) := by
    rcases w.store.call_cases stamp c with ⟨status, hr⟩ | hc
    · rw [hr] at hcall
      cases (Prod.mk.inj hcall).2
    · exact hc
  obtain rfl : payload = payload' := Except.ok.inj (hencoded.symm.trans he)
  obtain ⟨hkind, hholds, hnext, happly, hsnapshot, _⟩ := commit_ok h.holds (hcommit ▸ hcall)
  obtain ⟨document, hdocument, hcore, hlast, hnormal⟩ := commit_document (hcommit ▸ hcall)
  have hresumes := h.resumes
  have hone : (1 : UInt64).toNat = 1 := rfl
  have hthree : (w.store.journal.nextSequence + 1 + 1 + 1).toNat =
      w.store.journal.nextSequence.toNat + 3 := by
    simp only [UInt64.toNat_add, hone]
    omega
  have htwo : (w.store.journal.nextSequence + 1 + 1).toNat =
      w.store.journal.nextSequence.toNat + 2 := by
    simp only [UInt64.toNat_add, hone]
    omega
  have hposition : (replayFrom base (recordsOf w.postings)).document.lastSequence + 1 =
      w.store.journal.nextSequence := by
    apply UInt64.toNat_inj.mp
    rw [UInt64.toNat_add, hone, hresumes, Nat.mod_eq_of_lt (by omega)]
  obtain ⟨hfronts, hreplayed⟩ := h.whole.group (c.stamped stamp) hkind happly (by omega)
  rw [hposition] at hfronts hreplayed
  have hgroup : recordsOf (w.postings ++
      group c.kind payload (c.stamped stamp) w.store.journal.nextSequence) =
      recordsOf w.postings ++ groupRecords c.kind payload (c.stamped stamp)
        w.store.journal.nextSequence := List.map_append
  have hposted : w.saved ++ posted (w.postings ++
      group c.kind payload (c.stamped stamp) w.store.journal.nextSequence) =
      w.transactions ++ [(c.kind, payload)] := by
    rw [posted_append, ← List.append_assoc]
    rfl
  constructor
  · exact hgroup ▸ hholds
  · rw [show store.snapshot = w.store.snapshot from hsnapshot]
    exact h.loads
  · exact h.founded
  · exact hnormal h.normal
  · show Recalls (w.saved ++ posted _) store.document
    rw [hposted]
    exact (h.recalls.snoc hdocument).congr hcore
  · exact fronts_append h.fronts hfronts
  · dsimp only
    rw [hreplayed, hnext, hthree, htwo]
  · refine .inl ?_
    dsimp only
    rw [hlast, hreplayed, hnext]
    apply UInt64.toNat_inj.mp
    rw [UInt64.toNat_sub_of_le _ _ (UInt64.le_iff_toNat_le.mpr (by omega)), hone]
    omega

/-- A writable open of a directory whose journal goes on, or ends in a torn record after a whole one. -/
theorem Sound.reopened {disk : Disk} {covering : Nat} {part : Bytes}
    (hloads : ∀ options : StoreOptions, covering ≤ (snapshotOptions options).maxRecords →
      ∃ report, loadSnapshot disk.snapshot options = .ok (base, report))
    (hcovering : covering ≤ (snapshotOptions options).maxRecords)
    (hfile : disk.journal = some (logOf JournalRecord.encode (recordsOf postings) ++ part))
    (hfit : (logOf JournalRecord.encode (recordsOf postings) ++ part).length ≤
      limits.kMaxJournalBytes)
    (hwhole : ∀ record ∈ recordsOf postings, Sealed limits.kMaxJournalRecordBytes record)
    (htorn : TornTail JournalRecord.encode (Sealed limits.kMaxJournalRecordBytes) part)
    (hfirst : part = [] ∨ recordsOf postings ≠ []) (hwritable : options.readOnly = false)
    (hfounded : Normal base) (hfronts : ∀ k, Front base saved (postings.take k))
    (hroom : (replayFrom base (recordsOf postings)).document.lastSequence.toNat + 1 < 2 ^ 64) :
    ∃ store, openDisk disk options = .ok store ∧ Sound base { store, postings, saved, covering } := by
  obtain ⟨report, hload⟩ := hloads options hcovering
  obtain ⟨store, hopen, hholds, hdocument, hsnapshot, _, hresume⟩ :=
    openDisk_torn hload hfile hfit hwhole htorn hfirst (.inr hwritable)
  have hone : (1 : UInt64).toNat = 1 := rfl
  have hnext : ((replayFrom base (recordsOf postings)).document.lastSequence + 1).toNat =
      (replayFrom base (recordsOf postings)).document.lastSequence.toNat + 1 := by
    rw [UInt64.toNat_add, hone, Nat.mod_eq_of_lt hroom]
  have hresumed := hresume fun hzero => by
    rw [hzero] at hnext
    exact absurd hnext.symm (Nat.succ_ne_zero _)
  have hfront := hfronts postings.length
  rw [List.take_length] at hfront
  refine ⟨store, hopen, ⟨hholds, ?_, hfounded, ?_, ?_, hfronts, ?_, ?_⟩⟩
  · rw [show store.snapshot = disk.snapshot from hsnapshot]
    exact hloads
  · rw [hdocument]
    have hnormal := replayFrom_normal hfounded (recordsOf postings)
    exact ⟨hnormal.policy, hnormal.keyed, hnormal.interventions, hnormal.fences, hnormal.provenance⟩
  · exact hfront.recalls.congr ((congrArg core hdocument).trans rfl)
  · exact (congrArg UInt64.toNat hresumed).trans hnext
  · refine .inl ?_
    dsimp only
    rw [hdocument, retainAmbiguous_last]

theorem recordsOf_take (postings : List Posting) (k : Nat) :
    recordsOf (postings.take k) = (recordsOf postings).take k := List.map_take

/-- A front of the journal is no further than the whole. -/
theorem Sound.front_room (h : Sound base w) (k : Nat) :
    (replayFrom base (recordsOf (w.postings.take k))).document.lastSequence.toNat + 1 < 2 ^ 64 := by
  have hahead := @replayFrom_ahead base (recordsOf (w.postings.take k))
    (recordsOf (w.postings.drop k))
  have hsplit : recordsOf (w.postings.take k) ++ recordsOf (w.postings.drop k) =
      recordsOf w.postings := by
    unfold recordsOf
    rw [← List.map_append, List.take_append_drop]
  rw [hsplit] at hahead
  have hresumes := h.resumes
  have hbound := w.store.journal.nextSequence.toNat_lt
  have hle := UInt64.le_iff_toNat_le.mp hahead
  omega

/-- A crash that leaves a whole record of the journal, or nothing of it. -/
theorem Sound.crash (h : Sound base w) {n : Nat}
    (hwhole : w.kept n ≠ [] ∨ w.store.journal.file.take n = [])
    (hwritable : options.readOnly = false)
    (hcovering : w.covering ≤ (snapshotOptions options).maxRecords) :
    ∃ store, openDisk (w.store.crashed n) options = .ok store ∧
      Sound base { w with store, postings := w.kept n } := by
  obtain ⟨part, htake, htorn⟩ := logOf_take h.holds.whole n
  have hrecords : recordsOf (w.kept n) = (recordsOf w.postings).take
      (wholeRecords JournalRecord.encode (recordsOf w.postings) n) := recordsOf_take _ _
  have hbytes : w.store.journal.file.take n =
      logOf JournalRecord.encode (recordsOf (w.kept n)) ++ part := by
    rw [h.holds.file, htake, hrecords]
  have hfit : (w.store.journal.file.take n).length ≤ limits.kMaxJournalBytes := by
    rw [List.length_take]
    exact le_trans (Nat.min_le_right _ _) (h.holds.size ▸ h.holds.fits)
  have hsealed : ∀ record ∈ recordsOf (w.kept n), Sealed limits.kMaxJournalRecordBytes record :=
    fun record hr => h.holds.whole record (List.mem_of_mem_take (hrecords ▸ hr))
  have hfirst : part = [] ∨ recordsOf (w.kept n) ≠ [] := by
    rcases hwhole with hne | hnone
    · exact .inr (by simpa [recordsOf] using hne)
    · rw [hnone] at hbytes
      exact .inl (List.append_eq_nil_iff.mp hbytes.symm).2
  refine Sound.reopened h.loads hcovering (congrArg some hbytes) (hbytes ▸ hfit) hsealed htorn hfirst
    hwritable h.founded (fun k => ?_) (h.front_room _)
  unfold kept
  rw [List.take_take]
  exact h.fronts _

/-- A crash that leaves less than one record of the journal, and some of it. -/
theorem Sound.cut (h : Sound base w) {n : Nat} (hnone : w.kept n = [])
    (hsome : w.store.journal.file.take n ≠ [])
    (hcovering : w.covering ≤ (snapshotOptions options).maxRecords) :
    ∃ store, openDisk (w.store.crashed n) options = .ok store ∧
      Recalls (w.saved ++ posted (w.kept n)) store.document := by
  obtain ⟨part, htake, htorn⟩ := logOf_take h.holds.whole n
  have hrecords : (recordsOf w.postings).take
      (wholeRecords JournalRecord.encode (recordsOf w.postings) n) = [] := by
    rw [← recordsOf_take]
    exact congrArg recordsOf hnone
  have hbytes : w.store.journal.file.take n = part := by
    rw [h.holds.file, htake, hrecords]
    rfl
  have hfit : part.length ≤ limits.kMaxJournalBytes := by
    rw [← hbytes, List.length_take]
    exact le_trans (Nat.min_le_right _ _) (h.holds.size ▸ h.holds.fits)
  obtain ⟨report, hload⟩ := h.loads options hcovering
  obtain ⟨store, hopen, _, hdocument⟩ := openDisk_short (w.store.crashed n) hload
    (congrArg some hbytes) htorn (hbytes ▸ hsome) hfit
  have hfront := h.fronts 0
  rw [List.take_zero] at hfront
  refine ⟨store, hopen, ?_⟩
  rw [hnone]
  exact hfront.recalls.congr ((congrArg core hdocument).trans rfl)

/-- A checkpoint leaves its container, and a journal with the record of its rebase. -/
theorem Sound.checkpoint (h : Sound base w) (hcheckpoint : w.store.checkpoint = (store, .ok ()))
    (hroom : w.store.journal.nextSequence.toNat + 1 < 2 ^ 64) :
    ∃ base', Sound base'
      { store := store
        saved := w.transactions
        postings := [⟨Journal.recordOf .rebase w.store.document.epoch
          w.store.document.authorityGeneration.value w.store.journal.nextSequence {} [], none⟩]
        covering := w.store.document.compactCalls.length } := by
  obtain ⟨container, bounds, count, rebased, hcompact, rfl, hholds, hnext⟩ :=
    checkpoint_ok h.holds hcheckpoint
  obtain ⟨loaded, hcontent, hlast, hloads⟩ := compact_loads h.normal hcompact
  have hresumes := h.resumes
  have hplaced := UInt64.le_iff_toNat_le.mp h.placed.le
  have hahead : loaded.lastSequence < w.store.journal.nextSequence := by
    rw [hlast, UInt64.lt_iff_toNat_lt]
    omega
  have hrecalls : Recalls w.transactions loaded := h.recalls.congr (core_of_content hcontent)
  obtain ⟨hreplayed, _⟩ := replayFrom_rebase (Journal.recordOf_type _ :
    (Journal.recordOf .rebase w.store.document.epoch w.store.document.authorityGeneration.value
      w.store.journal.nextSequence {} []).type = .rebase) hahead
  have hposition : (replayFrom loaded (recordsOf [(⟨Journal.recordOf .rebase w.store.document.epoch
      w.store.document.authorityGeneration.value w.store.journal.nextSequence {} [], none⟩ :
        Posting)])).document.lastSequence = w.store.journal.nextSequence :=
    congrArg DurableDocument.lastSequence hreplayed
  refine ⟨loaded, ⟨hholds, fun options hcovering => ⟨_, hloads options hcovering⟩,
    h.normal.congr hcontent, h.normal, ?_, ?_, ?_, ?_⟩⟩
  · simpa [transactions, posted] using h.recalls
  · exact Front.rebased hrecalls (Journal.recordOf_type _) rfl hahead
  · dsimp only
    have hone : (1 : UInt64).toNat = 1 := rfl
    rw [hposition, hnext, UInt64.toNat_add, hone, Nat.mod_eq_of_lt hroom]
  · dsimp only
    rw [hposition]
    exact .inr ⟨_, [], rfl, Journal.recordOf_type _, rfl, hlast ▸ hahead⟩

theorem recordsOf_covered (postings : List Posting) :
    recordsOf (covered postings) = recordsOf postings := by
  simp [recordsOf, covered, Function.comp_def]

theorem posted_covered (postings : List Posting) : posted (covered postings) = [] := by
  simp [posted, covered]

/-- An old journal over a new snapshot says no more than the snapshot. -/
theorem placed_replays {position : UInt64} (h : Placed base position (entriesOf postings))
    (hquiet : ∀ posting ∈ postings, posting.record.type = .intent ∨ posting.record.type = .payload ∨
      posting.record.header.sequence ≤ position) (k : Nat) :
    (replayFrom base (recordsOf (postings.take k))).document.core = base.core ∧
      ∀ posting ∈ postings.take k, posting.record.type = .intent ∨
        posting.record.type = .payload ∨ posting.record.header.sequence ≤
          (replayFrom base (recordsOf (postings.take k))).document.lastSequence := by
  have hentries : ∀ entry ∈ entriesOf (postings.take k), entry.record.type = .intent ∨
      entry.record.type = .payload ∨ entry.record.header.sequence ≤ position := by
    intro entry hentry
    obtain ⟨posting, hposting, rfl⟩ := List.mem_map.mp hentry
    exact hquiet posting (List.mem_of_mem_take hposting)
  have htake : entriesOf (postings.take k) = (entriesOf postings).take k := List.map_take
  have hfront : postings.take k = [] ∨
      (replayFrom base (recordsOf (postings.take k))).document =
        { base with lastSequence := position } := by
    rcases h with hsame | ⟨first, rest, hsplit, htype, hsequence, hlt⟩
    · obtain ⟨hdocument, _⟩ := replay_quiet (hsame ▸ hentries)
      rw [recordsOf_entriesOf] at hdocument
      refine .inr (hdocument.trans ?_)
      rw [← hsame]
    · cases k with
      | zero => exact .inl List.take_zero
      | succ k =>
        have hplaced : Placed base position (entriesOf (postings.take (k + 1))) := by
          rw [htake, hsplit, List.take_succ_cons]
          exact .inr ⟨first, rest.take k, rfl, htype, hsequence, hlt⟩
        obtain ⟨hdocument, _⟩ := hplaced.replay hentries
        rw [recordsOf_entriesOf] at hdocument
        exact .inr hdocument
  rcases hfront with hnone | hdocument
  · rw [hnone]
    exact ⟨rfl, fun posting hposting => absurd hposting List.not_mem_nil⟩
  · rw [hdocument]
    exact ⟨rfl, fun posting hposting => hquiet posting (List.mem_of_mem_take hposting)⟩

/-- A crash of a checkpoint between its snapshot and its rebase. -/
theorem Sound.halfway (h : Sound base w) {container : Bytes} {bounds : SnapshotOptions} {count : Nat}
    (hcompact : compact w.store.document = .ok (container, bounds, count))
    (hwritable : options.readOnly = false)
    (hcovering : w.store.document.compactCalls.length ≤ (snapshotOptions options).maxRecords) :
    ∃ store base', openDisk { w.store.disk with snapshot := some container } options = .ok store ∧
      Sound base'
        { store := store
          saved := w.transactions
          postings := covered w.postings
          covering := w.store.document.compactCalls.length } := by
  obtain ⟨loaded, hcontent, hlast, hloads⟩ := compact_loads h.normal hcompact
  have hplaced : Placed loaded (replayFrom base (recordsOf w.postings)).document.lastSequence
      (entriesOf w.postings) := by
    have hplaced := h.placed
    unfold Placed at hplaced ⊢
    rw [hlast]
    exact hplaced
  have hrecalls : Recalls w.transactions loaded := h.recalls.congr (core_of_content hcontent)
  have hfronts : ∀ k, Front loaded w.transactions ((covered w.postings).take k) := by
    intro k
    obtain ⟨hcore, hquiet⟩ := placed_replays hplaced h.whole.quiet k
    have htake : (covered w.postings).take k = covered (w.postings.take k) := List.map_take.symm
    rw [htake]
    constructor
    · rw [posted_covered, List.append_nil, recordsOf_covered]
      exact hrecalls.congr hcore
    · intro posting hposting
      rw [recordsOf_covered]
      obtain ⟨found, hfound, rfl⟩ := List.mem_map.mp hposting
      exact hquiet found hfound
  have hentries : ∀ entry ∈ entriesOf w.postings, entry.record.type = .intent ∨
      entry.record.type = .payload ∨ entry.record.header.sequence ≤
        (replayFrom base (recordsOf w.postings)).document.lastSequence := by
    intro entry hentry
    obtain ⟨posting, hposting, rfl⟩ := List.mem_map.mp hentry
    exact h.whole.quiet posting hposting
  obtain ⟨hreplayed, _⟩ := hplaced.replay hentries
  rw [recordsOf_entriesOf] at hreplayed
  have hposition := congrArg DurableDocument.lastSequence hreplayed
  have hroom := h.front_room w.postings.length
  rw [List.take_length] at hroom
  have hbytes : w.store.journal.file =
      logOf JournalRecord.encode (recordsOf (covered w.postings)) ++ [] := by
    rw [List.append_nil, recordsOf_covered]
    exact h.holds.file
  have hfit : (logOf JournalRecord.encode (recordsOf (covered w.postings)) ++ []).length ≤
      limits.kMaxJournalBytes := by
    rw [← hbytes, ← h.holds.size]
    exact h.holds.fits
  have hsealed : ∀ record ∈ recordsOf (covered w.postings),
      Sealed limits.kMaxJournalRecordBytes record := by
    rw [recordsOf_covered]
    exact h.holds.whole
  obtain ⟨store, hopen, hsound⟩ := @Sound.reopened loaded (covered w.postings) w.transactions options
    { w.store.disk with snapshot := some container } w.store.document.compactCalls.length []
    (fun options' hcount => ⟨_, hloads options' hcount⟩) hcovering (congrArg some hbytes) hfit
    hsealed (.inl rfl) (.inl rfl) hwritable (h.normal.congr hcontent) hfronts
    (by rw [recordsOf_covered, hposition]; exact hroom)
  exact ⟨store, loaded, hopen, hsound⟩

theorem Sound.step {upset : Upset} (h : ∃ base, Sound base w) (hstep : Step w upset w') :
    ∃ base, Sound base w' := by
  obtain ⟨base, h⟩ := h
  cases hstep with
  | committed hencoded hcall hroom => exact ⟨base, h.committed hencoded hcall hroom⟩
  | @refused stamp c status store hcall hjournal =>
    have hsame : store = w.store := by
      rcases w.store.call_cases stamp c with ⟨_, hr⟩ | ⟨_, _, hc⟩
      · exact (Prod.mk.inj (hcall.symm.trans hr)).1
      · exact Store.commit_refused (hc ▸ hcall) hjournal
    rw [hsame]
    exact ⟨base, h⟩
  | checkpoint hcheckpoint hroom => exact h.checkpoint hcheckpoint hroom
  | crash hwhole hwritable hcovering hopen =>
    obtain ⟨found, hfound, hsound⟩ := h.crash hwhole hwritable hcovering
    obtain rfl := Except.ok.inj (hopen.symm.trans hfound)
    exact ⟨base, hsound⟩
  | halfway hcompact hwritable hcovering hopen =>
    obtain ⟨found, base', hfound, hsound⟩ := h.halfway hcompact hwritable hcovering
    obtain rfl := Except.ok.inj (hopen.symm.trans hfound)
    exact ⟨base', hsound⟩

/-- The store of an empty directory. -/
theorem Sound.start (hwritable : options.readOnly = false)
    (hopen : openDisk {} options = .ok store) : Sound {} { store } := by
  have hfronts : ∀ k, Front {} [] (([] : List Posting).take k) := by
    intro k
    rw [List.take_nil]
    exact ⟨⟨{}, rfl, rfl⟩, fun _ hposting => absurd hposting List.not_mem_nil⟩
  obtain ⟨found, hfound, hsound⟩ := @Sound.reopened {} [] [] options { journal := some [] } 0 []
    (fun _ _ => ⟨{}, rfl⟩) (Nat.zero_le _) rfl (by decide)
    (fun _ hrecord => absurd hrecord List.not_mem_nil) (.inl rfl) (.inl rfl) hwritable .empty hfronts
    (by decide)
  obtain rfl := Except.ok.inj (hopen.symm.trans ((openDisk_none hwritable).trans hfound))
  exact hsound

variable {first : Store} {options' : StoreOptions} {es : List (Event Compacted Upset)}

/-- Checkpoints and crashes lose nothing that was committed. After any run of commits, refused calls,
checkpoints and crashes, in the journal or in the midst of a checkpoint, the document says what the
committed transactions add up to; a crash at any byte of the journal is followed by an open that
recovers the transactions of the snapshot and those whose commit record is whole; and a crash of a
checkpoint before its rebase by one that recovers all of them. -/
theorem recovers_compacted (hwritable : options.readOnly = false)
    (hopen : openDisk {} options = .ok first) (run : Run Step { store := first } es w)
    (hwritable' : options'.readOnly = false) :
    Recalls w.transactions w.store.document ∧
      (∀ n, w.covering ≤ (snapshotOptions options').maxRecords →
        ∃ recovered, openDisk (w.store.crashed n) options' = .ok recovered ∧
          Recalls (w.saved ++ posted (w.kept n)) recovered.document) ∧
      ∀ container bounds count, compact w.store.document = .ok (container, bounds, count) →
        w.store.document.compactCalls.length ≤ (snapshotOptions options').maxRecords →
        ∃ recovered,
          openDisk { w.store.disk with snapshot := some container } options' = .ok recovered ∧
          Recalls w.transactions recovered.document := by
  obtain ⟨base, hsound⟩ : ∃ base, Sound base w :=
    run.invariant ⟨_, Sound.start hwritable hopen⟩ fun _ _ _ hs hstep => Sound.step hs hstep
  refine ⟨hsound.recalls, fun n hcovering => ?_, fun container bounds count hcompact hcount => ?_⟩
  · by_cases hwhole : w.kept n ≠ [] ∨ w.store.journal.file.take n = []
    · obtain ⟨recovered, hrecovered, hafter⟩ := hsound.crash hwhole hwritable' hcovering
      exact ⟨recovered, hrecovered, hafter.recalls⟩
    · simp only [not_or, not_not] at hwhole
      exact hsound.cut hwhole.1 hwhole.2 hcovering
  · obtain ⟨recovered, base', hrecovered, hafter⟩ := hsound.halfway hcompact hwritable' hcount
    have hrecalls := hafter.recalls
    unfold transactions at hrecalls
    rw [posted_covered, List.append_nil] at hrecalls
    exact ⟨recovered, hrecovered, hrecalls⟩

/-- An epoch advance on an empty directory, and a checkpoint after it. -/
def compacting : Compacted × Compacted :=
  let c : StoreCall := .advanceEpoch ⟨1⟩ ⟨1⟩ 1
  let payload := match c.encoded with
    | .ok payload => payload
    | .error _ => []
  let advanced : Compacted :=
    { store := (Store.fresh.call {} c).1
      postings := group c.kind payload (c.stamped {}) Store.fresh.journal.nextSequence }
  (advanced,
    { store := advanced.store.checkpoint.1
      saved := advanced.transactions
      postings := [⟨Journal.recordOf .rebase advanced.store.document.epoch
        advanced.store.document.authorityGeneration.value advanced.store.journal.nextSequence {} [],
          none⟩]
      covering := advanced.store.document.compactCalls.length })

set_option maxRecDepth 100000 in
theorem compacting_succeeds :
    (Store.fresh.call {} (.advanceEpoch ⟨1⟩ ⟨1⟩ 1)).2 = .ok () ∧
      compacting.1.store.checkpoint.2.isOk = true ∧
      compacting.1.store.journal.nextSequence.toNat + 1 < 2 ^ 64 ∧
      compacting.2.covering ≤ (snapshotOptions {}).maxRecords ∧
      (({} : DurableDocument).applyAll (compacting.2.saved ++ posted (compacting.2.kept 10))).map
        (·.epoch) = .ok ⟨1⟩ := by
  decide +kernel

/-- A crash ten bytes into the record of the rebase. -/
theorem recovers_compacted_rebasing : ∃ recovered,
    openDisk (compacting.2.store.crashed 10) {} = .ok recovered ∧
      recovered.document.epoch = ⟨1⟩ := by
  obtain ⟨hcall, hcheckpoint, hroom, hcovering, hepoch⟩ := compacting_succeeds
  have step₁ : Step { store := Store.fresh } (.call {} (.advanceEpoch ⟨1⟩ ⟨1⟩ 1)) compacting.1 :=
    .committed rfl (Prod.ext rfl hcall) (by decide)
  have hcompacted := checkpoint_ok_of_isOk hcheckpoint
  have step₂ : Step compacting.1 .checkpoint compacting.2 := Step.checkpoint hcompacted hroom
  obtain ⟨_, hcrash, _⟩ := @recovers_compacted compacting.2 {} Store.fresh {} _ rfl openDisk_fresh
    ((Run.start.next step₁).next step₂) rfl
  obtain ⟨recovered, hopen, folded, hfolded, hcore⟩ := hcrash 10 hcovering
  rw [hfolded] at hepoch
  exact ⟨recovered, hopen, (congrArg DurableDocument.epoch hcore).trans (Except.ok.inj hepoch)⟩

end Compacted

end CongestionFabric
