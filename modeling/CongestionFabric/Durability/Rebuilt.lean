import CongestionFabric.Durability.RoundTrip
import CongestionFabric.Durability.TornJournal
import CongestionFabric.Durability.CrashRecovery

namespace CongestionFabric

/-! ### Calls as mutations -/

namespace StoreCall

/-- The mutation a call makes durable. -/
def mutation : StoreCall → Mutation
  | setPolicy policy => .policySet policy
  | setTopology topology => .topologySet topology
  | setCapacity capacity => .capacitySet capacity
  | putDomainState state => .domainState state
  | appendIntervention record => .intervention record
  | appendFence record => .fence record
  | appendHistory entry => .historyAppend entry
  | appendAttempt record => .attemptRecord record
  | appendProvenance provenance => .provenanceAppend provenance
  | advanceEpoch epoch boot bootCounter => .epochAdvance ⟨epoch, boot, bootCounter⟩
  | writeRevalidation record => .revalidation record

/-- A policy is written as it was accepted, so that validation leaves it as it is. -/
def Stable : StoreCall → Prop
  | setPolicy policy => validatePolicy policy = .ok policy
  | _ => True

variable {c : StoreCall} {payload : Bytes} {mutation : Mutation}

theorem Stable.decodeBody (hstable : c.Stable) (h : c.encoded = .ok payload)
    (hlen : payload.length < 2 ^ 64) (hm : decodeBody c.kind payload = .ok mutation) :
    mutation = c.mutation := by
  cases c with
  | setPolicy policy =>
    obtain ⟨found, hd, hp⟩ := bind_ok.mp hm
    obtain rfl := Except.ok.inj hp
    obtain ⟨_, hv⟩ := (Store.decodePolicy_encoded h hlen).mp hd
    have hsame : policy = found := Except.ok.inj ((show validatePolicy policy = .ok policy
      from hstable).symm.trans hv)
    rw [hsame]
    rfl
  | setTopology topology =>
    obtain ⟨found, hd, hp⟩ := bind_ok.mp hm
    obtain rfl := Except.ok.inj hp
    rw [((Store.decodeTopology_encoded h hlen).mp hd).2]
    rfl
  | setCapacity capacity =>
    obtain ⟨found, hd, hp⟩ := bind_ok.mp hm
    obtain rfl := Except.ok.inj hp
    rw [((Store.decodeCapacity_encoded h hlen).mp hd).2]
    rfl
  | putDomainState state =>
    obtain ⟨found, hd, hp⟩ := bind_ok.mp hm
    obtain rfl := Except.ok.inj hp
    rw [((Store.decodeDomainState_encoded h hlen).mp hd).2]
    rfl
  | appendIntervention record =>
    obtain ⟨found, hd, hp⟩ := bind_ok.mp hm
    obtain rfl := Except.ok.inj hp
    rw [((Store.decodeIntervention_encoded h hlen).mp hd).2]
    rfl
  | appendFence record =>
    obtain ⟨found, hd, hp⟩ := bind_ok.mp hm
    obtain rfl := Except.ok.inj hp
    rw [((Store.decodeFence_encoded h hlen).mp hd).2]
    rfl
  | appendHistory entry =>
    obtain ⟨found, hd, hp⟩ := bind_ok.mp hm
    obtain rfl := Except.ok.inj hp
    rw [(Store.decodeHistory_encoded h hlen).mp hd]
    rfl
  | appendAttempt record =>
    obtain ⟨found, hd, hp⟩ := bind_ok.mp hm
    obtain rfl := Except.ok.inj hp
    rw [(Store.decodeAttempt_encoded h hlen).mp hd]
    rfl
  | appendProvenance provenance =>
    obtain ⟨found, hd, hp⟩ := bind_ok.mp hm
    obtain rfl := Except.ok.inj hp
    rw [(Store.decodeProvenance_encoded h hlen).mp hd]
    rfl
  | advanceEpoch epoch boot bootCounter =>
    obtain ⟨found, hd, hp⟩ := bind_ok.mp hm
    obtain rfl := Except.ok.inj hp
    rw [((Store.decodeEpoch_encoded h hlen).mp hd).2]
    rfl
  | writeRevalidation record =>
    obtain ⟨found, hd, hp⟩ := bind_ok.mp hm
    obtain rfl := Except.ok.inj hp
    rw [(Store.decodeRevalidation_encoded h hlen).mp hd]
    rfl

end StoreCall

namespace DurableDocument

/-- What a document says, without the counters that replay does not restore. -/
def content (d : DurableDocument) : DurableDocument :=
  { d with authorityGeneration := {}, lastSequence := 0, mutationCount := 0 }

/-- The document after calls. -/
def recording (d : DurableDocument) (calls : List StoreCall) : DurableDocument :=
  calls.foldl (fun d c => d.applyMutation c.mutation) d

theorem content_applyMutation (d : DurableDocument) (m : Mutation) :
    (d.applyMutation m).content = d.content.applyMutation m := by
  cases m <;> rfl

theorem content_applyMutation_congr {d d' : DurableDocument} (h : d.content = d'.content)
    (m : Mutation) : (d.applyMutation m).content = (d'.applyMutation m).content := by
  rw [content_applyMutation, content_applyMutation, h]

theorem content_recording_congr {d d' : DurableDocument} (h : d.content = d'.content)
    (calls : List StoreCall) : (d.recording calls).content = (d'.recording calls).content := by
  induction calls generalizing d d' with
  | nil => exact h
  | cons c rest ih => exact ih (content_applyMutation_congr h c.mutation)

theorem recording_append (d : DurableDocument) (calls calls' : List StoreCall) :
    d.recording (calls ++ calls') = (d.recording calls).recording calls' := List.foldl_append

theorem recording_fences (d : DurableDocument) (records : List FenceRecord) :
    d.recording (records.map .appendFence) = { d with
      fences := records.foldl (fun known record =>
        pushUnless (fun found => found.id = record.id) known record) d.fences } := by
  induction records generalizing d with
  | nil => rfl
  | cons record rest ih => exact ih _

theorem recording_domains (d : DurableDocument) (states : List DomainState) :
    d.recording (states.map .putDomainState) = { d with
      domains := states.foldl (fun m s => m.insert s.domain s) d.domains } := by
  induction states generalizing d with
  | nil => rfl
  | cons state rest ih => exact ih _

end DurableDocument

/-- The document a journal replays to. -/
def Ledger.document (ledger : Ledger) : DurableDocument :=
  (Store.replayFrom {} ledger.records).document

/-! ### What a successful call does -/

namespace Store

variable {store store' : Store} {stamp : MutationStamp} {c : StoreCall} {kind : MutationKind}
  {payload : Bytes}

/-- A domain is put where the bound on domains has room for it. -/
def HasRoom (store : Store) : StoreCall → Prop
  | .putDomainState state => ¬(¬store.document.domains.contains state.domain ∧
      store.document.domains.size ≥ store.options.maxDomains.toNat)
  | _ => True

theorem call_of_hasRoom (hroom : store.HasRoom c) :
    store.call stamp c = store.commitEncoded c.kind c.encoded (c.stamped stamp) := by
  cases c with
  | putDomainState state => exact if_neg hroom
  | _ => rfl

theorem hasRoom_of_call (h : store.call stamp c = (store', .ok ())) : store.HasRoom c := by
  cases c with
  | putDomainState state =>
    intro hfull
    rw [show store.call stamp (.putDomainState state) = (store, _) from if_pos hfull] at h
    cases (Prod.mk.inj h).2
  | _ => trivial

theorem call_ok (h : store.call stamp c = (store', .ok ())) :
    ∃ payload, c.encoded = .ok payload ∧
      store.commit c.kind payload (c.stamped stamp) = (store', .ok ()) := by
  rcases store.call_cases stamp c with ⟨status, hr⟩ | ⟨payload, hencoded, hc⟩
  · rw [hr] at h
    cases (Prod.mk.inj h).2
  · exact ⟨payload, hencoded, hc.symm.trans h⟩

/-- The store after the mutation of a commit, before it is pruned. -/
def recorded (store : Store) (journal : Journal) (document : DurableDocument)
    (generation : AuthorityGeneration) : Store :=
  { store with
    journal
    document := { document with
      lastSequence := journal.nextSequence - 1
      authorityGeneration := generation
      mutationCount := document.mutationCount + 1 } }

/-- A commit that succeeds was admitted, has its group in the journal and its mutation in the
document. -/
theorem commit_recorded (h : store.commit kind payload stamp = (store', .ok ())) :
    store.admitMutation kind payload = .ok () ∧ ∃ journal mutation,
      appendGroup store.journal kind payload stamp = (journal, .ok ()) ∧
      decodeBody kind payload = .ok mutation ∧
      store' = pruneDocument (store.recorded journal (store.document.applyMutation mutation)
        stamp.generation) := by
  unfold commit at h
  split at h
  next => cases (Prod.mk.inj h).2
  next hadmitted =>
    split at h
    next => cases (Prod.mk.inj h).2
    next hgroup =>
      split at h
      next => cases (Prod.mk.inj h).2
      next document happly =>
        obtain ⟨mutation, hm, hd⟩ := bind_ok.mp happly
        obtain rfl := Except.ok.inj hd
        exact ⟨hadmitted, _, mutation, hgroup, hm, (Prod.mk.inj h).1.symm⟩

theorem commit_of_recorded {journal : Journal} {mutation : Mutation}
    (hadmitted : store.admitMutation kind payload = .ok ())
    (hgroup : appendGroup store.journal kind payload stamp = (journal, .ok ()))
    (hm : decodeBody kind payload = .ok mutation) :
    store.commit kind payload stamp = (pruneDocument (store.recorded journal
      (store.document.applyMutation mutation) stamp.generation), .ok ()) := by
  have happly : store.document.apply kind payload =
      .ok (store.document.applyMutation mutation) := bind_ok.mpr ⟨mutation, hm, rfl⟩
  unfold commit
  rw [hadmitted, hgroup]
  dsimp only
  rw [happly]
  rfl

theorem admitMutation_length (h : store.admitMutation kind payload = .ok ()) :
    payload.length < 2 ^ 64 := by
  simp only [admitMutation, bind_ok, refuseIf_ok, exists_const] at h
  have hle := not_lt.mp h.2.2.1
  have hmax : limits.kMaxJournalRecordBytes < 2 ^ 64 := by decide
  omega

/-! ### The disk keeps what a successful call wrote -/

/-- The store on a disk that keeps everything from now on. -/
def steady (store : Store) : Store := { store with journal := { store.journal with fates := [] } }

@[simp] theorem steady_document (store : Store) : store.steady.document = store.document := rfl

@[simp] theorem steady_disk (store : Store) : store.steady.disk = store.disk := rfl

theorem append_steady {journal journal' : Journal} {type : RecordType} {epoch : EpochId}
    {generation : UInt64} {transaction : TransactionId} {body : Bytes}
    (h : journal.append type epoch generation transaction body = (journal', .ok ())) :
    ({ journal with fates := [] } : Journal).append type epoch generation transaction body =
      ({ journal' with fates := [] }, .ok ()) := by
  unfold Journal.append at h ⊢
  split at h
  next => cases (Prod.mk.inj h).2
  next hread =>
    split at h
    next => cases (Prod.mk.inj h).2
    next hopen =>
      split at h
      next => cases (Prod.mk.inj h).2
      next hlen =>
        dsimp only at h ⊢
        split at h
        next => cases (Prod.mk.inj h).2
        next hsize =>
          rw [if_neg hread, if_neg hopen, if_neg hlen, if_neg hsize]
          split at h
          next => cases (Prod.mk.inj h).2
          next => cases (Prod.mk.inj h).2
          next => cases (Prod.mk.inj h).2
          next =>
            obtain ⟨rfl, _⟩ := Prod.mk.inj h
            simp [succeed]

theorem appendGroup_steady {journal journal' : Journal}
    (h : appendGroup journal kind payload stamp = (journal', .ok ())) :
    appendGroup { journal with fates := [] } kind payload stamp =
      ({ journal' with fates := [] }, .ok ()) := by
  unfold appendGroup at h ⊢
  dsimp only at h ⊢
  split at h
  next => cases (Prod.mk.inj h).2
  next h₁ =>
    rw [append_steady h₁]
    dsimp only
    split at h
    next => cases (Prod.mk.inj h).2
    next h₂ =>
      rw [append_steady h₂]
      exact append_steady h

theorem call_steady (h : store.call stamp c = (store', .ok ())) :
    store.steady.call stamp c = (store'.steady, .ok ()) := by
  have hroom : store.steady.HasRoom c := by
    have hroom := hasRoom_of_call h
    cases c <;> exact hroom
  obtain ⟨payload, hencoded, hcommit⟩ := call_ok h
  obtain ⟨hadmitted, journal, mutation, hgroup, hm, rfl⟩ := commit_recorded hcommit
  have hadmitted' : store.steady.admitMutation c.kind payload = .ok () := hadmitted
  rw [call_of_hasRoom hroom, hencoded]
  exact commit_of_recorded hadmitted' (appendGroup_steady hgroup) hm

/-! ### A journal that ends between two commits -/

/-- The journal holds the ledger and nothing of it is unfinished. -/
structure Rebuilt (store : Store) (ledger : Ledger) : Prop where
  sound : Logged.Sound ⟨store.steady, ledger⟩
  settled : ledger.dangling = false

variable {ledger : Ledger} {calls : List StoreCall}

/-- A successful call writes one more group, and the journal replays to its mutation. -/
theorem Rebuilt.call (h : Rebuilt store ledger) (hstable : c.Stable)
    (hcall : store.call stamp c = (store', .ok ())) :
    ∃ ledger', Rebuilt store' ledger' ∧ ledger'.length = ledger.length + 3 ∧
      ledger'.document.content = (ledger.document.applyMutation c.mutation).content := by
  obtain ⟨payload, hencoded, hcommit⟩ := call_ok hcall
  have hsound := h.sound.committed hencoded (call_steady hcall)
  refine ⟨_, ⟨hsound, ?_⟩, by simp [Ledger.group], ?_⟩
  · rw [Ledger.group, show ∀ a b d : LedgerEntry, ledger ++ [a, b, d] = ledger ++ [a, b] ++ [d] by
      simp]
    exact Ledger.dangling_commit _ _ _ _
  · obtain ⟨hadmitted, _, mutation, _, hm, _⟩ := commit_recorded hcommit
    have hmutation := hstable.decodeBody hencoded (admitMutation_length hadmitted) hm
    obtain ⟨folded, hfold, hreplay⟩ := h.sound.whole.folds
    obtain ⟨folded', hfold', hreplay'⟩ := hsound.whole.folds
    have hcommitted : Ledger.committed (ledger ++ Ledger.group c.kind payload (c.stamped stamp)
        store.steady.journal.nextSequence) = ledger.committed ++ [(c.kind, payload)] := by
      simp [Ledger.committed, Ledger.group, Mark.transaction?]
    have hone : ({} : DurableDocument).applyAll (ledger.committed ++ [(c.kind, payload)]) =
        .ok (folded.applyMutation mutation) := by
      rw [DurableDocument.applyAll, List.foldlM_append]
      refine bind_ok.mpr ⟨folded, hfold, ?_⟩
      rw [List.foldlM_cons]
      exact bind_ok.mpr ⟨_, bind_ok.mpr ⟨mutation, hm, rfl⟩, rfl⟩
    have hfolded : folded' = folded.applyMutation c.mutation := by
      rw [hcommitted, hone] at hfold'
      rw [← hmutation]
      exact (Except.ok.inj hfold').symm
    have hbefore : ledger.document.content = folded.content := by
      rw [Ledger.document, hreplay]
      rfl
    rw [Ledger.document, hreplay', hfolded]
    exact DurableDocument.content_applyMutation_congr hbefore.symm c.mutation

/-- Calls that all succeed. -/
theorem Rebuilt.callAll (h : Rebuilt store ledger) (hstable : ∀ c ∈ calls, c.Stable)
    (hcalls : store.callAll stamp calls = (store', .ok ())) :
    ∃ ledger', Rebuilt store' ledger' ∧ ledger'.length = ledger.length + 3 * calls.length ∧
      ledger'.document.content = (ledger.document.recording calls).content := by
  induction calls generalizing store ledger with
  | nil =>
    obtain ⟨rfl, _⟩ := Prod.mk.inj hcalls
    exact ⟨ledger, h, rfl, rfl⟩
  | cons c rest ih =>
    unfold Store.callAll at hcalls
    split at hcalls
    next => cases (Prod.mk.inj hcalls).2
    next hcall =>
      obtain ⟨ledger₁, h₁, hlen₁, hdocument₁⟩ := h.call (hstable c List.mem_cons_self) hcall
      obtain ⟨ledger', h', hlen, hdocument⟩ :=
        ih h₁ (fun c hc => hstable c (List.mem_cons_of_mem _ hc)) hcalls
      refine ⟨ledger', h', by rw [hlen, hlen₁, List.length_cons]; omega, ?_⟩
      rw [hdocument]
      exact DurableDocument.content_recording_congr hdocument₁ rest

/-! ### Opening again -/

variable {disk : Disk} {options : StoreOptions}

theorem settleTail_journal {journal journal' : Journal} {replay : JournalReplay}
    {report report' : StoreReplay} {readOnly : Bool}
    (h : settleTail journal replay report readOnly = .ok (journal', report')) :
    journal'.options = journal.options ∧ journal'.isOpen = journal.isOpen := by
  unfold settleTail at h
  split_ifs at h
  · obtain ⟨rfl, _⟩ := Prod.mk.inj (Except.ok.inj h)
    exact ⟨rfl, rfl⟩
  · obtain ⟨cut, hcut, hp⟩ := bind_ok.mp h
    obtain ⟨rfl, _⟩ := Prod.mk.inj (Except.ok.inj hp)
    unfold Journal.truncateTo at hcut
    repeat' split at hcut
    all_goals cases hcut
    exact ⟨rfl, rfl⟩
  · obtain ⟨rfl, _⟩ := Prod.mk.inj (Except.ok.inj h)
    exact ⟨rfl, rfl⟩

/-- What every store that opens starts with. -/
theorem openDisk_fields (h : openDisk disk options = .ok store) :
    store.options = options ∧ store.isOpen = true ∧ store.prunedRecords = 0 ∧
      store.journal.options = journalOptions options ∧ store.journal.isOpen = true := by
  unfold openDisk at h
  obtain ⟨_, _, h⟩ := bind_ok.mp h
  obtain ⟨journal, hopen, h⟩ := bind_ok.mp h
  obtain ⟨replay, _, h⟩ := bind_ok.mp h
  have hjournal : journal.options = journalOptions options ∧ journal.isOpen = true := by
    unfold Journal.openFile at hopen
    split at hopen
    · obtain rfl := Except.ok.inj hopen
      exact ⟨rfl, rfl⟩
    · split at hopen
      · cases hopen
      · obtain rfl := Except.ok.inj hopen
        exact ⟨rfl, rfl⟩
  dsimp only at h
  split at h
  · cases h
  · obtain ⟨⟨settled, report⟩, hsettle, hp⟩ := bind_ok.mp h
    obtain ⟨hoptions, hisOpen⟩ := settleTail_journal hsettle
    rw [Journal.resumeSequence_eq] at hoptions hisOpen
    obtain rfl := Except.ok.inj hp
    exact ⟨rfl, rfl, rfl, hoptions.trans hjournal.1, hisOpen.trans hjournal.2⟩

/-- A store whose journal ends between two commits opens again, under any options, with what the
journal replays to. -/
theorem Rebuilt.reopen (h : Rebuilt store ledger) (options : StoreOptions) :
    ∃ second, openDisk store.disk options = .ok second ∧ Rebuilt second ledger ∧
      second.document = ledger.document ∧ second.journal.fates = [] ∧
      second.journal.size = store.journal.size := by
  have hholds := h.sound.holds
  have hfit : (logOf JournalRecord.encode ledger.records ++ []).length ≤
      limits.kMaxJournalBytes := by
    rw [List.append_nil, ← hholds.file, ← hholds.size]
    exact hholds.fits
  have hfile : store.disk.journal = some (logOf JournalRecord.encode ledger.records ++ []) := by
    rw [List.append_nil, ← hholds.file]
    rfl
  have hload : loadSnapshot store.disk.snapshot options = .ok ({}, {}) := by
    rw [show store.disk.snapshot = none from h.sound.snapshot]
    rfl
  obtain ⟨second, hopen, hsecond, hdocument, hsnapshot, _, hresume⟩ :=
    openDisk_torn hload hfile hfit hholds.whole (.inl rfl) (.inl rfl) (.inl rfl)
  have hsettled : second.document = ledger.document := by
    have hlength := ambiguousAttempts_length h.sound.whole.nextOnly
    rw [h.sound.whole.waits, h.settled] at hlength
    have hnone : ambiguousAttempts (replayFrom {} ledger.records) = [] :=
      List.length_eq_zero_iff.mp hlength
    rw [hdocument]
    simp only [retainAmbiguous, hnone, List.append_nil]
    rfl
  have hsteady : second.steady = second := by
    rw [steady, ← hsecond.kept]
  have hnonzero : (replayFrom {} ledger.records).document.lastSequence + 1 ≠ 0 := by
    intro hzero
    have hposition : (replayFrom {} ledger.records).document.lastSequence.toNat ≤
        ledger.length := h.sound.whole.position
    have hroom : ledger.length + 3 < 2 ^ 64 := h.sound.length_lt
    have hnext := (toNat_next (s := (replayFrom {} ledger.records).document.lastSequence)
      (by omega)).1
    rw [hzero] at hnext
    exact absurd hnext.symm (Nat.succ_ne_zero _)
  have hsize : second.journal.size = store.journal.size := by
    rw [hsecond.size, hsecond.file, ← hholds.file, ← hholds.size]
    rfl
  refine ⟨second, hopen, ⟨?_, h.settled⟩, hsettled, hsecond.kept, hsize⟩
  rw [hsteady]
  exact ⟨hsecond, hsnapshot.trans h.sound.snapshot, h.sound.replays, hresume hnonzero⟩

/-- The store of an empty directory. -/
theorem Rebuilt.start (hopen : openDisk {} options = .ok store) :
    Rebuilt store [] ∧ store.document = Ledger.document [] := by
  have hwritable : options.readOnly = false := by
    cases hread : options.readOnly with
    | false => rfl
    | true =>
      have hmissing : Journal.openFile none (journalOptions options) =
          fail .ioError "cannot open the journal" := if_pos hread
      obtain ⟨_, _, h⟩ := bind_ok.mp hopen
      obtain ⟨_, hjournal, _⟩ := bind_ok.mp h
      rw [hmissing] at hjournal
      cases hjournal
  have hsound := Logged.Sound.start hwritable hopen
  have hsteady : store.steady = store := by
    rw [steady, ← hsound.holds.kept]
  refine ⟨⟨by rw [hsteady]; exact hsound, rfl⟩, ?_⟩
  have hload : loadSnapshot ({ journal := some [] } : Disk).snapshot options = .ok ({}, {}) := rfl
  have hfile : ({ journal := some [] } : Disk).journal =
      some (logOf JournalRecord.encode [] ++ []) := rfl
  obtain ⟨store', hopen', _, hdocument, _⟩ :=
    openDisk_torn hload hfile (by decide) (by simp) (.inl rfl) (.inl rfl) (.inl rfl)
  obtain rfl := Except.ok.inj (hopen.symm.trans ((openDisk_none hwritable).trans hopen'))
  rw [hdocument]
  rfl

end Store

end CongestionFabric
