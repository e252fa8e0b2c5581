import CongestionFabric.Durability.Replay

namespace CongestionFabric

/-- One call of a typed setter. -/
inductive StoreCall where
  | setPolicy (policy : CongestionPolicy)
  | setTopology (topology : TopologySnapshot)
  | setCapacity (capacity : CapacitySnapshot)
  | putDomainState (state : DomainState)
  | appendIntervention (record : InterventionRecord)
  | appendFence (record : FenceRecord)
  | appendHistory (entry : HistoryEntry)
  | appendAttempt (record : AttemptRecord)
  | appendProvenance (provenance : Provenance)
  | advanceEpoch (epoch : EpochId) (boot : BootId) (bootCounter : UInt64)
  | writeRevalidation (record : RevalidationRecord)

namespace StoreCall

def kind : StoreCall → MutationKind
  | setPolicy _ => .policySet
  | setTopology _ => .topologySet
  | setCapacity _ => .capacitySet
  | putDomainState _ => .domainState
  | appendIntervention _ => .intervention
  | appendFence _ => .fence
  | appendHistory _ => .historyAppend
  | appendAttempt _ => .attemptRecord
  | appendProvenance _ => .provenanceAppend
  | advanceEpoch _ _ _ => .epochAdvance
  | writeRevalidation _ => .revalidation

def encoded : StoreCall → Result Bytes
  | setPolicy policy => Store.encodePolicy policy
  | setTopology topology => Store.encodeTopology topology
  | setCapacity capacity => Store.encodeCapacity capacity
  | putDomainState state => Store.encodeDomainState state
  | appendIntervention record => Store.encodeIntervention record
  | appendFence record => Store.encodeFence record
  | appendHistory entry => Store.encodeHistory entry
  | appendAttempt record => Store.encodeAttempt record
  | appendProvenance provenance => Store.encodeProvenance provenance
  | advanceEpoch epoch boot bootCounter => Store.encodeEpoch epoch boot bootCounter
  | writeRevalidation record => Store.encodeRevalidation record

/-- The stamp its records carry: an epoch advance commits under the new epoch. -/
def stamped (stamp : MutationStamp) : StoreCall → MutationStamp
  | advanceEpoch epoch _ _ => { stamp with epoch := epoch }
  | _ => stamp

end StoreCall

/-- The fold of the mutations of calls over a document. -/
def DurableDocument.applyCalls (document : DurableDocument) (calls : List StoreCall) :
    Result DurableDocument :=
  calls.foldlM (fun d c => do d.apply c.kind (← c.encoded)) document

theorem DurableDocument.applyCalls_snoc {document folded after : DurableDocument}
    {calls : List StoreCall} {c : StoreCall} {payload : Bytes}
    (hfold : document.applyCalls calls = .ok folded) (hencoded : c.encoded = .ok payload)
    (happly : folded.apply c.kind payload = .ok after) :
    document.applyCalls (calls ++ [c]) = .ok after := by
  rw [applyCalls, List.foldlM_append]
  refine bind_ok.mpr ⟨folded, hfold, ?_⟩
  rw [List.foldlM_cons, hencoded]
  exact bind_ok.mpr ⟨after, happly, rfl⟩

namespace Store

/-- The setter a call names, on a store. -/
def call (store : Store) (stamp : MutationStamp) : StoreCall → Store × VoidResult
  | .setPolicy policy => store.setPolicy policy stamp
  | .setTopology topology => store.setTopology topology stamp
  | .setCapacity capacity => store.setCapacity capacity stamp
  | .putDomainState state => store.putDomainState state stamp
  | .appendIntervention record => store.appendIntervention record stamp
  | .appendFence record => store.appendFence record stamp
  | .appendHistory entry => store.appendHistory entry stamp
  | .appendAttempt record => store.appendAttempt record stamp
  | .appendProvenance provenance => store.appendProvenance provenance stamp
  | .advanceEpoch epoch boot bootCounter => store.advanceEpoch epoch boot bootCounter stamp
  | .writeRevalidation record => store.writeRevalidation record stamp

/-- Calls in order, up to the first that fails. -/
def callAll (store : Store) (stamp : MutationStamp) : List StoreCall → Store × VoidResult
  | [] => (store, succeed)
  | c :: rest =>
    match store.call stamp c with
    | (store, .error status) => (store, .error status)
    | (store, .ok _) => store.callAll stamp rest

theorem commitEncoded_cases (store : Store) (kind : MutationKind) (encoded : Result Bytes)
    (stamp : MutationStamp) :
    (∃ status, store.commitEncoded kind encoded stamp = (store, .error status)) ∨
      ∃ payload, encoded = .ok payload ∧
        store.commitEncoded kind encoded stamp = store.commit kind payload stamp := by
  cases encoded with
  | error status => exact .inl ⟨status, rfl⟩
  | ok payload => exact .inr ⟨payload, rfl, rfl⟩

/-- Every setter refuses on the spot or commits its encoding. -/
theorem call_cases (store : Store) (stamp : MutationStamp) (c : StoreCall) :
    (∃ status, store.call stamp c = (store, .error status)) ∨
      ∃ payload, c.encoded = .ok payload ∧
        store.call stamp c = store.commit c.kind payload (c.stamped stamp) := by
  have hencoded := commitEncoded_cases store c.kind c.encoded (c.stamped stamp)
  cases c with
  | putDomainState state =>
    simp only [call, putDomainState]
    split
    · exact .inl ⟨_, rfl⟩
    · exact hencoded
  | _ => exact hencoded

variable {store store' : Store} {kind : MutationKind} {payload : Bytes} {stamp : MutationStamp}

theorem admitMutation_ok (h : store.admitMutation kind payload = .ok ()) :
    store.isOpen = true ∧ kind.named = true ∧ validateBody kind payload = .ok () := by
  simp only [admitMutation, bind_ok, refuseIf_ok, exists_const, enforceGrowthLimits] at h
  obtain ⟨hopen, hkind, _, _, hvalid⟩ := h
  exact ⟨by simpa using hopen, by simpa using hkind, hvalid⟩

/-- A commit that succeeds has its group in the journal and its mutation in the document, which
is then pruned. -/
theorem commit_ok {records : List JournalRecord} (hj : Holds store.journal records)
    (h : store.commit kind payload stamp = (store', .ok ())) :
    kind.named = true ∧
      Holds store'.journal
        (records ++ groupRecords kind payload stamp store.journal.nextSequence) ∧
      store'.journal.nextSequence = store.journal.nextSequence + 1 + 1 + 1 ∧
      (∀ document : DurableDocument, ∃ document', document.apply kind payload = .ok document') ∧
      store'.snapshot = store.snapshot ∧ store'.options = store.options ∧
      store'.journal.options = store.journal.options ∧ store'.isOpen = store.isOpen ∧
      store'.journal.isOpen = store.journal.isOpen := by
  unfold commit at h
  split at h
  next => cases (Prod.mk.inj h).2
  next hadmit =>
    obtain ⟨_, hkind, hvalid⟩ := admitMutation_ok hadmit
    split at h
    next => cases (Prod.mk.inj h).2
    next journal' hgroup =>
      obtain ⟨hholds, hnext, hopts, hopen⟩ := appendGroup_ok hj hgroup
      obtain ⟨document', hdoc⟩ := DurableDocument.apply_of_validateBody hvalid store.document
      rw [hdoc] at h
      obtain ⟨rfl, _⟩ := Prod.mk.inj h
      exact ⟨hkind, hholds, hnext, DurableDocument.apply_of_validateBody hvalid, rfl, rfl, hopts,
        rfl, hopen⟩

/-- A commit that fails leaves the store, or what its group wrote before it failed. -/
theorem commit_error {status : Status}
    (h : store.commit kind payload stamp = (store', .error status)) :
    store' = store ∨ kind.named = true ∧ ∃ journal,
      appendGroup store.journal kind payload stamp = (journal, .error status) ∧
      store' = { store with journal } := by
  unfold commit at h
  split at h
  next => exact .inl (Prod.mk.inj h).1.symm
  next hadmit =>
    obtain ⟨_, hkind, hvalid⟩ := admitMutation_ok hadmit
    split at h
    next journal status' hgroup =>
      obtain ⟨rfl, hstatus⟩ := Prod.mk.inj h
      obtain rfl := Except.error.inj hstatus
      exact .inr ⟨hkind, journal, hgroup, rfl⟩
    next journal' hgroup =>
      obtain ⟨document', hdoc⟩ := DurableDocument.apply_of_validateBody hvalid store.document
      rw [hdoc] at h
      cases (Prod.mk.inj h).2

/-- A commit that fails without touching the journal leaves the store as it was. -/
theorem commit_refused {status : Status} (h : store.commit kind payload stamp = (store', .error status))
    (hj : store'.journal = store.journal) : store' = store := by
  rcases commit_error h with hsame | ⟨_, journal, _, rfl⟩
  · exact hsame
  · obtain rfl : journal = store.journal := hj
    rfl

end Store

end CongestionFabric
