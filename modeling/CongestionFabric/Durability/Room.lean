import CongestionFabric.Durability.Rebuilt

namespace CongestionFabric

namespace Journal

/-- An open journal on a disk that keeps everything, under the bounds of every store. -/
structure Writable (journal : Journal) : Prop where
  kept : journal.fates = []
  writes : journal.options.readOnly = false
  isOpen : journal.isOpen = true
  recordBound : journal.options.maxRecordBytes = limits.kMaxJournalRecordBytes
  journalBound : journal.options.maxJournalBytes = limits.kMaxJournalBytes

variable {journal : Journal}

/-- A record that fits is kept. -/
theorem Writable.append (h : Writable journal) (type : RecordType) (epoch : EpochId)
    (generation : UInt64) (transaction : TransactionId) (body : Bytes)
    (hlen : body.length ≤ limits.kMaxJournalRecordBytes)
    (hroom : journal.size + kRecordHeaderSize + body.length ≤ limits.kMaxJournalBytes) :
    ∃ journal', journal.append type epoch generation transaction body = (journal', .ok ()) ∧
      Writable journal' ∧ journal'.size = journal.size + kRecordHeaderSize + body.length := by
  have hwrites : ¬journal.options.readOnly = true := by simp [h.writes]
  have hopen : ¬(!journal.isOpen) = true := by simp [h.isOpen]
  have hlen' : ¬body.length > journal.options.maxRecordBytes := by
    rw [h.recordBound]
    exact not_lt.mpr hlen
  have hroom' : ¬journal.size + kRecordHeaderSize + body.length > journal.options.maxJournalBytes := by
    rw [h.journalBound]
    exact not_lt.mpr hroom
  refine ⟨journal.keeping (recordOf type epoch generation journal.nextSequence transaction body),
    ?_, ⟨h.kept, h.writes, h.isOpen, h.recordBound, h.journalBound⟩, rfl⟩
  unfold Journal.append
  rw [if_neg hwrites, if_neg hopen, if_neg hlen']
  dsimp only
  rw [if_neg hroom', h.kept]
  simp [keeping, recordOf, succeed, h.kept]

end Journal

namespace Store

open Journal

/-- The bytes one commit group adds to the journal for a body of this length. -/
def groupBytes (length : Nat) : Nat := 3 * kRecordHeaderSize + 26 + length

theorem groupBodies_length (kind : MutationKind) (stamp : MutationStamp) (payload : Bytes) :
    (intentBody kind stamp).length = 18 ∧ (frameBody kind payload).length = 2 + payload.length ∧
      (commitBody kind (frameBody kind payload)).length = 6 := by
  simp [intentBody, frameBody, commitBody, ByteWriter.u16, ByteWriter.u32, ByteWriter.u64,
    StrongId.put]

variable {store store' : Store} {kind : MutationKind} {payload : Bytes} {stamp : MutationStamp}
  {c : StoreCall} {calls : List StoreCall}

/-- A group that fits is kept whole. -/
theorem appendGroup_fits {journal : Journal} (h : Writable journal) (kind : MutationKind)
    (stamp : MutationStamp) (hlen : payload.length + 2 ≤ limits.kMaxJournalRecordBytes)
    (hroom : journal.size + groupBytes payload.length ≤ limits.kMaxJournalBytes) :
    ∃ journal', appendGroup journal kind payload stamp = (journal', .ok ()) ∧
      Writable journal' ∧ journal'.size = journal.size + groupBytes payload.length := by
  obtain ⟨hintent, hframed, hcommit⟩ := groupBodies_length kind stamp payload
  have hmax : 18 ≤ limits.kMaxJournalRecordBytes := by decide
  unfold groupBytes at hroom ⊢
  obtain ⟨j₁, h₁, hw₁, hs₁⟩ := h.append .intent stamp.epoch stamp.generation.value
    ⟨journal.nextSequence⟩ (intentBody kind stamp) (by omega) (by omega)
  obtain ⟨j₂, h₂, hw₂, hs₂⟩ := hw₁.append .payload stamp.epoch stamp.generation.value
    ⟨journal.nextSequence⟩ (frameBody kind payload) (by omega) (by omega)
  obtain ⟨j₃, h₃, hw₃, hs₃⟩ := hw₂.append .commit stamp.epoch stamp.generation.value
    ⟨journal.nextSequence⟩ (commitBody kind (frameBody kind payload)) (by omega) (by omega)
  refine ⟨j₃, ?_, hw₃, by omega⟩
  unfold appendGroup
  dsimp only
  rw [h₁]
  dsimp only
  rw [h₂]
  exact h₃

/-- A store that commits whatever is valid and fits. -/
structure Ready (store : Store) : Prop where
  isOpen : store.isOpen = true
  journal : Writable store.journal
  domains : store.document.domains.size < store.options.maxDomains.toNat

end Store

namespace StoreCall

open Store

/-- A call whose body is accepted, with the length of the body. -/
def Accepts (c : StoreCall) (length : Nat) : Prop :=
  ∃ payload, c.encoded = .ok payload ∧ validateBody c.kind payload = .ok () ∧
    payload.length = length

/-- A domain that is put is one the document has. -/
def Known (document : DurableDocument) : StoreCall → Prop
  | putDomainState state => document.domains.contains state.domain = true
  | _ => True

theorem kind_named (c : StoreCall) : c.kind.named = true := by
  cases c <;> rfl

end StoreCall

namespace Store

open Journal StoreCall

variable {store store' : Store} {kind : MutationKind} {payload : Bytes} {stamp : MutationStamp}
  {c : StoreCall} {calls : List StoreCall} {length : Nat}

theorem applyMutation_contains {document : DurableDocument} (hknown : c.Known document) :
    (document.applyMutation c.mutation).domains.size = document.domains.size ∧
      ∀ domain, (document.applyMutation c.mutation).domains.contains domain =
        document.domains.contains domain := by
  cases c with
  | putDomainState state =>
    have hknown : document.domains.contains state.domain = true := hknown
    refine ⟨(SortedMap.size_insert ..).trans (if_pos hknown), fun domain => ?_⟩
    change (document.domains.insert state.domain state).contains domain = _
    unfold SortedMap.contains at hknown ⊢
    rw [SortedMap.find?_insert]
    split_ifs with hd
    · rw [hd, hknown]
      rfl
    · rfl
  | _ => exact ⟨rfl, fun _ => rfl⟩

/-- A call that is accepted and fits succeeds, and leaves the domains that are there. -/
theorem Ready.call (h : Ready store) (stamp : MutationStamp) (hstable : c.Stable)
    (haccepts : c.Accepts length) (hknown : c.Known store.document)
    (hlen : length + 2 ≤ limits.kMaxJournalRecordBytes)
    (hroom : store.journal.size + groupBytes length ≤ limits.kMaxJournalBytes) :
    ∃ store', store.call stamp c = (store', .ok ()) ∧ Ready store' ∧
      store'.journal.size = store.journal.size + groupBytes length ∧
      ∀ domain, store'.document.domains.contains domain =
        store.document.domains.contains domain := by
  obtain ⟨payload, hencoded, hvalid, rfl⟩ := haccepts
  obtain ⟨mutation, hm, _⟩ := bind_ok.mp hvalid
  obtain ⟨journal, hgroup, hwritable, hsize⟩ :=
    appendGroup_fits h.journal c.kind (c.stamped stamp) hlen hroom
  have hdomains := h.domains
  have hfits : store.HasRoom c := by
    cases c with
    | putDomainState state => exact fun hfull => absurd hfull.2 (not_le.mpr hdomains)
    | _ => trivial
  have hadmit : store.admitMutation c.kind payload = .ok () := by
    simp only [admitMutation, bind_ok, refuseIf_ok, exists_const, enforceGrowthLimits]
    refine ⟨by simp [h.isOpen], by simp [kind_named], ?_, ?_, hvalid⟩
    · rw [show kMutationPrefix = 2 from rfl]
      omega
    · rintro ⟨_, hfull⟩
      exact absurd hfull (not_le.mpr hdomains)
  obtain rfl : mutation = c.mutation :=
    hstable.decodeBody hencoded (admitMutation_length hadmit) hm
  obtain ⟨hcount, hcontains⟩ := applyMutation_contains hknown
  refine ⟨pruneDocument (store.recorded journal (store.document.applyMutation c.mutation)
    (c.stamped stamp).generation), ?_, ⟨h.isOpen, hwritable, ?_⟩, hsize, hcontains⟩
  · rw [call_of_hasRoom hfits, hencoded]
    exact commit_of_recorded hadmit hgroup hm
  · exact lt_of_eq_of_lt hcount hdomains

/-- Calls that are accepted and fit all succeed. -/
theorem Ready.callAll (h : Ready store) (stamp : MutationStamp) {lengths : List Nat}
    (haccepts : List.Forall₂ Accepts calls lengths) (hstable : ∀ c ∈ calls, c.Stable)
    (hknown : ∀ c ∈ calls, c.Known store.document)
    (hlen : ∀ length ∈ lengths, length + 2 ≤ limits.kMaxJournalRecordBytes)
    (hroom : store.journal.size + (lengths.map groupBytes).sum ≤ limits.kMaxJournalBytes) :
    ∃ store', store.callAll stamp calls = (store', .ok ()) := by
  induction haccepts generalizing store with
  | nil => exact ⟨store, rfl⟩
  | @cons c length rest lengths hc _ ih =>
    rw [List.map_cons, List.sum_cons] at hroom
    obtain ⟨store₁, hcall, h₁, hsize, hcontains⟩ := h.call stamp (hstable c List.mem_cons_self) hc
      (hknown c List.mem_cons_self) (hlen length List.mem_cons_self) (by omega)
    have hknown₁ : ∀ c ∈ rest, c.Known store₁.document := by
      intro c hmem
      have hk := hknown c (List.mem_cons_of_mem _ hmem)
      cases c with
      | putDomainState state => exact (hcontains state.domain).trans hk
      | _ => trivial
    obtain ⟨store', hcalls⟩ := ih h₁ (fun c hmem => hstable c (List.mem_cons_of_mem _ hmem)) hknown₁
      (fun n hmem => hlen n (List.mem_cons_of_mem _ hmem)) (by omega)
    refine ⟨store', ?_⟩
    unfold Store.callAll
    rw [hcall]
    exact hcalls

end Store

end CongestionFabric
