import CongestionFabric.Durability.Compaction
import CongestionFabric.Durability.Persistable

namespace CongestionFabric

theorem flatMap_length_eq {α : Type} {put : α → Bytes} {width : Nat} (xs : List α)
    (h : ∀ x, (put x).length = width) : (xs.flatMap put).length = width * xs.length := by
  induction xs with
  | nil => rfl
  | cons x rest ih =>
    have hx := h x
    rw [List.flatMap_cons, List.length_append, List.length_cons, Nat.mul_succ]
    omega

/-- The bytes a topology is encoded into. -/
def topologyBytes (topology : TopologySnapshot) : Nat :=
  64 + 49 * topology.resources.length + 44 * topology.links.length +
    (topology.paths.map fun path => 28 + 8 * path.hops.length).sum

/-- The bytes a capacity snapshot is encoded into. -/
def capacityBytes (capacity : CapacitySnapshot) : Nat := 48 + 32 * capacity.entries.length

namespace Store

open Journal DurableDocument

theorem putPath_bytes (path : PathRecord) : (putPath path).length = 28 + 8 * path.hops.length := by
  have hhops : (path.hops.flatMap StrongId.put).length = 8 * path.hops.length :=
    flatMap_length_eq _ ByteWriter.put_length
  simp only [putPath, List.length_append, ByteWriter.put_length, ByteWriter.u64_length,
    ByteWriter.u32_length, ByteWriter.size_length]
  omega

theorem encodeTopology_length (topology : TopologySnapshot) :
    ∃ payload, encodeTopology topology = .ok payload ∧
      payload.length = topologyBytes topology := by
  refine ⟨_, rfl, ?_⟩
  have hresources : (topology.resources.flatMap putResource).length =
      49 * topology.resources.length := flatMap_length_eq _ putResource_length
  have hlinks : (topology.links.flatMap putLink).length = 44 * topology.links.length :=
    flatMap_length_eq _ putLink_length
  have hpaths : (topology.paths.flatMap putPath).length =
      (topology.paths.map fun path => 28 + 8 * path.hops.length).sum := by
    rw [List.length_flatMap]
    exact congrArg List.sum (List.map_congr_left fun path _ => putPath_bytes path)
  unfold topologyBytes
  simp only [List.length_append, ByteWriter.put_length, ByteWriter.u64_length,
    ByteWriter.size_length]
  omega

theorem encodeCapacity_length (capacity : CapacitySnapshot) :
    ∃ payload, encodeCapacity capacity = .ok payload ∧
      payload.length = capacityBytes capacity := by
  refine ⟨_, rfl, ?_⟩
  have hentries : (capacity.entries.flatMap putEntry).length = 32 * capacity.entries.length :=
    flatMap_length_eq _ putEntry_length
  unfold capacityBytes
  simp only [List.length_append, ByteWriter.put_length, ByteWriter.u64_length,
    ByteWriter.size_length]
  omega

/-! ### What is refused as oversized -/

variable {store : Store} {kind : MutationKind} {payload : Bytes} {stamp : MutationStamp}
  {c : StoreCall} {status : Status}

/-- A body within the bound on records is not refused for its size. -/
theorem append_not_oversized {journal : Journal} {body : Bytes}
    (hlen : body.length ≤ journal.options.maxRecordBytes) (type : RecordType) (epoch : EpochId)
    (generation : UInt64) (transaction : TransactionId) :
    (journal.append type epoch generation transaction body).1.options = journal.options ∧
      ∀ status, (journal.append type epoch generation transaction body).2 = .error status →
        status.code ≠ .oversized := by
  have hcode : ∀ {code : ErrCode} {message : String}, code ≠ .oversized →
      ∀ status, (fail code message : VoidResult) = .error status → status.code ≠ .oversized := by
    intro code message hne status heq
    rw [← Except.error.inj heq]
    exact hne
  unfold Journal.append
  rw [if_neg (not_lt.mpr hlen)]
  dsimp only
  split
  · exact ⟨rfl, hcode (by decide)⟩
  split
  · exact ⟨rfl, hcode (by decide)⟩
  split
  · exact ⟨rfl, hcode (by decide)⟩
  split
  · exact ⟨rfl, hcode (by decide)⟩
  · exact ⟨rfl, hcode (by decide)⟩
  · exact ⟨rfl, hcode (by decide)⟩
  · exact ⟨rfl, nofun⟩

theorem appendGroup_not_oversized {journal : Journal}
    (hbound : journal.options.maxRecordBytes = limits.kMaxJournalRecordBytes)
    (hlen : payload.length + kMutationPrefix ≤ limits.kMaxJournalRecordBytes)
    (h : (appendGroup journal kind payload stamp).2 = .error status) :
    status.code ≠ .oversized := by
  obtain ⟨hintent, hframed, hcommit⟩ := groupBodies_length kind stamp payload
  have hmax : 18 ≤ limits.kMaxJournalRecordBytes := by decide
  have hprefix : kMutationPrefix = 2 := rfl
  unfold appendGroup at h
  dsimp only at h
  obtain ⟨ho₁, hc₁⟩ := @append_not_oversized journal (intentBody kind stamp) (by omega) .intent
    stamp.epoch stamp.generation.value ⟨journal.nextSequence⟩
  split at h
  next j₁ status₁ h₁ =>
    rw [h₁] at hc₁
    exact hc₁ status h
  next j₁ _ h₁ =>
    rw [h₁] at ho₁
    obtain ⟨ho₂, hc₂⟩ := @append_not_oversized j₁ (frameBody kind payload)
      (by rw [ho₁]; omega) .payload stamp.epoch stamp.generation.value ⟨journal.nextSequence⟩
    split at h
    next j₂ status₂ h₂ =>
      rw [h₂] at hc₂
      exact hc₂ status h
    next j₂ _ h₂ =>
      rw [h₂] at ho₂
      obtain ⟨_, hc₃⟩ := @append_not_oversized j₂
        (commitBody kind (frameBody kind payload)) (by rw [ho₂, ho₁]; omega) .commit
        stamp.epoch stamp.generation.value ⟨journal.nextSequence⟩
      exact hc₃ status h

/-- A valid body that fits is admitted, but for the bound on domains. -/
theorem admitMutation_fits (hopen : store.isOpen = true) (hnamed : kind.named = true)
    (hkind : kind ≠ .domainState)
    (hlen : payload.length + kMutationPrefix ≤ limits.kMaxJournalRecordBytes)
    (hvalid : validateBody kind payload = .ok ()) : store.admitMutation kind payload = .ok () := by
  simp only [admitMutation, bind_ok, refuseIf_ok, exists_const, enforceGrowthLimits]
  exact ⟨by simp [hopen], by simp [hnamed], not_lt.mpr hlen, fun hfull => hkind hfull.1, hvalid⟩

theorem admitMutation_oversized (hopen : store.isOpen = true) (hnamed : kind.named = true)
    (hlong : limits.kMaxJournalRecordBytes < payload.length + kMutationPrefix) :
    store.admitMutation kind payload =
      fail .oversized "durable mutation body exceeds the permitted size" := by
  unfold admitMutation
  simp [hopen, hnamed, hlong, refuseIf, succeed, bind, Except.bind, fail]

/-! ### The size of a snapshot -/

/-- The bytes of a container whose records have these payloads. -/
def snapshotBytes (payloads : List Bytes) : Nat :=
  kSnapshotHeaderSize + (payloads.map fun payload => kRecordHeaderSize + payload.length).sum +
    kSnapshotFooterSize

theorem encoded_bytes (records : List JournalRecord) :
    ((records.map sealSnapshotRecord).flatMap JournalRecord.encode).length =
      ((records.map (·.payload)).map fun payload => kRecordHeaderSize + payload.length).sum := by
  rw [List.length_flatMap, List.map_map, List.map_map]
  refine congrArg List.sum (List.map_congr_left fun record _ => ?_)
  simp [JournalRecord.encode, sealSnapshotRecord]

variable {header : SnapshotHeader} {records : List JournalRecord} {options : SnapshotOptions}
  {container : Bytes}

theorem writeSnapshot_bytes (hbytes : options.maxBytes < 2 ^ 64)
    (h : writeSnapshot header records options = .ok container) :
    container.length = snapshotBytes (records.map (·.payload)) := by
  obtain ⟨header', footer, rfl, _⟩ := writeSnapshot_ok hbytes h
  rw [containerOf, List.length_append, List.length_append, encodeSnapshotHeader_length,
    encodeSnapshotFooter_length, encoded_bytes]
  rfl

/-- Records that fit are written. -/
theorem writeSnapshot_fits (hcount : records.length ≤ options.maxRecords)
    (hlen : ∀ payload ∈ records.map (·.payload), payload.length ≤ limits.kMaxJournalRecordBytes)
    (hsize : snapshotBytes (records.map (·.payload)) ≤ options.maxBytes) :
    ∃ container, writeSnapshot header records options = .ok container := by
  have hbounded : ¬∃ record ∈ records, record.payload.length > limits.kMaxJournalRecordBytes := by
    rintro ⟨record, hr, hlong⟩
    exact absurd hlong (not_lt.mpr (hlen _ (List.mem_map_of_mem hr)))
  have hbody : (records.flatMap fun record => (sealSnapshotRecord record).encode).length =
      ((records.map (·.payload)).map fun payload => kRecordHeaderSize + payload.length).sum := by
    rw [← encoded_bytes, List.flatMap_map]
  refine ⟨_, bind_ok.mpr ⟨(), refuseIf_ok.mpr (not_lt.mpr hcount),
    bind_ok.mpr ⟨(), refuseIf_ok.mpr hbounded, bind_ok.mpr ⟨(), refuseIf_ok.mpr ?_, rfl⟩⟩⟩⟩
  rw [List.length_append, List.length_append, encodeSnapshotHeader_length,
    encodeSnapshotFooter_length, hbody]
  exact not_lt.mpr hsize

/-! ### The snapshot of a document with one body replaced -/

variable {d : DurableDocument} {bodies : List (MutationKind × Bytes)} {count : Nat}

theorem snapshotRecord_payloads (epoch : EpochId) (bodies : List (MutationKind × Bytes)) :
    (bodies.zipIdx.map fun e => snapshotRecord epoch e.2 e.1).map (·.payload) =
      bodies.map fun body => frameBody body.1 body.2 := by
  have hfst : bodies.zipIdx.map Prod.fst = bodies := List.zipIdx_map_fst 0 bodies
  conv_rhs => rw [← hfst]
  rw [List.map_map, List.map_map]
  rfl

theorem frameBody_length (body : MutationKind × Bytes) :
    (frameBody body.1 body.2).length = kMutationPrefix + body.2.length := by
  rw [frameBody, List.length_append, ByteWriter.u16_length]
  rfl

/-- The bytes of the snapshot of these bodies. -/
def bodiesBytes (bodies : List (MutationKind × Bytes)) : Nat :=
  snapshotBytes (bodies.map fun body => frameBody body.1 body.2)

theorem bodiesBytes_replace (front old back : List (MutationKind × Bytes))
    (body : MutationKind × Bytes) : bodiesBytes (front ++ body :: back) ≤
      bodiesBytes (front ++ old ++ back) + (kRecordHeaderSize + kMutationPrefix + body.2.length) := by
  have hbody := frameBody_length body
  unfold bodiesBytes snapshotBytes
  simp only [List.map_append, List.map_cons, List.sum_append, List.sum_cons]
  omega

theorem validateBodies_of_mem (h : ∀ body ∈ bodies, validateBody body.1 body.2 = .ok ()) :
    validateBodies bodies = .ok () := by
  induction bodies with
  | nil => rfl
  | cons body rest ih =>
    refine bind_ok.mpr ⟨(), h body List.mem_cons_self, ?_⟩
    exact ih fun b hb => h b (List.mem_cons_of_mem _ hb)

/-- A compacted document is the bodies it was compacted into, all valid and within their bound. -/
theorem compact_bodies (h : compact d = .ok (container, options, count)) :
    ∃ bodies, documentBodies d = .ok bodies ∧
      (∀ body ∈ bodies, validateBody body.1 body.2 = .ok () ∧
        body.2.length + kMutationPrefix ≤ limits.kMaxJournalRecordBytes) ∧
      container.length = bodiesBytes bodies := by
  simp only [compact, bind_ok] at h
  obtain ⟨bodies, hbodies, _, hvalid, written, hwritten, h⟩ := h
  obtain ⟨rfl, rfl, rfl⟩ := Prod.mk.inj (Except.ok.inj h) |>.imp id Prod.mk.inj
  have hmax : limits.kMaxSnapshotBytes < 2 ^ 64 := by decide
  have hlength := writeSnapshot_bytes hmax hwritten
  rw [snapshotRecord_payloads] at hlength
  obtain ⟨_, _, _, _, _, _, _, _, _, hbounded⟩ := writeSnapshot_ok hmax hwritten
  have hframed : ∀ payload ∈ bodies.map fun body => frameBody body.1 body.2,
      payload.length ≤ limits.kMaxJournalRecordBytes := by
    rw [← snapshotRecord_payloads d.epoch]
    intro payload hp
    obtain ⟨record, hr, rfl⟩ := List.mem_map.mp hp
    exact hbounded record hr
  refine ⟨bodies, hbodies, fun body hb => ⟨validateBodies_mem hvalid body hb, ?_⟩, hlength⟩
  have hfits := hframed _ (List.mem_map_of_mem hb)
  rw [frameBody_length] at hfits
  omega

/-- Bodies that are valid and fit are compacted. -/
theorem compact_fits (hbodies : documentBodies d = .ok bodies)
    (h : ∀ body ∈ bodies, validateBody body.1 body.2 = .ok () ∧
      body.2.length + kMutationPrefix ≤ limits.kMaxJournalRecordBytes)
    (hsize : bodiesBytes bodies ≤ limits.kMaxSnapshotBytes) :
    ∃ container options, compact d = .ok (container, options, bodies.length) := by
  have hpayloads := snapshotRecord_payloads d.epoch bodies
  have hcount : (bodies.zipIdx.map fun e => snapshotRecord d.epoch e.2 e.1).length =
      bodies.length := by
    rw [List.length_map, List.length_zipIdx]
  have hframed : ∀ payload ∈ bodies.map fun body => frameBody body.1 body.2,
      payload.length ≤ limits.kMaxJournalRecordBytes := by
    intro payload hp
    obtain ⟨body, hb, rfl⟩ := List.mem_map.mp hp
    rw [frameBody_length, Nat.add_comm]
    exact (h body hb).2
  have hwritten : ∃ container, writeSnapshot {
      epoch := d.epoch.value, coordinatorBoot := d.coordinatorBoot.value
      coordinatorBootCounter := d.coordinatorBootCounter, lastSequence := d.lastSequence }
      (bodies.zipIdx.map fun e => snapshotRecord d.epoch e.2 e.1)
      { maxRecords := bodies.length + 1 } = .ok container := by
    refine writeSnapshot_fits (hcount.trans_le (Nat.le_succ _)) ?_ ?_
    · rw [hpayloads]
      exact hframed
    · rw [hpayloads]
      exact hsize
  obtain ⟨container, hwritten⟩ := hwritten
  rw [← hcount] at hwritten ⊢
  exact ⟨container, _, bind_ok.mpr ⟨bodies, hbodies, bind_ok.mpr ⟨(),
    validateBodies_of_mem fun body hb => (h body hb).1, bind_ok.mpr ⟨container, hwritten, rfl⟩⟩⟩⟩

theorem compactCalls_length (h : documentBodies d = .ok bodies) :
    d.compactCalls.length = bodies.length := (documentBodies_writes h).length_eq

/-! ### What can be made durable -/

/-- What it is for the mutation of a call to be made durable: no open store refuses it for its size, a
store whose journal has room for its group takes it, and a document that takes it can still be
written to a snapshot and read back, where the snapshot has room for its record. -/
structure MadeDurable (c : StoreCall) : Prop where
  admitted : ∀ (store : Store) stamp status, store.isOpen = true →
    store.journal.options.maxRecordBytes = limits.kMaxJournalRecordBytes →
    (store.call stamp c).2 = .error status → status.code ≠ .oversized
  committed : ∀ (store : Store) stamp payload, store.isOpen = true → Writable store.journal →
    c.encoded = .ok payload →
    store.journal.size + groupBytes payload.length ≤ limits.kMaxJournalBytes →
    (store.call stamp c).2 = .ok ()
  saved : ∀ d container options count payload, Normal d →
    compact d = .ok (container, options, count) → c.encoded = .ok payload →
    container.length + (kRecordHeaderSize + kMutationPrefix + payload.length) ≤
      limits.kMaxSnapshotBytes →
    ∃ container' options' count',
      compact (d.applyMutation c.mutation) = .ok (container', options', count') ∧
      ∀ storeOptions, count' ≤ (snapshotOptions storeOptions).maxRecords →
        ∃ loaded, loadSnapshot (some container') storeOptions =
            .ok (loaded, { snapshotPresent := true, snapshotLoaded := true }) ∧
          loaded.content = (d.applyMutation c.mutation).content

/-- The body of a call takes the place of what a document had of its kind. -/
structure Replaces (c : StoreCall) (payload : Bytes) : Prop where
  encoded : c.encoded = .ok payload
  decoded : decodeBody c.kind payload = .ok c.mutation
  kind : c.kind ≠ .domainState
  normal : ∀ d, Normal d → Normal (d.applyMutation c.mutation)
  bodies : ∀ d bodies, documentBodies d = .ok bodies → ∃ front old back,
    bodies = front ++ old ++ back ∧
    documentBodies (d.applyMutation c.mutation) = .ok (front ++ (c.kind, payload) :: back)

namespace Replaces

theorem valid (h : Replaces c payload) : validateBody c.kind payload = .ok () :=
  bind_ok.mpr ⟨_, h.decoded, rfl⟩

theorem call (h : Replaces c payload) (store : Store) (stamp : MutationStamp) :
    store.call stamp c = store.commit c.kind payload (c.stamped stamp) := by
  have hroom : store.HasRoom c := by
    have hkind := h.kind
    cases c with
    | putDomainState state => exact absurd rfl hkind
    | _ => trivial
  rw [call_of_hasRoom hroom, h.encoded]
  rfl

/-- A body over the bound is refused by a store over an empty directory. -/
theorem refused (h : Replaces c payload)
    (hlong : limits.kMaxJournalRecordBytes < payload.length + kMutationPrefix) :
    (fresh.call {} c).2 =
      fail .oversized "durable mutation body exceeds the permitted size" := by
  have hadmitted : fresh.admitMutation c.kind payload = _ :=
    admitMutation_oversized rfl c.kind_named hlong
  rw [h.call]
  unfold commit
  rw [hadmitted]
  rfl

theorem not_oversized (h : Replaces c payload)
    (hlen : payload.length + kMutationPrefix ≤ limits.kMaxJournalRecordBytes)
    (hopen : store.isOpen = true)
    (hbound : store.journal.options.maxRecordBytes = limits.kMaxJournalRecordBytes)
    (hcall : (store.call stamp c).2 = .error status) : status.code ≠ .oversized := by
  rw [h.call] at hcall
  obtain ⟨store', hcommit⟩ : ∃ store',
      store.commit c.kind payload (c.stamped stamp) = (store', .error status) := ⟨_, Prod.ext rfl hcall⟩
  have hadmitted := admitMutation_fits hopen c.kind_named h.kind hlen h.valid
  unfold commit at hcommit
  rw [hadmitted] at hcommit
  dsimp only at hcommit
  split at hcommit
  next journal status' hgroup =>
    have hstatus := Except.error.inj (Prod.mk.inj hcommit).2
    rw [← hstatus]
    exact appendGroup_not_oversized hbound hlen (congrArg Prod.snd hgroup)
  next journal _ hgroup =>
    obtain ⟨document, hdocument⟩ := DurableDocument.apply_of_validateBody h.valid store.document
    rw [hdocument] at hcommit
    cases (Prod.mk.inj hcommit).2

theorem taken (h : Replaces c payload)
    (hlen : payload.length + kMutationPrefix ≤ limits.kMaxJournalRecordBytes)
    (hopen : store.isOpen = true) (hwritable : Writable store.journal)
    (hroom : store.journal.size + groupBytes payload.length ≤ limits.kMaxJournalBytes) :
    (store.call stamp c).2 = .ok () := by
  obtain ⟨journal, hgroup, _⟩ := appendGroup_fits hwritable c.kind (c.stamped stamp) hlen hroom
  have hadmitted := admitMutation_fits hopen c.kind_named h.kind hlen h.valid
  rw [h.call, commit_of_recorded hadmitted hgroup h.decoded]

theorem saved (h : Replaces c payload)
    (hlen : payload.length + kMutationPrefix ≤ limits.kMaxJournalRecordBytes) (hnormal : Normal d)
    (hcompact : compact d = .ok (container, options, count))
    (hroom : container.length + (kRecordHeaderSize + kMutationPrefix + payload.length) ≤
      limits.kMaxSnapshotBytes) :
    ∃ container' options' count',
      compact (d.applyMutation c.mutation) = .ok (container', options', count') ∧
      ∀ storeOptions, count' ≤ (snapshotOptions storeOptions).maxRecords →
        ∃ loaded, loadSnapshot (some container') storeOptions =
            .ok (loaded, { snapshotPresent := true, snapshotLoaded := true }) ∧
          loaded.content = (d.applyMutation c.mutation).content := by
  obtain ⟨bodies, hbodies, hsound, hsize⟩ := compact_bodies hcompact
  obtain ⟨front, old, back, rfl, hbodies'⟩ := h.bodies d bodies hbodies
  have hsound' : ∀ body ∈ front ++ (c.kind, payload) :: back, validateBody body.1 body.2 = .ok () ∧
      body.2.length + kMutationPrefix ≤ limits.kMaxJournalRecordBytes := by
    intro body hb
    rcases List.mem_append.mp hb with hfront | hrest
    · exact hsound body (List.mem_append_left _ (List.mem_append_left _ hfront))
    · rcases List.mem_cons.mp hrest with rfl | hback
      · exact ⟨h.valid, hlen⟩
      · exact hsound body (List.mem_append_right _ hback)
  have hreplaced := bodiesBytes_replace front old back (c.kind, payload)
  obtain ⟨container', options', hcompact'⟩ :=
    compact_fits hbodies' hsound' (by dsimp only at hreplaced; omega)
  refine ⟨container', options', _, hcompact', fun storeOptions hcount => ?_⟩
  rw [← compactCalls_length hbodies'] at hcount
  obtain ⟨loaded, hload, hcontent, _⟩ :=
    (loadSnapshot_compact (h.normal d hnormal) hcompact' storeOptions).1 hcount
  exact ⟨loaded, hload, hcontent⟩

/-- A body is made durable exactly when it is within the bound on records. -/
theorem made_durable_iff (h : Replaces c payload) :
    MadeDurable c ↔ payload.length + kMutationPrefix ≤ limits.kMaxJournalRecordBytes := by
  constructor
  · intro hdurable
    refine not_lt.mp fun hlong => ?_
    exact hdurable.admitted fresh {} _ rfl rfl (h.refused hlong) rfl
  · intro hlen
    refine ⟨fun store stamp status hopen hbound hcall => h.not_oversized hlen hopen hbound hcall,
      fun store stamp found hopen hwritable hencoded hroom => ?_,
      fun d container options count found hnormal hcompact hencoded hroom => ?_⟩
    · obtain rfl := Except.ok.inj (h.encoded.symm.trans hencoded)
      exact h.taken hlen hopen hwritable hroom
    · obtain rfl := Except.ok.inj (h.encoded.symm.trans hencoded)
      exact h.saved hlen hnormal hcompact hroom

end Replaces

/-! ### Topologies and capacity snapshots -/

theorem encodeAll_one {α : Type} {kind : MutationKind} {encode : α → Result Bytes} {record : α}
    (h : encode record = .ok payload) : encodeAll kind encode [record] = .ok [(kind, payload)] :=
  bind_ok.mpr ⟨payload, h, bind_ok.mpr ⟨[], rfl, rfl⟩⟩

theorem replaces_topology {topology : TopologySnapshot} (h : validateTopology topology = .ok ()) :
    ∃ payload, Replaces (.setTopology topology) payload ∧
      payload.length = topologyBytes topology := by
  obtain ⟨payload, hencoded, hlen⟩ := encodeTopology_length topology
  obtain ⟨found, hfound, hdecoded⟩ := topology_round_trip h
  obtain rfl := Except.ok.inj (hfound.symm.trans hencoded)
  refine ⟨found, ⟨hencoded, bind_ok.mpr ⟨topology, hdecoded, rfl⟩, nofun, ?_, ?_⟩, hlen⟩
  · exact fun d hd => ⟨hd.policy, hd.keyed, hd.interventions, hd.fences, hd.provenance⟩
  · intro d bodies hbodies
    simp only [documentBodies, bind_ok] at hbodies
    obtain ⟨policy, hpolicy, old, _, capacity, hcapacity, epoch, hepoch, domains, hdomains,
      interventions, hinterventions, fences, hfences, history, hhistory, attempts, hattempts,
      provenance, hprovenance, revalidations, hrevalidations, hall⟩ := hbodies
    obtain rfl := Except.ok.inj hall
    refine ⟨policy, old, capacity ++ (epoch ++ (domains ++ (interventions ++ (fences ++ (history ++
      (attempts ++ (provenance ++ revalidations))))))), by simp only [List.append_assoc], ?_⟩
    simp only [documentBodies, bind_ok]
    refine ⟨policy, hpolicy, _, encodeAll_one hencoded, capacity, hcapacity, epoch, hepoch, domains,
      hdomains, interventions, hinterventions, fences, hfences, history, hhistory, attempts,
      hattempts, provenance, hprovenance, revalidations, hrevalidations, ?_⟩
    simp only [List.append_assoc]
    rfl

theorem replaces_capacity {capacity : CapacitySnapshot} (h : validateCapacity capacity = .ok ()) :
    ∃ payload, Replaces (.setCapacity capacity) payload ∧
      payload.length = capacityBytes capacity := by
  obtain ⟨payload, hencoded, hlen⟩ := encodeCapacity_length capacity
  obtain ⟨found, hfound, hdecoded⟩ := capacity_round_trip h
  obtain rfl := Except.ok.inj (hfound.symm.trans hencoded)
  refine ⟨found, ⟨hencoded, bind_ok.mpr ⟨capacity, hdecoded, rfl⟩, nofun, ?_, ?_⟩, hlen⟩
  · exact fun d hd => ⟨hd.policy, hd.keyed, hd.interventions, hd.fences, hd.provenance⟩
  · intro d bodies hbodies
    simp only [documentBodies, bind_ok] at hbodies
    obtain ⟨policy, hpolicy, topology, htopology, old, _, epoch, hepoch, domains, hdomains,
      interventions, hinterventions, fences, hfences, history, hhistory, attempts, hattempts,
      provenance, hprovenance, revalidations, hrevalidations, hall⟩ := hbodies
    obtain rfl := Except.ok.inj hall
    refine ⟨policy ++ topology, old, epoch ++ (domains ++ (interventions ++ (fences ++ (history ++
      (attempts ++ (provenance ++ revalidations)))))), by simp only [List.append_assoc], ?_⟩
    simp only [documentBodies, bind_ok]
    refine ⟨policy, hpolicy, topology, htopology, _, encodeAll_one hencoded, epoch, hepoch, domains,
      hdomains, interventions, hinterventions, fences, hfences, history, hhistory, attempts,
      hattempts, provenance, hprovenance, revalidations, hrevalidations, ?_⟩
    simp only [List.append_assoc]
    rfl

/-- An accepted topology or capacity snapshot is made durable exactly when its encoding is within the
bound on journal records. -/
theorem accepted_made_durable_iff (topology : TopologySnapshot) (capacity : CapacitySnapshot) :
    (validateTopology topology = .ok () →
      (MadeDurable (.setTopology topology) ↔
        topologyBytes topology + kMutationPrefix ≤ limits.kMaxJournalRecordBytes)) ∧
    (validateCapacity capacity = .ok () →
      (MadeDurable (.setCapacity capacity) ↔
        capacityBytes capacity + kMutationPrefix ≤ limits.kMaxJournalRecordBytes)) := by
  constructor
  · intro h
    obtain ⟨payload, hreplaces, hlen⟩ := replaces_topology h
    rw [← hlen]
    exact hreplaces.made_durable_iff
  · intro h
    obtain ⟨payload, hreplaces, hlen⟩ := replaces_capacity h
    rw [← hlen]
    exact hreplaces.made_durable_iff

/-- Two resources with a link from one to the other and a path over both. -/
def linkedTopology : TopologySnapshot where
  id := ⟨1⟩
  generation := ⟨1⟩
  epoch := ⟨1⟩
  observedTick := 1
  resources := [{ id := ⟨1⟩, domain := ⟨1⟩, nominalCapacityBps := 10000000000 },
    { id := ⟨2⟩, domain := ⟨1⟩, parent := ⟨1⟩, depth := 1, nominalCapacityBps := 10000000000 }]
  links := [{ id := ⟨1⟩, fromId := ⟨1⟩, toId := ⟨2⟩, capacityBps := 10000000000 }]
  paths := [{ id := ⟨1⟩, hops := [⟨1⟩, ⟨2⟩], capacityBps := 10000000000 }]

/-- What the two resources have left. -/
def linkedCapacity : CapacitySnapshot where
  id := ⟨1⟩
  generation := ⟨1⟩
  epoch := ⟨1⟩
  observedTick := 1
  entries := [⟨⟨1⟩, 10000000000, 4000000000, 3000000000⟩,
    ⟨⟨2⟩, 10000000000, 10000000000, 8000000000⟩]

set_option maxRecDepth 4000 in
theorem accepted_made_durable_iff_linked :
    MadeDurable (.setTopology linkedTopology) ∧ MadeDurable (.setCapacity linkedCapacity) := by
  obtain ⟨htopology, hcapacity⟩ := accepted_made_durable_iff linkedTopology linkedCapacity
  exact ⟨(htopology (by decide)).mpr (by decide), (hcapacity (by decide)).mpr (by decide)⟩

/-! ### A capacity snapshot over the bound -/

/-- A capacity snapshot of this many resources. -/
def wideCapacity (n : Nat) : CapacitySnapshot where
  entries := (List.range n).map fun i => { resource := ⟨UInt64.ofNat (i + 1)⟩ }

theorem wideCapacity_accepted {n : Nat} (hn : n ≤ limits.kMaxResourcesPerFabric) :
    validateCapacity (wideCapacity n) = .ok () := by
  have hmax : limits.kMaxResourcesPerFabric = 4194304 := rfl
  have hvalue : ∀ i < n, (UInt64.ofNat (i + 1)).toNat = i + 1 := by
    intro i hi
    rw [UInt64.toNat_ofNat', Nat.mod_eq_of_lt (by omega)]
  have hchain : ((wideCapacity n).entries.map (·.resource)).IsChain (· < ·) := by
    refine List.Pairwise.isChain ?_
    rw [wideCapacity, List.map_map, List.pairwise_map]
    refine List.pairwise_lt_range.imp_of_mem ?_
    intro i j hi hj hij
    refine StrongId.lt_iff.mpr ?_
    change (UInt64.ofNat (i + 1)).toNat < (UInt64.ofNat (j + 1)).toNat
    rw [hvalue i (List.mem_range.mp hi), hvalue j (List.mem_range.mp hj)]
    omega
  have hentries : ∀ indices : List Nat, (∀ i ∈ indices, i < n) →
      validateEntries (indices.map fun i => { resource := ⟨UInt64.ofNat (i + 1)⟩ }) = .ok () := by
    intro indices hindices
    induction indices with
    | nil => rfl
    | cons i rest ih =>
      have hi := hvalue i (hindices i List.mem_cons_self)
      have hvalid : UInt64.ofNat (i + 1) ≠ 0 := by
        intro hzero
        rw [hzero] at hi
        exact absurd hi (by simp)
      have hrest := ih fun j hj => hindices j (List.mem_cons_of_mem _ hj)
      rw [List.map_cons, validateEntries]
      simp only [bind_ok, refuseIf_ok, exists_const]
      exact ⟨not_not.mpr (decide_eq_true hvalid), by decide, by decide, by decide, hrest⟩
  simp only [validateCapacity, bind_ok, refuseIf_ok, exists_const]
  refine ⟨?_, not_not.mpr hchain, hentries _ fun i hi => List.mem_range.mp hi⟩
  rw [wideCapacity, List.length_map, List.length_range]
  exact not_lt.mpr hn

/-- A capacity snapshot of 131071 resources, of the 4194304 that are accepted, is refused by a store
over an empty directory. -/
theorem wide_capacity_refused : validateCapacity (wideCapacity 131071) = .ok () ∧
    (fresh.setCapacity (wideCapacity 131071) {}).2 =
      fail .oversized "durable mutation body exceeds the permitted size" ∧
    ¬MadeDurable (.setCapacity (wideCapacity 131071)) := by
  have haccepted : validateCapacity (wideCapacity 131071) = .ok () :=
    wideCapacity_accepted (by decide)
  obtain ⟨payload, hreplaces, hlen⟩ := replaces_capacity haccepted
  have hcount : (wideCapacity 131071).entries.length = 131071 := by
    rw [wideCapacity, List.length_map, List.length_range]
  have hlong : limits.kMaxJournalRecordBytes < payload.length + kMutationPrefix := by
    rw [hlen, capacityBytes, hcount]
    decide
  refine ⟨haccepted, hreplaces.refused hlong, fun hdurable => ?_⟩
  exact hdurable.admitted fresh {} _ rfl rfl (hreplaces.refused hlong) rfl

end Store

end CongestionFabric
