import CongestionFabric.Durability.RoundTrip

namespace CongestionFabric

/-- The encoder takes the value and the decoder returns it. -/
def RoundTrips {α : Type} (encode : α → Result Bytes) (decode : Bytes → Result α) (a : α) : Prop :=
  ∃ payload, encode a = .ok payload ∧ decode payload = .ok a

/-! ### The lengths of encodings -/

namespace ByteWriter

@[simp] theorem u8_length (v : UInt8) : (u8 v).length = 1 := rfl
@[simp] theorem u16_length (v : UInt16) : (u16 v).length = 2 := littleEndian_length 2 _
@[simp] theorem u32_length (v : UInt32) : (u32 v).length = 4 := littleEndian_length 4 _
@[simp] theorem u64_length (v : UInt64) : (u64 v).length = 8 := littleEndian_length 8 _
@[simp] theorem i64_length (v : Int64) : (i64 v).length = 8 := u64_length _
@[simp] theorem boolean_length (v : Bool) : (boolean v).length = 1 := rfl
@[simp] theorem size_length (n : Nat) : (size n).length = 8 := u64_length _

@[simp] theorem put_length {tag : IdTag} (id : StrongId tag) : id.put.length = 8 := u64_length _

/-- A text within its bound is written with four bytes more. -/
theorem text_ok {value : Bytes} {maxLen : Nat} (h : value.length ≤ maxLen)
    (hmax : maxLen ≤ 0xFFFFFFFF) :
    ∃ bytes, text value maxLen = .ok bytes ∧ bytes.length = 4 + value.length := by
  refine ⟨_, if_neg ?_, ?_⟩
  · omega
  · rw [List.length_append, u32_length]

end ByteWriter

theorem flatMap_length {α : Type} {put : α → Bytes} {width : Nat} (xs : List α)
    (h : ∀ x ∈ xs, (put x).length ≤ width) : (xs.flatMap put).length ≤ width * xs.length := by
  induction xs with
  | nil => exact Nat.zero_le _
  | cons x rest ih =>
    have hx := h x List.mem_cons_self
    have hrest := ih fun y hy => h y (List.mem_cons_of_mem _ hy)
    rw [List.flatMap_cons, List.length_append, List.length_cons, Nat.mul_succ]
    omega

namespace Store

theorem putRule_length (rule : ThresholdRule) : (putRule rule).length = 40 := by
  simp [putRule]

theorem putInterventionRule_length (rule : InterventionRule) :
    (putInterventionRule rule).length = 56 := by
  simp [putInterventionRule]

theorem putResource_length (record : ResourceRecord) : (putResource record).length = 49 := by
  simp [putResource]

theorem putLink_length (link : LinkRecord) : (putLink link).length = 44 := by
  simp [putLink]

theorem putPath_length (path : PathRecord) :
    (putPath path).length ≤ 28 + 8 * path.hops.length := by
  have hhops : (path.hops.flatMap StrongId.put).length ≤ 8 * path.hops.length :=
    flatMap_length _ fun hop _ => Nat.le_of_eq (ByteWriter.put_length hop)
  simp only [putPath, List.length_append, ByteWriter.put_length, ByteWriter.u64_length,
    ByteWriter.u32_length, ByteWriter.size_length]
  omega

theorem putEntry_length (entry : CapacityEntry) : (putEntry entry).length = 32 := by
  simp [putEntry]

/-! ### What the validators promise the decoders -/

theorem validatePolicy_storable {policy accepted : CongestionPolicy}
    (h : validatePolicy policy = .ok accepted) :
    Storable accepted ∧ accepted.name.length ≤ kMaxPolicyNameBytes := by
  have heq := (validatePolicy_accepted h).1
  simp only [validatePolicy, bind_ok, refuseIf_ok, exists_and_left, exists_const, not_lt] at h
  obtain ⟨_, _, hname, hrules, hinterventions, _, _, _, _, _, _, _, _, hevidence, _⟩ := h
  simp only [validateEvidencePolicies, bind_ok, refuseIf_ok, exists_const] at hevidence
  obtain ⟨_, _, _, _, _, _, _, _, hpriority⟩ := hevidence
  rw [heq]
  exact ⟨⟨hrules, not_lt.mp hpriority, hinterventions⟩, hname⟩

theorem validatePaths_hops {known : ResourceId → Bool} {seen : List PathId}
    {paths : List PathRecord} (h : validatePaths known seen paths = .ok ()) :
    ∀ path ∈ paths, path.hops.length ≤ limits.kMaxResourcesPerPath := by
  induction paths generalizing seen with
  | nil => exact fun _ hp => absurd hp List.not_mem_nil
  | cons path rest ih =>
    simp only [validatePaths, bind_ok, refuseIf_ok, exists_const] at h
    obtain ⟨_, _, _, hhops, _, _, _, hrest⟩ := h
    intro found hp
    rcases List.mem_cons.mp hp with rfl | hp
    · exact not_lt.mp hhops
    · exact ih hrest found hp

theorem validateTopology_storable {topology : TopologySnapshot}
    (h : validateTopology topology = .ok ()) : StorableTopology topology := by
  simp only [validateTopology, bind_ok, refuseIf_ok, exists_const, not_lt] at h
  obtain ⟨hresources, hlinks, hpaths, _, _, _, _, _, _, _, hhops⟩ := h
  exact ⟨hresources, hlinks, hpaths, validatePaths_hops hhops⟩

theorem validateCapacity_storable {capacity : CapacitySnapshot}
    (h : validateCapacity capacity = .ok ()) :
    capacity.entries.length ≤ limits.kMaxResourcesPerFabric := by
  simp only [validateCapacity, bind_ok, refuseIf_ok, exists_const, not_lt] at h
  exact h.1

/-! ### Round trips -/

theorem policy_round_trip {proposed policy : CongestionPolicy}
    (h : validatePolicy proposed = .ok policy) : RoundTrips encodePolicy decodePolicy policy := by
  obtain ⟨hstorable, hname⟩ := validatePolicy_storable h
  obtain ⟨name, htext, hlen⟩ := ByteWriter.text_ok hname (by decide)
  have hencode : ∃ payload, encodePolicy policy = .ok payload ∧ payload.length < 2 ^ 64 := by
    refine ⟨_, bind_ok.mpr ⟨name, htext, rfl⟩, ?_⟩
    have hrules : (policy.rules.flatMap putRule).length ≤ 40 * policy.rules.length :=
      flatMap_length _ fun rule _ => Nat.le_of_eq (putRule_length rule)
    have hinterventions : (policy.interventions.flatMap putInterventionRule).length ≤
        56 * policy.interventions.length :=
      flatMap_length _ fun rule _ => Nat.le_of_eq (putInterventionRule_length rule)
    have hpriority : (policy.contradiction.priorityOrder.flatMap StrongId.put).length ≤
        8 * policy.contradiction.priorityOrder.length :=
      flatMap_length _ fun id _ => Nat.le_of_eq (ByteWriter.put_length id)
    obtain ⟨h1, h2, h3⟩ := hstorable
    unfold limits.kMaxThresholdRules at h1
    unfold limits.kMaxPublishers at h2
    unfold limits.kMaxInterventionRules at h3
    unfold kMaxPolicyNameBytes at hname
    simp only [putHysteresis, putRecovery, putPropagation, putFreshness, putContradiction,
      putLimits, List.length_append, ByteWriter.put_length, ByteWriter.u64_length,
      ByteWriter.u32_length, ByteWriter.u8_length, ByteWriter.boolean_length,
      ByteWriter.size_length]
    omega
  obtain ⟨payload, hencode, hwidth⟩ := hencode
  exact ⟨payload, hencode, (decodePolicy_encoded hencode hwidth).mpr
    ⟨hstorable, validatePolicy_again h⟩⟩

theorem topology_round_trip {topology : TopologySnapshot} (h : validateTopology topology = .ok ()) :
    RoundTrips encodeTopology decodeTopology topology := by
  have hstorable := validateTopology_storable h
  have hwidth : ∀ payload, encodeTopology topology = .ok payload → payload.length < 2 ^ 64 := by
    intro payload hencode
    obtain rfl := Except.ok.inj hencode
    have hresources : (topology.resources.flatMap putResource).length ≤
        49 * topology.resources.length :=
      flatMap_length _ fun record _ => Nat.le_of_eq (putResource_length record)
    have hlinks : (topology.links.flatMap putLink).length ≤ 44 * topology.links.length :=
      flatMap_length _ fun link _ => Nat.le_of_eq (putLink_length link)
    obtain ⟨h1, h2, h3, hhops⟩ := hstorable
    have hpaths : (topology.paths.flatMap putPath).length ≤ 32796 * topology.paths.length := by
      refine flatMap_length _ fun path hp => (putPath_length path).trans ?_
      have hpath := hhops path hp
      unfold limits.kMaxResourcesPerPath at hpath
      omega
    unfold limits.kMaxResourcesPerFabric at h1
    unfold limits.kMaxLinksPerTopology at h2
    unfold limits.kMaxPathsPerTopology at h3
    simp only [List.length_append, ByteWriter.put_length, ByteWriter.u64_length,
      ByteWriter.size_length]
    omega
  exact ⟨_, rfl, (decodeTopology_encoded rfl (hwidth _ rfl)).mpr ⟨⟨hstorable, h⟩, rfl⟩⟩

theorem capacity_round_trip {capacity : CapacitySnapshot} (h : validateCapacity capacity = .ok ()) :
    RoundTrips encodeCapacity decodeCapacity capacity := by
  have hstorable := validateCapacity_storable h
  have hwidth : ∀ payload, encodeCapacity capacity = .ok payload → payload.length < 2 ^ 64 := by
    intro payload hencode
    obtain rfl := Except.ok.inj hencode
    have hentries : (capacity.entries.flatMap putEntry).length ≤ 32 * capacity.entries.length :=
      flatMap_length _ fun entry _ => Nat.le_of_eq (putEntry_length entry)
    unfold limits.kMaxResourcesPerFabric at hstorable
    simp only [List.length_append, ByteWriter.put_length, ByteWriter.u64_length,
      ByteWriter.size_length]
    omega
  exact ⟨_, rfl, (decodeCapacity_encoded rfl (hwidth _ rfl)).mpr ⟨⟨hstorable, h⟩, rfl⟩⟩

theorem domainState_round_trip {state : DomainState} (h : state.domain.valid = true) :
    RoundTrips encodeDomainState decodeDomainState state := by
  have hwidth : ∀ payload, encodeDomainState state = .ok payload → payload.length < 2 ^ 64 := by
    intro payload hencode
    obtain rfl := Except.ok.inj hencode
    simp
  exact ⟨_, rfl, (decodeDomainState_encoded rfl (hwidth _ rfl)).mpr ⟨h, rfl⟩⟩

theorem intervention_round_trip {record : InterventionRecord} (hid : record.id.valid = true)
    (hdomain : record.domain.valid = true) :
    RoundTrips encodeIntervention decodeIntervention record := by
  have hwidth : ∀ payload, encodeIntervention record = .ok payload → payload.length < 2 ^ 64 := by
    intro payload hencode
    obtain rfl := Except.ok.inj hencode
    simp
  exact ⟨_, rfl, (decodeIntervention_encoded rfl (hwidth _ rfl)).mpr ⟨⟨hid, hdomain⟩, rfl⟩⟩

theorem epoch_round_trip {epoch : EpochId} {boot : BootId} (counter : UInt64)
    (hepoch : epoch.valid = true) (hboot : boot.valid = true) :
    RoundTrips (fun mark : EpochMark => encodeEpoch mark.epoch mark.boot mark.counter) decodeEpoch
      ⟨epoch, boot, counter⟩ := by
  have hwidth : ∀ payload, encodeEpoch epoch boot counter = .ok payload →
      payload.length < 2 ^ 64 := by
    intro payload hencode
    obtain rfl := Except.ok.inj hencode
    simp
  exact ⟨_, rfl, (decodeEpoch_encoded rfl (hwidth _ rfl)).mpr ⟨⟨hepoch, hboot⟩, rfl⟩⟩

/-- A note within its bound is written, and the record around it is small. -/
theorem note_ok {note : Bytes} (h : note.length ≤ kMaxDurableNote) :
    ∃ bytes, ByteWriter.text note kMaxDurableNote = .ok bytes ∧ bytes.length ≤ 1028 := by
  obtain ⟨bytes, htext, hlen⟩ := ByteWriter.text_ok h (by decide)
  refine ⟨bytes, htext, ?_⟩
  unfold kMaxDurableNote at h
  omega

theorem fence_round_trip {record : FenceRecord} (hid : record.id.valid = true)
    (hpublisher : record.publisher.valid = true) (hboot : record.boot.valid = true)
    (h : record.detail.length ≤ kMaxDurableNote) : RoundTrips encodeFence decodeFence record := by
  obtain ⟨note, htext, hlen⟩ := note_ok h
  have hencode : ∃ payload, encodeFence record = .ok payload ∧ payload.length < 2 ^ 64 := by
    refine ⟨_, bind_ok.mpr ⟨note, htext, rfl⟩, ?_⟩
    simp only [List.length_append, ByteWriter.put_length, ByteWriter.u64_length,
      ByteWriter.u8_length]
    omega
  obtain ⟨payload, hencode, hwidth⟩ := hencode
  exact ⟨payload, hencode, (decodeFence_encoded hencode hwidth).mpr
    ⟨⟨hid, hpublisher, hboot⟩, rfl⟩⟩

theorem history_round_trip {entry : HistoryEntry} (h : entry.reason.length ≤ kMaxDurableNote) :
    RoundTrips encodeHistory decodeHistory entry := by
  obtain ⟨note, htext, hlen⟩ := note_ok h
  have hencode : ∃ payload, encodeHistory entry = .ok payload ∧ payload.length < 2 ^ 64 := by
    refine ⟨_, bind_ok.mpr ⟨note, htext, rfl⟩, ?_⟩
    simp only [List.length_append, ByteWriter.put_length, ByteWriter.u64_length,
      ByteWriter.u8_length]
    omega
  obtain ⟨payload, hencode, hwidth⟩ := hencode
  exact ⟨payload, hencode, (decodeHistory_encoded hencode hwidth).mpr rfl⟩

theorem attempt_round_trip {record : AttemptRecord} (h : record.detail.length ≤ kMaxDurableNote) :
    RoundTrips encodeAttempt decodeAttempt record := by
  obtain ⟨note, htext, hlen⟩ := note_ok h
  have hencode : ∃ payload, encodeAttempt record = .ok payload ∧ payload.length < 2 ^ 64 := by
    refine ⟨_, bind_ok.mpr ⟨note, htext, rfl⟩, ?_⟩
    simp only [List.length_append, ByteWriter.put_length, ByteWriter.u64_length,
      ByteWriter.u16_length, ByteWriter.u8_length]
    omega
  obtain ⟨payload, hencode, hwidth⟩ := hencode
  exact ⟨payload, hencode, (decodeAttempt_encoded hencode hwidth).mpr rfl⟩

theorem provenance_round_trip {provenance : Provenance}
    (h : provenance.note.length ≤ kMaxDurableNote) :
    RoundTrips encodeProvenance decodeProvenance provenance := by
  obtain ⟨note, htext, hlen⟩ := note_ok h
  have hencode : ∃ payload, encodeProvenance provenance = .ok payload ∧
      payload.length < 2 ^ 64 := by
    refine ⟨_, bind_ok.mpr ⟨note, htext, rfl⟩, ?_⟩
    simp only [List.length_append, ByteWriter.put_length, ByteWriter.u64_length,
      ByteWriter.u8_length, ByteWriter.i64_length]
    omega
  obtain ⟨payload, hencode, hwidth⟩ := hencode
  exact ⟨payload, hencode, (decodeProvenance_encoded hencode hwidth).mpr rfl⟩

theorem revalidation_round_trip {record : RevalidationRecord}
    (h : record.detail.length ≤ kMaxDurableNote) :
    RoundTrips encodeRevalidation decodeRevalidation record := by
  obtain ⟨note, htext, hlen⟩ := note_ok h
  have hencode : ∃ payload, encodeRevalidation record = .ok payload ∧
      payload.length < 2 ^ 64 := by
    refine ⟨_, bind_ok.mpr ⟨note, htext, rfl⟩, ?_⟩
    simp only [List.length_append, ByteWriter.put_length, ByteWriter.u64_length,
      ByteWriter.u8_length, ByteWriter.boolean_length]
    omega
  obtain ⟨payload, hencode, hwidth⟩ := hencode
  exact ⟨payload, hencode, (decodeRevalidation_encoded hencode hwidth).mpr rfl⟩

/-- Whatever the store can be asked to keep comes back as it was, and an accepted policy under the
fingerprint that is computed from it again. -/
theorem durable_round_trip :
    (∀ proposed policy, validatePolicy proposed = .ok policy →
      RoundTrips encodePolicy decodePolicy policy ∧
        fingerprintPolicy policy = policy.fingerprint) ∧
    (∀ topology, validateTopology topology = .ok () →
      RoundTrips encodeTopology decodeTopology topology) ∧
    (∀ capacity, validateCapacity capacity = .ok () →
      RoundTrips encodeCapacity decodeCapacity capacity) ∧
    (∀ state : DomainState, state.domain.valid = true →
      RoundTrips encodeDomainState decodeDomainState state) ∧
    (∀ record : InterventionRecord, record.id.valid = true → record.domain.valid = true →
      RoundTrips encodeIntervention decodeIntervention record) ∧
    (∀ record : FenceRecord, record.id.valid = true → record.publisher.valid = true →
      record.boot.valid = true → record.detail.length ≤ kMaxDurableNote →
      RoundTrips encodeFence decodeFence record) ∧
    (∀ mark : EpochMark, mark.epoch.valid = true → mark.boot.valid = true →
      RoundTrips (fun mark => encodeEpoch mark.epoch mark.boot mark.counter) decodeEpoch mark) ∧
    (∀ entry : HistoryEntry, entry.reason.length ≤ kMaxDurableNote →
      RoundTrips encodeHistory decodeHistory entry) ∧
    (∀ record : AttemptRecord, record.detail.length ≤ kMaxDurableNote →
      RoundTrips encodeAttempt decodeAttempt record) ∧
    (∀ provenance : Provenance, provenance.note.length ≤ kMaxDurableNote →
      RoundTrips encodeProvenance decodeProvenance provenance) ∧
    ∀ record : RevalidationRecord, record.detail.length ≤ kMaxDurableNote →
      RoundTrips encodeRevalidation decodeRevalidation record := by
  refine ⟨fun proposed policy h => ⟨policy_round_trip h, ?_⟩, fun _ h => topology_round_trip h,
    fun _ h => capacity_round_trip h, fun _ h => domainState_round_trip h,
    fun _ hid hdomain => intervention_round_trip hid hdomain,
    fun _ hid hpublisher hboot h => fence_round_trip hid hpublisher hboot h,
    fun mark hepoch hboot => epoch_round_trip mark.counter hepoch hboot,
    fun _ h => history_round_trip h, fun _ h => attempt_round_trip h,
    fun _ h => provenance_round_trip h, fun _ h => revalidation_round_trip h⟩
  rw [(validatePolicy_accepted h).1]
  exact fingerprintPolicy_with proposed _

end Store

end CongestionFabric
