import CongestionFabric.Durability.StrictRecords
import CongestionFabric.Model.PolicyValidation

namespace CongestionFabric

open limits

namespace Store

/-! ### Payloads -/

theorem strict_policy {payload : Bytes} {policy : CongestionPolicy}
    (h : ByteReader.decode readPolicy payload = .ok policy) :
    policy.Declared ∧ encodePolicy policy = .ok payload ↔ policyLayout payload = some [] := by
  apply Takes.strict h
  · apply Takes.field CongestionPolicy.id (.id _)
    intro id
    apply Takes.field CongestionPolicy.version .u32
    intro version
    apply Takes.checked CongestionPolicy.name (.text kMaxPolicyNameBytes)
    intro name
    apply Takes.field CongestionPolicy.fingerprint .hash
    intro fingerprint
    apply Takes.checked CongestionPolicy.rules (.list takes_rule)
    intro rules
    apply Takes.checked CongestionPolicy.hysteresis takes_hysteresis
    intro hysteresis
    apply Takes.checked CongestionPolicy.recovery takes_recovery
    intro recovery
    apply Takes.checked CongestionPolicy.propagation takes_propagation
    intro propagation
    apply Takes.checked CongestionPolicy.freshness takes_freshness
    intro freshness
    apply Takes.checked CongestionPolicy.contradiction takes_contradiction
    intro contradiction
    apply Takes.checked CongestionPolicy.interventions (.list takes_interventionRule)
    intro interventions
    apply Takes.checked CongestionPolicy.limits takes_limits
    intro limits
    apply Takes.field CongestionPolicy.minAgreeingRulesForWatch .u32
    intro minAgreeingRulesForWatch
    apply Takes.field CongestionPolicy.minAgreeingRulesForCongested .u32
    intro minAgreeingRulesForCongested
    apply Takes.last CongestionPolicy.minAgreeingRulesForSevere .u32
    intro minAgreeingRulesForSevere
    simp
  · intro policy
    simp only [encodePolicy, bind_ok, Takes.text_eq_ok, Takes.pure_eq_ok, CongestionPolicy.Declared,
      Takes.putList]
    simp only [List.append_assoc, and_assoc, true_and, and_true]
    constructor
    · rintro ⟨hrules, hpropagation, hcontradiction, hinterventions, name, hbound, hlength, rfl,
        hpayload⟩
      exact ⟨hbound, hlength, hrules, hpropagation, hcontradiction, hinterventions, hpayload⟩
    · rintro ⟨hbound, hlength, hrules, hpropagation, hcontradiction, hinterventions, hpayload⟩
      exact ⟨hrules, hpropagation, hcontradiction, hinterventions, _, hbound, hlength, rfl,
        hpayload⟩

theorem strict_domainState {payload : Bytes} {state : DomainState}
    (h : decodeDomainState payload = .ok state) :
    state.Declared ∧ encodeDomainState state = .ok payload ↔
      domainStateLayout payload = some [] := by
  have hread : ByteReader.decode readDomainState payload = .ok state := by
    simp only [decodeDomainState, bind_ok, refuseIf_ok, exists_const] at h
    obtain ⟨_, hread, _, heq⟩ := h
    obtain rfl := Except.ok.inj heq
    exact hread
  apply Takes.strict hread
  · apply Takes.field DomainState.domain (.id _)
    intro domain
    apply Takes.checked (fun r : DomainState => r.state.toRaw) (.u8Below 8)
    intro state
    apply Takes.checked (fun r : DomainState => r.candidate.toRaw) (.u8Below 8)
    intro candidate
    apply Takes.field DomainState.candidateStreak .u32
    intro candidateStreak
    apply Takes.field DomainState.lastChangeTick .u64
    intro lastChangeTick
    apply Takes.field DomainState.lastAuthoritativeTick .u64
    intro lastAuthoritativeTick
    apply Takes.field DomainState.lastEvaluatedTick .u64
    intro lastEvaluatedTick
    apply Takes.field DomainState.lastEvaluation (.id _)
    intro lastEvaluation
    apply Takes.field DomainState.lastEvidence (.id _)
    intro lastEvidence
    apply Takes.field DomainState.epoch (.id _)
    intro epoch
    apply Takes.field DomainState.topologyGeneration (.id _)
    intro topologyGeneration
    apply Takes.field DomainState.capacityGeneration (.id _)
    intro capacityGeneration
    apply Takes.field DomainState.policy (.id _)
    intro policy
    apply Takes.field DomainState.policyFingerprint .hash
    intro policyFingerprint
    apply Takes.field DomainState.authorityGeneration (.id _)
    intro authorityGeneration
    apply Takes.checked (fun r : DomainState => r.lastCommittedSeverity.toRaw) (.u8Below 4)
    intro lastCommittedSeverity
    apply Takes.field DomainState.transitionCount .u64
    intro transitionCount
    apply Takes.field DomainState.evaluationCount .u64
    intro evaluationCount
    apply Takes.last DomainState.requiresRevalidation .boolean
    intro requiresRevalidation
    simp [CongestionState.toRaw_ofRaw, Severity.toRaw_ofRaw]
  · intro state
    simp only [encodeDomainState, Except.ok.injEq, DomainState.Declared, CongestionState.Declared,
      Severity.Declared]
    simp [and_assoc, eq_comm]

theorem strict_topology {payload : Bytes} {topology : TopologySnapshot}
    (h : decodeTopology payload = .ok topology) :
    topology.Declared ∧ encodeTopology topology = .ok payload ↔
      topologyLayout payload = some [] := by
  have hread : ByteReader.decode readTopology payload = .ok topology := by
    simp only [decodeTopology, bind_ok] at h
    obtain ⟨_, hread, _, _, heq⟩ := h
    obtain rfl := Except.ok.inj heq
    exact hread
  apply Takes.strict hread
  · apply Takes.field TopologySnapshot.id (.id _)
    intro id
    apply Takes.field TopologySnapshot.generation (.id _)
    intro generation
    apply Takes.field TopologySnapshot.epoch (.id _)
    intro epoch
    apply Takes.field TopologySnapshot.observedTick .u64
    intro observedTick
    apply Takes.field TopologySnapshot.fingerprint .hash
    intro fingerprint
    apply Takes.checked TopologySnapshot.resources (.list takes_resource)
    intro resources
    apply Takes.checked TopologySnapshot.links (.list takes_link)
    intro links
    apply Takes.last TopologySnapshot.paths (.list takes_path)
    intro paths
    simp
  · intro topology
    simp only [encodeTopology, Except.ok.injEq, TopologySnapshot.Declared, Takes.putList]
    simp [eq_comm]

theorem strict_capacity {payload : Bytes} {capacity : CapacitySnapshot}
    (h : decodeCapacity payload = .ok capacity) :
    encodeCapacity capacity = .ok payload ↔ capacityLayout payload = some [] := by
  have hread : ByteReader.decode readCapacity payload = .ok capacity := by
    simp only [decodeCapacity, bind_ok] at h
    obtain ⟨_, hread, _, _, heq⟩ := h
    obtain rfl := Except.ok.inj heq
    exact hread
  apply Takes.strict hread
  · apply Takes.field CapacitySnapshot.id (.id _)
    intro id
    apply Takes.field CapacitySnapshot.generation (.id _)
    intro generation
    apply Takes.field CapacitySnapshot.epoch (.id _)
    intro epoch
    apply Takes.field CapacitySnapshot.observedTick .u64
    intro observedTick
    apply Takes.field CapacitySnapshot.fingerprint .hash
    intro fingerprint
    apply Takes.last CapacitySnapshot.entries (.list takes_entry)
    intro entries
    simp
  · intro capacity
    simp only [encodeCapacity, Except.ok.injEq, Takes.putList]
    simp [eq_comm]

theorem strict_intervention {payload : Bytes} {record : InterventionRecord}
    (h : decodeIntervention payload = .ok record) :
    record.Declared ∧ encodeIntervention record = .ok payload ↔
      interventionLayout payload = some [] := by
  have hread : ByteReader.decode readIntervention payload = .ok record := by
    simp only [decodeIntervention, bind_ok, refuseIf_ok, exists_const] at h
    obtain ⟨_, hread, _, heq⟩ := h
    obtain rfl := Except.ok.inj heq
    exact hread
  apply Takes.strict hread
  · apply Takes.field InterventionRecord.id (.id _)
    intro id
    apply Takes.checked (fun r : InterventionRecord => r.kind.toRaw) (.u8Below 10)
    intro kind
    apply Takes.field InterventionRecord.domain (.id _)
    intro domain
    apply Takes.field InterventionRecord.resource (.id _)
    intro resource
    apply Takes.checked (fun r : InterventionRecord => r.basisSeverity.toRaw) (.u8Below 4)
    intro basisSeverity
    apply Takes.field InterventionRecord.evidence (.id _)
    intro evidence
    apply Takes.field InterventionRecord.evaluation (.id _)
    intro evaluation
    apply Takes.field InterventionRecord.epoch (.id _)
    intro epoch
    apply Takes.field InterventionRecord.authorityGeneration (.id _)
    intro authorityGeneration
    apply Takes.field InterventionRecord.policy (.id _)
    intro policy
    apply Takes.field InterventionRecord.provenance (.id _)
    intro provenance
    apply Takes.field InterventionRecord.recordedTick .u64
    intro recordedTick
    apply Takes.last InterventionRecord.parameter .u64
    intro parameter
    simp [InterventionKind.toRaw_ofRaw, Severity.toRaw_ofRaw]
  · intro record
    simp only [encodeIntervention, Except.ok.injEq, InterventionRecord.Declared,
      InterventionKind.Declared, Severity.Declared]
    simp [and_assoc, eq_comm]

theorem strict_fence {payload : Bytes} {record : FenceRecord}
    (h : decodeFence payload = .ok record) :
    record.Declared ∧ encodeFence record = .ok payload ↔ fenceLayout payload = some [] := by
  have hread : ByteReader.decode readFence payload = .ok record := by
    simp only [decodeFence, bind_ok, refuseIf_ok, exists_const] at h
    obtain ⟨_, hread, _, heq⟩ := h
    obtain rfl := Except.ok.inj heq
    exact hread
  apply Takes.strict hread
  · apply Takes.field FenceRecord.id (.id _)
    intro id
    apply Takes.field FenceRecord.epoch (.id _)
    intro epoch
    apply Takes.field FenceRecord.publisher (.id _)
    intro publisher
    apply Takes.field FenceRecord.boot (.id _)
    intro boot
    apply Takes.field FenceRecord.lastGeneration (.id _)
    intro lastGeneration
    apply Takes.checked (fun r : FenceRecord => r.reason.toRaw) (.u8Below 10)
    intro reason
    apply Takes.field FenceRecord.issuedTick .u64
    intro issuedTick
    apply Takes.field FenceRecord.provenance (.id _)
    intro provenance
    apply Takes.last FenceRecord.detail (.text kMaxDurableNote)
    intro detail
    simp [FenceReason.toRaw_ofRaw]
  · intro record
    simp only [encodeFence, bind_ok, Takes.text_eq_ok, Takes.pure_eq_ok, FenceRecord.Declared,
      FenceReason.Declared]
    simp [and_assoc]

theorem strict_history {payload : Bytes} {entry : HistoryEntry}
    (h : decodeHistory payload = .ok entry) :
    entry.Declared ∧ encodeHistory entry = .ok payload ↔ historyLayout payload = some [] := by
  apply Takes.strict h
  · apply Takes.field HistoryEntry.domain (.id _)
    intro domain
    apply Takes.checked (fun r : HistoryEntry => r.fromState.toRaw) (.u8Below 8)
    intro fromState
    apply Takes.checked (fun r : HistoryEntry => r.toState.toRaw) (.u8Below 8)
    intro toState
    apply Takes.field HistoryEntry.tick .u64
    intro tick
    apply Takes.field HistoryEntry.evaluation (.id _)
    intro evaluation
    apply Takes.field HistoryEntry.epoch (.id _)
    intro epoch
    apply Takes.last HistoryEntry.reason (.text kMaxDurableNote)
    intro reason
    simp [CongestionState.toRaw_ofRaw]
  · intro entry
    simp only [encodeHistory, bind_ok, Takes.text_eq_ok, Takes.pure_eq_ok, HistoryEntry.Declared,
      CongestionState.Declared]
    simp [and_assoc]

theorem strict_attempt {payload : Bytes} {record : AttemptRecord}
    (h : decodeAttempt payload = .ok record) :
    record.Declared ∧ encodeAttempt record = .ok payload ↔ attemptLayout payload = some [] := by
  apply Takes.strict h
  · apply Takes.field AttemptRecord.attempt (.id _)
    intro attempt
    apply Takes.field AttemptRecord.transaction (.id _)
    intro transaction
    apply Takes.checked (fun r : AttemptRecord => r.kind.toRaw) (.u16Below 12)
    intro kind
    apply Takes.checked (fun r : AttemptRecord => r.state.toRaw) (.u8Below 9)
    intro state
    apply Takes.field AttemptRecord.epoch (.id _)
    intro epoch
    apply Takes.field AttemptRecord.generation (.id _)
    intro generation
    apply Takes.field AttemptRecord.recordedTick .u64
    intro recordedTick
    apply Takes.field AttemptRecord.provenance (.id _)
    intro provenance
    apply Takes.last AttemptRecord.detail (.text kMaxDurableNote)
    intro detail
    simp [MutationKind.toRaw_ofRaw, AttemptState.toRaw_ofRaw]
  · intro record
    simp only [encodeAttempt, bind_ok, Takes.text_eq_ok, Takes.pure_eq_ok, AttemptRecord.Declared,
      MutationKind.Declared, AttemptState.Declared]
    simp [and_assoc]

theorem strict_provenance {payload : Bytes} {provenance : Provenance}
    (h : decodeProvenance payload = .ok provenance) :
    provenance.Declared ∧ encodeProvenance provenance = .ok payload ↔
      provenanceLayout payload = some [] := by
  apply Takes.strict h
  · apply Takes.field Provenance.id (.id _)
    intro id
    apply Takes.checked (fun r : Provenance => r.kind.toRaw) (.u8Below 10)
    intro kind
    apply Takes.field Provenance.publisher (.id _)
    intro publisher
    apply Takes.field Provenance.boot (.id _)
    intro boot
    apply Takes.field Provenance.epoch (.id _)
    intro epoch
    apply Takes.field Provenance.attempt (.id _)
    intro attempt
    apply Takes.field Provenance.recordedTick .u64
    intro recordedTick
    apply Takes.field Provenance.wall .i64
    intro wall
    apply Takes.last Provenance.note (.text kMaxDurableNote)
    intro note
    simp [ProvenanceKind.toRaw_ofRaw]
  · intro provenance
    simp only [encodeProvenance, bind_ok, Takes.text_eq_ok, Takes.pure_eq_ok, Provenance.Declared,
      ProvenanceKind.Declared]
    simp [and_assoc]

theorem strict_epoch {payload : Bytes} {mark : EpochMark}
    (h : decodeEpoch payload = .ok mark) :
    encodeEpoch mark.epoch mark.boot mark.counter = .ok payload ↔
      epochLayout payload = some [] := by
  simp only [decodeEpoch, bind_ok, refuseIf_ok, exists_const] at h
  obtain ⟨_, hread, _, heq⟩ := h
  obtain rfl := Except.ok.inj heq
  apply Takes.strict hread
  · apply Takes.field EpochMark.epoch (.id _)
    intro epoch
    apply Takes.field EpochMark.boot (.id _)
    intro boot
    apply Takes.last EpochMark.counter .u64
    intro counter
    simp
  · intro mark
    simp only [encodeEpoch, Except.ok.injEq]
    simp [eq_comm]

theorem strict_revalidation {payload : Bytes} {record : RevalidationRecord}
    (h : decodeRevalidation payload = .ok record) :
    record.Declared ∧ encodeRevalidation record = .ok payload ↔
      revalidationLayout payload = some [] := by
  apply Takes.strict h
  · apply Takes.field RevalidationRecord.domain (.id _)
    intro domain
    apply Takes.field RevalidationRecord.previousEpoch (.id _)
    intro previousEpoch
    apply Takes.field RevalidationRecord.epoch (.id _)
    intro epoch
    apply Takes.checked (fun r : RevalidationRecord => r.restoredState.toRaw) (.u8Below 8)
    intro restoredState
    apply Takes.checked (fun r : RevalidationRecord => r.effectiveState.toRaw) (.u8Below 8)
    intro effectiveState
    apply Takes.field RevalidationRecord.stateRestored .boolean
    intro stateRestored
    apply Takes.field RevalidationRecord.authorityRestored .boolean
    intro authorityRestored
    apply Takes.field RevalidationRecord.freshnessRestored .boolean
    intro freshnessRestored
    apply Takes.field RevalidationRecord.recordedTick .u64
    intro recordedTick
    apply Takes.field RevalidationRecord.provenance (.id _)
    intro provenance
    apply Takes.last RevalidationRecord.detail (.text kMaxDurableNote)
    intro detail
    simp [CongestionState.toRaw_ofRaw]
  · intro record
    simp only [encodeRevalidation, bind_ok, Takes.text_eq_ok, Takes.pure_eq_ok,
      RevalidationRecord.Declared, CongestionState.Declared]
    simp [and_assoc]

/-! ### The fingerprint of a policy

A policy comes out of its decoder with the fingerprint of its fields, whatever the payload says. -/

/-- The fields in front of the fingerprint, and the fingerprint. -/
def readFingerprint : ByteReader Hash64 := do
  let _id ← ByteReader.id .policy
  let _version ← ByteReader.u32
  let _name ← ByteReader.text kMaxPolicyNameBytes
  ByteReader.hash

theorem readFingerprint_read {data rest : Bytes} {policy : CongestionPolicy}
    (h : readPolicy data = .ok (policy, rest)) :
    ∃ after, readFingerprint data = .ok (policy.fingerprint, after) := by
  simp only [readPolicy, ByteReader.bind_eq_ok] at h
  obtain ⟨id, _, hid, version, _, hversion, name, _, hname, fingerprint, after, hfingerprint, rules,
    _, _, hysteresis, _, _, recovery, _, _, propagation, _, _, freshness, _, _, contradiction, _, _,
    interventions, _, _, limits, _, _, watch, _, _, congested, _, _, severe, _, _, h⟩ := h
  obtain ⟨rfl, _⟩ := Prod.mk.inj (Except.ok.inj h)
  exact ⟨after, Takes.bind_ok hid (Takes.bind_ok hversion (Takes.bind_ok hname hfingerprint))⟩

theorem readFingerprint_encoded {payload : Bytes} {policy : CongestionPolicy}
    (h : encodePolicy policy = .ok payload) :
    ∃ after, readFingerprint payload = .ok (policy.fingerprint, after) := by
  simp only [encodePolicy, bind_ok, Takes.text_eq_ok, Takes.pure_eq_ok] at h
  obtain ⟨_, ⟨⟨hbound, hlength⟩, rfl⟩, rfl⟩ := h
  simp only [List.append_assoc]
  have hid : ∀ rest, ByteReader.id _ (policy.id.put ++ rest) = .ok (policy.id, rest) :=
    fun rest => Takes.bind_ok (ByteReader.u64_append policy.id.value rest) rfl
  have hhash : ∀ rest, ByteReader.hash (ByteWriter.u64 policy.fingerprint.value ++ rest) =
      .ok (policy.fingerprint, rest) :=
    fun rest => Takes.bind_ok (ByteReader.u64_append policy.fingerprint.value rest) rfl
  exact ⟨_, Takes.bind_ok (hid _) (Takes.bind_ok (ByteReader.u32_append _ _)
    (Takes.bind_ok (Takes.text_append hbound hlength _) (hhash _)))⟩

/-- A policy has its payload for its encoding exactly when the payload is strict and bears the
fingerprint of its fields. -/
theorem strict_decodePolicy {payload : Bytes} {policy : CongestionPolicy}
    (h : decodePolicy payload = .ok policy) :
    policy.Declared ∧ encodePolicy policy = .ok payload ↔ policyLayout payload = some [] ∧
      ∀ stored, ByteReader.decode readPolicy payload = .ok stored →
        stored.fingerprint = fingerprintPolicy stored := by
  obtain ⟨stored, hread, hvalid⟩ := bind_ok.mp h
  obtain ⟨haccepted, _⟩ := validatePolicy_accepted hvalid
  have hstrict := strict_policy hread
  constructor
  · rintro ⟨hdeclared, hencode⟩
    have hfingerprint : stored.fingerprint = fingerprintPolicy stored := by
      obtain ⟨after, hwritten⟩ := readFingerprint_encoded hencode
      obtain ⟨rest, hstored⟩ := Takes.decode_read hread
      obtain ⟨after', hfound⟩ := readFingerprint_read hstored
      rw [hwritten] at hfound
      have hsame := (Prod.mk.inj (Except.ok.inj hfound)).1
      rw [haccepted] at hsame
      exact hsame.symm
    have hsame : policy = stored := by
      rw [haccepted, ← hfingerprint]
    refine ⟨hstrict.mp (hsame ▸ ⟨hdeclared, hencode⟩), fun other hother => ?_⟩
    obtain rfl : stored = other := Except.ok.inj (hread.symm.trans hother)
    exact hfingerprint
  · rintro ⟨hlayout, hfingerprint⟩
    have hsame : policy = stored := by
      rw [haccepted, ← hfingerprint stored hread]
    rw [hsame]
    exact hstrict.mpr hlayout

end Store

/-! ### All payloads -/

def Mutation.Declared : Mutation → Prop
  | .policySet policy => policy.Declared
  | .topologySet topology => topology.Declared
  | .domainState state => state.Declared
  | .intervention record => record.Declared
  | .fence record => record.Declared
  | .revalidation record => record.Declared
  | .historyAppend entry => entry.Declared
  | .attemptRecord record => record.Declared
  | .provenanceAppend provenance => provenance.Declared
  | .capacitySet _ | .epochAdvance _ => True

/-- The encoder of each kind of payload. -/
def Mutation.encode : Mutation → Result Bytes
  | .policySet policy => Store.encodePolicy policy
  | .topologySet topology => Store.encodeTopology topology
  | .capacitySet capacity => Store.encodeCapacity capacity
  | .domainState state => Store.encodeDomainState state
  | .intervention record => Store.encodeIntervention record
  | .fence record => Store.encodeFence record
  | .epochAdvance mark => Store.encodeEpoch mark.epoch mark.boot mark.counter
  | .revalidation record => Store.encodeRevalidation record
  | .historyAppend entry => Store.encodeHistory entry
  | .attemptRecord record => Store.encodeAttempt record
  | .provenanceAppend provenance => Store.encodeProvenance provenance

def MutationKind.layout : MutationKind → Layout
  | .policySet => Store.policyLayout
  | .topologySet => Store.topologyLayout
  | .capacitySet => Store.capacityLayout
  | .domainState => Store.domainStateLayout
  | .intervention => Store.interventionLayout
  | .fence => Store.fenceLayout
  | .epochAdvance => Store.epochLayout
  | .revalidation => Store.revalidationLayout
  | .historyAppend => Store.historyLayout
  | .attemptRecord => Store.attemptLayout
  | .provenanceAppend => Store.provenanceLayout
  | .unknown | .count | .undeclared _ _ => fun _ => none

/-- The payload is of the layout of its kind from its first byte to its last: every enumeration has
a declared value, every boolean is zero or one, nothing follows. A policy bears the fingerprint of
its fields. -/
structure StrictPayload (kind : MutationKind) (payload : Bytes) : Prop where
  layout : kind.layout payload = some []
  fingerprint : kind = .policySet → ∀ stored,
    ByteReader.decode Store.readPolicy payload = .ok stored →
      stored.fingerprint = fingerprintPolicy stored

theorem strictPayload_iff {kind : MutationKind} (h : kind ≠ .policySet) (payload : Bytes) :
    StrictPayload kind payload ↔ kind.layout payload = some [] :=
  ⟨fun hstrict => hstrict.layout, fun hlayout => ⟨hlayout, fun hkind => absurd hkind h⟩⟩

/-- A payload that is accepted holds declared values and is the encoding of what it decodes to
exactly when it is strict. -/
theorem decodeBody_strict_iff {kind : MutationKind} {payload : Bytes} {mutation : Mutation}
    (h : decodeBody kind payload = .ok mutation) :
    (mutation.Declared ∧ mutation.encode = .ok payload) ↔ StrictPayload kind payload := by
  cases kind with
  | policySet =>
    obtain ⟨policy, hdecode, hmutation⟩ := bind_ok.mp h
    obtain rfl := Except.ok.inj hmutation
    have hstrict := Store.strict_decodePolicy hdecode
    refine hstrict.trans ⟨fun ⟨hlayout, hfingerprint⟩ => ⟨hlayout, fun _ => hfingerprint⟩, ?_⟩
    exact fun hpayload => ⟨hpayload.layout, hpayload.fingerprint rfl⟩
  | topologySet =>
    obtain ⟨topology, hdecode, hmutation⟩ := bind_ok.mp h
    obtain rfl := Except.ok.inj hmutation
    rw [strictPayload_iff (by decide)]
    exact Store.strict_topology hdecode
  | capacitySet =>
    obtain ⟨capacity, hdecode, hmutation⟩ := bind_ok.mp h
    obtain rfl := Except.ok.inj hmutation
    rw [strictPayload_iff (by decide)]
    exact (iff_of_eq (true_and _)).trans (Store.strict_capacity hdecode)
  | domainState =>
    obtain ⟨state, hdecode, hmutation⟩ := bind_ok.mp h
    obtain rfl := Except.ok.inj hmutation
    rw [strictPayload_iff (by decide)]
    exact Store.strict_domainState hdecode
  | intervention =>
    obtain ⟨record, hdecode, hmutation⟩ := bind_ok.mp h
    obtain rfl := Except.ok.inj hmutation
    rw [strictPayload_iff (by decide)]
    exact Store.strict_intervention hdecode
  | fence =>
    obtain ⟨record, hdecode, hmutation⟩ := bind_ok.mp h
    obtain rfl := Except.ok.inj hmutation
    rw [strictPayload_iff (by decide)]
    exact Store.strict_fence hdecode
  | epochAdvance =>
    obtain ⟨mark, hdecode, hmutation⟩ := bind_ok.mp h
    obtain rfl := Except.ok.inj hmutation
    rw [strictPayload_iff (by decide)]
    exact (iff_of_eq (true_and _)).trans (Store.strict_epoch hdecode)
  | revalidation =>
    obtain ⟨record, hdecode, hmutation⟩ := bind_ok.mp h
    obtain rfl := Except.ok.inj hmutation
    rw [strictPayload_iff (by decide)]
    exact Store.strict_revalidation hdecode
  | historyAppend =>
    obtain ⟨entry, hdecode, hmutation⟩ := bind_ok.mp h
    obtain rfl := Except.ok.inj hmutation
    rw [strictPayload_iff (by decide)]
    exact Store.strict_history hdecode
  | attemptRecord =>
    obtain ⟨record, hdecode, hmutation⟩ := bind_ok.mp h
    obtain rfl := Except.ok.inj hmutation
    rw [strictPayload_iff (by decide)]
    exact Store.strict_attempt hdecode
  | provenanceAppend =>
    obtain ⟨provenance, hdecode, hmutation⟩ := bind_ok.mp h
    obtain rfl := Except.ok.inj hmutation
    rw [strictPayload_iff (by decide)]
    exact Store.strict_provenance hdecode
  | unknown => cases h
  | count => cases h
  | undeclared raw hraw => cases h

def firstMark : Store.EpochMark := { epoch := ⟨1⟩, boot := ⟨1⟩ }

def firstMarkBytes : Bytes := ByteWriter.u64 1 ++ ByteWriter.u64 1 ++ ByteWriter.u64 0

theorem decodeBody_strict_firstMark : (Mutation.epochAdvance firstMark).Declared ∧
    (Mutation.epochAdvance firstMark).encode = .ok firstMarkBytes := by
  have hdecode : decodeBody .epochAdvance firstMarkBytes = .ok (.epochAdvance firstMark) := by rfl
  have hlayout : MutationKind.epochAdvance.layout firstMarkBytes = some [] := by decide
  exact (decodeBody_strict_iff hdecode).mpr ⟨hlayout, nofun⟩

/-- A byte behind the last field is not noticed. -/
theorem trailing_byte_accepted : ∃ mutation,
    decodeBody .epochAdvance (firstMarkBytes ++ [0]) = .ok mutation ∧
      ¬(mutation.Declared ∧ mutation.encode = .ok (firstMarkBytes ++ [0])) := by
  refine ⟨.epochAdvance firstMark, rfl, fun hstrict => ?_⟩
  have hbytes : firstMarkBytes = firstMarkBytes ++ [0] := Except.ok.inj hstrict.2
  exact absurd (congrArg List.length hbytes) (by decide)

end CongestionFabric
