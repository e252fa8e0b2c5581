import CongestionFabric.Durability.Codec
import CongestionFabric.Durability.Document

namespace CongestionFabric

open ByteWriter limits

def StrongId.put {tag : IdTag} (id : StrongId tag) : Bytes := u64 id.value

namespace ByteReader

def id (tag : IdTag) : ByteReader (StrongId tag) := do return ⟨← u64⟩
def hash : ByteReader Hash64 := do return ⟨← u64⟩

end ByteReader

namespace Store

def putRule (rule : ThresholdRule) : Bytes :=
  u16 rule.metric.toRaw ++ u8 rule.op.toRaw ++ u64 rule.watch ++ u64 rule.congested ++
    u64 rule.severe ++ boolean rule.required ++ u64 rule.maxAgeTicks ++ u32 rule.weight

def putInterventionRule (rule : InterventionRule) : Bytes :=
  u8 rule.atLeast.toRaw ++ u8 rule.kind.toRaw ++ rule.targetClass.put ++ rule.targetDomain.put ++
    boolean rule.requireFreshEvidence ++ boolean rule.requireAuthoritativeState ++
    u64 rule.parameterMin ++ u64 rule.parameterMax ++ u64 rule.parameterDefault ++
    u32 rule.priority ++ u64 rule.minRepeatIntervalTicks

def putHysteresis (p : HysteresisPolicy) : Bytes :=
  u32 p.escalateSamples ++ u32 p.deescalateSamples ++ u64 p.minDwellTicks ++
    u32 p.downgradeMarginPpm ++ boolean p.requireAllRulesAgreeOnDowngrade ++
    boolean p.applyDwellOnEscalation

def putRecovery (p : RecoveryPolicy) : Bytes :=
  boolean p.enabled ++ u32 p.minImprovedSamples ++ boolean p.allowSingleSample ++
    u32 p.clearSamples ++ u64 p.recoveringHoldTicks

def putPropagation (p : PropagationPolicy) : Bytes :=
  boolean p.enabled ++ u32 p.maxDepth ++ u32 p.decayPpm ++ u8 p.maxInducedSeverity.toRaw ++
    boolean p.followLinks ++ boolean p.followPaths ++ u32 p.minPressurePpm

def putFreshness (p : FreshnessPolicy) : Bytes :=
  u64 p.defaultMaxAgeTicks ++ u64 p.maxFutureSkewTicks ++ boolean p.heartbeatRefreshesFreshness

def putContradiction (p : ContradictionPolicy) : Bytes :=
  u8 p.mode.toRaw ++ u64 p.absoluteTolerance ++ u32 p.relativeTolerancePpm ++
    u64 p.minDistinctPublishers ++ size p.priorityOrder.length ++
    p.priorityOrder.flatMap StrongId.put

def putLimits (p : PolicyLimits) : Bytes :=
  u64 p.maxResourcesPerDomain ++ u64 p.maxMetricsPerSample ++ u64 p.maxPathsConsidered ++
    u32 p.maxDomainDepth ++ u64 p.maxExplanationEntries ++ u64 p.maxInterventionsPerPlan ++
    u64 p.maxConflictReports ++ u64 p.maxStaleReports

def encodePolicy (policy : CongestionPolicy) : Result Bytes := do
  let name ← ByteWriter.text policy.name kMaxPolicyNameBytes
  return policy.id.put ++ u32 policy.version ++ name ++ u64 policy.fingerprint.value ++
    size policy.rules.length ++ policy.rules.flatMap putRule ++
    putHysteresis policy.hysteresis ++ putRecovery policy.recovery ++
    putPropagation policy.propagation ++ putFreshness policy.freshness ++
    putContradiction policy.contradiction ++
    size policy.interventions.length ++ policy.interventions.flatMap putInterventionRule ++
    putLimits policy.limits ++ u32 policy.minAgreeingRulesForWatch ++
    u32 policy.minAgreeingRulesForCongested ++ u32 policy.minAgreeingRulesForSevere

def encodeDomainState (state : DomainState) : Result Bytes :=
  .ok (state.domain.put ++ u8 state.state.toRaw ++ u8 state.candidate.toRaw ++
    u32 state.candidateStreak ++ u64 state.lastChangeTick ++ u64 state.lastAuthoritativeTick ++
    u64 state.lastEvaluatedTick ++ state.lastEvaluation.put ++ state.lastEvidence.put ++
    state.epoch.put ++ state.topologyGeneration.put ++ state.capacityGeneration.put ++
    state.policy.put ++ u64 state.policyFingerprint.value ++ state.authorityGeneration.put ++
    u8 state.lastCommittedSeverity.toRaw ++ u64 state.transitionCount ++
    u64 state.evaluationCount ++ boolean state.requiresRevalidation)

def putResource (record : ResourceRecord) : Bytes :=
  record.id.put ++ record.domain.put ++ record.parent.put ++ record.servingClass.put ++
    u8 record.kind.toRaw ++ u32 record.depth ++ u64 record.nominalCapacityBps ++ u32 record.flags

def putLink (link : LinkRecord) : Bytes :=
  link.id.put ++ link.fromId.put ++ link.toId.put ++ u64 link.capacityBps ++
    u64 link.latencyMicros ++ u32 link.weight

def putPath (path : PathRecord) : Bytes :=
  path.id.put ++ u64 path.capacityBps ++ u32 path.flags ++ size path.hops.length ++
    path.hops.flatMap StrongId.put

def encodeTopology (topology : TopologySnapshot) : Result Bytes :=
  .ok (topology.id.put ++ topology.generation.put ++ topology.epoch.put ++
    u64 topology.observedTick ++ u64 topology.fingerprint.value ++
    size topology.resources.length ++ topology.resources.flatMap putResource ++
    size topology.links.length ++ topology.links.flatMap putLink ++
    size topology.paths.length ++ topology.paths.flatMap putPath)

def putEntry (entry : CapacityEntry) : Bytes :=
  entry.resource.put ++ u64 entry.capacityBps ++ u64 entry.residualBps ++ u64 entry.admissibleBps

def encodeCapacity (capacity : CapacitySnapshot) : Result Bytes :=
  .ok (capacity.id.put ++ capacity.generation.put ++ capacity.epoch.put ++
    u64 capacity.observedTick ++ u64 capacity.fingerprint.value ++
    size capacity.entries.length ++ capacity.entries.flatMap putEntry)

def encodeIntervention (record : InterventionRecord) : Result Bytes :=
  .ok (record.id.put ++ u8 record.kind.toRaw ++ record.domain.put ++ record.resource.put ++
    u8 record.basisSeverity.toRaw ++ record.evidence.put ++ record.evaluation.put ++
    record.epoch.put ++ record.authorityGeneration.put ++ record.policy.put ++
    record.provenance.put ++ u64 record.recordedTick ++ u64 record.parameter)

def encodeFence (record : FenceRecord) : Result Bytes := do
  let detail ← ByteWriter.text record.detail kMaxDurableNote
  return record.id.put ++ record.epoch.put ++ record.publisher.put ++ record.boot.put ++
    record.lastGeneration.put ++ u8 record.reason.toRaw ++ u64 record.issuedTick ++
    record.provenance.put ++ detail

def encodeHistory (entry : HistoryEntry) : Result Bytes := do
  let reason ← ByteWriter.text entry.reason kMaxDurableNote
  return entry.domain.put ++ u8 entry.fromState.toRaw ++ u8 entry.toState.toRaw ++
    u64 entry.tick ++ entry.evaluation.put ++ entry.epoch.put ++ reason

def encodeAttempt (record : AttemptRecord) : Result Bytes := do
  let detail ← ByteWriter.text record.detail kMaxDurableNote
  return record.attempt.put ++ record.transaction.put ++ u16 record.kind.toRaw ++
    u8 record.state.toRaw ++ record.epoch.put ++ record.generation.put ++
    u64 record.recordedTick ++ record.provenance.put ++ detail

def encodeProvenance (provenance : Provenance) : Result Bytes := do
  let note ← ByteWriter.text provenance.note kMaxDurableNote
  return provenance.id.put ++ u8 provenance.kind.toRaw ++ provenance.publisher.put ++
    provenance.boot.put ++ provenance.epoch.put ++ provenance.attempt.put ++
    u64 provenance.recordedTick ++ i64 provenance.wall ++ note

def encodeEpoch (epoch : EpochId) (boot : BootId) (bootCounter : UInt64) : Result Bytes :=
  .ok (epoch.put ++ boot.put ++ u64 bootCounter)

def encodeRevalidation (record : RevalidationRecord) : Result Bytes := do
  let detail ← ByteWriter.text record.detail kMaxDurableNote
  return record.domain.put ++ record.previousEpoch.put ++ record.epoch.put ++
    u8 record.restoredState.toRaw ++ u8 record.effectiveState.toRaw ++
    boolean record.stateRestored ++ boolean record.authorityRestored ++
    boolean record.freshnessRestored ++ u64 record.recordedTick ++ record.provenance.put ++ detail

end Store

namespace Store

open ByteReader

def readRule : ByteReader ThresholdRule := do
  return {
    metric := MetricKind.ofRaw (← u16), op := ThresholdOp.ofRaw (← u8), watch := ← u64
    congested := ← u64, severe := ← u64, required := ← boolean, maxAgeTicks := ← u64
    weight := ← u32 }

def readInterventionRule : ByteReader InterventionRule := do
  return {
    atLeast := Severity.ofRaw (← u8), kind := InterventionKind.ofRaw (← u8)
    targetClass := ← ByteReader.id _, targetDomain := ← ByteReader.id _
    requireFreshEvidence := ← boolean, requireAuthoritativeState := ← boolean
    parameterMin := ← u64, parameterMax := ← u64, parameterDefault := ← u64
    priority := ← u32, minRepeatIntervalTicks := ← u64 }

def readHysteresis : ByteReader HysteresisPolicy := do
  return {
    escalateSamples := ← u32, deescalateSamples := ← u32, minDwellTicks := ← u64
    downgradeMarginPpm := ← u32, requireAllRulesAgreeOnDowngrade := ← boolean
    applyDwellOnEscalation := ← boolean }

def readRecovery : ByteReader RecoveryPolicy := do
  return {
    enabled := ← boolean, minImprovedSamples := ← u32, allowSingleSample := ← boolean
    clearSamples := ← u32, recoveringHoldTicks := ← u64 }

def readPropagation : ByteReader PropagationPolicy := do
  return {
    enabled := ← boolean, maxDepth := ← u32, decayPpm := ← u32
    maxInducedSeverity := Severity.ofRaw (← u8), followLinks := ← boolean
    followPaths := ← boolean, minPressurePpm := ← u32 }

def readFreshness : ByteReader FreshnessPolicy := do
  return {
    defaultMaxAgeTicks := ← u64, maxFutureSkewTicks := ← u64
    heartbeatRefreshesFreshness := ← boolean }

def readContradiction : ByteReader ContradictionPolicy := do
  return {
    mode := ContradictionMode.ofRaw (← u8), absoluteTolerance := ← u64
    relativeTolerancePpm := ← u32, minDistinctPublishers := ← u64
    priorityOrder := ← listOf kMaxPublishers
      "durable policy declares too many priority publishers" (ByteReader.id .publisher) }

def readLimits : ByteReader PolicyLimits := do
  return {
    maxResourcesPerDomain := ← u64, maxMetricsPerSample := ← u64, maxPathsConsidered := ← u64
    maxDomainDepth := ← u32, maxExplanationEntries := ← u64, maxInterventionsPerPlan := ← u64
    maxConflictReports := ← u64, maxStaleReports := ← u64 }

def readPolicy : ByteReader CongestionPolicy := do
  return {
    id := ← ByteReader.id _, version := ← u32, name := ← ByteReader.text kMaxPolicyNameBytes
    fingerprint := ← hash
    rules := ← listOf kMaxThresholdRules "durable policy declares too many threshold rules" readRule
    hysteresis := ← readHysteresis, recovery := ← readRecovery, propagation := ← readPropagation
    freshness := ← readFreshness, contradiction := ← readContradiction
    interventions := ← listOf kMaxInterventionRules
      "durable policy declares too many intervention rules" readInterventionRule
    limits := ← readLimits, minAgreeingRulesForWatch := ← u32
    minAgreeingRulesForCongested := ← u32, minAgreeingRulesForSevere := ← u32 }

def decodePolicy (payload : Bytes) : Result CongestionPolicy := do
  validatePolicy (← decode readPolicy payload)

def readDomainState : ByteReader DomainState := do
  return {
    domain := ← ByteReader.id _, state := CongestionState.ofRaw (← u8)
    candidate := CongestionState.ofRaw (← u8), candidateStreak := ← u32, lastChangeTick := ← u64
    lastAuthoritativeTick := ← u64, lastEvaluatedTick := ← u64, lastEvaluation := ← ByteReader.id _
    lastEvidence := ← ByteReader.id _, epoch := ← ByteReader.id _
    topologyGeneration := ← ByteReader.id _, capacityGeneration := ← ByteReader.id _
    policy := ← ByteReader.id _, policyFingerprint := ← hash
    authorityGeneration := ← ByteReader.id _, lastCommittedSeverity := Severity.ofRaw (← u8)
    transitionCount := ← u64, evaluationCount := ← u64, requiresRevalidation := ← boolean }

def decodeDomainState (payload : Bytes) : Result DomainState := do
  let state ← decode readDomainState payload
  refuseIf (¬state.domain.valid) .malformed "durable domain state has no domain identity"
  return state

def readResource : ByteReader ResourceRecord := do
  return {
    id := ← ByteReader.id _, domain := ← ByteReader.id _, parent := ← ByteReader.id _
    servingClass := ← ByteReader.id _, kind := ResourceKind.ofRaw (← u8), depth := ← u32
    nominalCapacityBps := ← u64, flags := ← u32 }

def readLink : ByteReader LinkRecord := do
  return {
    id := ← ByteReader.id _, fromId := ← ByteReader.id _, toId := ← ByteReader.id _
    capacityBps := ← u64, latencyMicros := ← u64, weight := ← u32 }

def readPath : ByteReader PathRecord := do
  return {
    id := ← ByteReader.id _, capacityBps := ← u64, flags := ← u32
    hops := ← listOf kMaxResourcesPerPath "durable path declares too many hops"
      (ByteReader.id .resource) }

def readTopology : ByteReader TopologySnapshot := do
  return {
    id := ← ByteReader.id _, generation := ← ByteReader.id _, epoch := ← ByteReader.id _
    observedTick := ← u64, fingerprint := ← hash
    resources := ← listOf kMaxResourcesPerFabric "durable topology declares too many resources"
      readResource
    links := ← listOf kMaxLinksPerTopology "durable topology declares too many links" readLink
    paths := ← listOf kMaxPathsPerTopology "durable topology declares too many paths" readPath }

def decodeTopology (payload : Bytes) : Result TopologySnapshot := do
  let topology ← decode readTopology payload
  validateTopology topology
  return topology

def readEntry : ByteReader CapacityEntry := do
  return {
    resource := ← ByteReader.id _, capacityBps := ← u64, residualBps := ← u64
    admissibleBps := ← u64 }

def readCapacity : ByteReader CapacitySnapshot := do
  return {
    id := ← ByteReader.id _, generation := ← ByteReader.id _, epoch := ← ByteReader.id _
    observedTick := ← u64, fingerprint := ← hash
    entries := ← listOf kMaxResourcesPerFabric
      "durable capacity snapshot declares too many entries" readEntry }

def decodeCapacity (payload : Bytes) : Result CapacitySnapshot := do
  let capacity ← decode readCapacity payload
  validateCapacity capacity
  return capacity

def readIntervention : ByteReader InterventionRecord := do
  return {
    id := ← ByteReader.id _, kind := InterventionKind.ofRaw (← u8), domain := ← ByteReader.id _
    resource := ← ByteReader.id _, basisSeverity := Severity.ofRaw (← u8)
    evidence := ← ByteReader.id _, evaluation := ← ByteReader.id _, epoch := ← ByteReader.id _
    authorityGeneration := ← ByteReader.id _, policy := ← ByteReader.id _
    provenance := ← ByteReader.id _, recordedTick := ← u64, parameter := ← u64 }

def decodeIntervention (payload : Bytes) : Result InterventionRecord := do
  let record ← decode readIntervention payload
  refuseIf (¬record.id.valid ∨ ¬record.domain.valid) .malformed
    "durable intervention record is missing its identity"
  return record

def readFence : ByteReader FenceRecord := do
  return {
    id := ← ByteReader.id _, epoch := ← ByteReader.id _, publisher := ← ByteReader.id _
    boot := ← ByteReader.id _, lastGeneration := ← ByteReader.id _
    reason := FenceReason.ofRaw (← u8), issuedTick := ← u64, provenance := ← ByteReader.id _
    detail := ← ByteReader.text kMaxDurableNote }

def decodeFence (payload : Bytes) : Result FenceRecord := do
  let record ← decode readFence payload
  refuseIf (¬record.id.valid ∨ ¬record.publisher.valid ∨ ¬record.boot.valid) .malformed
    "durable fence record is missing its identity"
  return record

def decodeHistory : Bytes → Result HistoryEntry := decode do
  return {
    domain := ← ByteReader.id _, fromState := CongestionState.ofRaw (← u8)
    toState := CongestionState.ofRaw (← u8), tick := ← u64, evaluation := ← ByteReader.id _
    epoch := ← ByteReader.id _, reason := ← ByteReader.text kMaxDurableNote }

def decodeAttempt : Bytes → Result AttemptRecord := decode do
  return {
    attempt := ← ByteReader.id _, transaction := ← ByteReader.id _
    kind := MutationKind.ofRaw (← u16), state := AttemptState.ofRaw (← u8)
    epoch := ← ByteReader.id _, generation := ← ByteReader.id _, recordedTick := ← u64
    provenance := ← ByteReader.id _, detail := ← ByteReader.text kMaxDurableNote }

def decodeProvenance : Bytes → Result Provenance := decode do
  return {
    id := ← ByteReader.id _, kind := ProvenanceKind.ofRaw (← u8), publisher := ← ByteReader.id _
    boot := ← ByteReader.id _, epoch := ← ByteReader.id _, attempt := ← ByteReader.id _
    recordedTick := ← u64, wall := ← i64, note := ← ByteReader.text kMaxDurableNote }

structure EpochMark where
  epoch : EpochId := {}
  boot : BootId := {}
  counter : UInt64 := 0

def decodeEpoch (payload : Bytes) : Result EpochMark := do
  let mark : EpochMark ← decode (do
    return { epoch := ← ByteReader.id _, boot := ← ByteReader.id _, counter := ← u64 }) payload
  refuseIf (¬mark.epoch.valid ∨ ¬mark.boot.valid) .malformed
    "durable epoch record is missing its identity"
  return mark

def decodeRevalidation : Bytes → Result RevalidationRecord := decode do
  return {
    domain := ← ByteReader.id _, previousEpoch := ← ByteReader.id _, epoch := ← ByteReader.id _
    restoredState := CongestionState.ofRaw (← u8), effectiveState := CongestionState.ofRaw (← u8)
    stateRestored := ← boolean, authorityRestored := ← boolean, freshnessRestored := ← boolean
    recordedTick := ← u64, provenance := ← ByteReader.id _
    detail := ← ByteReader.text kMaxDurableNote }

end Store

end CongestionFabric
