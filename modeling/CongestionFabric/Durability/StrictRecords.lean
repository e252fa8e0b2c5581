import CongestionFabric.Durability.Store
import CongestionFabric.Durability.StrictReading
import CongestionFabric.Model.RawEnums

namespace CongestionFabric

open limits

/-! ### Declared values in records -/

def MutationKind.Declared (e : MutationKind) : Prop := e.toRaw.toNat < 12

theorem MutationKind.toRaw_ofRaw (raw : UInt16) : (MutationKind.ofRaw raw).toRaw = raw := by
  apply raw16_back 13 (by decide)
  intro raw h
  rw [ofRaw, dif_neg (Nat.not_lt.mpr h), toRaw]

def ThresholdRule.Declared (rule : ThresholdRule) : Prop :=
  rule.metric.Declared ∧ rule.op.Declared

def InterventionRule.Declared (rule : InterventionRule) : Prop :=
  rule.atLeast.Declared ∧ rule.kind.Declared

def PropagationPolicy.Declared (p : PropagationPolicy) : Prop := p.maxInducedSeverity.Declared

def ContradictionPolicy.Declared (p : ContradictionPolicy) : Prop := p.mode.Declared

def ResourceRecord.Declared (record : ResourceRecord) : Prop := record.kind.Declared

def CongestionPolicy.Declared (policy : CongestionPolicy) : Prop :=
  (∀ rule ∈ policy.rules, rule.Declared) ∧ policy.propagation.Declared ∧
    policy.contradiction.Declared ∧ ∀ rule ∈ policy.interventions, rule.Declared

def DomainState.Declared (state : DomainState) : Prop :=
  state.state.Declared ∧ state.candidate.Declared ∧ state.lastCommittedSeverity.Declared

def TopologySnapshot.Declared (topology : TopologySnapshot) : Prop :=
  ∀ record ∈ topology.resources, record.Declared

def InterventionRecord.Declared (record : InterventionRecord) : Prop :=
  record.kind.Declared ∧ record.basisSeverity.Declared

def FenceRecord.Declared (record : FenceRecord) : Prop := record.reason.Declared

def HistoryEntry.Declared (entry : HistoryEntry) : Prop :=
  entry.fromState.Declared ∧ entry.toState.Declared

def AttemptRecord.Declared (record : AttemptRecord) : Prop :=
  record.kind.Declared ∧ record.state.Declared

def Provenance.Declared (provenance : Provenance) : Prop := provenance.kind.Declared

def RevalidationRecord.Declared (record : RevalidationRecord) : Prop :=
  record.restoredState.Declared ∧ record.effectiveState.Declared

namespace Store

/-! ### Layouts

The bytes that the writers write, field by field, with the declared values of each enumeration. -/

def ruleLayout : Layout := .all
  [.below 2 20, .below 1 2, .fixed 8, .fixed 8, .fixed 8, .boolean, .fixed 8, .fixed 4]

def interventionRuleLayout : Layout := .all
  [.below 1 4, .below 1 10, .fixed 8, .fixed 8, .boolean, .boolean, .fixed 8, .fixed 8, .fixed 8,
    .fixed 4, .fixed 8]

def hysteresisLayout : Layout := .all [.fixed 4, .fixed 4, .fixed 8, .fixed 4, .boolean, .boolean]

def recoveryLayout : Layout := .all [.boolean, .fixed 4, .boolean, .fixed 4, .fixed 8]

def propagationLayout : Layout := .all
  [.boolean, .fixed 4, .fixed 4, .below 1 4, .boolean, .boolean, .fixed 4]

def freshnessLayout : Layout := .all [.fixed 8, .fixed 8, .boolean]

def contradictionLayout : Layout := .all
  [.below 1 3, .fixed 8, .fixed 4, .fixed 8, .list kMaxPublishers (.fixed 8)]

def limitsLayout : Layout := .all
  [.fixed 8, .fixed 8, .fixed 8, .fixed 4, .fixed 8, .fixed 8, .fixed 8, .fixed 8]

def resourceLayout : Layout := .all
  [.fixed 8, .fixed 8, .fixed 8, .fixed 8, .below 1 8, .fixed 4, .fixed 8, .fixed 4]

def linkLayout : Layout := .all [.fixed 8, .fixed 8, .fixed 8, .fixed 8, .fixed 8, .fixed 4]

def pathLayout : Layout := .all
  [.fixed 8, .fixed 8, .fixed 4, .list kMaxResourcesPerPath (.fixed 8)]

def entryLayout : Layout := .all [.fixed 8, .fixed 8, .fixed 8, .fixed 8]

def policyLayout : Layout := .all
  [.fixed 8, .fixed 4, .text kMaxPolicyNameBytes, .fixed 8, .list kMaxThresholdRules ruleLayout,
    hysteresisLayout, recoveryLayout, propagationLayout, freshnessLayout, contradictionLayout,
    .list kMaxInterventionRules interventionRuleLayout, limitsLayout, .fixed 4, .fixed 4, .fixed 4]

def domainStateLayout : Layout := .all
  [.fixed 8, .below 1 8, .below 1 8, .fixed 4, .fixed 8, .fixed 8, .fixed 8, .fixed 8, .fixed 8,
    .fixed 8, .fixed 8, .fixed 8, .fixed 8, .fixed 8, .fixed 8, .below 1 4, .fixed 8, .fixed 8,
    .boolean]

def topologyLayout : Layout := .all
  [.fixed 8, .fixed 8, .fixed 8, .fixed 8, .fixed 8, .list kMaxResourcesPerFabric resourceLayout,
    .list kMaxLinksPerTopology linkLayout, .list kMaxPathsPerTopology pathLayout]

def capacityLayout : Layout := .all
  [.fixed 8, .fixed 8, .fixed 8, .fixed 8, .fixed 8, .list kMaxResourcesPerFabric entryLayout]

def interventionLayout : Layout := .all
  [.fixed 8, .below 1 10, .fixed 8, .fixed 8, .below 1 4, .fixed 8, .fixed 8, .fixed 8, .fixed 8,
    .fixed 8, .fixed 8, .fixed 8, .fixed 8]

def fenceLayout : Layout := .all
  [.fixed 8, .fixed 8, .fixed 8, .fixed 8, .fixed 8, .below 1 10, .fixed 8, .fixed 8,
    .text kMaxDurableNote]

def historyLayout : Layout := .all
  [.fixed 8, .below 1 8, .below 1 8, .fixed 8, .fixed 8, .fixed 8, .text kMaxDurableNote]

def attemptLayout : Layout := .all
  [.fixed 8, .fixed 8, .below 2 12, .below 1 9, .fixed 8, .fixed 8, .fixed 8, .fixed 8,
    .text kMaxDurableNote]

def provenanceLayout : Layout := .all
  [.fixed 8, .below 1 10, .fixed 8, .fixed 8, .fixed 8, .fixed 8, .fixed 8, .fixed 8,
    .text kMaxDurableNote]

def epochLayout : Layout := .all [.fixed 8, .fixed 8, .fixed 8]

def revalidationLayout : Layout := .all
  [.fixed 8, .fixed 8, .fixed 8, .below 1 8, .below 1 8, .boolean, .boolean, .boolean, .fixed 8,
    .fixed 8, .text kMaxDurableNote]

/-! ### Records in a payload -/

theorem takes_rule :
    Takes readRule ruleLayout (fun _ => True) ThresholdRule.Declared putRule := by
  apply Takes.congr
  · apply Takes.checked (fun r : ThresholdRule => r.metric.toRaw) (.u16Below 20)
    intro metric
    apply Takes.checked (fun r : ThresholdRule => r.op.toRaw) (.u8Below 2)
    intro op
    apply Takes.field ThresholdRule.watch .u64
    intro watch
    apply Takes.field ThresholdRule.congested .u64
    intro congested
    apply Takes.field ThresholdRule.severe .u64
    intro severe
    apply Takes.field ThresholdRule.required .boolean
    intro required
    apply Takes.field ThresholdRule.maxAgeTicks .u64
    intro maxAgeTicks
    apply Takes.last ThresholdRule.weight .u32
    intro weight
    simp [MetricKind.toRaw_ofRaw, ThresholdOp.toRaw_ofRaw]
  · simp [ThresholdRule.Declared, MetricKind.Declared, ThresholdOp.Declared]
  · simp [putRule]

theorem takes_interventionRule :
    Takes readInterventionRule interventionRuleLayout (fun _ => True)
      InterventionRule.Declared putInterventionRule := by
  apply Takes.congr
  · apply Takes.checked (fun r : InterventionRule => r.atLeast.toRaw) (.u8Below 4)
    intro atLeast
    apply Takes.checked (fun r : InterventionRule => r.kind.toRaw) (.u8Below 10)
    intro kind
    apply Takes.field InterventionRule.targetClass (.id _)
    intro targetClass
    apply Takes.field InterventionRule.targetDomain (.id _)
    intro targetDomain
    apply Takes.field InterventionRule.requireFreshEvidence .boolean
    intro requireFreshEvidence
    apply Takes.field InterventionRule.requireAuthoritativeState .boolean
    intro requireAuthoritativeState
    apply Takes.field InterventionRule.parameterMin .u64
    intro parameterMin
    apply Takes.field InterventionRule.parameterMax .u64
    intro parameterMax
    apply Takes.field InterventionRule.parameterDefault .u64
    intro parameterDefault
    apply Takes.field InterventionRule.priority .u32
    intro priority
    apply Takes.last InterventionRule.minRepeatIntervalTicks .u64
    intro minRepeatIntervalTicks
    simp [Severity.toRaw_ofRaw, InterventionKind.toRaw_ofRaw]
  · simp [InterventionRule.Declared, Severity.Declared, InterventionKind.Declared]
  · simp [putInterventionRule]

theorem takes_hysteresis :
    Takes readHysteresis hysteresisLayout (fun _ => True) (fun _ => True) putHysteresis := by
  apply Takes.congr
  · apply Takes.field HysteresisPolicy.escalateSamples .u32
    intro escalateSamples
    apply Takes.field HysteresisPolicy.deescalateSamples .u32
    intro deescalateSamples
    apply Takes.field HysteresisPolicy.minDwellTicks .u64
    intro minDwellTicks
    apply Takes.field HysteresisPolicy.downgradeMarginPpm .u32
    intro downgradeMarginPpm
    apply Takes.field HysteresisPolicy.requireAllRulesAgreeOnDowngrade .boolean
    intro requireAllRulesAgreeOnDowngrade
    apply Takes.last HysteresisPolicy.applyDwellOnEscalation .boolean
    intro applyDwellOnEscalation
    simp
  · simp
  · simp [putHysteresis]

theorem takes_recovery :
    Takes readRecovery recoveryLayout (fun _ => True) (fun _ => True) putRecovery := by
  apply Takes.congr
  · apply Takes.field RecoveryPolicy.enabled .boolean
    intro enabled
    apply Takes.field RecoveryPolicy.minImprovedSamples .u32
    intro minImprovedSamples
    apply Takes.field RecoveryPolicy.allowSingleSample .boolean
    intro allowSingleSample
    apply Takes.field RecoveryPolicy.clearSamples .u32
    intro clearSamples
    apply Takes.last RecoveryPolicy.recoveringHoldTicks .u64
    intro recoveringHoldTicks
    simp
  · simp
  · simp [putRecovery]

theorem takes_propagation :
    Takes readPropagation propagationLayout (fun _ => True)
      PropagationPolicy.Declared putPropagation := by
  apply Takes.congr
  · apply Takes.field PropagationPolicy.enabled .boolean
    intro enabled
    apply Takes.field PropagationPolicy.maxDepth .u32
    intro maxDepth
    apply Takes.field PropagationPolicy.decayPpm .u32
    intro decayPpm
    apply Takes.checked (fun r : PropagationPolicy => r.maxInducedSeverity.toRaw) (.u8Below 4)
    intro maxInducedSeverity
    apply Takes.field PropagationPolicy.followLinks .boolean
    intro followLinks
    apply Takes.field PropagationPolicy.followPaths .boolean
    intro followPaths
    apply Takes.last PropagationPolicy.minPressurePpm .u32
    intro minPressurePpm
    simp [Severity.toRaw_ofRaw]
  · simp [PropagationPolicy.Declared, Severity.Declared]
  · simp [putPropagation]

theorem takes_freshness :
    Takes readFreshness freshnessLayout (fun _ => True) (fun _ => True) putFreshness := by
  apply Takes.congr
  · apply Takes.field FreshnessPolicy.defaultMaxAgeTicks .u64
    intro defaultMaxAgeTicks
    apply Takes.field FreshnessPolicy.maxFutureSkewTicks .u64
    intro maxFutureSkewTicks
    apply Takes.last FreshnessPolicy.heartbeatRefreshesFreshness .boolean
    intro heartbeatRefreshesFreshness
    simp
  · simp
  · simp [putFreshness]

theorem takes_contradiction :
    Takes readContradiction contradictionLayout (fun _ => True)
      ContradictionPolicy.Declared putContradiction := by
  apply Takes.congr
  · apply Takes.checked (fun r : ContradictionPolicy => r.mode.toRaw) (.u8Below 3)
    intro mode
    apply Takes.field ContradictionPolicy.absoluteTolerance .u64
    intro absoluteTolerance
    apply Takes.field ContradictionPolicy.relativeTolerancePpm .u32
    intro relativeTolerancePpm
    apply Takes.field ContradictionPolicy.minDistinctPublishers .u64
    intro minDistinctPublishers
    apply Takes.last ContradictionPolicy.priorityOrder (.list (.id _))
    intro priorityOrder
    simp [ContradictionMode.toRaw_ofRaw]
  · simp [ContradictionPolicy.Declared, ContradictionMode.Declared]
  · simp [putContradiction, Takes.putList]

theorem takes_limits :
    Takes readLimits limitsLayout (fun _ => True) (fun _ => True) putLimits := by
  apply Takes.congr
  · apply Takes.field PolicyLimits.maxResourcesPerDomain .u64
    intro maxResourcesPerDomain
    apply Takes.field PolicyLimits.maxMetricsPerSample .u64
    intro maxMetricsPerSample
    apply Takes.field PolicyLimits.maxPathsConsidered .u64
    intro maxPathsConsidered
    apply Takes.field PolicyLimits.maxDomainDepth .u32
    intro maxDomainDepth
    apply Takes.field PolicyLimits.maxExplanationEntries .u64
    intro maxExplanationEntries
    apply Takes.field PolicyLimits.maxInterventionsPerPlan .u64
    intro maxInterventionsPerPlan
    apply Takes.field PolicyLimits.maxConflictReports .u64
    intro maxConflictReports
    apply Takes.last PolicyLimits.maxStaleReports .u64
    intro maxStaleReports
    simp
  · simp
  · simp [putLimits]

theorem takes_resource :
    Takes readResource resourceLayout (fun _ => True) ResourceRecord.Declared putResource := by
  apply Takes.congr
  · apply Takes.field ResourceRecord.id (.id _)
    intro id
    apply Takes.field ResourceRecord.domain (.id _)
    intro domain
    apply Takes.field ResourceRecord.parent (.id _)
    intro parent
    apply Takes.field ResourceRecord.servingClass (.id _)
    intro servingClass
    apply Takes.checked (fun r : ResourceRecord => r.kind.toRaw) (.u8Below 8)
    intro kind
    apply Takes.field ResourceRecord.depth .u32
    intro depth
    apply Takes.field ResourceRecord.nominalCapacityBps .u64
    intro nominalCapacityBps
    apply Takes.last ResourceRecord.flags .u32
    intro flags
    simp [ResourceKind.toRaw_ofRaw]
  · simp [ResourceRecord.Declared, ResourceKind.Declared]
  · simp [putResource]

theorem takes_link :
    Takes readLink linkLayout (fun _ => True) (fun _ => True) putLink := by
  apply Takes.congr
  · apply Takes.field LinkRecord.id (.id _)
    intro id
    apply Takes.field LinkRecord.fromId (.id _)
    intro fromId
    apply Takes.field LinkRecord.toId (.id _)
    intro toId
    apply Takes.field LinkRecord.capacityBps .u64
    intro capacityBps
    apply Takes.field LinkRecord.latencyMicros .u64
    intro latencyMicros
    apply Takes.last LinkRecord.weight .u32
    intro weight
    simp
  · simp
  · simp [putLink]

theorem takes_path :
    Takes readPath pathLayout (fun _ => True) (fun _ => True) putPath := by
  apply Takes.congr
  · apply Takes.field PathRecord.id (.id _)
    intro id
    apply Takes.field PathRecord.capacityBps .u64
    intro capacityBps
    apply Takes.field PathRecord.flags .u32
    intro flags
    apply Takes.last PathRecord.hops (.list (.id _))
    intro hops
    simp
  · simp
  · simp [putPath, Takes.putList]

theorem takes_entry :
    Takes readEntry entryLayout (fun _ => True) (fun _ => True) putEntry := by
  apply Takes.congr
  · apply Takes.field CapacityEntry.resource (.id _)
    intro resource
    apply Takes.field CapacityEntry.capacityBps .u64
    intro capacityBps
    apply Takes.field CapacityEntry.residualBps .u64
    intro residualBps
    apply Takes.last CapacityEntry.admissibleBps .u64
    intro admissibleBps
    simp
  · simp
  · simp [putEntry]

end Store

end CongestionFabric
