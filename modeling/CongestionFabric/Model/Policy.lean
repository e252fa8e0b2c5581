import CongestionFabric.Core.Hash
import CongestionFabric.Core.StrongId
import CongestionFabric.Model.Enums

namespace CongestionFabric

def text (s : String) : Bytes := s.toUTF8.toList

structure ThresholdRule where
  metric : MetricKind := .unknown
  op : ThresholdOp := .atLeast
  watch : UInt64 := 0
  congested : UInt64 := 0
  severe : UInt64 := 0
  required : Bool := false
  maxAgeTicks : Tick := 0
  weight : UInt32 := 1
  deriving DecidableEq

def kMaxPolicyNameBytes : Nat := 256

structure HysteresisPolicy where
  escalateSamples : UInt32 := 1
  deescalateSamples : UInt32 := 3
  minDwellTicks : Tick := 0
  downgradeMarginPpm : UInt32 := 50000
  requireAllRulesAgreeOnDowngrade : Bool := true
  applyDwellOnEscalation : Bool := false
  deriving DecidableEq

structure RecoveryPolicy where
  enabled : Bool := true
  minImprovedSamples : UInt32 := 2
  allowSingleSample : Bool := false
  clearSamples : UInt32 := 2
  recoveringHoldTicks : Tick := 0
  deriving DecidableEq

structure PropagationPolicy where
  enabled : Bool := true
  maxDepth : UInt32 := 1
  decayPpm : UInt32 := 500000
  maxInducedSeverity : Severity := .watch
  followLinks : Bool := true
  followPaths : Bool := true
  minPressurePpm : UInt32 := 1
  deriving DecidableEq

structure FreshnessPolicy where
  defaultMaxAgeTicks : Tick := 1000000
  maxFutureSkewTicks : Tick := 1000
  heartbeatRefreshesFreshness : Bool := false
  deriving DecidableEq

structure ContradictionPolicy where
  mode : ContradictionMode := .reject
  absoluteTolerance : UInt64 := 0
  relativeTolerancePpm : UInt32 := 10000
  minDistinctPublishers : UInt64 := 2
  priorityOrder : List PublisherId := []
  deriving DecidableEq

structure InterventionRule where
  atLeast : Severity := .congested
  kind : InterventionKind := .none
  targetClass : ClassId := {}
  targetDomain : DomainId := {}
  requireFreshEvidence : Bool := true
  requireAuthoritativeState : Bool := true
  parameterMin : UInt64 := 0
  parameterMax : UInt64 := 0
  parameterDefault : UInt64 := 0
  priority : UInt32 := 100
  minRepeatIntervalTicks : Tick := 0
  deriving DecidableEq

structure PolicyLimits where
  maxResourcesPerDomain : UInt64 := 4096
  maxMetricsPerSample : UInt64 := 64
  maxPathsConsidered : UInt64 := 1024
  maxDomainDepth : UInt32 := 8
  maxExplanationEntries : UInt64 := 1024
  maxInterventionsPerPlan : UInt64 := 64
  maxConflictReports : UInt64 := 32
  maxStaleReports : UInt64 := 64
  deriving DecidableEq

structure CongestionPolicy where
  id : PolicyId := {}
  version : UInt32 := 1
  name : Bytes := []
  rules : List ThresholdRule := []
  hysteresis : HysteresisPolicy := {}
  recovery : RecoveryPolicy := {}
  propagation : PropagationPolicy := {}
  freshness : FreshnessPolicy := {}
  contradiction : ContradictionPolicy := {}
  interventions : List InterventionRule := []
  limits : PolicyLimits := {}
  minAgreeingRulesForWatch : UInt32 := 1
  minAgreeingRulesForCongested : UInt32 := 2
  minAgreeingRulesForSevere : UInt32 := 2
  fingerprint : Hash64 := {}
  deriving DecidableEq

def scaleDownByMargin (threshold : UInt64) (marginPpm : UInt32) : UInt64 :=
  let drop := (threshold / 1000000) * marginPpm.toUInt64 +
    ((threshold % 1000000) * marginPpm.toUInt64) / 1000000
  if threshold > drop then threshold - drop else 0

def scaleUpByMargin (threshold : UInt64) (marginPpm : UInt32) : UInt64 :=
  let rise := (threshold / 1000000) * marginPpm.toUInt64 +
    ((threshold % 1000000) * marginPpm.toUInt64) / 1000000
  saturatingAdd threshold rise

structure RuleShape where
  watch : UInt64 := 0
  congested : UInt64 := 0
  severe : UInt64 := 0

def shape (rule : ThresholdRule) (marginPpm : UInt32) : RuleShape :=
  if marginPpm = 0 then ⟨rule.watch, rule.congested, rule.severe⟩
  else if rule.op = .atLeast then
    ⟨scaleDownByMargin rule.watch marginPpm, scaleDownByMargin rule.congested marginPpm,
      scaleDownByMargin rule.severe marginPpm⟩
  else
    ⟨scaleUpByMargin rule.watch marginPpm, scaleUpByMargin rule.congested marginPpm,
      scaleUpByMargin rule.severe marginPpm⟩

def classifyShape (rule : ThresholdRule) (bounds : RuleShape) (value : UInt64) : Severity :=
  if rule.op = .atLeast then
    if value ≥ bounds.severe then .severe
    else if value ≥ bounds.congested then .congested
    else if value ≥ bounds.watch then .watch
    else .clear
  else if value ≤ bounds.severe then .severe
  else if value ≤ bounds.congested then .congested
  else if value ≤ bounds.watch then .watch
  else .clear

def ThresholdRule.classify (rule : ThresholdRule) (value : UInt64) : Severity :=
  if rule.weight = 0 then .clear
  else classifyShape rule ⟨rule.watch, rule.congested, rule.severe⟩ value

def classifyRuleWithMargin (rule : ThresholdRule) (value : UInt64) (marginPpm : UInt32) :
    Severity :=
  if rule.weight = 0 then .clear else classifyShape rule (shape rule marginPpm) value

def CongestionPolicy.maxAgeFor (policy : CongestionPolicy) (kind : MetricKind) : Tick :=
  match policy.rules.find? fun rule => rule.metric = kind ∧ rule.maxAgeTicks ≠ 0 with
  | some rule => rule.maxAgeTicks
  | none => policy.freshness.defaultMaxAgeTicks

def hashRule (h : Hasher) (rule : ThresholdRule) : Hasher :=
  ((((((((h.updateU16 rule.metric.toRaw).updateU8 rule.op.toRaw).updateU64 rule.watch).updateU64
    rule.congested).updateU64 rule.severe).updateBool rule.required).updateU64
    rule.maxAgeTicks).updateU32 rule.weight)

def hashIntervention (h : Hasher) (rule : InterventionRule) : Hasher :=
  (((((((((((h.updateU8 rule.atLeast.toRaw).updateU8 rule.kind.toRaw).updateU64
    rule.targetClass.value).updateU64 rule.targetDomain.value).updateBool
    rule.requireFreshEvidence).updateBool rule.requireAuthoritativeState).updateU64
    rule.parameterMin).updateU64 rule.parameterMax).updateU64 rule.parameterDefault).updateU32
    rule.priority).updateU64 rule.minRepeatIntervalTicks)

def fingerprintPolicy (policy : CongestionPolicy) : Hash64 := Id.run do
  let mut h : Hasher := {}
  h := h.updateU64 policy.id.value
  h := h.updateU32 policy.version
  h := h.updateTextFramed policy.name
  h := h.updateSize policy.rules.length
  h := policy.rules.foldl hashRule h
  h := h.updateU32 policy.hysteresis.escalateSamples
  h := h.updateU32 policy.hysteresis.deescalateSamples
  h := h.updateU64 policy.hysteresis.minDwellTicks
  h := h.updateU32 policy.hysteresis.downgradeMarginPpm
  h := h.updateBool policy.hysteresis.requireAllRulesAgreeOnDowngrade
  h := h.updateBool policy.hysteresis.applyDwellOnEscalation
  h := h.updateBool policy.recovery.enabled
  h := h.updateU32 policy.recovery.minImprovedSamples
  h := h.updateBool policy.recovery.allowSingleSample
  h := h.updateU32 policy.recovery.clearSamples
  h := h.updateU64 policy.recovery.recoveringHoldTicks
  h := h.updateBool policy.propagation.enabled
  h := h.updateU32 policy.propagation.maxDepth
  h := h.updateU32 policy.propagation.decayPpm
  h := h.updateU8 policy.propagation.maxInducedSeverity.toRaw
  h := h.updateBool policy.propagation.followLinks
  h := h.updateBool policy.propagation.followPaths
  h := h.updateU32 policy.propagation.minPressurePpm
  h := h.updateU64 policy.freshness.defaultMaxAgeTicks
  h := h.updateU64 policy.freshness.maxFutureSkewTicks
  h := h.updateBool policy.freshness.heartbeatRefreshesFreshness
  h := h.updateU8 policy.contradiction.mode.toRaw
  h := h.updateU64 policy.contradiction.absoluteTolerance
  h := h.updateU32 policy.contradiction.relativeTolerancePpm
  h := h.updateU64 policy.contradiction.minDistinctPublishers
  h := h.updateSize policy.contradiction.priorityOrder.length
  h := policy.contradiction.priorityOrder.foldl (fun h p => h.updateU64 p.value) h
  h := h.updateSize policy.interventions.length
  h := policy.interventions.foldl hashIntervention h
  h := h.updateU64 policy.limits.maxResourcesPerDomain
  h := h.updateU64 policy.limits.maxMetricsPerSample
  h := h.updateU64 policy.limits.maxPathsConsidered
  h := h.updateU32 policy.limits.maxDomainDepth
  h := h.updateU64 policy.limits.maxExplanationEntries
  h := h.updateU64 policy.limits.maxInterventionsPerPlan
  h := h.updateU64 policy.limits.maxConflictReports
  h := h.updateU64 policy.limits.maxStaleReports
  h := h.updateU32 policy.minAgreeingRulesForWatch
  h := h.updateU32 policy.minAgreeingRulesForCongested
  h := h.updateU32 policy.minAgreeingRulesForSevere
  return h.finish

end CongestionFabric
