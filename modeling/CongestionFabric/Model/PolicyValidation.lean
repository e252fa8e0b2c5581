import CongestionFabric.Model.Policy

namespace CongestionFabric

open limits

def validateRule (freshness : FreshnessPolicy) (seen : List MetricKind) (rule : ThresholdRule) :
    VoidResult := do
  refuseIf (rule.metric = .unknown ∨ rule.metric = .count) .policyRejected
    "threshold rule names an unknown metric kind"
  refuseIf (rule.metric ∈ seen) .policyRejected "threshold rule metric kind is duplicated"
  refuseIf (rule.weight = 0) .policyRejected "threshold rule has a zero weight"
  let bound := metricPlausibleMax rule.metric
  refuseIf (rule.watch > bound ∨ rule.congested > bound ∨ rule.severe > bound)
    .policyRejected "threshold rule exceeds the metric plausible range"
  if rule.op = .atLeast then
    refuseIf (¬(rule.watch ≤ rule.congested ∧ rule.congested ≤ rule.severe)) .policyRejected
      "AtLeast thresholds must be non-decreasing"
  else
    refuseIf (¬(rule.severe ≤ rule.congested ∧ rule.congested ≤ rule.watch)) .policyRejected
      "AtMost thresholds must be non-increasing"
  refuseIf (rule.maxAgeTicks > freshness.defaultMaxAgeTicks * 1000 + 1) .policyRejected
    "threshold rule freshness override is implausibly large"

def validateRules (freshness : FreshnessPolicy) (seen : List MetricKind) :
    List ThresholdRule → VoidResult
  | [] => succeed
  | rule :: rest => do
    validateRule freshness seen rule
    validateRules freshness (rule.metric :: seen) rest

def validateHysteresis (hysteresis : HysteresisPolicy) : VoidResult := do
  refuseIf (hysteresis.escalateSamples = 0 ∨ hysteresis.escalateSamples > kMaxHysteresisSamples)
    .policyRejected "escalation sample count is outside the permitted range"
  refuseIf (hysteresis.deescalateSamples = 0 ∨
      hysteresis.deescalateSamples > kMaxHysteresisSamples)
    .policyRejected "de-escalation sample count is outside the permitted range"
  refuseIf (hysteresis.minDwellTicks > kMaxDwellTicks) .policyRejected
    "hysteresis dwell exceeds the permitted range"
  refuseIf (hysteresis.downgradeMarginPpm > 1000000) .policyRejected
    "downgrade margin exceeds 100 percent"

def validateRecovery (recovery : RecoveryPolicy) : VoidResult := do
  refuseIf (recovery.minImprovedSamples = 0 ∨
      recovery.minImprovedSamples > kMaxHysteresisSamples)
    .policyRejected "recovery sample count is outside the permitted range"
  refuseIf (!recovery.allowSingleSample ∧ recovery.minImprovedSamples < 2) .policyRejected
    "recovery must require at least two improved samples unless single-sample recovery is enabled"
  refuseIf (recovery.clearSamples = 0 ∨ recovery.clearSamples > kMaxHysteresisSamples)
    .policyRejected "recovery clear sample count is outside the permitted range"

def validateEvidencePolicies (propagation : PropagationPolicy) (freshness : FreshnessPolicy)
    (contradiction : ContradictionPolicy) : VoidResult := do
  refuseIf (propagation.decayPpm > 1000000) .policyRejected
    "propagation decay exceeds 100 percent"
  refuseIf (propagation.maxDepth > kMaxResourceDepth) .policyRejected
    "propagation depth exceeds the hard bound"
  refuseIf (propagation.maxInducedSeverity > .severe) .policyRejected
    "propagation induced severity is not a valid severity"
  refuseIf (freshness.defaultMaxAgeTicks = 0) .policyRejected
    "freshness default max age must be positive"
  refuseIf (freshness.defaultMaxAgeTicks > 3600000000) .policyRejected
    "freshness default max age exceeds one hour"
  refuseIf (freshness.maxFutureSkewTicks > freshness.defaultMaxAgeTicks) .policyRejected
    "future skew bound exceeds the freshness bound"
  refuseIf (contradiction.relativeTolerancePpm > 1000000) .policyRejected
    "contradiction relative tolerance exceeds 100 percent"
  refuseIf (contradiction.minDistinctPublishers < 2) .policyRejected
    "contradiction requires at least two distinct publishers"
  refuseIf (contradiction.priorityOrder.length > kMaxPublishers) .policyRejected
    "contradiction priority order exceeds the publisher bound"

def validateIntervention (rule : InterventionRule) : VoidResult := do
  refuseIf (rule.kind = .none ∨ rule.kind = .count) .policyRejected
    "intervention rule names an invalid kind"
  refuseIf (requiredAuthority rule.kind = none) .policyRejected
    "intervention rule maps to no authority bit"
  refuseIf (rule.parameterMin > rule.parameterMax) .policyRejected
    "intervention parameter envelope is inverted"
  refuseIf (rule.parameterDefault < rule.parameterMin ∨
      rule.parameterDefault > rule.parameterMax)
    .policyRejected "intervention default parameter is outside its envelope"
  refuseIf (rule.minRepeatIntervalTicks > kMaxDwellTicks) .policyRejected
    "intervention repeat interval exceeds the permitted range"

def validateInterventions : List InterventionRule → VoidResult
  | [] => succeed
  | rule :: rest => do
    validateIntervention rule
    validateInterventions rest

def validateLimits (limits : PolicyLimits) : VoidResult := do
  refuseIf (limits.maxResourcesPerDomain = 0 ∨
      limits.maxResourcesPerDomain.toNat > kMaxResourcesPerDomain)
    .policyRejected "per-domain resource limit is outside the permitted range"
  refuseIf (limits.maxMetricsPerSample = 0 ∨
      limits.maxMetricsPerSample.toNat > kMaxMetricReadings)
    .policyRejected "per-sample metric limit is outside the permitted range"
  refuseIf (limits.maxPathsConsidered.toNat > kMaxPathsPerTopology) .policyRejected
    "path consideration limit exceeds the hard bound"
  refuseIf (limits.maxDomainDepth = 0 ∨ limits.maxDomainDepth > kMaxResourceDepth)
    .policyRejected "domain depth limit is outside the permitted range"
  refuseIf (limits.maxExplanationEntries = 0 ∨
      limits.maxExplanationEntries.toNat > kMaxExplanationEntries)
    .policyRejected "explanation entry limit is outside the permitted range"
  refuseIf (limits.maxInterventionsPerPlan = 0 ∨
      limits.maxInterventionsPerPlan.toNat > kMaxInterventionsPerPlan)
    .policyRejected "intervention plan limit is outside the permitted range"
  refuseIf (limits.maxConflictReports.toNat > kMaxExplanationEntries) .policyRejected
    "conflict report limit exceeds the hard bound"
  refuseIf (limits.maxStaleReports.toNat > kMaxExplanationEntries) .policyRejected
    "stale report limit exceeds the hard bound"

def validateGates (policy : CongestionPolicy) : VoidResult := do
  refuseIf (policy.minAgreeingRulesForWatch = 0) .policyRejected
    "watch corroboration gate must be at least one"
  refuseIf (policy.minAgreeingRulesForCongested.toNat > policy.rules.length ∨
      policy.minAgreeingRulesForSevere.toNat > policy.rules.length)
    .policyRejected "corroboration gate exceeds the number of threshold rules"
  refuseIf (policy.minAgreeingRulesForWatch.toNat > policy.rules.length) .policyRejected
    "watch corroboration gate exceeds the number of threshold rules"
  refuseIf (policy.minAgreeingRulesForSevere < policy.minAgreeingRulesForCongested)
    .policyRejected "severe corroboration gate is below the congested gate"

/-- An accepted policy comes back with its fingerprint recomputed. -/
def validatePolicy (policy : CongestionPolicy) : Result CongestionPolicy := do
  refuseIf (¬policy.id.valid) .policyRejected "policy id is the null identity"
  refuseIf (policy.version = 0) .policyRejected "policy version must be positive"
  refuseIf (policy.name.length > kMaxPolicyNameBytes) .policyRejected
    "policy name is longer than the durable text bound"
  refuseIf (policy.rules.length > kMaxThresholdRules) .policyRejected
    "policy exceeds the threshold rule bound"
  refuseIf (policy.interventions.length > kMaxInterventionRules) .policyRejected
    "policy exceeds the intervention rule bound"
  refuseIf (policy.rules = []) .policyRejected "policy declares no threshold rules"
  validateRules policy.freshness [] policy.rules
  validateHysteresis policy.hysteresis
  validateRecovery policy.recovery
  validateEvidencePolicies policy.propagation policy.freshness policy.contradiction
  validateInterventions policy.interventions
  validateLimits policy.limits
  validateGates policy
  return { policy with fingerprint := fingerprintPolicy policy }

def makeDefaultPolicy : CongestionPolicy :=
  let policy : CongestionPolicy := {
    id := ⟨0x4E43465F44454631⟩
    name := text "ncf-default-v1"
    rules := [
      { metric := .utilizationPpm, watch := 700000, congested := 850000, severe := 950000
        required := true },
      { metric := .queueOccupancyPpm, watch := 150000, congested := 500000, severe := 850000 },
      { metric := .lossRatePpm, watch := 1000, congested := 20000, severe := 200000 },
      { metric := .latencyMicros, watch := 2000, congested := 10000, severe := 50000 }]
    interventions := [
      { atLeast := .congested, kind := .reduceAdmissibleBudget, parameterMin := 100000
        parameterMax := 900000, parameterDefault := 500000, priority := 10 },
      { atLeast := .congested, kind := .requestReroute, parameterMin := 1, parameterMax := 100
        parameterDefault := 25, priority := 20 },
      { atLeast := .severe, kind := .protectCriticalClasses, parameterMin := 100000
        parameterMax := 1000000, parameterDefault := 500000, priority := 5 },
      { atLeast := .severe, kind := .enterDegradedMode, parameterMin := 1, parameterMax := 1
        parameterDefault := 1, priority := 1 },
      { atLeast := .watch, kind := .makeRecoveryPlanEligible, parameterMin := 1
        parameterMax := 1, parameterDefault := 1, priority := 200 }] }
  { policy with fingerprint := fingerprintPolicy policy }

theorem defaultPolicy_accepted : validatePolicy makeDefaultPolicy = .ok makeDefaultPolicy := by
  decide +kernel

/-- What an accepted policy satisfies, check by check. -/
structure Accepted (policy : CongestionPolicy) : Prop where
  id : policy.id.valid = true
  rules_ne : policy.rules ≠ []
  rules : validateRules policy.freshness [] policy.rules = .ok ()
  hysteresis : validateHysteresis policy.hysteresis = .ok ()
  recovery : validateRecovery policy.recovery = .ok ()
  evidence :
    validateEvidencePolicies policy.propagation policy.freshness policy.contradiction = .ok ()
  interventions : validateInterventions policy.interventions = .ok ()
  limits : validateLimits policy.limits = .ok ()
  gates : validateGates policy = .ok ()

theorem validateInterventions_mem {rules : List InterventionRule}
    (h : validateInterventions rules = .ok ()) {rule : InterventionRule} (hrule : rule ∈ rules) :
    validateIntervention rule = .ok () := by
  induction rules with
  | nil => cases hrule
  | cons first rest ih =>
    obtain ⟨_, hfirst, hrest⟩ := bind_ok.mp h
    rcases List.mem_cons.mp hrule with rfl | hrule
    · exact hfirst
    · exact ih hrest hrule

theorem validateGates_fingerprint (policy : CongestionPolicy) (fingerprint : Hash64) :
    validateGates { policy with fingerprint := fingerprint } = validateGates policy := rfl

theorem Accepted.withFingerprint {policy : CongestionPolicy} (h : Accepted policy)
    (fingerprint : Hash64) : Accepted { policy with fingerprint := fingerprint } :=
  ⟨h.id, h.rules_ne, h.rules, h.hysteresis, h.recovery, h.evidence, h.interventions, h.limits,
    (validateGates_fingerprint policy fingerprint).trans h.gates⟩

theorem validatePolicy_accepted {policy accepted : CongestionPolicy}
    (h : validatePolicy policy = .ok accepted) :
    accepted = { policy with fingerprint := fingerprintPolicy policy } ∧ Accepted accepted := by
  simp only [validatePolicy, bind_ok, refuseIf_ok, exists_and_left, exists_const] at h
  obtain ⟨hid, _, _, _, _, hne, _, hr, _, hh, _, hrec, _, he, _, hi, _, hl, _, hg, h⟩ := h
  have heq : accepted = { policy with fingerprint := fingerprintPolicy policy } :=
    (Except.ok.inj h).symm
  have hp : Accepted policy := ⟨by simpa using hid, hne, hr, hh, hrec, he, hi, hl, hg⟩
  exact ⟨heq, heq ▸ hp.withFingerprint _⟩

theorem fingerprintPolicy_with (policy : CongestionPolicy) (fingerprint : Hash64) :
    fingerprintPolicy { policy with fingerprint } = fingerprintPolicy policy := rfl

theorem validatePolicy_with {policy accepted : CongestionPolicy} (fingerprint : Hash64)
    (h : validatePolicy policy = .ok accepted) :
    validatePolicy { policy with fingerprint } = .ok accepted := by
  have hagain : validatePolicy { policy with fingerprint } =
      .ok { policy with fingerprint := fingerprintPolicy policy } := by
    rw [← fingerprintPolicy_with policy fingerprint]
    simp only [validatePolicy, bind_ok, refuseIf_ok, exists_const] at h ⊢
    rw [validateGates_fingerprint]
    obtain ⟨h1, h2, h3, h4, h5, h6, _, h7, _, h8, _, h9, _, h10, _, h11, _, h12, _, h13, _⟩ := h
    exact ⟨h1, h2, h3, h4, h5, h6, _, h7, _, h8, _, h9, _, h10, _, h11, _, h12, _, h13, rfl⟩
  rw [hagain, (validatePolicy_accepted h).1]

/-- An accepted policy is accepted again as it is. -/
theorem validatePolicy_again {policy accepted : CongestionPolicy}
    (h : validatePolicy policy = .ok accepted) : validatePolicy accepted = .ok accepted := by
  have hagain := validatePolicy_with (fingerprintPolicy policy) h
  rwa [← (validatePolicy_accepted h).1] at hagain

theorem validateHysteresis_samples {hysteresis : HysteresisPolicy}
    (h : validateHysteresis hysteresis = .ok ()) :
    (hysteresis.escalateSamples ≠ 0 ∧ hysteresis.escalateSamples ≤ kMaxHysteresisSamples) ∧
      hysteresis.deescalateSamples ≠ 0 ∧
      hysteresis.deescalateSamples ≤ kMaxHysteresisSamples := by
  simp only [validateHysteresis, bind_ok, refuseIf_ok, exists_const, not_or] at h
  exact ⟨⟨h.1.1, UInt32.not_lt.mp h.1.2⟩, h.2.1.1, UInt32.not_lt.mp h.2.1.2⟩

theorem validateRecovery_samples {recovery : RecoveryPolicy}
    (h : validateRecovery recovery = .ok ()) :
    (recovery.minImprovedSamples ≠ 0 ∧ recovery.minImprovedSamples ≤ kMaxHysteresisSamples) ∧
      recovery.clearSamples ≠ 0 ∧ recovery.clearSamples ≤ kMaxHysteresisSamples := by
  simp only [validateRecovery, bind_ok, refuseIf_ok, exists_const, not_or] at h
  exact ⟨⟨h.1.1, UInt32.not_lt.mp h.1.2⟩, h.2.2.1, UInt32.not_lt.mp h.2.2.2⟩

end CongestionFabric
