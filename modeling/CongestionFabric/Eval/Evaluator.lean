import CongestionFabric.Eval.Classification
import CongestionFabric.Eval.HysteresisStep

namespace CongestionFabric

namespace CongestionEvaluator

structure Assessed where
  classified : List Classified
  evidence : EvidenceVector

/-- Raise the target of an edge to the severity the edge induces. -/
def induceOne (c : Classified) (edge : PropagationEdge) : Classified :=
  if c.assessment.resource = edge.target then
    let upward := max c.upward edge.induced
    { assessment := { c.assessment with rawSeverity := upward }
      upward, downward := max c.downward edge.induced }
  else c

def induce (classified : List Classified) (edge : PropagationEdge) : List Classified :=
  classified.map (induceOne · edge)

def markApplied (before : List Classified) (edge : PropagationEdge) : PropagationEdge :=
  { edge with
    applied := before.any fun c =>
      c.assessment.resource = edge.target && edge.induced > c.upward }

def sourcesOf (classified : List Classified) : List PropagationEngine.Source :=
  (classified.filter fun c => c.upward ≠ .clear).map fun c => ⟨c.assessment.resource, c.upward⟩

def spreadPressure (policy : CongestionPolicy) (topology : Option TopologyIndex)
    (a : Assessed) : Result Assessed :=
  match topology with
  | none => .ok a
  | some topology =>
    if !policy.propagation.enabled ∨ sourcesOf a.classified = [] then .ok a
    else do
      let result ← PropagationEngine.propagate topology (sourcesOf a.classified)
        policy.propagation policy.limits.maxExplanationEntries.toNat
      let evidence := if result.truncated then
          { a.evidence with truncatedSections := a.evidence.truncatedSections + 1 }
        else a.evidence
      return {
        classified := result.edges.foldl induce a.classified
        evidence := { evidence with
          propagation := result.edges.map (markApplied a.classified) } }

/-- What the resources say before propagation. -/
def classifyScope (request : EvaluationRequest) (policy : CongestionPolicy)
    (context : EvaluationContext) (resources : List ResourceId) : Assessed :=
  let resolution := resolve policy (admitSamples request policy context resources)
  let tallies := resources.map (tallyResource policy resolution)
  { classified := tallies.map (classify policy)
    evidence := tallies.foldl (noteBindings policy) resolution.evidence }

def assess (request : EvaluationRequest) (policy : CongestionPolicy)
    (context : EvaluationContext) (resources : List ResourceId) : Result Assessed :=
  spreadPressure policy context.topology (classifyScope request policy context resources)

/-- The severities of the resources that reported, and what their coverage was. -/
structure Aggregate where
  anyEvidence : Bool := false
  anyPartial : Bool := false
  anyConflict : Bool := false
  upward : Severity := .clear
  downward : Severity := .clear

def aggregateOne (acc : Aggregate) (c : Classified) : Aggregate :=
  let acc := { acc with anyConflict := acc.anyConflict || c.assessment.contradictory }
  if c.assessment.coverage = .none then acc
  else { acc with
    anyEvidence := true
    anyPartial := acc.anyPartial || decide (c.assessment.coverage ≠ .full)
    upward := max acc.upward c.upward
    downward := max acc.downward c.downward }

def aggregate (classified : List Classified) : Aggregate := classified.foldl aggregateOne {}

def hasRequiredRules (policy : CongestionPolicy) : Bool := policy.rules.any (·.required)

/-- Incomplete required coverage is floored at WATCH in both directions. -/
def floorAtWatch (severity : Severity) : Severity := max severity .watch

def propose (policy : CongestionPolicy) (prior : DomainState) (a : Aggregate) :
    SeverityProposal :=
  if a.anyConflict then { indeterminate := .conflict }
  else if !a.anyEvidence then
    { indeterminate := if prior.lastAuthoritativeTick ≠ kNoTick then .stale else .unknown }
  else if hasRequiredRules policy && a.anyPartial then
    { hasValue := true, upward := floorAtWatch a.upward, downward := floorAtWatch a.downward }
  else { hasValue := true, upward := a.upward, downward := a.downward }

/-- The state an evaluation hands to the hysteresis machine. -/
def prepare (request : EvaluationRequest) (policy : CongestionPolicy)
    (context : EvaluationContext) (prior : DomainState) : DomainState :=
  { prior with
    domain := request.domain
    epoch := context.epoch
    policy := policy.id
    policyFingerprint := policy.fingerprint
    authorityGeneration := request.authority.generation
    topologyGeneration := (context.topology.map (·.snapshot.generation)).getD {}
    capacityGeneration := (context.capacity.map (·.generation)).getD {}
    evaluationCount :=
      if prior.evaluationCount < limits.kMaxU64 then prior.evaluationCount + 1
      else prior.evaluationCount }

def reasonCodeOf (reason : StepReason) (state : CongestionState) : ReasonCode :=
  match reason with
  | .indeterminate =>
    match state with
    | .conflict => .contradictoryEvidence
    | .stale => .evidenceStale
    | _ => .noEvidence
  | .escalated => .severityEscalated
  | .downgraded => .severityDowngraded
  | .recoveryStarted => .recoveryStarted
  | .recoveryComplete => .recoveryComplete
  | .escalatePending | .downgradePending => .hysteresisPending
  | .holdDwell | .holdRecovering => .hysteresisHold
  | .tickRegression => .tickRegression
  | .invalidProposal => .invalidProposal
  | .steady => .steady

def evaluationId (request : EvaluationRequest) (policy : CongestionPolicy)
    (context : EvaluationContext) (prior : DomainState) (state : CongestionState) :
    EvaluationId :=
  let h := ((({} : Hasher).updateU64 request.domain.value).updateU64 context.epoch.value).updateU64
    request.now
  let h := ((h.updateU64 request.evidence.id.value).updateU64 policy.fingerprint.value).updateU8
    state.toRaw
  ⟨(h.updateU64 prior.evaluationCount).finish.value⟩

/-- The resource reports that fit the explanation bound. -/
def reportResources (policy : CongestionPolicy) (a : Assessed) : EvidenceVector :=
  let bound := policy.limits.maxExplanationEntries.toNat
  let reports := a.classified.map (·.assessment)
  let evidence := { a.evidence with resources := reports.take bound }
  if reports.length > bound then
    { evidence with truncatedSections := evidence.truncatedSections + 1 }
  else evidence

def foldState (request : EvaluationRequest) (policy : CongestionPolicy)
    (context : EvaluationContext) (prior : DomainState) (proposal : SeverityProposal) :
    DomainState × HysteresisStep :=
  let (updated, step) := HysteresisEngine.step (prepare request policy context prior) proposal
    policy.hysteresis policy.recovery request.now
  ({ updated with lastEvaluatedTick := request.now }, step)

def conclude (request : EvaluationRequest) (policy : CongestionPolicy)
    (context : EvaluationContext) (prior : DomainState) (a : Assessed) : EvaluationOutcome :=
  let g := aggregate a.classified
  let proposal := propose policy prior g
  let (updated, step) := foldState request policy context prior proposal
  { id := evaluationId request policy context prior updated.state
    domain := request.domain
    state := updated.state
    previousState := prior.state
    severity := (severityOf updated.state).getD .clear
    transitioned := step.transitioned
    authoritative := updated.authoritative && proposal.hasValue && !g.anyConflict
    requiresRevalidation := updated.requiresRevalidation
    evidence := reportResources policy a
    updated
    authority := request.authority
    policy := policy.id
    policyFingerprint := policy.fingerprint
    topologyGeneration := updated.topologyGeneration
    capacityGeneration := updated.capacityGeneration
    evaluatedTick := request.now
    reasonCode := reasonCodeOf step.reason updated.state }

def evaluate (request : EvaluationRequest) (prior : DomainState) (context : EvaluationContext) :
    Result EvaluationOutcome :=
  match context.policy with
  | none => fail .notReady "no congestion policy is installed"
  | some policy => do
    refuseIf (¬request.domain.valid) .invalidArgument "evaluation request has no domain"
    refuseIf (request.now = kNoTick) .invalidArgument "evaluation requires an explicit tick"
    refuseIf (request.evidence.samples.length > context.maxSamplesPerBatch) .limitExceeded
      "evidence batch exceeds the permitted sample count"
    let resources ← scope request policy context.topology
    let assessed ← assess request policy context resources
    return conclude request policy context prior assessed

theorem evaluate_ok {request : EvaluationRequest} {prior : DomainState}
    {context : EvaluationContext} {outcome : EvaluationOutcome}
    (h : evaluate request prior context = .ok outcome) :
    ∃ policy resources assessed, context.policy = some policy ∧ request.domain.valid = true ∧
      request.now ≠ kNoTick ∧ scope request policy context.topology = .ok resources ∧
      assess request policy context resources = .ok assessed ∧
      outcome = conclude request policy context prior assessed := by
  unfold evaluate at h
  split at h
  next => simp [fail] at h
  next policy hp =>
    simp only [bind_ok, refuseIf_ok, exists_const] at h
    obtain ⟨hd, hn, _, resources, hs, assessed, ha, h⟩ := h
    exact ⟨policy, resources, assessed, hp, not_not.mp hd, hn, hs, ha, (Except.ok.inj h).symm⟩

@[simp] theorem conclude_state (request : EvaluationRequest) (policy : CongestionPolicy)
    (context : EvaluationContext) (prior : DomainState) (a : Assessed) :
    (conclude request policy context prior a).state =
      (HysteresisEngine.step (prepare request policy context prior)
        (propose policy prior (aggregate a.classified)) policy.hysteresis policy.recovery
        request.now).1.state := rfl

end CongestionEvaluator

def evidenceWithinFreshness (vector : EvidenceVector) (policy : CongestionPolicy) (now : Tick) :
    Bool :=
  if vector.samplesAccepted = 0 then false
  else if vector.newestObservedTick = kNoTick then false
  else
    let age := tickAge now vector.newestObservedTick
    if age.fromFuture then decide (age.age ≤ policy.freshness.maxFutureSkewTicks)
    else decide (age.age ≤ policy.freshness.defaultMaxAgeTicks)

/-- A restart never restores live authority; the recorded tick is not compared with the new
clock, and every restored state requires revalidation. -/
def demoteAfterRecovery (restored : CongestionState) (lastAuthoritativeTick : Tick) :
    CongestionState :=
  if !isAuthoritative restored then restored
  else if lastAuthoritativeTick = kNoTick then .unknown
  else .stale

end CongestionFabric
