import CongestionFabric.Fabric.Evidence

namespace CongestionFabric

/-- What a cancellation token says at its three checks: before a plan, at the start of the
evaluation and at its commit. -/
structure CancellationToken where
  beforePlan : Bool := false
  atStart : Bool := false
  atCommit : Bool := false

def refuseCancelled (cancelled : Bool) : VoidResult :=
  refuseIf (cancelled = true) .cancelled "operation cancelled before its commit boundary"

namespace Fabric

/-! ### Evaluation -/

def evaluationContext (f : Fabric) : EvaluationContext where
  policy := some f.policy
  topology := f.topology
  capacity := f.capacity
  epoch := f.epoch
  authority := f.authorityVector
  now := f.clock
  maxSamplesPerBatch := limits.kMaxEvidencePerBatch

def evaluationRequest (f : Fabric) (domain : DomainId) (batch : EvidenceBatch) :
    EvaluationRequest where
  domain
  evidence := batch
  epoch := f.epoch
  authority := f.authorityVector
  now := f.clock

def domainState (f : Fabric) (domain : DomainId) : DomainState := f.domains.findD domain {}

/-- What the evaluator makes of a batch under the present policy, state and topology. -/
def assessDomain (f : Fabric) (domain : DomainId) (batch : EvidenceBatch) :
    Result EvaluationOutcome :=
  CongestionEvaluator.evaluate (f.evaluationRequest domain batch) (f.domainState domain)
    f.evaluationContext

/-- The memory half of committing an evaluation. -/
def commitOutcome (f : Fabric) (domain : DomainId) (outcome : EvaluationOutcome) : Fabric :=
  { f with
    domains := f.domains.insert domain outcome.updated
    intents := if outcome.authoritative then f.intents else f.intents.erase domain }

def historyOf (f : Fabric) (domain : DomainId) (outcome : EvaluationOutcome) : HistoryEntry where
  domain
  fromState := outcome.previousState
  toState := outcome.state
  tick := f.clock
  evaluation := outcome.id
  epoch := f.epoch
  reason := text outcome.reasonCode.name

def outcomeCalls (f : Fabric) (domain : DomainId) (outcome : EvaluationOutcome) :
    List StoreCall :=
  .putDomainState outcome.updated ::
    if outcome.transitioned then [.appendHistory (f.historyOf domain outcome)] else []

def explanationOf (f : Fabric) (domain : DomainId) (outcome : EvaluationOutcome) :
    Explanation where
  domain
  state := outcome.state
  previousState := outcome.previousState
  severity := outcome.severity
  transitioned := outcome.transitioned
  authoritative := outcome.authoritative
  requiresRevalidation := outcome.requiresRevalidation
  evaluation := outcome.id
  epoch := f.epoch
  policy := f.policy.id
  policyFingerprint := f.policy.fingerprint
  authority := f.options.localAuthority
  authorityGeneration := f.authorityGeneration
  topologyGeneration := outcome.topologyGeneration
  capacityGeneration := outcome.capacityGeneration
  evaluatedTick := f.clock
  reasonCode := outcome.reasonCode
  samplesSeen := outcome.evidence.samplesSeen
  samplesAccepted := outcome.evidence.samplesAccepted
  samplesRejected := outcome.evidence.samplesRejected
  samplesDuplicate := outcome.evidence.samplesDuplicate
  resources := outcome.evidence.resources
  bindings := outcome.evidence.bindings
  conflicts := outcome.evidence.conflicts
  stale := outcome.evidence.stale
  propagation := outcome.evidence.propagation
  truncatedSections := outcome.evidence.truncatedSections

/-- Insert under a bound on the number of keys, dropping the smallest key to make room. -/
def insertBounded {α : Type} (bound : Nat) (m : SortedMap DomainId α) (domain : DomainId)
    (value : α) : SortedMap DomainId α :=
  (if m.size ≥ bound ∧ ¬m.contains domain then m.eraseFirst else m).insert domain value

def publish (f : Fabric) (domain : DomainId) (outcome : EvaluationOutcome) : Fabric :=
  { f with
    explanations := insertBounded f.options.maxExplanations f.explanations domain
      (f.explanationOf domain outcome)
    lastOutcomes := insertBounded f.options.maxExplanations f.lastOutcomes domain outcome }

def commitEvaluation (f : Fabric) (domain : DomainId) (outcome : EvaluationOutcome) :
    Fabric × Result EvaluationOutcome :=
  let f := f.commitOutcome domain outcome
  f.durably (f.makeStamp .localEvaluation) (f.outcomeCalls domain outcome) fun f =>
    (f.publish domain outcome, .ok outcome)

/-- The outcome is computed and the token asked again before anything is changed. -/
def outcomeOf (f : Fabric) (domain : DomainId) (batch : EvidenceBatch)
    (token : CancellationToken) : Result EvaluationOutcome := do
  refuseCancelled token.atStart
  refuseIf (f.hasPolicy = false) .notReady "no congestion policy is installed"
  let outcome ← f.assessDomain domain batch
  refuseCancelled token.atCommit
  return outcome

theorem outcomeOf_ok {f : Fabric} {domain : DomainId} {batch : EvidenceBatch} {token : CancellationToken}
    {outcome : EvaluationOutcome} (h : f.outcomeOf domain batch token = .ok outcome) :
    f.assessDomain domain batch = .ok outcome := by
  simp only [outcomeOf, bind_ok] at h
  obtain ⟨_, _, _, _, found, hfound, _, _, h⟩ := h
  cases h
  exact hfound

def evaluateLocked (f : Fabric) (domain : DomainId) (batch : EvidenceBatch)
    (token : CancellationToken) : Fabric × Result EvaluationOutcome :=
  f.checked (f.outcomeOf domain batch token) fun outcome => f.commitEvaluation domain outcome

def evaluateCancellable (f : Fabric) (domain : DomainId) (token : CancellationToken) :
    Fabric × Result EvaluationOutcome :=
  f.checked f.ensureOpen fun _ => f.evaluateLocked domain (f.collectEvidence domain) token

def evaluate (f : Fabric) (domain : DomainId) : Fabric × Result EvaluationOutcome :=
  f.evaluateCancellable domain {}

/-- The entry point that takes the caller's batch. -/
def evaluateRequest (f : Fabric) (request : EvaluationRequest) :
    Fabric × Result EvaluationOutcome :=
  f.checked f.ensureOpen fun _ => f.evaluateLocked request.domain request.evidence {}

/-! ### Planning -/

def planningContext (f : Fabric) : PlanningContext where
  policy := some f.policy
  topology := f.topology
  now := f.clock
  epoch := f.epoch
  authority := f.authorityVector

def interventionRecordOf (intent : InterventionIntent) : InterventionRecord where
  id := intent.id
  kind := intent.kind
  domain := intent.domain
  resource := intent.resource
  basisSeverity := intent.basisSeverity
  evidence := intent.evidence
  evaluation := intent.evaluation
  epoch := intent.epoch
  authorityGeneration := intent.authorityGeneration
  policy := intent.policy
  provenance := intent.provenance
  recordedTick := intent.issuedTick
  parameter := intent.parameter

def activeIntents (f : Fabric) (domain : DomainId) : List InterventionIntent :=
  f.intents.findD domain []

/-- The unexpired outstanding intents, the newest up to the bound. -/
def retainedIntents (f : Fabric) (domain : DomainId) : List InterventionIntent :=
  let retained := (f.activeIntents domain).filter fun intent => !intent.expiredAt f.clock
  retained.drop (retained.length - f.options.maxActiveInterventions)

/-- The authorized intents still bound to the live authority vector. -/
def boundIntents (f : Fabric) (plan : InterventionPlan) : List InterventionIntent :=
  plan.authorized.filter (·.boundTo f.authorityVector)

def explainPlan (f : Fabric) (domain : DomainId) (plan : InterventionPlan) :
    SortedMap DomainId Explanation :=
  match f.explanations.find? domain with
  | none => f.explanations
  | some explanation =>
    f.explanations.insert domain { explanation with
      authorized := plan.authorized, suppressed := plan.suppressed }

def planOutcome (f : Fabric) (domain : DomainId) (outcome : EvaluationOutcome) :
    Fabric × Result InterventionPlan :=
  f.checked (InterventionPlanner.plan outcome f.planningContext (f.activeIntents domain))
    fun plan =>
      let retained := f.retainedIntents domain
      let bound := f.boundIntents plan
      f.durably (f.makeStamp .localEvaluation)
        (bound.map fun intent => .appendIntervention (interventionRecordOf intent)) fun f =>
        ({ f with
            intents := f.intents.insert domain (retained ++ bound)
            explanations := f.explainPlan domain plan }, .ok plan)

/-- The first critical section of a plan: evaluate and commit. -/
def planEvaluate (f : Fabric) (domain : DomainId) (token : CancellationToken) :
    Fabric × Result EvaluationOutcome :=
  f.checked (refuseCancelled token.beforePlan) fun _ => f.evaluateCancellable domain token

/-- The second critical section of a plan: plan from the outcome the first one returned. -/
def planCommit (f : Fabric) (domain : DomainId) (outcome : EvaluationOutcome) :
    Fabric × Result InterventionPlan :=
  f.checked f.ensureOpen fun _ => f.planOutcome domain outcome

/-- A plan whose two critical sections follow each other. -/
def planCancellable (f : Fabric) (domain : DomainId) (token : CancellationToken) :
    Fabric × Result InterventionPlan :=
  match f.planEvaluate domain token with
  | (f, .error status) => (f, .error status)
  | (f, .ok outcome) => f.planCommit domain outcome

def plan (f : Fabric) (domain : DomainId) : Fabric × Result InterventionPlan :=
  f.planCancellable domain {}

/-- Plan from the outcome cached by the last committed evaluation of the domain. -/
def planLast (f : Fabric) (domain : DomainId) : Fabric × Result InterventionPlan :=
  f.checked f.ensureOpen fun _ =>
    match f.lastOutcomes.find? domain with
    | none => (f, fail .notFound "no evaluation has been committed for this domain" domain.toText)
    | some outcome => f.planOutcome domain outcome

def explainLast (f : Fabric) (domain : DomainId) : Result Explanation :=
  match f.explanations.find? domain with
  | none => fail .notFound "no explanation is available for this domain" domain.toText
  | some explanation => .ok explanation

/-- Explain without other calls in between: evaluate once when nothing is published, then plan
from that outcome. -/
def explain (f : Fabric) (domain : DomainId) : Fabric × Result Explanation :=
  match f.explanations.find? domain with
  | some explanation => (f, .ok explanation)
  | none =>
    match f.evaluate domain with
    | (f, .error status) => (f, .error status)
    | (f, .ok _) =>
      match f.planLast domain with
      | (f, .error status) => (f, .error status)
      | (f, .ok _) => (f, f.explainLast domain)

def close (f : Fabric) : Fabric := { f with closed := true }

end Fabric

end CongestionFabric
