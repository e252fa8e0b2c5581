import CongestionFabric.Model.Evidence
import CongestionFabric.Model.Policy
import CongestionFabric.Model.State

namespace CongestionFabric

structure ConflictReport where
  resource : ResourceId := {}
  queue : QueueId := {}
  metric : MetricKind := .unknown
  lowValue : UInt64 := 0
  highValue : UInt64 := 0
  spread : UInt64 := 0
  lowPublisher : PublisherId := {}
  highPublisher : PublisherId := {}
  lowObservedTick : Tick := kNoTick
  highObservedTick : Tick := kNoTick
  resolved : Bool := false
  selectedPublisher : PublisherId := {}
  deriving DecidableEq

structure StaleReport where
  resource : ResourceId := {}
  queue : QueueId := {}
  metric : MetricKind := .unknown
  publisher : PublisherId := {}
  observedTick : Tick := kNoTick
  ageTicks : Tick := 0
  allowedAgeTicks : Tick := 0
  fromFuture : Bool := false
  beyondFutureSkew : Bool := false
  deriving DecidableEq

structure ThresholdBinding where
  resource : ResourceId := {}
  queue : QueueId := {}
  metric : MetricKind := .unknown
  op : ThresholdOp := .atLeast
  value : UInt64 := 0
  watch : UInt64 := 0
  congested : UInt64 := 0
  severe : UInt64 := 0
  level : Severity := .clear
  required : Bool := false
  degradedSource : Bool := false
  publisher : PublisherId := {}
  observedTick : Tick := kNoTick
  deriving DecidableEq

structure PropagationEdge where
  source : ResourceId := {}
  target : ResourceId := {}
  viaPath : PathId := {}
  hops : UInt32 := 1
  pressurePpm : UInt32 := 0
  induced : Severity := .clear
  applied : Bool := false
  deriving DecidableEq

structure EvidenceVector where
  batch : EvidenceBatchId := {}
  epoch : EpochId := {}
  samplesSeen : Nat := 0
  samplesAccepted : Nat := 0
  samplesRejected : Nat := 0
  samplesDuplicate : Nat := 0
  staleSamples : Nat := 0
  futureSamples : Nat := 0
  unknownMetricSamples : Nat := 0
  heartbeats : Nat := 0
  newestObservedTick : Tick := kNoTick
  oldestAcceptedTick : Tick := kNoTick
  resources : List ResourceAssessment := []
  bindings : List ThresholdBinding := []
  conflicts : List ConflictReport := []
  stale : List StaleReport := []
  propagation : List PropagationEdge := []
  truncatedSections : Nat := 0
  deriving DecidableEq

inductive ReasonCode where
  | contradictoryEvidence | evidenceStale | noEvidence | severityEscalated | severityDowngraded
  | recoveryStarted | recoveryComplete | hysteresisPending | hysteresisHold | tickRegression
  | invalidProposal | steady
  deriving DecidableEq

def ReasonCode.name : ReasonCode → String
  | contradictoryEvidence => "contradictory-evidence"
  | evidenceStale => "evidence-stale"
  | noEvidence => "no-evidence"
  | severityEscalated => "severity-escalated"
  | severityDowngraded => "severity-downgraded"
  | recoveryStarted => "recovery-started"
  | recoveryComplete => "recovery-complete"
  | hysteresisPending => "hysteresis-pending"
  | hysteresisHold => "hysteresis-hold"
  | tickRegression => "tick-regression"
  | invalidProposal => "invalid-proposal"
  | steady => "steady"

structure EvaluationOutcome where
  id : EvaluationId := {}
  domain : DomainId := {}
  state : CongestionState := .unknown
  previousState : CongestionState := .unknown
  severity : Severity := .clear
  transitioned : Bool := false
  authoritative : Bool := false
  requiresRevalidation : Bool := false
  evidence : EvidenceVector := {}
  updated : DomainState := {}
  authority : AuthorityVector := {}
  policy : PolicyId := {}
  policyFingerprint : Hash64 := {}
  topologyGeneration : TopologyGeneration := {}
  capacityGeneration : CapacityGeneration := {}
  evaluatedTick : Tick := kNoTick
  reasonCode : ReasonCode := .steady
  deriving DecidableEq

structure EvaluationRequest where
  domain : DomainId := {}
  evidence : EvidenceBatch := {}
  epoch : EpochId := {}
  authority : AuthorityVector := {}
  now : Tick := kNoTick
  onlyResource : ResourceId := {}
  deriving DecidableEq

/-! ### Intervention intent -/

structure InterventionIntent where
  id : InterventionId := {}
  kind : InterventionKind := .none
  domain : DomainId := {}
  resource : ResourceId := {}
  trafficClass : ClassId := {}
  basisSeverity : Severity := .clear
  basisState : CongestionState := .unknown
  evidence : EvidenceSnapshotId := {}
  evaluation : EvaluationId := {}
  epoch : EpochId := {}
  authorityGeneration : AuthorityGeneration := {}
  policy : PolicyId := {}
  policyFingerprint : Hash64 := {}
  provenance : ProvenanceId := {}
  issuedTick : Tick := kNoTick
  expiresTick : Tick := 0
  parameter : UInt64 := 0
  priority : UInt32 := 100
  parameterClamped : Bool := false
  rationale : String := ""
  deriving DecidableEq

namespace InterventionIntent

def expiredAt (intent : InterventionIntent) (now : Tick) : Bool :=
  intent.expiresTick ≠ 0 && now > intent.expiresTick

/-- Still bound to exactly this authority vector. -/
def boundTo (intent : InterventionIntent) (v : AuthorityVector) : Bool :=
  intent.epoch = v.epoch && intent.authorityGeneration = v.generation &&
    intent.policy = v.policy && intent.policyFingerprint = v.policyFingerprint

end InterventionIntent

structure SuppressedIntervention where
  kind : InterventionKind := .none
  domain : DomainId := {}
  resource : ResourceId := {}
  trafficClass : ClassId := {}
  reason : SuppressionReason := .none
  detail : String := ""
  deriving DecidableEq

structure InterventionPlan where
  evaluation : EvaluationId := {}
  domain : DomainId := {}
  epoch : EpochId := {}
  authorityGeneration : AuthorityGeneration := {}
  policy : PolicyId := {}
  policyFingerprint : Hash64 := {}
  plannedTick : Tick := kNoTick
  authorized : List InterventionIntent := []
  suppressed : List SuppressedIntervention := []
  deriving DecidableEq

structure InterventionRecord where
  id : InterventionId := {}
  kind : InterventionKind := .none
  domain : DomainId := {}
  resource : ResourceId := {}
  basisSeverity : Severity := .clear
  evidence : EvidenceSnapshotId := {}
  evaluation : EvaluationId := {}
  epoch : EpochId := {}
  authorityGeneration : AuthorityGeneration := {}
  policy : PolicyId := {}
  provenance : ProvenanceId := {}
  recordedTick : Tick := kNoTick
  parameter : UInt64 := 0
  deriving DecidableEq

def computeInterventionId (intent : InterventionIntent) : InterventionId := Id.run do
  let mut h : Hasher := {}
  h := h.updateU8 intent.kind.toRaw
  h := h.updateU64 intent.domain.value
  h := h.updateU64 intent.resource.value
  h := h.updateU64 intent.trafficClass.value
  h := h.updateU8 intent.basisSeverity.toRaw
  h := h.updateU8 intent.basisState.toRaw
  h := h.updateU64 intent.evidence.value
  h := h.updateU64 intent.evaluation.value
  h := h.updateU64 intent.epoch.value
  h := h.updateU64 intent.authorityGeneration.value
  h := h.updateU64 intent.policy.value
  h := h.updateU64 intent.policyFingerprint.value
  h := h.updateU64 intent.parameter
  h := h.updateU64 intent.issuedTick
  return ⟨h.finish.value⟩

def kMaxRationaleBytes : Nat := 512

def validateIntent (intent : InterventionIntent) : VoidResult := do
  refuseIf (intent.kind = .none ∨ intent.kind = .count) .invalidArgument
    "intervention intent has no kind"
  refuseIf (¬intent.domain.valid) .invalidArgument "intervention intent has no domain"
  refuseIf (¬isAuthoritative intent.basisState) .unauthorized
    "intervention intent is based on a non-authoritative state"
  refuseIf (¬intent.evidence.valid) .invalidArgument
    "intervention intent is not bound to an evidence snapshot"
  refuseIf (¬intent.evaluation.valid) .invalidArgument
    "intervention intent is not bound to an evaluation"
  refuseIf (¬intent.epoch.valid) .invalidArgument
    "intervention intent is not bound to an epoch"
  refuseIf (¬intent.authorityGeneration.valid) .invalidArgument
    "intervention intent is not bound to an authority generation"
  refuseIf (¬intent.policy.valid ∨ intent.policyFingerprint.value = 0) .invalidArgument
    "intervention intent is not bound to a policy"
  refuseIf (intent.issuedTick = kNoTick) .invalidArgument
    "intervention intent has no issue tick"
  refuseIf (intent.expiresTick ≠ 0 ∧ intent.expiresTick < intent.issuedTick) .invalidArgument
    "intervention intent expires before it was issued"
  refuseIf (intent.rationale.utf8ByteSize > kMaxRationaleBytes) .limitExceeded
    "intervention rationale exceeds its bound"

end CongestionFabric
