import CongestionFabric.Eval.Propagation

namespace CongestionFabric

/-- Everything an evaluation may depend on; an absent pointer of the source is `none`. -/
structure EvaluationContext where
  policy : Option CongestionPolicy := none
  topology : Option TopologyIndex := none
  capacity : Option CapacitySnapshot := none
  epoch : EpochId := {}
  authority : AuthorityVector := {}
  now : Tick := kNoTick
  maxSamplesPerBatch : Nat := limits.kMaxEvidencePerBatch

structure ReadingKey where
  resource : ResourceId := {}
  queue : QueueId := {}
  metric : MetricKind := .unknown
  deriving DecidableEq

namespace ReadingKey

def toTriple (k : ReadingKey) : ResourceId ×ₗ QueueId ×ₗ MetricKind :=
  toLex (k.resource, toLex (k.queue, k.metric))

theorem toTriple_injective : Function.Injective toTriple := by
  intro a b h
  cases a; cases b
  simpa [toTriple] using h

instance : LinearOrder ReadingKey := LinearOrder.lift' toTriple toTriple_injective

end ReadingKey

structure Reading where
  value : UInt64 := 0
  publisher : PublisherId := {}
  boot : BootId := {}
  generation : EvidenceGeneration := {}
  snapshot : EvidenceSnapshotId := {}
  observedTick : Tick := kNoTick
  degraded : Bool := false
  future : Bool := false
  deriving DecidableEq

/-- Newest observation first, then lowest publisher, then highest generation. -/
def readingBetter (candidate incumbent : Reading) : Bool :=
  if candidate.observedTick ≠ incumbent.observedTick then
    candidate.observedTick > incumbent.observedTick
  else if candidate.publisher ≠ incumbent.publisher then
    candidate.publisher < incumbent.publisher
  else candidate.generation > incumbent.generation

namespace CongestionEvaluator

def dedupe (xs : List ResourceId) : List ResourceId := SortedMap.sortedSet xs

/-- The resources an evaluation covers. -/
def scope (request : EvaluationRequest) (policy : CongestionPolicy)
    (topology : Option TopologyIndex) : Result (List ResourceId) := do
  let bound := policy.limits.maxResourcesPerDomain.toNat
  let members ← match topology with
    | some topology => do
      let members := topology.domainResources request.domain
      refuseIf (members = []) .notFound "domain has no resources in the installed topology"
      refuseIf (members.length > bound) .limitExceeded
        "domain exceeds the permitted resource count"
      pure members
    | none => do
      let members := dedupe ((request.evidence.samples.map (·.resource)).filter (·.valid))
      refuseIf (members.length > bound) .limitExceeded
        "domain exceeds the permitted resource count"
      pure members
  let resources ←
    if request.onlyResource.valid then do
      refuseIf (request.onlyResource ∉ members) .notFound
        "the requested resource is not a member of the domain"
      pure [request.onlyResource]
    else pure members
  refuseIf (resources = []) .notFound "domain has no resources to evaluate"
  return resources

def ruleMetrics (policy : CongestionPolicy) : List MetricKind :=
  SortedMap.sortedSet (policy.rules.map (·.metric))

/-- How old an observation is, and whether that refuses it for a metric. -/
structure Age where
  age : TickAge
  maxAge : Tick
  beyondSkew : Bool
  tooOld : Bool

def ageOf (policy : CongestionPolicy) (now observed : Tick) (metric : MetricKind) : Age :=
  let age := tickAge now observed
  let maxAge := policy.maxAgeFor metric
  { age, maxAge
    beyondSkew := age.fromFuture && age.age > policy.freshness.maxFutureSkewTicks
    tooOld := !age.fromFuture && age.age > maxAge }

def Age.fresh (a : Age) : Bool := !(a.beyondSkew || a.tooOld)

structure Admission where
  readings : SortedMap ReadingKey (List Reading) := ∅
  seenSnapshots : List EvidenceSnapshotId := []
  evidence : EvidenceVector := {}

/-- The admission with what one sample has contributed so far. -/
structure SamplePass where
  readings : SortedMap ReadingKey (List Reading)
  evidence : EvidenceVector
  acceptedAny : Bool := false
  refusedAny : Bool := false

def noteStale (policy : CongestionPolicy) (evidence : EvidenceVector) (report : StaleReport) :
    EvidenceVector :=
  let evidence := { evidence with staleSamples := evidence.staleSamples + 1 }
  if evidence.stale.length < policy.limits.maxStaleReports.toNat then
    { evidence with stale := evidence.stale ++ [report] }
  else { evidence with truncatedSections := evidence.truncatedSections + 1 }

def keyOf (sample : EvidenceSample) (metric : MetricKind) : ReadingKey :=
  ⟨sample.resource, sample.queue, metric⟩

def readingOf (sample : EvidenceSample) (snapshot : EvidenceSnapshotId) (now : Tick)
    (fromFuture : Bool) (value : UInt64) : Reading where
  value
  snapshot
  publisher := sample.publisher
  boot := sample.publisherBoot
  generation := sample.generation
  observedTick := if fromFuture then now else sample.observedTick
  degraded := sample.isDegraded
  future := fromFuture

def admitMetric (policy : CongestionPolicy) (now : Tick) (sample : EvidenceSample)
    (snapshot : EvidenceSnapshotId) (acc : SamplePass) (metric : MetricKind) : SamplePass :=
  match sample.metrics.get metric with
  | none => acc
  | some value =>
    let a := ageOf policy now sample.observedTick metric
    let evidence :=
      if a.age.fromFuture then
        { acc.evidence with futureSamples := acc.evidence.futureSamples + 1 }
      else acc.evidence
    if !a.fresh then
      { acc with
        refusedAny := true
        evidence := noteStale policy evidence {
          resource := sample.resource, queue := sample.queue, metric
          publisher := sample.publisher, observedTick := sample.observedTick
          ageTicks := a.age.age, allowedAgeTicks := a.maxAge
          fromFuture := a.age.fromFuture, beyondFutureSkew := a.beyondSkew } }
    else if (acc.readings.findD (keyOf sample metric) []).length ≥
        limits.kMaxContradictionPeers then
      { acc with
        evidence := { evidence with truncatedSections := evidence.truncatedSections + 1 } }
    else
      { acc with
        readings := acc.readings.push (keyOf sample metric)
          (readingOf sample snapshot now a.age.fromFuture value)
        evidence
        acceptedAny := true }

def snapshotOf (sample : EvidenceSample) : EvidenceSnapshotId :=
  if sample.snapshot.valid then sample.snapshot else computeSnapshotId sample

/-- The tests a sample passes before its metrics are read, duplicates aside. -/
def eligible (context : EvaluationContext) (scope : List ResourceId) (sample : EvidenceSample) :
    Bool :=
  sample.resource.valid && decide (sample.resource ∈ scope) && !sample.isHeartbeat &&
    !(context.epoch.valid && sample.epoch ≠ context.epoch) &&
    (context.topology.all fun topology => topology.contains sample.resource)

/-- Count a sample that is not eligible. -/
def noteIneligible (scope : List ResourceId) (sample : EvidenceSample)
    (evidence : EvidenceVector) : EvidenceVector :=
  if !sample.resource.valid then
    { evidence with samplesRejected := evidence.samplesRejected + 1 }
  else if sample.resource ∉ scope then evidence
  else if sample.isHeartbeat then { evidence with heartbeats := evidence.heartbeats + 1 }
  else { evidence with samplesRejected := evidence.samplesRejected + 1 }

def noteAccepted (sample : EvidenceSample) (pass : SamplePass) : EvidenceVector :=
  let evidence := pass.evidence
  if pass.acceptedAny then
    { evidence with
      samplesAccepted := evidence.samplesAccepted + 1
      newestObservedTick :=
        if evidence.newestObservedTick = kNoTick ∨
            sample.observedTick > evidence.newestObservedTick then sample.observedTick
        else evidence.newestObservedTick
      oldestAcceptedTick :=
        if evidence.oldestAcceptedTick = kNoTick ∨
            sample.observedTick < evidence.oldestAcceptedTick then sample.observedTick
        else evidence.oldestAcceptedTick }
  else if !pass.refusedAny then
    { evidence with unknownMetricSamples := evidence.unknownMetricSamples + 1 }
  else evidence

def admitSample (policy : CongestionPolicy) (context : EvaluationContext) (now : Tick)
    (scope : List ResourceId) (acc : Admission) (sample : EvidenceSample) : Admission :=
  if !eligible context scope sample then
    { acc with evidence := noteIneligible scope sample acc.evidence }
  else if snapshotOf sample ∈ acc.seenSnapshots then
    { acc with
      evidence := { acc.evidence with samplesDuplicate := acc.evidence.samplesDuplicate + 1 } }
  else
    let pass := (ruleMetrics policy).foldl (admitMetric policy now sample (snapshotOf sample))
      { readings := acc.readings, evidence := acc.evidence }
    { readings := pass.readings
      seenSnapshots := snapshotOf sample :: acc.seenSnapshots
      evidence := noteAccepted sample pass }

def admitSamples (request : EvaluationRequest) (policy : CongestionPolicy)
    (context : EvaluationContext) (scope : List ResourceId) : Admission :=
  request.evidence.samples.foldl (admitSample policy context request.now scope)
    { evidence := {
        batch := request.evidence.id, epoch := request.epoch
        samplesSeen := request.evidence.samples.length } }

end CongestionEvaluator

end CongestionFabric
