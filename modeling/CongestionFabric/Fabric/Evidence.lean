import CongestionFabric.Fabric.Authority

namespace CongestionFabric

structure IngestReport where
  accepted : Nat := 0
  rejected : Nat := 0
  duplicate : Nat := 0
  fenced : Nat := 0
  epochMismatch : Nat := 0
  regressed : Nat := 0
  capacityRejected : Nat := 0
  deriving DecidableEq

namespace IngestReport

def rejectWith (report : IngestReport) (count : IngestReport → IngestReport) : IngestReport :=
  let report := count report
  { report with rejected := report.rejected + 1 }

def acceptOne (report : IngestReport) : IngestReport :=
  { report with accepted := report.accepted + 1 }

end IngestReport

namespace Fabric

def windowKey (sample : EvidenceSample) : WindowKey :=
  ⟨sample.resource, sample.queue, sample.publisher⟩

/-- A sample replaces an older one of its key; a replayed or reordered one does not. -/
def supersedes (sample previous : EvidenceSample) : Bool :=
  sample.generation > previous.generation ||
    (sample.generation = previous.generation &&
      (sample.sequence ≠ 0 && previous.sequence ≠ 0 && sample.sequence > previous.sequence))

def received (f : Fabric) (sample : EvidenceSample) : EvidenceSample :=
  let sample := { sample with receivedTick := f.clock }
  { sample with snapshot := computeSnapshotId sample }

def noteSeen (f : Fabric) (registration : PublisherRegistration) (sample : EvidenceSample) :
    Fabric :=
  { f with
    publishers := f.publishers.insert sample.publisher { registration with
      lastSeenTick := f.clock
      alive := true
      lastGeneration := max registration.lastGeneration sample.generation
      lastSequence :=
        if sample.sequence > registration.lastSequence then sample.sequence
        else registration.lastSequence } }

/-- Put a received sample into the window, or say why it does not go in; heartbeats stay out. -/
def admitToWindow (f : Fabric) (sample : EvidenceSample) :
    Except (IngestReport → IngestReport) Fabric :=
  if sample.isHeartbeat then .ok f
  else match f.evidence.find? (windowKey sample) with
    | none =>
      if f.evidence.size ≥ f.options.maxEvidenceEntries then
        .error fun report =>
          report.rejectWith fun r => { r with capacityRejected := r.capacityRejected + 1 }
      else .ok { f with evidence := f.evidence.insert (windowKey sample) sample }
    | some previous =>
      if supersedes sample previous then
        .ok { f with evidence := f.evidence.insert (windowKey sample) sample }
      -- a duplicate is not counted as rejected
      else .error fun report => { report with duplicate := report.duplicate + 1 }

def ingestSample (acc : Fabric × IngestReport) (sample : EvidenceSample) :
    Fabric × IngestReport :=
  let (f, report) := acc
  if ¬sample.resource.valid then (f, report.rejectWith id)
  else if sample.epoch ≠ f.epoch then
    (f, report.rejectWith fun r => { r with epochMismatch := r.epochMismatch + 1 })
  else match f.registered sample.publisher sample.publisherBoot with
    | none => (f, report.rejectWith fun r => { r with fenced := r.fenced + 1 })
    | some registration =>
      if f.isFenced sample.publisher sample.publisherBoot then
        (f, report.rejectWith fun r => { r with fenced := r.fenced + 1 })
      else if sample.generation < registration.lastGeneration then
        (f, report.rejectWith fun r => { r with regressed := r.regressed + 1 })
      else
        let sample := f.received sample
        match f.admitToWindow sample with
        | .error count => (f, count report)
        | .ok f => (f.noteSeen registration sample, report.acceptOne)

def ingest (f : Fabric) (batch : EvidenceBatch) : Fabric × Result IngestReport :=
  f.checked (do
    refuseIf (batch.samples.length > limits.kMaxEvidencePerBatch) .limitExceeded
      "evidence batch exceeds the permitted sample count"
    f.ensureOpen) fun _ =>
    let (f, report) := batch.samples.foldl ingestSample (f, {})
    (f, .ok report)

/-- The samples of the window an evaluation of a domain reads. -/
def windowSamples (f : Fabric) (domain : DomainId) : List EvidenceSample :=
  let scope := (f.topology.map (·.domainResources domain)).getD []
  (f.evidence.values.filter fun sample => scope = [] || decide (sample.resource ∈ scope)).take
    limits.kMaxEvidencePerBatch

def collectEvidence (f : Fabric) (domain : DomainId) : EvidenceBatch :=
  let batch : EvidenceBatch := {
    epoch := f.epoch
    submittedTick := f.clock
    provenance := computeProvenanceId .localIngest {} f.boot f.epoch f.clock
    samples := f.windowSamples domain }
  { batch with id := computeBatchId batch }

end Fabric

end CongestionFabric
