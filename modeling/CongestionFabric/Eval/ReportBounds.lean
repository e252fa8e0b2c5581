import CongestionFabric.Eval.OrderFree
import CongestionFabric.Eval.Planner
import CongestionFabric.Lib.CappedService

namespace CongestionFabric

/-- The bounds on what an explanation lists. -/
structure ReportBounds where
  entries : UInt64
  conflicts : UInt64
  stale : UInt64
  deriving DecidableEq

/-- The policy with other bounds on what an explanation lists; a validated one also carries the
fingerprint of those. -/
def CongestionPolicy.reporting (policy : CongestionPolicy) (bounds : ReportBounds)
    (fingerprint : Hash64) : CongestionPolicy :=
  { policy with
    limits := { policy.limits with
      maxExplanationEntries := bounds.entries
      maxConflictReports := bounds.conflicts
      maxStaleReports := bounds.stale }
    fingerprint }

/-- What is counted of the evidence, without the lists that are bounded. -/
def EvidenceVector.tallied (evidence : EvidenceVector) : EvidenceVector :=
  { evidence with
    resources := [], bindings := [], conflicts := [], stale := [], propagation := []
    truncatedSections := 0 }

namespace CongestionEvaluator

variable {policy : CongestionPolicy} {bounds : ReportBounds} {fingerprint : Hash64}
  {request : EvaluationRequest} {context : EvaluationContext} {prior : DomainState}
  {resources : List ResourceId}

/-! ### The bounds do not decide what an evaluation commits -/

theorem noteStale_tallied (policy : CongestionPolicy) (evidence : EvidenceVector)
    (report : StaleReport) : (noteStale policy evidence report).tallied =
      { evidence.tallied with staleSamples := evidence.tallied.staleSamples + 1 } := by
  unfold noteStale
  dsimp only
  split <;> rfl

/-- Two passes over one sample that differ in what they listed. -/
structure SamePass (p p' : SamplePass) : Prop where
  readings : p'.readings = p.readings
  evidence : p'.evidence.tallied = p.evidence.tallied
  accepted : p'.acceptedAny = p.acceptedAny
  refused : p'.refusedAny = p.refusedAny

/-- Two admissions that differ in what they listed. -/
structure SameAdmission (a a' : Admission) : Prop where
  readings : a'.readings = a.readings
  seen : a'.seenSnapshots = a.seenSnapshots
  evidence : a'.evidence.tallied = a.evidence.tallied

theorem admitMetric_reporting {now : Tick} {sample : EvidenceSample}
    {snapshot : EvidenceSnapshotId} {p p' : SamplePass} (h : SamePass p p') (metric : MetricKind) :
    SamePass (admitMetric policy now sample snapshot p metric)
      (admitMetric (policy.reporting bounds fingerprint) now sample snapshot p' metric) := by
  obtain ⟨hreadings, hevidence, haccepted, hrefused⟩ := h
  have hage : ageOf (policy.reporting bounds fingerprint) now sample.observedTick metric =
      ageOf policy now sample.observedTick metric := rfl
  unfold admitMetric
  rw [hage, hreadings]
  cases sample.metrics.get metric with
  | none => exact ⟨hreadings, hevidence, haccepted, hrefused⟩
  | some value =>
    dsimp only
    generalize ageOf policy now sample.observedTick metric = a
    have hfuture : (if a.age.fromFuture = true then
          { p'.evidence with futureSamples := p'.evidence.futureSamples + 1 }
        else p'.evidence).tallied =
        (if a.age.fromFuture = true then
          { p.evidence with futureSamples := p.evidence.futureSamples + 1 }
        else p.evidence).tallied := by
      split
      · exact congrArg (fun e : EvidenceVector =>
          { e with futureSamples := e.futureSamples + 1 }) hevidence
      · exact hevidence
    split
    · refine ⟨rfl, ?_, haccepted, rfl⟩
      dsimp only
      rw [noteStale_tallied, noteStale_tallied, hfuture]
    · split
      · exact ⟨rfl, hfuture, haccepted, hrefused⟩
      · exact ⟨rfl, hfuture, rfl, hrefused⟩

theorem foldl_admitMetric_reporting {now : Tick} {sample : EvidenceSample}
    {snapshot : EvidenceSnapshotId} (metrics : List MetricKind) {p p' : SamplePass}
    (h : SamePass p p') :
    SamePass (metrics.foldl (admitMetric policy now sample snapshot) p)
      (metrics.foldl (admitMetric (policy.reporting bounds fingerprint) now sample snapshot) p') := by
  induction metrics generalizing p p' with
  | nil => exact h
  | cons metric rest ih => exact ih (admitMetric_reporting h metric)

theorem noteAccepted_tallied {p p' : SamplePass} (h : SamePass p p') (sample : EvidenceSample) :
    (noteAccepted sample p').tallied = (noteAccepted sample p).tallied := by
  have hcounts : ∀ q : SamplePass, (noteAccepted sample q).tallied =
      (noteAccepted sample { q with evidence := q.evidence.tallied }).tallied := by
    intro q
    unfold noteAccepted
    dsimp only
    split
    · rfl
    · split <;> rfl
  rw [hcounts p', hcounts p, h.evidence]
  unfold noteAccepted
  dsimp only
  rw [h.accepted, h.refused]

theorem admitSample_reporting {now : Tick} {sample : EvidenceSample} {a a' : Admission}
    (h : SameAdmission a a') :
    SameAdmission (admitSample policy context now resources a sample)
      (admitSample (policy.reporting bounds fingerprint) context now resources a' sample) := by
  obtain ⟨hreadings, hseen, hevidence⟩ := h
  unfold admitSample
  rw [hseen]
  split
  · refine ⟨hreadings, rfl, ?_⟩
    unfold noteIneligible
    dsimp only
    split
    · exact congrArg (fun e : EvidenceVector =>
        { e with samplesRejected := e.samplesRejected + 1 }) hevidence
    · split
      · exact hevidence
      · split
        · exact congrArg (fun e : EvidenceVector =>
            { e with heartbeats := e.heartbeats + 1 }) hevidence
        · exact congrArg (fun e : EvidenceVector =>
            { e with samplesRejected := e.samplesRejected + 1 }) hevidence
  · split
    · exact ⟨hreadings, rfl, congrArg (fun e : EvidenceVector =>
        { e with samplesDuplicate := e.samplesDuplicate + 1 }) hevidence⟩
    · have hstart : SamePass { readings := a.readings, evidence := a.evidence }
          { readings := a'.readings, evidence := a'.evidence } := ⟨hreadings, hevidence, rfl, rfl⟩
      have hpass : SamePass
          ((ruleMetrics policy).foldl (admitMetric policy now sample (snapshotOf sample))
            { readings := a.readings, evidence := a.evidence })
          ((ruleMetrics policy).foldl
            (admitMetric (policy.reporting bounds fingerprint) now sample (snapshotOf sample))
            { readings := a'.readings, evidence := a'.evidence }) :=
        foldl_admitMetric_reporting (ruleMetrics policy) hstart
      exact ⟨hpass.readings, rfl, noteAccepted_tallied hpass sample⟩

theorem admitSamples_reporting :
    SameAdmission (admitSamples request policy context resources)
      (admitSamples request (policy.reporting bounds fingerprint) context resources) := by
  have hfold : ∀ (samples : List EvidenceSample) (a a' : Admission), SameAdmission a a' →
      SameAdmission (samples.foldl (admitSample policy context request.now resources) a)
        (samples.foldl (admitSample (policy.reporting bounds fingerprint) context request.now
          resources) a') := by
    intro samples
    induction samples with
    | nil => exact fun a a' h => h
    | cons sample rest ih => exact fun a a' h => ih _ _ (admitSample_reporting h)
  exact hfold _ _ _ ⟨rfl, rfl, rfl⟩

theorem noteConflict_tallied (policy : CongestionPolicy) (evidence : EvidenceVector)
    (report : ConflictReport) : (noteConflict policy evidence report).tallied = evidence.tallied := by
  unfold noteConflict
  split <;> rfl

theorem resolve_tallied (policy : CongestionPolicy) (admission : Admission) :
    (resolve policy admission).evidence.tallied = admission.evidence.tallied := by
  have hkey : ∀ (acc : Resolution) (entry : ReadingKey × List Reading),
      (resolveKey policy acc entry).evidence.tallied = acc.evidence.tallied := by
    intro acc entry
    unfold resolveKey
    split
    · rfl
    · dsimp only
      split
      · rfl
      · split <;> exact noteConflict_tallied _ _ _
  have hfold : ∀ (entries : List (ReadingKey × List Reading)) (acc : Resolution),
      (entries.foldl (resolveKey policy) acc).evidence.tallied = acc.evidence.tallied := by
    intro entries
    induction entries with
    | nil => exact fun acc => rfl
    | cons entry rest ih => exact fun acc => (ih _).trans (hkey acc entry)
  exact hfold _ _

theorem noteBindings_tallied (policy : CongestionPolicy) (tallies : List Tally)
    (evidence : EvidenceVector) :
    (tallies.foldl (noteBindings policy) evidence).tallied = evidence.tallied := by
  have hone : ∀ (resource : ResourceId) (outcomes : List (ThresholdRule × RuleOutcome))
      (evidence : EvidenceVector),
      (outcomes.foldl (noteBinding policy resource) evidence).tallied = evidence.tallied := by
    intro resource outcomes
    induction outcomes with
    | nil => exact fun evidence => rfl
    | cons bound rest ih =>
      intro evidence
      refine (ih _).trans ?_
      unfold noteBinding
      dsimp only
      split <;> rfl
  induction tallies generalizing evidence with
  | nil => rfl
  | cons t rest ih => exact (ih _).trans (hone _ _ _)

theorem classifyScope_tallied : (classifyScope request policy context resources).evidence.tallied =
    (admitSamples request policy context resources).evidence.tallied := by
  unfold classifyScope
  exact (noteBindings_tallied _ _ _).trans (resolve_tallied _ _)

theorem reportResources_tallied (a : Assessed) :
    (reportResources policy a).tallied = a.evidence.tallied := by
  unfold reportResources
  dsimp only
  split <;> rfl

/-- The bounds do not decide which readings are chosen. -/
theorem resolve_reporting :
    (resolve (policy.reporting bounds fingerprint)
      (admitSamples request (policy.reporting bounds fingerprint) context resources)).decisions =
      (resolve policy (admitSamples request policy context resources)).decisions := by
  have hreadings := (@admitSamples_reporting policy bounds fingerprint request context
    resources).readings
  have hdecide : decideKey (policy.reporting bounds fingerprint) = decideKey policy := rfl
  rw [resolve_decisions, resolve_decisions, hreadings, hdecide]

theorem classify_reporting (resource : ResourceId) :
    (classify (policy.reporting bounds fingerprint) (tallyResource
        (policy.reporting bounds fingerprint) (resolve (policy.reporting bounds fingerprint)
          (admitSamples request (policy.reporting bounds fingerprint) context resources))
        resource)).verdict =
      (classify policy (tallyResource policy
        (resolve policy (admitSamples request policy context resources)) resource)).verdict :=
  classify_verdict policy (tallyResource_bare policy resolve_reporting resource)

theorem classifyScope_reporting :
    aggregate (classifyScope request (policy.reporting bounds fingerprint) context
        resources).classified =
      aggregate (classifyScope request policy context resources).classified := by
  apply aggregate_verdict
  unfold classifyScope
  dsimp only
  rw [List.map_map, List.map_map, List.map_map, List.map_map]
  apply List.map_congr_left
  intro resource _
  exact classify_reporting resource

/-- What two evaluations agree on that differ in their bounds on explanations. -/
structure SameCommit (fingerprint : Hash64) (outcome outcome' : EvaluationOutcome) : Prop where
  updated : outcome'.updated = { outcome.updated with policyFingerprint := fingerprint }
  state : outcome'.state = outcome.state
  domain : outcome'.domain = outcome.domain
  authoritative : outcome'.authoritative = outcome.authoritative
  transitioned : outcome'.transitioned = outcome.transitioned
  evidence : outcome'.evidence.tallied = outcome.evidence.tallied

theorem conclude_reporting {a a' : Assessed}
    (haggregate : aggregate a'.classified = aggregate a.classified)
    (hevidence : a'.evidence.tallied = a.evidence.tallied) :
    SameCommit fingerprint (conclude request policy context prior a)
      (conclude request (policy.reporting bounds fingerprint) context prior a') := by
  have hprepare : prepare request (policy.reporting bounds fingerprint) context prior =
      { prepare request policy context prior with policyFingerprint := fingerprint } := rfl
  have hpropose : ∀ g, propose (policy.reporting bounds fingerprint) prior g =
      propose policy prior g := fun _ => rfl
  have hfold : ∀ proposal,
      foldState request (policy.reporting bounds fingerprint) context prior proposal =
        ({ (foldState request policy context prior proposal).1 with
            policyFingerprint := fingerprint },
          (foldState request policy context prior proposal).2) := by
    intro proposal
    unfold foldState
    rw [hprepare, HysteresisEngine.step_fingerprint]
    rfl
  unfold conclude
  dsimp only
  rw [haggregate, hpropose, hfold]
  refine ⟨rfl, rfl, rfl, rfl, rfl, ?_⟩
  rw [reportResources_tallied, reportResources_tallied, hevidence]

/-- Propagation raises severities and leaves the rest of a resource's report as it was. -/
theorem assess_reported {β : Type} {f : ResourceAssessment → β}
    (hf : ∀ report severity, f { report with rawSeverity := severity } = f report)
    {a : Assessed} (h : assess request policy context resources = .ok a) :
    (a.classified.map fun c => f c.assessment) = resources.map fun resource =>
      f (classify policy (tallyResource policy
        (resolve policy (admitSamples request policy context resources)) resource)).assessment := by
  have hinduced : ∀ (edges : List PropagationEdge) (c : Classified),
      f (edges.foldl induceOne c).assessment = f c.assessment := by
    intro edges
    induction edges with
    | nil => exact fun c => rfl
    | cons edge rest ih =>
      intro c
      refine (ih _).trans ?_
      unfold induceOne
      split
      · exact hf _ _
      · rfl
  have hscope : ((classifyScope request policy context resources).classified.map fun c =>
      f c.assessment) = resources.map fun resource =>
        f (classify policy (tallyResource policy
          (resolve policy (admitSamples request policy context resources))
            resource)).assessment := by
    unfold classifyScope
    dsimp only
    rw [List.map_map, List.map_map]
    rfl
  unfold assess spreadPressure at h
  split at h
  next =>
    cases h
    exact hscope
  next topology _ =>
    split at h
    next =>
      cases h
      exact hscope
    next =>
      obtain ⟨result, _, h⟩ := bind_ok.mp h
      cases h
      dsimp only
      rw [induce_foldl, List.map_map, ← hscope]
      apply List.map_congr_left
      intro c _
      exact hinduced _ c

/-- The resources of an evaluation, and whether each was read from at all. -/
theorem assess_reports {a : Assessed} (h : assess request policy context resources = .ok a) :
    (a.classified.map fun c => (c.assessment.resource, c.assessment.coverage)) =
      resources.map fun resource => (resource, (tallyResource policy
        (resolve policy (admitSamples request policy context resources)) resource).coverage) := by
  have hreported := assess_reported (f := fun report => (report.resource, report.coverage))
    (fun _ _ => rfl) h
  refine hreported.trans (List.map_congr_left fun resource _ => ?_)
  exact Prod.ext tally_resource rfl

/-- Under accepted bounds an evaluation succeeds whatever they are and commits the same. -/
theorem evaluate_reporting (haccept : Accepted (policy.reporting bounds fingerprint))
    {resources : List ResourceId} (hdomain : request.domain.valid = true)
    (hnow : request.now ≠ kNoTick)
    (hsamples : ¬request.evidence.samples.length > context.maxSamplesPerBatch)
    (hscope : scope request policy context.topology = .ok resources) (prior : DomainState) :
    ∃ a, assess request (policy.reporting bounds fingerprint) context resources = .ok a ∧
      evaluate request prior { context with policy := some (policy.reporting bounds fingerprint) } =
        .ok (conclude request (policy.reporting bounds fingerprint) context prior a) ∧
      aggregate a.classified =
        aggregate (classifyScope request policy context resources).classified ∧
      a.evidence.tallied = (admitSamples request policy context resources).evidence.tallied := by
  have hgrounded : ∀ c ∈ (classifyScope request (policy.reporting bounds fingerprint) context
      resources).classified, Grounded c := classifyScope_grounded request context
  obtain ⟨a, hassess, hneutral⟩ := spreadPressure_neutral haccept context.topology hgrounded
  refine ⟨a, hassess, ?_, ?_, ?_⟩
  · unfold evaluate
    simp only [bind_ok, refuseIf_ok, exists_const]
    exact ⟨not_not.mpr hdomain, hnow, hsamples, resources, hscope, a, hassess, rfl⟩
  · rw [hneutral.aggregate, classifyScope_reporting]
  · have htallied : a.evidence.tallied = (classifyScope request (policy.reporting bounds fingerprint)
        context resources).evidence.tallied := by
      rw [hneutral.evidence]
      rfl
    rw [htallied, classifyScope_tallied]
    exact admitSamples_reporting.evidence

end CongestionEvaluator

end CongestionFabric
