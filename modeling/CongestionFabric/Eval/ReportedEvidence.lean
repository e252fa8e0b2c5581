import CongestionFabric.Eval.MissingEvidence
import CongestionFabric.Eval.ReportBounds
import CongestionFabric.Eval.SampleLedger

namespace CongestionFabric

/-! ### The edges of a propagation -/

namespace PropagationEngine

variable {policy : PropagationPolicy} {topology : TopologyIndex} {sources : List Source}
  {maxEdges : Nat} {result : PropagationResult}

/-- The edge to a resource under the most pressure that reaches it, if it induces something. -/
def edgeOf (policy : PropagationPolicy) (entry : ResourceId × Target) : Option PropagationEdge :=
  let induced := inducedSeverity policy entry.2
  if induced = .clear then none
  else some {
    source := entry.2.source, target := entry.1, viaPath := entry.2.viaPath
    hops := entry.2.hops, pressurePpm := entry.2.pressurePpm, induced }

/-- The edges of a propagation without a bound. -/
def emittedEdges (topology : TopologyIndex) (sources : List Source) (policy : PropagationPolicy) :
    List PropagationEdge :=
  ((orderSources sources).foldl (spreadSource topology policy) ∅).entries.filterMap (edgeOf policy)

/-- What a propagation has emitted of its edges so far. -/
structure Emitted (maxEdges : Nat) (all : List PropagationEdge) (out : PropagationResult) :
    Prop where
  edges : out.edges = all.take maxEdges
  truncated : out.truncated = decide (maxEdges < all.length)

theorem emit_emitted {edges : List PropagationEdge} {out : PropagationResult}
    (h : Emitted maxEdges edges out) (entry : ResourceId × Target) :
    Emitted maxEdges (edges ++ (edgeOf policy entry).toList) (emit policy maxEdges out entry) := by
  obtain ⟨hedges, htruncated⟩ := h
  unfold emit edgeOf
  dsimp only
  by_cases hclear : inducedSeverity policy entry.2 = .clear
  · rw [if_pos hclear, if_pos hclear, Option.toList_none, List.append_nil]
    exact ⟨hedges, htruncated⟩
  · rw [if_neg hclear, if_neg hclear, Option.toList_some, hedges]
    split
    next hfull =>
      have hlong : maxEdges < edges.length + 1 := by
        rw [List.length_take] at hfull
        omega
      constructor
      · exact (List.take_concat_of_full (not_lt.mpr hfull) _).symm
      · rw [List.length_append, List.length_singleton, decide_eq_true hlong]
    next hroom =>
      have hshort : ¬maxEdges < edges.length ∧ ¬maxEdges < edges.length + 1 := by
        rw [List.length_take] at hroom
        omega
      constructor
      · exact (List.take_concat_of_room (not_le.mp hroom) _).symm
      · rw [List.length_append, List.length_singleton, decide_eq_false hshort.2]
        exact htruncated.trans (decide_eq_false hshort.1)

theorem foldl_emit_emitted (entries : List (ResourceId × Target)) {edges : List PropagationEdge}
    {out : PropagationResult} (h : Emitted maxEdges edges out) :
    Emitted maxEdges (edges ++ entries.filterMap (edgeOf policy))
      (entries.foldl (emit policy maxEdges) out) := by
  induction entries generalizing edges out with
  | nil => rwa [List.filterMap_nil, List.append_nil]
  | cons entry rest ih =>
    have hrest := ih (@emit_emitted policy _ _ _ h entry)
    rw [List.append_assoc] at hrest
    cases hedge : edgeOf policy entry with
    | none => simpa [hedge] using hrest
    | some edge => simpa [hedge] using hrest

/-- Pressure that may go nowhere reaches nothing. -/
theorem emittedEdges_flat (hdepth : policy.maxDepth = 0) :
    emittedEdges topology sources policy = [] := by
  have hstays : ∀ source (best : SortedMap ResourceId Target),
      spreadSource topology policy best source = best := by
    intro source best
    unfold spreadSource
    rw [hdepth]
    split <;> rfl
  have hnone : (orderSources sources).foldl (spreadSource topology policy) ∅ = ∅ := by
    induction orderSources sources with
    | nil => rfl
    | cons source rest ih => rwa [List.foldl_cons, hstays]
  unfold emittedEdges
  rw [hnone]
  rfl

theorem propagate_emitted (henabled : policy.enabled = true)
    (h : propagate topology sources policy maxEdges = .ok result) :
    Emitted maxEdges (emittedEdges topology sources policy) result := by
  have hnothing : emittedEdges topology sources policy = [] → (.ok {} : Result PropagationResult) =
      .ok result → Emitted maxEdges (emittedEdges topology sources policy) result := by
    intro hnil hresult
    obtain rfl := Except.ok.inj hresult
    rw [hnil]
    exact ⟨List.take_nil.symm, rfl⟩
  unfold propagate at h
  split at h
  next hskip =>
    rcases hskip with hoff | hdepth | hnone
    · simp [henabled] at hoff
    · exact hnothing (emittedEdges_flat hdepth) h
    · subst hnone
      exact hnothing rfl h
  next =>
    split at h
    next => cases h
    next =>
      obtain rfl := Except.ok.inj h
      have hstart : Emitted maxEdges [] {} := ⟨List.take_nil.symm, rfl⟩
      exact foldl_emit_emitted _ hstart

end PropagationEngine

namespace CongestionEvaluator

variable {policy : CongestionPolicy} {context : EvaluationContext} {request : EvaluationRequest}
  {resources : List ResourceId} {found : Findings} {evidence : EvidenceVector}

/-! ### Contradictions and bindings -/

/-- The report of a key whose publishers disagree beyond the tolerance. -/
def conflictOf (policy : CongestionPolicy) (entry : ReadingKey × List Reading) :
    Option ConflictReport :=
  match (perPublisher entry.2).values with
  | [] => none
  | first :: rest =>
    let newest := newestOf first rest
    (disagreement policy.contradiction first rest).map fun e =>
      let report := conflictReport entry.1 e
      match policy.contradiction.mode with
      | .reject => report
      | .preferHighestPriority =>
        let winner :=
          (highestPriority policy.contradiction.priorityOrder (first :: rest)).getD newest
        { report with resolved := true, selectedPublisher := winner.publisher }
      | .preferNewest => { report with resolved := true, selectedPublisher := newest.publisher }
      | .undeclared _ _ => { report with resolved := true }

theorem Reports.noteConflict (h : Reports policy found evidence) (report : ConflictReport) :
    Reports policy { found with conflicts := found.conflicts ++ [report] }
      (noteConflict policy evidence report) := by
  obtain ⟨hsamples, hstale, hconflicts, hbindings, hpropagation, hresources, htruncated⟩ := h
  unfold CongestionEvaluator.noteConflict
  rw [hconflicts]
  split
  next hroom =>
    refine ⟨hsamples, hstale, ?_, hbindings, hpropagation, hresources, ?_⟩
    · exact (List.take_concat_of_room hroom report).symm
    · dsimp only
      rw [List.excess_concat_of_room hroom]
      exact htruncated
  next hfull =>
    refine ⟨hsamples, hstale, ?_, hbindings, hpropagation, hresources, ?_⟩
    · exact (List.take_concat_of_full hfull report).symm
    · dsimp only
      rw [List.excess_concat_of_full hfull, htruncated]
      omega

theorem resolveKey_reports {acc : Resolution} (h : Reports policy found acc.evidence)
    (entry : ReadingKey × List Reading) :
    Reports policy { found with conflicts := found.conflicts ++ (conflictOf policy entry).toList }
      (resolveKey policy acc entry).evidence := by
  unfold resolveKey conflictOf
  cases (perPublisher entry.2).values with
  | nil =>
    rw [Option.toList_none, List.append_nil]
    exact h
  | cons first rest =>
    dsimp only
    cases disagreement policy.contradiction first rest with
    | none =>
      rw [Option.map_none, Option.toList_none, List.append_nil]
      exact h
    | some e =>
      rw [Option.map_some, Option.toList_some]
      dsimp only
      cases policy.contradiction.mode <;> exact h.noteConflict _

theorem resolve_reports {admission : Admission} (h : Reports policy found admission.evidence) :
    Reports policy { found with
        conflicts := found.conflicts ++ admission.readings.entries.filterMap (conflictOf policy) }
      (resolve policy admission).evidence := by
  have hfold : ∀ (entries : List (ReadingKey × List Reading)) {found : Findings}
      {acc : Resolution}, Reports policy found acc.evidence →
      Reports policy { found with
          conflicts := found.conflicts ++ entries.filterMap (conflictOf policy) }
        (entries.foldl (resolveKey policy) acc).evidence := by
    intro entries
    induction entries with
    | nil =>
      intro found acc h
      rw [List.filterMap_nil, List.append_nil]
      exact h
    | cons entry rest ih =>
      intro found acc h
      have hrest := ih (resolveKey_reports h entry)
      rw [List.append_assoc] at hrest
      cases hconflict : conflictOf policy entry with
      | none => simpa [hconflict] using hrest
      | some report => simpa [hconflict] using hrest
  exact hfold _ h

/-- A rule of the policy with what it read of a resource. -/
def bindingOf (resource : ResourceId) (bound : ThresholdRule × RuleOutcome) : ThresholdBinding where
  resource
  queue := bound.2.queue
  metric := bound.1.metric
  op := bound.1.op
  value := bound.2.value
  watch := bound.1.watch
  congested := bound.1.congested
  severe := bound.1.severe
  level := bound.2.upward
  required := bound.1.required
  degradedSource := bound.2.reading.degraded
  publisher := bound.2.reading.publisher
  observedTick := bound.2.reading.observedTick

def bindingsOf (t : Tally) : List ThresholdBinding :=
  t.outcomes.map (bindingOf t.assessment.resource)

theorem Reports.noteBinding (h : Reports policy found evidence) (resource : ResourceId)
    (bound : ThresholdRule × RuleOutcome) :
    Reports policy { found with bindings := found.bindings ++ [bindingOf resource bound] }
      (noteBinding policy resource evidence bound) := by
  obtain ⟨hsamples, hstale, hconflicts, hbindings, hpropagation, hresources, htruncated⟩ := h
  unfold CongestionEvaluator.noteBinding
  dsimp only
  rw [hbindings]
  split
  next hroom =>
    refine ⟨hsamples, hstale, hconflicts, ?_, hpropagation, hresources, ?_⟩
    · exact (List.take_concat_of_room hroom _).symm
    · dsimp only
      rw [List.excess_concat_of_room hroom]
      exact htruncated
  next hfull =>
    refine ⟨hsamples, hstale, hconflicts, ?_, hpropagation, hresources, ?_⟩
    · exact (List.take_concat_of_full hfull _).symm
    · dsimp only
      rw [List.excess_concat_of_full hfull, htruncated]
      omega

theorem Reports.noteBindings (h : Reports policy found evidence) (t : Tally) :
    Reports policy { found with bindings := found.bindings ++ bindingsOf t }
      (noteBindings policy evidence t) := by
  unfold CongestionEvaluator.noteBindings bindingsOf
  induction t.outcomes generalizing found evidence with
  | nil =>
    rw [List.map_nil, List.append_nil]
    exact h
  | cons bound rest ih =>
    have hrest := ih (h.noteBinding t.assessment.resource bound)
    rw [List.append_assoc] at hrest
    exact hrest

theorem foldl_noteBindings_reports (tallies : List Tally) (h : Reports policy found evidence) :
    Reports policy { found with bindings := found.bindings ++ tallies.flatMap bindingsOf }
      (tallies.foldl (noteBindings policy) evidence) := by
  induction tallies generalizing found evidence with
  | nil =>
    rw [List.flatMap_nil, List.append_nil]
    exact h
  | cons t rest ih =>
    have hrest := ih (h.noteBindings t)
    rw [List.append_assoc] at hrest
    exact hrest

/-! ### The report -/

/-- What the evidence says of the resources of an evaluation, before pressure is propagated. -/
def scopeFindings (request : EvaluationRequest) (policy : CongestionPolicy)
    (context : EvaluationContext) (resources : List ResourceId) : Findings :=
  let admission := admitSamples request policy context resources
  { foundIn (ledger request policy context resources) with
    conflicts := admission.readings.entries.filterMap (conflictOf policy)
    bindings := resources.flatMap fun resource =>
      bindingsOf (tallyResource policy (resolve policy admission) resource) }

/-- The edges along which the resources of an evaluation put each other under pressure. -/
def pressureEdges (policy : CongestionPolicy) (topology : Option TopologyIndex)
    (classified : List Classified) : List PropagationEdge :=
  match topology with
  | none => []
  | some topology =>
    if policy.propagation.enabled then
      (PropagationEngine.emittedEdges topology (sourcesOf classified) policy.propagation).map
        (markApplied classified)
    else []

/-- Everything an evaluation finds. -/
def findings (request : EvaluationRequest) (policy : CongestionPolicy)
    (context : EvaluationContext) (resources : List ResourceId) (assessed : Assessed) : Findings :=
  { scopeFindings request policy context resources with
    propagation := pressureEdges policy context.topology
      (classifyScope request policy context resources).classified
    resources := assessed.classified.map (·.assessment) }

theorem classifyScope_reports : Reports policy (scopeFindings request policy context resources)
    (classifyScope request policy context resources).evidence := by
  have hrecorded := (admitSamples_recorded request policy context resources).1
  have hbound := foldl_noteBindings_reports (resources.map (tallyResource policy
    (resolve policy (admitSamples request policy context resources))))
    (resolve_reports hrecorded.reports)
  rw [List.flatMap_map] at hbound
  exact hbound

theorem spreadPressure_reports {topology : Option TopologyIndex} {a a' : Assessed}
    (hnone : found.propagation = []) (hreports : Reports policy found a.evidence)
    (h : spreadPressure policy topology a = .ok a') :
    Reports policy { found with propagation := pressureEdges policy topology a.classified }
      a'.evidence := by
  obtain ⟨hsamples, hstale, hconflicts, hbindings, hpropagation, hresources, htruncated⟩ := hreports
  have hsame : ∀ {edges : List PropagationEdge}, edges = [] →
      Reports policy { found with propagation := edges } a.evidence := by
    rintro edges rfl
    rw [hnone] at hpropagation htruncated
    exact ⟨hsamples, hstale, hconflicts, hbindings, hpropagation, hresources, htruncated⟩
  unfold spreadPressure at h
  unfold pressureEdges
  cases topology with
  | none =>
    obtain rfl := Except.ok.inj h
    exact hsame rfl
  | some topology =>
    dsimp only at h ⊢
    split at h
    next hskip =>
      obtain rfl := Except.ok.inj h
      apply hsame
      rcases hskip with hoff | hquiet
      · rw [if_neg]
        simpa using hoff
      · rw [hquiet]
        split <;> rfl
    next hspread =>
      obtain ⟨hon, _⟩ := not_or.mp hspread
      have henabled : policy.propagation.enabled = true := by simpa using hon
      obtain ⟨result, hresult, h⟩ := bind_ok.mp h
      obtain rfl := Except.ok.inj h
      obtain ⟨hedges, hcut⟩ := PropagationEngine.propagate_emitted henabled hresult
      rw [if_pos henabled]
      rw [hnone] at htruncated
      refine ⟨?_, ?_, ?_, ?_, ?_, ?_, ?_⟩
      · dsimp only
        split <;> exact hsamples
      · dsimp only
        split <;> exact hstale
      · dsimp only
        split <;> exact hconflicts
      · dsimp only
        split <;> exact hbindings
      · dsimp only
        rw [hedges, List.map_take]
      · dsimp only
        split <;> exact hresources
      · dsimp only
        unfold cut at htruncated ⊢
        rw [List.length_nil, if_neg (Nat.not_lt_zero _)] at htruncated
        rw [List.length_map]
        rw [hcut]
        simp only [decide_eq_true_eq]
        split
        · dsimp only
          omega
        · omega

theorem reportResources_reports {a : Assessed} (hnone : found.resources = [])
    (h : Reports policy found a.evidence) :
    Reports policy { found with resources := a.classified.map (·.assessment) }
      (reportResources policy a) := by
  obtain ⟨hsamples, hstale, hconflicts, hbindings, hpropagation, hresources, htruncated⟩ := h
  rw [hnone] at htruncated
  unfold cut at htruncated
  rw [List.length_nil, if_neg (Nat.not_lt_zero _)] at htruncated
  unfold reportResources
  dsimp only
  split
  next hlong =>
    refine ⟨hsamples, hstale, hconflicts, hbindings, hpropagation, rfl, ?_⟩
    dsimp only
    rw [htruncated]
    unfold cut
    rw [if_pos hlong]
  next hshort =>
    refine ⟨hsamples, hstale, hconflicts, hbindings, hpropagation, rfl, ?_⟩
    dsimp only
    rw [htruncated]
    unfold cut
    rw [if_neg hshort]

/-- A report that counts nothing as left out lists everything. -/
structure Complete (found : Findings) (evidence : EvidenceVector) : Prop where
  stale : evidence.stale = found.stale
  crowded : found.crowded = 0
  conflicts : evidence.conflicts = found.conflicts
  bindings : evidence.bindings = found.bindings
  propagation : evidence.propagation = found.propagation
  resources : evidence.resources = found.resources

theorem take_of_cut_eq_zero {α : Type} {bound : Nat} {all : List α} (h : cut bound all = 0) :
    all.take bound = all := by
  apply List.take_of_length_le
  by_contra hlong
  rw [cut, if_pos (not_le.mp hlong)] at h
  exact Nat.one_ne_zero h

theorem Reports.complete (h : Reports policy found evidence)
    (hnone : evidence.truncatedSections = 0) : Complete found evidence := by
  obtain ⟨_, hstale, hconflicts, hbindings, hpropagation, hresources, htruncated⟩ := h
  rw [hnone] at htruncated
  constructor
  · exact hstale.trans (List.take_of_excess_eq_zero (by omega))
  · omega
  · exact hconflicts.trans (List.take_of_excess_eq_zero (by omega))
  · exact hbindings.trans (List.take_of_excess_eq_zero (by omega))
  · exact hpropagation.trans (take_of_cut_eq_zero (by omega))
  · exact hresources.trans (take_of_cut_eq_zero (by omega))

/-- Every entry of a ledger has one of the fates. -/
theorem countP_fates (entries : List Entry) : entries.length =
    entries.countP (·.fate = .accepted) + entries.countP (·.fate = .rejected) +
      entries.countP (·.fate = .duplicate) + entries.countP (·.fate = .heartbeat) +
      entries.countP (·.fate = .unread) + entries.countP (·.fate = .stale) +
      entries.countP (·.fate = .elsewhere) := by
  induction entries with
  | nil => rfl
  | cons entry rest ih =>
    simp only [List.countP_cons, List.length_cons, decide_eq_true_eq]
    cases entry.fate <;> simp only [reduceCtorEq, if_true, if_false] <;> omega

/-- A report that accounts for its batch: every sample has one entry in the ledger, the counters count
the entries by their fates, an entry that is only stale has stale readings, and the lists are those of
everything that was found, as far as the bounds allow. -/
structure Accounting (request : EvaluationRequest) (policy : CongestionPolicy)
    (context : EvaluationContext) (resources : List ResourceId) (assessed : Assessed)
    (evidence : EvidenceVector) : Prop where
  seen : evidence.samplesSeen = request.evidence.samples.length
  total : evidence.samplesSeen = evidence.samplesAccepted + evidence.samplesRejected +
    evidence.samplesDuplicate + evidence.heartbeats + evidence.unknownMetricSamples +
      (ledger request policy context resources).countP (·.fate = .stale) +
      (ledger request policy context resources).countP (·.fate = .elsewhere)
  counted : ∀ {fate counter}, Fate.counter fate = some counter →
    counter evidence = (ledger request policy context resources).countP (·.fate = fate)
  heard : ∀ entry ∈ ledger request policy context resources,
    entry.fate = .stale → entry.stale ≠ []
  covered : (assessed.classified.map fun c => c.assessment.resource) = resources
  reports : Reports policy (findings request policy context resources assessed) evidence

theorem SameCounters.of_tallied {e e' : EvidenceVector} (h : e'.tallied = e.tallied) :
    SameCounters e e' := by
  constructor
  · have hseen := congrArg EvidenceVector.samplesSeen h
    exact hseen
  · intro fate counter hf
    have htallied : ∀ e : EvidenceVector, counter e.tallied = counter e := by
      cases fate <;> cases hf <;> exact fun _ => rfl
    rw [← htallied e', h, htallied]

theorem spreadPressure_tallied {topology : Option TopologyIndex} {a a' : Assessed}
    (h : spreadPressure policy topology a = .ok a') : a'.evidence.tallied = a.evidence.tallied := by
  unfold spreadPressure at h
  split at h
  next =>
    obtain rfl := Except.ok.inj h
    rfl
  next =>
    split at h
    next =>
      obtain rfl := Except.ok.inj h
      rfl
    next =>
      obtain ⟨result, _, h⟩ := bind_ok.mp h
      obtain rfl := Except.ok.inj h
      dsimp only
      split <;> rfl

theorem assess_accounting {assessed : Assessed}
    (h : assess request policy context resources = .ok assessed) :
    Accounting request policy context resources assessed (reportResources policy assessed) := by
  obtain ⟨hrecorded, hseen⟩ := admitSamples_recorded request policy context resources
  have hcounters : SameCounters (admitSamples request policy context resources).evidence
      (reportResources policy assessed) :=
    .of_tallied ((reportResources_tallied assessed).trans
      ((spreadPressure_tallied h).trans classifyScope_tallied))
  have hcounted : ∀ {fate counter}, Fate.counter fate = some counter →
      counter (reportResources policy assessed) =
        (ledger request policy context resources).countP (·.fate = fate) :=
    fun hf => (hcounters.counted hf).trans (hrecorded.counted hf)
  have hseen' := hcounters.seen.trans hseen
  have hlength : (ledger request policy context resources).length =
      request.evidence.samples.length := ledgerFrom_length _ _
  constructor
  · exact hseen'
  · rw [hseen', ← hlength, countP_fates, ← @hcounted .accepted _ rfl, ← @hcounted .rejected _ rfl,
      ← @hcounted .duplicate _ rfl, ← @hcounted .heartbeat _ rfl, ← @hcounted .unread _ rfl]
  · exact hcounted
  · intro entry hentry hstale
    obtain ⟨earlier, sample, rfl⟩ := mem_ledgerFrom hentry
    exact entryOf_stale hstale
  · have hreports := congrArg (List.map Prod.fst) (assess_reports h)
    rw [List.map_map, List.map_map] at hreports
    exact hreports.trans (List.map_id resources)
  · exact reportResources_reports rfl (spreadPressure_reports rfl classifyScope_reports h)

/-- No sample and no finding disappears without a word: an evaluation reports as many samples as the
batch has, and each is counted once, belongs to another domain, or gave nothing but stale readings,
which are counted. The report lists what was found in order, up to its bounds, and counts what it
leaves out, so that a report that counts nothing as left out lists everything. -/
theorem evaluate_accounts {prior : DomainState} {outcome : EvaluationOutcome}
    (hpolicy : context.policy = some policy) (h : evaluate request prior context = .ok outcome) :
    ∃ resources assessed,
      CongestionEvaluator.scope request policy context.topology = .ok resources ∧
      assess request policy context resources = .ok assessed ∧
      Accounting request policy context resources assessed outcome.evidence ∧
      (outcome.evidence.truncatedSections = 0 →
        Complete (findings request policy context resources assessed) outcome.evidence) := by
  obtain ⟨policy', resources, assessed, hpolicy', _, _, hscope, hassess, rfl⟩ := evaluate_ok h
  obtain rfl := Option.some.inj (hpolicy.symm.trans hpolicy')
  have haccounts := assess_accounting hassess
  exact ⟨resources, assessed, hscope, hassess, haccounts, haccounts.reports.complete⟩

def busySample (resource : ResourceId) (publisher : PublisherId) (observedTick : Tick) :
    EvidenceSample :=
  { resource, publisher, publisherBoot := ⟨1⟩, epoch := ⟨1⟩, generation := ⟨1⟩, sequence := 1
    observedTick, metrics := (∅ : MetricSet).insert .utilizationPpm 900000 }

/-- One publisher reports the first resource late, another one on time and once more, and a third a
resource of another domain. -/
def mixedRequest : EvaluationRequest where
  domain := ⟨1⟩
  epoch := ⟨1⟩
  now := 100000000
  evidence := {
    id := ⟨1⟩, epoch := ⟨1⟩, submittedTick := 10
    samples := [busySample ⟨1⟩ ⟨1⟩ 10, busySample ⟨1⟩ ⟨2⟩ 100000000,
      busySample ⟨1⟩ ⟨2⟩ 100000000, busySample ⟨7⟩ ⟨3⟩ 100000000] }

/-- Of four samples one is accepted, one is a duplicate, one is stale and listed, one belongs to
another domain. -/
theorem evaluate_accounts_mixed : ∃ outcome resources assessed,
    evaluate mixedRequest {} pairContext = .ok outcome ∧
    outcome.evidence.samplesAccepted = 1 ∧ outcome.evidence.samplesDuplicate = 1 ∧
    outcome.evidence.stale.length = 1 ∧ outcome.evidence.truncatedSections = 0 ∧
    Accounting mixedRequest makeDefaultPolicy pairContext resources assessed outcome.evidence ∧
    Complete (findings mixedRequest makeDefaultPolicy pairContext resources assessed)
      outcome.evidence := by
  obtain ⟨outcome, h⟩ : ∃ outcome, evaluate mixedRequest {} pairContext = .ok outcome :=
    Result.exists_of_isOk (by decide +kernel)
  have hfacts : (evaluate mixedRequest {} pairContext).toOption.map (fun outcome =>
      (outcome.evidence.samplesAccepted, outcome.evidence.samplesDuplicate,
        outcome.evidence.stale.length, outcome.evidence.truncatedSections)) =
        some (1, 1, 1, 0) := by
    decide +kernel
  rw [h, Except.toOption, Option.map_some, Option.some.injEq, Prod.mk.injEq, Prod.mk.injEq,
    Prod.mk.injEq] at hfacts
  obtain ⟨haccepted, hduplicate, hstale, htruncated⟩ := hfacts
  obtain ⟨resources, assessed, _, _, haccounts, hcomplete⟩ := evaluate_accounts rfl h
  exact ⟨outcome, resources, assessed, h, haccepted, hduplicate, hstale, htruncated, haccounts,
    hcomplete htruncated⟩

end CongestionEvaluator

end CongestionFabric
