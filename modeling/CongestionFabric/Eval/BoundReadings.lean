import CongestionFabric.Eval.ReportBounds
import CongestionFabric.Eval.RuleLevels

namespace CongestionFabric.CongestionEvaluator

variable {policy : CongestionPolicy} {context : EvaluationContext} {now : Tick}
  {scope : List ResourceId} {request : EvaluationRequest}

/-! ### The newest observation noted is the newest kept -/

def NewestNoted (a : Admission) : Prop :=
  ∀ key, ∀ reading ∈ a.readings.findD key [], reading.observedTick ≤ a.evidence.newestObservedTick

/-- The readings of a pass over a sample were noted before it, or are of the sample. -/
structure PassNoted (newest : Tick) (sample : EvidenceSample) (pass : SamplePass) : Prop where
  evidence : pass.evidence.newestObservedTick = newest
  readings : ∀ key, ∀ reading ∈ pass.readings.findD key [], reading.observedTick ≤ newest ∨
    (pass.acceptedAny = true ∧ reading.observedTick ≤ sample.observedTick)

theorem readingOf_observedTick (policy : CongestionPolicy) (now : Tick) (sample : EvidenceSample)
    (snapshot : EvidenceSnapshotId) (metric : MetricKind) (value : UInt64) :
    (readingOf sample snapshot now
        (ageOf policy now sample.observedTick metric).age.fromFuture value).observedTick ≤
      sample.observedTick := by
  unfold readingOf ageOf tickAge
  dsimp only
  by_cases hahead : sample.observedTick > now
  · rw [if_pos hahead, if_pos rfl]
    exact UInt64.le_of_lt hahead
  · rw [if_neg hahead, if_neg Bool.false_ne_true]
    exact UInt64.le_refl _

theorem noteStale_newest (policy : CongestionPolicy) (evidence : EvidenceVector)
    (report : StaleReport) :
    (noteStale policy evidence report).newestObservedTick = evidence.newestObservedTick := by
  unfold noteStale
  dsimp only
  split <;> rfl

theorem PassNoted.admitMetric {newest : Tick} {sample : EvidenceSample} {pass : SamplePass}
    (h : PassNoted newest sample pass) (snapshot : EvidenceSnapshotId) (metric : MetricKind) :
    PassNoted newest sample
      (CongestionEvaluator.admitMetric policy now sample snapshot pass metric) := by
  unfold CongestionEvaluator.admitMetric
  split
  · exact h
  next value _ =>
    have hcounted : ∀ (future : Bool), (if future = true then
          { pass.evidence with futureSamples := pass.evidence.futureSamples + 1 }
        else pass.evidence).newestObservedTick = newest := by
      intro future
      split
      · exact h.evidence
      · exact h.evidence
    dsimp only
    split
    · exact ⟨(noteStale_newest _ _ _).trans (hcounted _), h.readings⟩
    · split
      · exact ⟨hcounted _, h.readings⟩
      · refine ⟨hcounted _, fun key reading hreading => ?_⟩
        dsimp only at hreading ⊢
        have hold : reading ∈ pass.readings.findD key [] → reading.observedTick ≤ newest ∨
            (true = true ∧ reading.observedTick ≤ sample.observedTick) := fun hmem =>
          (h.readings key reading hmem).imp id fun hsample => ⟨rfl, hsample.2⟩
        rw [SortedMap.findD_push] at hreading
        split at hreading
        next hkey =>
          rcases List.mem_append.mp hreading with hreading | hreading
          · rw [← hkey] at hreading
            exact hold hreading
          · obtain rfl := List.mem_singleton.mp hreading
            exact .inr ⟨rfl, readingOf_observedTick policy now sample snapshot metric value⟩
        next => exact hold hreading

theorem PassNoted.foldl {newest : Tick} {sample : EvidenceSample} {pass : SamplePass}
    (h : PassNoted newest sample pass) (snapshot : EvidenceSnapshotId)
    (metrics : List MetricKind) : PassNoted newest sample
      (metrics.foldl (CongestionEvaluator.admitMetric policy now sample snapshot) pass) := by
  induction metrics generalizing pass with
  | nil => exact h
  | cons metric rest ih => exact ih (h.admitMetric snapshot metric)

theorem PassNoted.noteAccepted {newest : Tick} {sample : EvidenceSample} {pass : SamplePass}
    (h : PassNoted newest sample pass) (key : ReadingKey) :
    ∀ reading ∈ pass.readings.findD key [], reading.observedTick ≤
      (CongestionEvaluator.noteAccepted sample pass).newestObservedTick := by
  intro reading hreading
  have hread := h.readings key reading hreading
  rw [← h.evidence] at hread
  unfold CongestionEvaluator.noteAccepted
  dsimp only
  by_cases haccepted : pass.acceptedAny = true
  · rw [if_pos haccepted]
    dsimp only
    split
    next hnewer =>
      rcases hread with hold | ⟨_, hsample⟩
      · rcases hnewer with hzero | hlt
        · rw [hzero] at hold
          exact UInt64.le_trans hold (UInt64.le_iff_toNat_le.mpr (Nat.zero_le _))
        · exact UInt64.le_trans hold (UInt64.le_of_lt hlt)
      · exact hsample
    next hnewer =>
      rcases hread with hold | ⟨_, hsample⟩
      · exact hold
      · exact UInt64.le_trans hsample (UInt64.not_lt.mp fun hlt => hnewer (.inr hlt))
  · rw [if_neg haccepted]
    have hold := hread.resolve_right fun hsample => haccepted hsample.1
    split
    · exact hold
    · exact hold

theorem NewestNoted.admitSample {a : Admission} (h : NewestNoted a) (sample : EvidenceSample) :
    NewestNoted (CongestionEvaluator.admitSample policy context now scope a sample) := by
  unfold CongestionEvaluator.admitSample
  split
  · have hnewest : (noteIneligible scope sample a.evidence).newestObservedTick =
        a.evidence.newestObservedTick := by
      unfold noteIneligible
      split_ifs <;> rfl
    intro key reading hreading
    exact hnewest ▸ h key reading hreading
  · split
    · exact h
    · have hpass : PassNoted a.evidence.newestObservedTick sample
          { readings := a.readings, evidence := a.evidence } :=
        ⟨rfl, fun key reading hreading => .inl (h key reading hreading)⟩
      exact (hpass.foldl (snapshotOf sample) (ruleMetrics policy)).noteAccepted

theorem admitSamples_newest (request : EvaluationRequest) (policy : CongestionPolicy)
    (context : EvaluationContext) (scope : List ResourceId) :
    NewestNoted (admitSamples request policy context scope) := by
  have hfold : ∀ (samples : List EvidenceSample) (a : Admission), NewestNoted a →
      NewestNoted (samples.foldl (admitSample policy context request.now scope) a) := by
    intro samples
    induction samples with
    | nil => exact fun a h => h
    | cons sample rest ih => exact fun a h => ih _ (h.admitSample sample)
  refine hfold _ _ fun key reading hreading => ?_
  exact absurd hreading List.not_mem_nil

/-! ### A reading that is bound was admitted -/

theorem newestOf_mem (first : Reading) (rest : List Reading) :
    newestOf first rest ∈ first :: rest := by
  unfold newestOf
  induction rest generalizing first with
  | nil => exact List.mem_cons_self
  | cons r rest ih =>
    rw [List.foldl_cons]
    split
    · exact List.mem_cons_of_mem _ (ih r)
    · rcases List.mem_cons.mp (ih first) with heq | hmem
      · exact List.mem_cons.mpr (.inl heq)
      · exact List.mem_cons_of_mem _ (List.mem_cons_of_mem _ hmem)

theorem highestPriority_mem {order : List PublisherId} {readings : List Reading} {r : Reading}
    (h : highestPriority order readings = some r) : r ∈ readings := by
  have hfold : ∀ (rest : List Reading) (best : Nat × Option Reading),
      (∀ found, best.2 = some found → found ∈ readings) → rest ⊆ readings →
      ∀ found, (rest.foldl (fun (best : Nat × Option Reading) candidate =>
        let index := order.idxOf candidate.publisher
        if index < best.1 then (index, some candidate) else best) best).2 = some found →
          found ∈ readings := by
    intro rest
    induction rest with
    | nil => exact fun best hbest _ => hbest
    | cons candidate rest ih =>
      intro best hbest hsub
      obtain ⟨hcandidate, hrest⟩ := List.cons_subset.mp hsub
      refine ih _ (fun found hfound => ?_) hrest
      dsimp only at hfound
      split at hfound
      · obtain rfl := Option.some.inj hfound
        exact hcandidate
      · exact hbest found hfound
  exact hfold readings _ (fun found hfound => by cases hfound) (List.Subset.refl _) r h

theorem perPublisher_subset (bucket : List Reading) : (perPublisher bucket).values ⊆ bucket := by
  intro r hr
  exact (List.mem_filter.mp (mem_perPublisher.mp hr).mem).1

/-- A key that is resolved keeps one of its readings. -/
theorem resolveKey_winner (policy : CongestionPolicy) (acc : Resolution)
    (entry : ReadingKey × List Reading) :
    (resolveKey policy acc entry).chosen = acc.chosen ∨ ∃ winner ∈ entry.2,
      (resolveKey policy acc entry).chosen = acc.chosen.insert entry.1 winner := by
  unfold resolveKey
  split
  · exact .inl rfl
  next first rest hvalues =>
    refine .inr ?_
    have hsub : first :: rest ⊆ entry.2 := hvalues ▸ perPublisher_subset entry.2
    have hnewest : newestOf first rest ∈ entry.2 := hsub (newestOf_mem first rest)
    dsimp only
    split
    · exact ⟨_, hnewest, rfl⟩
    · split
      · exact ⟨_, hnewest, rfl⟩
      · refine ⟨_, ?_, rfl⟩
        cases hpriority : highestPriority policy.contradiction.priorityOrder (first :: rest) with
        | none => exact hnewest
        | some winner => exact hsub (highestPriority_mem hpriority)
      · exact ⟨_, hnewest, rfl⟩
      · exact ⟨_, hnewest, rfl⟩

theorem resolve_chosen {admission : Admission} {key : ReadingKey} {winner : Reading}
    (h : (resolve policy admission).chosen.find? key = some winner) :
    winner ∈ admission.readings.findD key [] := by
  have hfold : ∀ (entries : List (ReadingKey × List Reading)) (acc : Resolution),
      (∀ entry ∈ entries, admission.readings.findD entry.1 [] = entry.2) →
      (∀ key winner, acc.chosen.find? key = some winner →
        winner ∈ admission.readings.findD key []) →
      ∀ key winner, (entries.foldl (resolveKey policy) acc).chosen.find? key = some winner →
        winner ∈ admission.readings.findD key [] := by
    intro entries
    induction entries with
    | nil => exact fun acc _ hacc => hacc
    | cons entry rest ih =>
      intro acc hentries hacc
      obtain ⟨hentry, hrest⟩ := List.forall_mem_cons.mp hentries
      refine ih _ hrest fun key winner hfind => ?_
      rcases resolveKey_winner policy acc entry with hkept | ⟨chosen, hchosen, hinsert⟩
      · rw [hkept] at hfind
        exact hacc key winner hfind
      · rw [hinsert, SortedMap.find?_insert] at hfind
        split at hfind
        next hkey =>
          obtain rfl := Option.some.inj hfind
          rw [hkey, hentry]
          exact hchosen
        next => exact hacc key winner hfind
  refine hfold admission.readings.entries _ (fun entry hentry => ?_) (fun key winner hnone => ?_)
    key winner h
  · have hfind : admission.readings.find? entry.1 = some entry.2 :=
      SortedMap.mem_entries_iff.mp hentry
    unfold SortedMap.findD
    rw [hfind]
    rfl
  · simp at hnone

theorem readingsFor_chosen {resolution : Resolution} {resource : ResourceId} {metric : MetricKind}
    {candidate : QueueId × Reading} (h : candidate ∈ readingsFor resolution resource metric) :
    resolution.chosen.find? ⟨resource, candidate.1, metric⟩ = some candidate.2 := by
  unfold readingsFor at h
  obtain ⟨⟨key, reading⟩, hentry, rfl⟩ := List.mem_map.mp h
  obtain ⟨hentry, hkey⟩ := List.mem_filter.mp hentry
  obtain ⟨hresource, hmetric⟩ := of_decide_eq_true hkey
  rw [← hresource, ← hmetric]
  exact SortedMap.mem_entries_iff.mp hentry

/-- What the tally of a resource binds: of each rule the reading that stands for it. -/
theorem mem_tallyOutcomes {resolution : Resolution} {resource : ResourceId}
    {bound : ThresholdRule × RuleOutcome} :
    bound ∈ (tallyResource policy resolution resource).outcomes ↔
      bound.1 ∈ policy.rules ∧
        ruleOutcome policy resolution resource bound.1 = some bound.2 := by
  have hrule : ∀ (t : Tally) (rule : ThresholdRule),
      (tallyRule policy resolution resource t rule).outcomes =
        t.outcomes ++ ((ruleOutcome policy resolution resource rule).map fun outcome =>
          (rule, outcome)).toList := by
    intro t rule
    unfold tallyRule ruleOutcome
    dsimp only
    split
    · simp
    · split
      next hnone => rw [hnone]; simp
      next outcome hsome => rw [hsome]; rfl
  have hfold : ∀ (rules : List ThresholdRule) (t : Tally),
      bound ∈ (rules.foldl (tallyRule policy resolution resource) t).outcomes ↔
        bound ∈ t.outcomes ∨ (bound.1 ∈ rules ∧
          ruleOutcome policy resolution resource bound.1 = some bound.2) := by
    intro rules
    induction rules with
    | nil => simp
    | cons rule rest ih =>
      intro t
      rw [List.foldl_cons, ih, hrule, List.mem_append, Option.mem_toList, Option.map_eq_some_iff,
        or_assoc]
      refine or_congr Iff.rfl ?_
      obtain ⟨rule', outcome'⟩ := bound
      simp only [List.mem_cons, Prod.mk.injEq]
      constructor
      · rintro (⟨outcome, hsome, rfl, rfl⟩ | ⟨hmem, hsome⟩)
        · exact ⟨.inl rfl, hsome⟩
        · exact ⟨.inr hmem, hsome⟩
      · rintro ⟨rfl | hmem, hsome⟩
        · exact .inl ⟨_, hsome, rfl, rfl⟩
        · exact .inr ⟨hmem, hsome⟩
  unfold tallyResource
  rw [hfold]
  simp

/-- An observation is fresh when it is neither too old for its metric nor too far ahead. -/
theorem ageOf_fresh_iff {observed : Tick} {metric : MetricKind} :
    (ageOf policy now observed metric).fresh = true ↔
      now.toNat ≤ observed.toNat + (policy.maxAgeFor metric).toNat ∧
        observed.toNat ≤ now.toNat + policy.freshness.maxFutureSkewTicks.toNat := by
  unfold Age.fresh ageOf tickAge
  by_cases hahead : observed > now
  · have hlt := UInt64.lt_iff_toNat_lt.mp hahead
    simp only [if_pos hahead, Bool.true_and, Bool.not_true, Bool.false_and, Bool.or_false,
      Bool.not_eq_true', decide_eq_false_iff_not, gt_iff_lt, UInt64.not_lt,
      UInt64.le_iff_toNat_le]
    rw [UInt64.toNat_sub_of_le _ _ (UInt64.le_of_lt hahead)]
    omega
  · have hle := UInt64.le_iff_toNat_le.mp (UInt64.not_lt.mp hahead)
    simp only [if_neg hahead, Bool.false_and, Bool.not_false, Bool.true_and, Bool.false_or,
      Bool.not_eq_true', decide_eq_false_iff_not, gt_iff_lt, UInt64.not_lt,
      UInt64.le_iff_toNat_le]
    rw [UInt64.toNat_sub_of_le _ _ (UInt64.not_lt.mp hahead)]
    omega

/-- The readings an evaluation binds for a resource. -/
def boundReadings (request : EvaluationRequest) (policy : CongestionPolicy)
    (context : EvaluationContext) (scope : List ResourceId) (resource : ResourceId) :
    List (ThresholdRule × RuleOutcome) :=
  (tallyResource policy (resolve policy (admitSamples request policy context scope))
    resource).outcomes

theorem boundReadings_newest {resource : ResourceId} {bound : ThresholdRule × RuleOutcome}
    (h : bound ∈ boundReadings request policy context scope resource) :
    bound.2.reading.observedTick ≤
      (admitSamples request policy context scope).evidence.newestObservedTick := by
  obtain ⟨_, houtcome⟩ := mem_tallyOutcomes.mp h
  unfold ruleOutcome at houtcome
  split at houtcome
  next => cases houtcome
  next =>
    obtain ⟨candidate, hrepresents, hbound⟩ := worstOutcome_eq_some.mp houtcome
    have hmem := resolve_chosen (readingsFor_chosen (IsFirstBest.mem hrepresents))
    rw [hbound]
    exact admitSamples_newest request policy context scope _ _ hmem

theorem boundReadings_fresh {resource : ResourceId} {bound : ThresholdRule × RuleOutcome}
    (h : bound ∈ boundReadings request policy context scope resource) :
    request.now.toNat ≤ bound.2.reading.observedTick.toNat +
      (policy.maxAgeFor bound.1.metric).toNat := by
  obtain ⟨hrule, houtcome⟩ := mem_tallyOutcomes.mp h
  unfold ruleOutcome at houtcome
  split at houtcome
  next => cases houtcome
  next =>
    obtain ⟨candidate, hrepresents, hbound⟩ := worstOutcome_eq_some.mp houtcome
    have hmem := resolve_chosen (readingsFor_chosen (IsFirstBest.mem hrepresents))
    rw [admitSamples_bucket request (mem_ruleMetrics.mpr ⟨bound.1, hrule, rfl⟩)] at hmem
    obtain ⟨sample, _, hreading⟩ := List.mem_filterMap.mp (List.mem_of_mem_take hmem)
    have hsame : bound.2.reading = candidate.2 := by
      rw [hbound]
      rfl
    rw [hsame]
    unfold freshReading at hreading
    split at hreading
    next =>
      obtain ⟨value, _, hreading⟩ := Option.bind_eq_some_iff.mp hreading
      dsimp only at hreading
      split at hreading
      next hfresh =>
        have hage := ageOf_fresh_iff.mp hfresh
        rw [← Option.some.inj hreading]
        unfold readingOf
        dsimp only
        split
        · omega
        · exact hage.1
      next => cases hreading
    next => cases hreading

theorem spreadPressure_evidence {topology : Option TopologyIndex} {a a' : Assessed}
    (h : spreadPressure policy topology a = .ok a') :
    a'.evidence.tallied = a.evidence.tallied ∧ a'.evidence.bindings = a.evidence.bindings := by
  unfold spreadPressure at h
  split at h
  next =>
    obtain rfl := Except.ok.inj h
    exact ⟨rfl, rfl⟩
  next =>
    split at h
    next =>
      obtain rfl := Except.ok.inj h
      exact ⟨rfl, rfl⟩
    next =>
      obtain ⟨result, _, h⟩ := bind_ok.mp h
      obtain rfl := Except.ok.inj h
      dsimp only
      split <;> exact ⟨rfl, rfl⟩

/-! ### What the report lists was bound -/

theorem admitMetric_bindings {sample : EvidenceSample} {snapshot : EvidenceSnapshotId}
    (pass : SamplePass) (metric : MetricKind) :
    (admitMetric policy now sample snapshot pass metric).evidence.bindings =
      pass.evidence.bindings := by
  unfold admitMetric noteStale
  dsimp only
  split
  · rfl
  · split_ifs <;> rfl

theorem admitSample_bindings (a : Admission) (sample : EvidenceSample) :
    (admitSample policy context now scope a sample).evidence.bindings = a.evidence.bindings := by
  have hfold : ∀ (metrics : List MetricKind) (pass : SamplePass),
      (metrics.foldl (admitMetric policy now sample (snapshotOf sample)) pass).evidence.bindings =
        pass.evidence.bindings := by
    intro metrics
    induction metrics with
    | nil => exact fun pass => rfl
    | cons metric rest ih => exact fun pass => (ih _).trans (admitMetric_bindings pass metric)
  unfold admitSample
  split
  · unfold noteIneligible
    dsimp only
    split_ifs <;> rfl
  · split
    · rfl
    · dsimp only
      unfold noteAccepted
      dsimp only
      split_ifs <;> exact hfold _ _

theorem admitSamples_bindings :
    (admitSamples request policy context scope).evidence.bindings = [] := by
  have hfold : ∀ (samples : List EvidenceSample) (a : Admission),
      (samples.foldl (admitSample policy context request.now scope) a).evidence.bindings =
        a.evidence.bindings := by
    intro samples
    induction samples with
    | nil => exact fun a => rfl
    | cons sample rest ih => exact fun a => (ih _).trans (admitSample_bindings a sample)
  exact hfold _ _

theorem resolve_bindings (admission : Admission) :
    (resolve policy admission).evidence.bindings = admission.evidence.bindings := by
  have hkey : ∀ (acc : Resolution) (entry : ReadingKey × List Reading),
      (resolveKey policy acc entry).evidence.bindings = acc.evidence.bindings := by
    intro acc entry
    unfold resolveKey
    split
    · rfl
    · dsimp only
      split
      · rfl
      · split <;> unfold chooseReading noteConflict <;> dsimp only <;> split <;> rfl
  have hfold : ∀ (entries : List (ReadingKey × List Reading)) (acc : Resolution),
      (entries.foldl (resolveKey policy) acc).evidence.bindings = acc.evidence.bindings := by
    intro entries
    induction entries with
    | nil => exact fun acc => rfl
    | cons entry rest ih => exact fun acc => (ih _).trans (hkey acc entry)
  exact hfold _ _

/-- A binding lists a bound reading of its resource. -/
def Lists (binding : ThresholdBinding) (bound : ThresholdRule × RuleOutcome) : Prop :=
  binding.metric = bound.1.metric ∧ binding.observedTick = bound.2.reading.observedTick

theorem mem_noteBindings {t : Tally} {evidence : EvidenceVector} {binding : ThresholdBinding}
    (h : binding ∈ (noteBindings policy evidence t).bindings) : binding ∈ evidence.bindings ∨
      binding.resource = t.assessment.resource ∧ ∃ bound ∈ t.outcomes, Lists binding bound := by
  unfold noteBindings at h
  revert evidence
  induction t.outcomes with
  | nil => exact fun h => .inl h
  | cons bound rest ih =>
    intro evidence h
    rcases ih h with h | ⟨hresource, other, hother, hlists⟩
    · unfold noteBinding at h
      dsimp only at h
      split at h
      · rcases List.mem_append.mp h with h | h
        · exact .inl h
        · obtain rfl := List.mem_singleton.mp h
          exact .inr ⟨rfl, bound, List.mem_cons_self, rfl, rfl⟩
      · exact .inl h
    · exact .inr ⟨hresource, other, List.mem_cons_of_mem _ hother, hlists⟩

theorem classifyScope_bindings {resources : List ResourceId} {binding : ThresholdBinding}
    (h : binding ∈ (classifyScope request policy context resources).evidence.bindings) :
    ∃ bound ∈ boundReadings request policy context resources binding.resource,
      Lists binding bound := by
  unfold classifyScope at h
  dsimp only at h
  have hnone : (resolve policy (admitSamples request policy context resources)).evidence.bindings =
      [] := (resolve_bindings _).trans admitSamples_bindings
  have hfold : ∀ (rest : List ResourceId) (evidence : EvidenceVector), binding ∈
      ((rest.map (tallyResource policy (resolve policy (admitSamples request policy context
        resources)))).foldl (noteBindings policy) evidence).bindings →
      binding ∈ evidence.bindings ∨
        ∃ bound ∈ boundReadings request policy context resources binding.resource,
          Lists binding bound := by
    intro rest
    induction rest with
    | nil => exact fun evidence h => .inl h
    | cons resource rest ih =>
      intro evidence h
      rcases ih _ h with h | h
      · rcases mem_noteBindings h with h | ⟨hresource, hbound⟩
        · exact .inl h
        · rw [tally_resource] at hresource
          rw [← hresource] at hbound
          exact .inr hbound
      · exact .inr h
  rcases hfold _ _ h with h | h
  · rw [hnone] at h
    cases h
  · exact h

/-- What an evaluation binds is young enough for its metric and no newer than the newest observation
reported, and what it lists is bound. -/
theorem evaluate_bound {prior : DomainState} {outcome : EvaluationOutcome}
    (hpolicy : context.policy = some policy)
    (h : evaluate request prior context = .ok outcome) : ∃ resources,
      CongestionEvaluator.scope request policy context.topology = .ok resources ∧
      (∀ resource, ∀ bound ∈ boundReadings request policy context resources resource,
        bound.2.reading.observedTick ≤ outcome.evidence.newestObservedTick ∧
        request.now.toNat ≤ bound.2.reading.observedTick.toNat +
          (policy.maxAgeFor bound.1.metric).toNat) ∧
      ∀ binding ∈ outcome.evidence.bindings,
        ∃ bound ∈ boundReadings request policy context resources binding.resource,
          Lists binding bound := by
  obtain ⟨policy', resources, assessed, hpolicy', _, _, hscope, hassess, rfl⟩ := evaluate_ok h
  obtain rfl := Option.some.inj (hpolicy.symm.trans hpolicy')
  obtain ⟨htallied, hbindings⟩ := spreadPressure_evidence hassess
  refine ⟨resources, hscope, fun resource bound hbound => ?_, fun binding hbinding => ?_⟩
  · have hreported := (@reportResources_tallied policy assessed).trans
      (htallied.trans classifyScope_tallied)
    have hnewest := congrArg EvidenceVector.newestObservedTick hreported
    change (reportResources policy assessed).newestObservedTick =
      (admitSamples request policy context resources).evidence.newestObservedTick at hnewest
    show _ ≤ (reportResources policy assessed).newestObservedTick ∧ _
    rw [hnewest]
    exact ⟨boundReadings_newest hbound, boundReadings_fresh hbound⟩
  · have hreported : (reportResources policy assessed).bindings = assessed.evidence.bindings := by
      unfold reportResources
      dsimp only
      split <;> rfl
    change binding ∈ (reportResources policy assessed).bindings at hbinding
    rw [hreported, hbindings] at hbinding
    exact classifyScope_bindings hbinding

end CongestionFabric.CongestionEvaluator
