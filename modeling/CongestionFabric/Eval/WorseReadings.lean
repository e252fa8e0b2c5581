import CongestionFabric.Eval.Escalation
import CongestionFabric.Eval.MarginBinding
import CongestionFabric.Eval.OrderFree

namespace CongestionFabric

/-- The sample as it was, with metrics that are no better by any rule, and no others. -/
structure WorseSample (policy : CongestionPolicy) (sample sample' : EvidenceSample) : Prop where
  same : sample' = { sample with metrics := sample'.metrics }
  supplied : sample.snapshot.valid = true
  values : ∀ rule ∈ policy.rules,
    Option.Rel (NoBetter rule.op) (sample.metrics.get rule.metric) (sample'.metrics.get rule.metric)

/-- The batch as it was, sample by sample no better, and all of one publisher. -/
structure WorseBatch (policy : CongestionPolicy) (request request' : EvaluationRequest) : Prop where
  same : request' = { request with
    evidence := { request.evidence with samples := request'.evidence.samples } }
  samples : List.Forall₂ (WorseSample policy) request.evidence.samples request'.evidence.samples
  publisher : ∃ publisher, ∀ sample ∈ request.evidence.samples, sample.publisher = publisher

/-- The reading as it was, with a value no better by any rule of its metric. -/
structure WorseReading (policy : CongestionPolicy) (metric : MetricKind) (r r' : Reading) :
    Prop where
  same : r' = { r with value := r'.value }
  value : ∀ rule ∈ policy.rules, rule.metric = metric → NoBetter rule.op r.value r'.value

namespace CongestionEvaluator

variable {policy : CongestionPolicy} {context : EvaluationContext} {now : Tick}
  {scope : List ResourceId} {key : ReadingKey} {sample sample' : EvidenceSample}
  {samples samples' : List EvidenceSample}

/-! ### Admission -/

theorem worse_eligible (h : WorseSample policy sample sample') :
    eligible context scope sample' = eligible context scope sample := by
  rw [h.same]
  rfl

theorem worse_snapshotOf (h : WorseSample policy sample sample') :
    snapshotOf sample' = snapshotOf sample := by
  have hsupplied : sample'.snapshot.valid = true := by
    rw [h.same]
    exact h.supplied
  unfold snapshotOf
  rw [if_pos h.supplied, if_pos hsupplied, h.same]

theorem worse_freshReading (hkey : key.metric ∈ ruleMetrics policy)
    (h : WorseSample policy sample sample') :
    Option.Rel (WorseReading policy key.metric) (freshReading policy now key sample)
      (freshReading policy now key sample') := by
  obtain ⟨rule, hrule, hmetric⟩ := mem_ruleMetrics.mp hkey
  have hvalues := h.values rule hrule
  have hsnapshot := worse_snapshotOf h
  have hplace : (sample'.resource = key.resource ∧ sample'.queue = key.queue) =
      (sample.resource = key.resource ∧ sample.queue = key.queue) := by
    rw [h.same]
  have hage : ageOf policy now sample'.observedTick key.metric =
      ageOf policy now sample.observedTick key.metric := by
    rw [h.same]
  unfold freshReading
  simp only [hplace, hage, hsnapshot]
  rw [hmetric] at hvalues
  split
  · cases hv : sample.metrics.get key.metric with
    | none =>
      rw [hv] at hvalues
      cases hv' : sample'.metrics.get key.metric with
      | none => exact .none
      | some value' => rw [hv'] at hvalues; cases hvalues
    | some value =>
      rw [hv] at hvalues
      cases hv' : sample'.metrics.get key.metric with
      | none => rw [hv'] at hvalues; cases hvalues
      | some value' =>
        simp only [Option.bind_some]
        split
        · refine .some ⟨?_, fun rule' hrule' hmetric' => ?_⟩
          · unfold readingOf
            rw [h.same]
            rfl
          · have hvalues' := h.values rule' hrule'
            rw [hmetric', hv, hv'] at hvalues'
            cases hvalues' with
            | some hworse => exact hworse
        · exact .none
  · exact .none

theorem worse_firstsOf (h : List.Forall₂ (WorseSample policy) samples samples')
    (seen : List EvidenceSnapshotId) :
    List.Forall₂ (WorseSample policy) (firstsOf seen samples) (firstsOf seen samples') := by
  induction h generalizing seen with
  | nil => exact .nil
  | cons hworse _ ih =>
    unfold firstsOf
    rw [worse_snapshotOf hworse]
    split
    · exact ih seen
    · exact .cons hworse (ih _)

/-- The buckets of worse samples hold worse readings. -/
theorem worse_bucket {request request' : EvaluationRequest} (h : WorseBatch policy request request')
    (resources : List ResourceId) (key : ReadingKey) :
    List.Forall₂ (WorseReading policy key.metric)
      ((admitSamples request policy context resources).readings.findD key [])
      ((admitSamples request' policy context resources).readings.findD key []) := by
  have hnow : request'.now = request.now := by rw [h.same]
  by_cases hkey : key.metric ∈ ruleMetrics policy
  · rw [admitSamples_bucket request hkey, admitSamples_bucket request' hkey, hnow]
    have hfilter : List.Forall₂ (WorseSample policy)
        (request.evidence.samples.filter (eligible context resources))
        (request'.evidence.samples.filter (eligible context resources)) := by
      refine List.rel_filter (fun sample sample' hworse => ?_) h.samples
      show eligible context resources sample = true ↔ eligible context resources sample' = true
      rw [worse_eligible hworse]
    exact List.forall₂_take _ (List.rel_filterMap
      (fun sample sample' hworse => worse_freshReading hkey hworse)
      (worse_firstsOf hfilter []))
  · rw [admitSamples_unruled request hkey, admitSamples_unruled request' hkey]
    exact .nil

theorem mem_firstsOf {seen : List EvidenceSnapshotId} (h : sample ∈ firstsOf seen samples) :
    sample ∈ samples := by
  induction samples generalizing seen with
  | nil => exact h
  | cons first rest ih =>
    unfold firstsOf at h
    split at h
    · exact List.mem_cons_of_mem _ (ih h)
    · rcases List.mem_cons.mp h with rfl | h
      · exact List.mem_cons_self
      · exact List.mem_cons_of_mem _ (ih h)

/-- The readings of one publisher's batch are that publisher's. -/
theorem bucket_publisher {request : EvaluationRequest} {publisher : PublisherId}
    (h : ∀ sample ∈ request.evidence.samples, sample.publisher = publisher)
    (resources : List ResourceId) (key : ReadingKey) :
    ∀ r ∈ (admitSamples request policy context resources).readings.findD key [],
      r.publisher = publisher := by
  intro r hr
  by_cases hkey : key.metric ∈ ruleMetrics policy
  · rw [admitSamples_bucket request hkey] at hr
    obtain ⟨sample, hsample, hreading⟩ := List.mem_filterMap.mp (List.mem_of_mem_take hr)
    have hmem := (List.mem_filter.mp (mem_firstsOf hsample)).1
    unfold freshReading at hreading
    split at hreading
    · obtain ⟨value, _, hreading⟩ := Option.bind_eq_some_iff.mp hreading
      dsimp only at hreading
      split at hreading
      · obtain rfl := Option.some.inj hreading
        exact h sample hmem
      · cases hreading
    · cases hreading
  · rw [admitSamples_unruled request hkey] at hr
    cases hr

/-! ### Resolution -/

/-- Among the readings of one publisher there is nothing to resolve. -/
theorem resolveKey_single {bucket : List Reading} {publisher : PublisherId} {r : Reading}
    (hone : ∀ reading ∈ bucket, reading.publisher = publisher)
    (hbest : IsFirstBest readingRank bucket r) (acc : Resolution) :
    resolveKey policy acc (key, bucket) = chooseReading key r acc := by
  have hall : bucket.filter (fun reading => reading.publisher = publisher) = bucket :=
    List.filter_eq_self.mpr fun reading hr => by simpa using hone reading hr
  have hfind : (perPublisher bucket).find? publisher = some r := by
    rw [perPublisher_eq, SortedMap.find?_bestByKey, hall]
    exact hbest
  have honly : ∀ publisher' r', (perPublisher bucket).find? publisher' = some r' →
      publisher' = publisher := by
    intro publisher' r' hf
    rw [perPublisher_eq, SortedMap.find?_bestByKey] at hf
    obtain ⟨hmem, hp⟩ := List.mem_filter.mp hf.mem
    rw [← of_decide_eq_true hp]
    exact hone r' hmem
  have hvalues : (perPublisher bucket).values = [r] := by
    unfold SortedMap.values
    rw [SortedMap.entries_of_single honly, hfind]
    rfl
  have hagree : disagreement policy.contradiction r [] = none := by
    have hspan : (extremesOf r []).span = 0 := UInt64.sub_self _
    unfold disagreement
    dsimp only
    rw [hspan]
    refine if_neg fun hd => ?_
    exact absurd (UInt64.lt_iff_toNat_lt.mp hd.2) (Nat.not_lt_zero _)
  unfold resolveKey
  rw [hvalues]
  dsimp only
  rw [hagree]
  rfl

/-- Two resolutions without a conflict, the readings of the second no better. -/
structure WorseResolution (policy : CongestionPolicy) (resolution resolution' : Resolution) :
    Prop where
  settled : resolution.unresolved = []
  settled' : resolution'.unresolved = []
  chosen : ∀ key, Option.Rel (WorseReading policy key.metric) (resolution.chosen.find? key)
    (resolution'.chosen.find? key)

theorem WorseResolution.choose {resolution resolution' : Resolution} {r r' : Reading}
    (h : WorseResolution policy resolution resolution')
    (hr : WorseReading policy key.metric r r') :
    WorseResolution policy (chooseReading key r resolution)
      (chooseReading key r' resolution') := by
  refine ⟨h.settled, h.settled', fun key' => ?_⟩
  unfold chooseReading
  dsimp only
  rw [SortedMap.find?_insert, SortedMap.find?_insert]
  split
  next hkey => exact .some (hkey ▸ hr)
  next => exact h.chosen key'

theorem worse_rank {metric : MetricKind} {r r' : Reading} (h : WorseReading policy metric r r') :
    readingRank r' = readingRank r := by
  rw [h.same]
  rfl

/-- One key of one publisher keeps the readings chosen so far no better. -/
theorem WorseResolution.bucket {resolution resolution' : Resolution} {bucket bucket' : List Reading}
    {publisher : PublisherId} (h : WorseResolution policy resolution resolution')
    (hbucket : List.Forall₂ (WorseReading policy key.metric) bucket bucket')
    (hone : ∀ reading ∈ bucket, reading.publisher = publisher) :
    WorseResolution policy (resolveKey policy resolution (key, bucket))
      (resolveKey policy resolution' (key, bucket')) := by
  cases bucket with
  | nil =>
    obtain rfl := List.forall₂_nil_left_iff.mp hbucket
    exact h
  | cons first rest =>
    have hbest : IsFirstBest readingRank (first :: rest) _ :=
      (IsFirstBest.single readingRank first).foldl rest
    have hrank : ∀ r r' : Reading, WorseReading policy key.metric r r' →
        readingRank r' = readingRank r := fun _ _ => worse_rank
    obtain ⟨r', hbest', hr⟩ := hbest.rel hrank hbucket
    have hone' : ∀ reading' ∈ bucket', reading'.publisher = publisher := by
      intro reading' hmem
      obtain ⟨reading, hreading, hworse⟩ := hbucket.exists_left hmem
      rw [hworse.same]
      exact hone reading hreading
    rw [resolveKey_single hone hbest, resolveKey_single hone' hbest']
    exact h.choose hr

theorem worse_resolve {request request' : EvaluationRequest} (h : WorseBatch policy request request')
    (resources : List ResourceId) :
    WorseResolution policy (resolve policy (admitSamples request policy context resources))
      (resolve policy (admitSamples request' policy context resources)) := by
  obtain ⟨publisher, hpublisher⟩ := h.publisher
  have hfind : ∀ key, Option.Rel (fun bucket bucket' =>
      List.Forall₂ (WorseReading policy key.metric) bucket bucket' ∧
        ∀ reading ∈ bucket, reading.publisher = publisher)
      ((admitSamples request policy context resources).readings.find? key)
      ((admitSamples request' policy context resources).readings.find? key) := by
    intro key
    have hbucket := @worse_bucket policy context _ _ h resources key
    have hone := @bucket_publisher policy context _ _ hpublisher resources key
    rw [(admitSamples_stocked request).find?_eq, (admitSamples_stocked request').find?_eq]
    generalize (admitSamples request policy context resources).readings.findD key [] = bucket at *
    generalize (admitSamples request' policy context resources).readings.findD key [] = bucket' at *
    by_cases hnil : bucket = []
    · have hnil' : bucket' = [] := List.forall₂_nil_left_iff.mp (hnil ▸ hbucket)
      rw [if_pos hnil, if_pos hnil']
      exact .none
    · have hnil' : bucket' ≠ [] := by
        rintro rfl
        exact hnil (List.forall₂_nil_right_iff.mp hbucket)
      rw [if_neg hnil, if_neg hnil']
      exact .some ⟨hbucket, hone⟩
  have hentries := SortedMap.forall₂_entries hfind
  have hfold : ∀ (entries entries' : List (ReadingKey × List Reading)),
      List.Forall₂ (fun e e' => e.1 = e'.1 ∧
        List.Forall₂ (WorseReading policy e.1.metric) e.2 e'.2 ∧
          ∀ reading ∈ e.2, reading.publisher = publisher) entries entries' →
      ∀ resolution resolution', WorseResolution policy resolution resolution' →
        WorseResolution policy (entries.foldl (resolveKey policy) resolution)
          (entries'.foldl (resolveKey policy) resolution') := by
    intro entries entries' hentries
    induction hentries with
    | nil => exact fun _ _ hworse => hworse
    | @cons e e' rest rest' hentry _ ih =>
      intro resolution resolution' hworse
      obtain ⟨key, bucket⟩ := e
      obtain ⟨key', bucket'⟩ := e'
      obtain ⟨rfl, hbucket, hone⟩ := hentry
      exact ih _ _ (hworse.bucket hbucket hone)
  exact hfold _ _ hentries _ _ ⟨rfl, rfl, fun key => .none⟩

/-! ### Classification -/

variable {resolution resolution' : Resolution} {resource : ResourceId} {metric : MetricKind}

theorem worse_readingsFor (h : WorseResolution policy resolution resolution')
    (resource : ResourceId) (metric : MetricKind) :
    List.Forall₂ (fun candidate candidate' => candidate'.1 = candidate.1 ∧
        WorseReading policy metric candidate.2 candidate'.2)
      (readingsFor resolution resource metric) (readingsFor resolution' resource metric) := by
  have hentries := SortedMap.forall₂_entries h.chosen
  unfold readingsFor
  rw [List.forall₂_map_left_iff, List.forall₂_map_right_iff]
  generalize resolution.chosen.entries = entries at hentries ⊢
  generalize resolution'.chosen.entries = entries' at hentries ⊢
  induction hentries with
  | nil => exact .nil
  | @cons e e' rest rest' hentry _ ih =>
    obtain ⟨hkey, hworse⟩ := hentry
    by_cases hmatch : e.1.resource = resource ∧ e.1.metric = metric
    · rw [List.filter_cons_of_pos (by simpa using hmatch),
        List.filter_cons_of_pos (by simpa [← hkey] using hmatch)]
      exact .cons ⟨by rw [hkey], hmatch.2 ▸ hworse⟩ ih
    · rw [List.filter_cons_of_neg (by simpa using hmatch),
        List.filter_cons_of_neg (by simpa [← hkey] using hmatch)]
      exact ih

theorem worse_reports (h : WorseResolution policy resolution resolution') (resource : ResourceId)
    (metric : MetricKind) :
    reports resolution' resource metric = reports resolution resource metric := by
  have hreadings := worse_readingsFor h resource metric
  unfold reports
  rw [h.settled, h.settled']
  generalize readingsFor resolution resource metric = readings at hreadings ⊢
  generalize readingsFor resolution' resource metric = readings' at hreadings ⊢
  cases hreadings <;> rfl

/-- A rule raises a resource no less by worse readings. -/
theorem worse_raisedBy (h : WorseResolution policy resolution resolution') {rule : ThresholdRule}
    (hrule : rule ∈ policy.rules) :
    raisedBy policy resolution resource rule ≤ raisedBy policy resolution' resource rule := by
  have hreadings := worse_readingsFor h resource rule.metric
  unfold raisedBy
  cases houtcome : ruleOutcome policy resolution resource rule with
  | none => exact Nat.zero_le _
  | some outcome =>
    obtain ⟨lead, hlead, rfl⟩ := ruleOutcome_eq_some.mp houtcome
    unfold winningReadings at hlead
    rw [h.settled, if_neg List.not_mem_nil] at hlead
    obtain ⟨worse, hworse, _, hvalue⟩ := hreadings.exists_right hlead.mem
    obtain ⟨lead', hlead'⟩ := exists_represents rule (List.ne_nil_of_mem hworse)
    have hworst : ruleOutcome policy resolution' resource rule =
        some (ruleOutcomeOf rule policy.hysteresis.downgradeMarginPpm lead') := by
      refine ruleOutcome_eq_some.mpr ⟨lead', ?_, rfl⟩
      unfold winningReadings
      rw [h.settled', if_neg List.not_mem_nil]
      exact hlead'
    rw [hworst]
    calc classifyRuleWithMargin rule lead.2.value 0
        ≤ classifyRuleWithMargin rule worse.2.value 0 :=
          classifyRuleWithMargin_mono (hvalue.value rule hrule rfl) 0
      _ ≤ classifyRuleWithMargin rule lead'.2.value 0 := hlead'.level_le hworse

theorem worse_upward (h : WorseResolution policy resolution resolution') (resource : ResourceId) :
    (tallyResource policy resolution resource).upward policy ≤
      (tallyResource policy resolution' resource).upward policy := by
  have hcount : ∀ level : Severity,
      (policy.rules.countP fun r => level ≤ raisedBy policy resolution resource r) ≤
        policy.rules.countP fun r => level ≤ raisedBy policy resolution' resource r := by
    intro level
    refine List.countP_mono_left fun rule hrule hle => ?_
    exact decide_eq_true ((of_decide_eq_true hle).trans (worse_raisedBy h hrule))
  rw [upward_eq, upward_eq]
  exact gateSeverity_mono (hcount _) (hcount _) (hcount _)

/-- Coverage and contradiction are decided by who reports what. -/
theorem tally_coverage_congr
    (hreports : ∀ metric, reports resolution' resource metric = reports resolution resource metric)
    (hcontradicted : ∀ metric,
      contradicted resolution' resource metric = contradicted resolution resource metric) :
    (tallyResource policy resolution' resource).coverage =
        (tallyResource policy resolution resource).coverage ∧
      (tallyResource policy resolution' resource).assessment.contradictory =
        (tallyResource policy resolution resource).assessment.contradictory := by
  obtain ⟨h₁, h₂, h₃, h₄, _⟩ := @tallyFold_coverage policy resolution resource
    policy.rules { assessment := { resource } }
  obtain ⟨i₁, i₂, i₃, i₄, _⟩ := @tallyFold_coverage policy resolution' resource
    policy.rules { assessment := { resource } }
  simp only [hreports] at i₁ i₄
  simp only [hcontradicted] at i₂
  unfold Tally.coverage tallyResource
  rw [h₁, h₂, h₃, h₄, i₁, i₂, i₃, i₄]
  exact ⟨rfl, rfl⟩

/-! ### The proposal -/

/-- The aggregate sees the same coverage and no lower a severity. -/
theorem aggregate_worse {cs cs' : List Classified}
    (h : List.Forall₂ (fun c c' => c'.assessment.coverage = c.assessment.coverage ∧
      c'.assessment.contradictory = c.assessment.contradictory ∧ c.upward ≤ c'.upward) cs cs') :
    (aggregate cs').anyConflict = (aggregate cs).anyConflict ∧
      (aggregate cs').anyEvidence = (aggregate cs).anyEvidence ∧
      (aggregate cs').anyPartial = (aggregate cs).anyPartial ∧
      (aggregate cs).upward ≤ (aggregate cs').upward := by
  have hfold : ∀ g g' : Aggregate, g'.anyConflict = g.anyConflict →
      g'.anyEvidence = g.anyEvidence → g'.anyPartial = g.anyPartial → g.upward ≤ g'.upward →
      (cs'.foldl aggregateOne g').anyConflict = (cs.foldl aggregateOne g).anyConflict ∧
        (cs'.foldl aggregateOne g').anyEvidence = (cs.foldl aggregateOne g).anyEvidence ∧
        (cs'.foldl aggregateOne g').anyPartial = (cs.foldl aggregateOne g).anyPartial ∧
        (cs.foldl aggregateOne g).upward ≤ (cs'.foldl aggregateOne g').upward := by
    induction h with
    | nil => exact fun _ _ h₁ h₂ h₃ h₄ => ⟨h₁, h₂, h₃, h₄⟩
    | @cons c c' rest rest' hc _ ih =>
      intro g g' h₁ h₂ h₃ h₄
      obtain ⟨hcoverage, hcontradictory, hup⟩ := hc
      rw [List.foldl_cons, List.foldl_cons]
      apply ih
      · rw [(aggregateOne_eq g' c').1, (aggregateOne_eq g c).1, h₁, hcontradictory]
      · rw [(aggregateOne_eq g' c').2.1, (aggregateOne_eq g c).2.1, h₂, hcoverage]
      · rw [(aggregateOne_eq g' c').2.2.1, (aggregateOne_eq g c).2.2.1, h₃, hcoverage]
      · rw [(aggregateOne_eq g' c').2.2.2.1]
        rcases ((aggregateOne_eq g c).2.2.2.1 _).mp (le_refl _) with hg | ⟨hcov, hle⟩
        · exact .inl (hg.trans h₄)
        · exact .inr ⟨hcoverage ▸ hcov, hle.trans hup⟩
  exact hfold _ _ rfl rfl rfl (le_refl _)

theorem propose_worse {prior : DomainState} {g g' : Aggregate}
    (hconflict : g'.anyConflict = g.anyConflict) (hevidence : g'.anyEvidence = g.anyEvidence)
    (hincomplete : g'.anyPartial = g.anyPartial) (hup : g.upward ≤ g'.upward) :
    (propose policy prior g).upward ≤ (propose policy prior g').upward := by
  unfold propose
  rw [hconflict, hevidence, hincomplete]
  split
  · exact le_refl _
  · split
    · exact le_refl _
    · split
      · exact max_le_max_right _ hup
      · exact hup

theorem classifyScope_worse {request request' : EvaluationRequest}
    (h : WorseBatch policy request request') (resources : List ResourceId) :
    List.Forall₂ (fun c c' => c'.assessment.coverage = c.assessment.coverage ∧
        c'.assessment.contradictory = c.assessment.contradictory ∧ c.upward ≤ c'.upward)
      (classifyScope request policy context resources).classified
      (classifyScope request' policy context resources).classified := by
  have hworse := @worse_resolve policy context _ _ h resources
  unfold classifyScope
  dsimp only
  rw [List.map_map, List.map_map, List.forall₂_map_left_iff, List.forall₂_map_right_iff,
    List.forall₂_same]
  intro resource _
  obtain ⟨hcoverage, hcontradictory⟩ := @tally_coverage_congr policy _ _ resource
    (worse_reports hworse resource)
    (fun metric => by unfold contradicted; rw [hworse.settled, hworse.settled'])
  exact ⟨hcoverage, hcontradictory, worse_upward hworse resource⟩

theorem scope_worse {request request' : EvaluationRequest} (h : WorseBatch policy request request')
    (topology : Option TopologyIndex) :
    CongestionEvaluator.scope request' policy topology =
      CongestionEvaluator.scope request policy topology := by
  have hresources : request'.evidence.samples.map (·.resource) =
      request.evidence.samples.map (·.resource) := by
    have hsamples := h.samples
    generalize request.evidence.samples = samples at hsamples ⊢
    generalize request'.evidence.samples = samples' at hsamples ⊢
    induction hsamples with
    | nil => rfl
    | cons hworse _ ih => rw [List.map_cons, List.map_cons, ih, hworse.same]
  have hdomain : request'.domain = request.domain := by rw [h.same]
  have honly : request'.onlyResource = request.onlyResource := by rw [h.same]
  unfold CongestionEvaluator.scope
  rw [hresources, hdomain, honly]

/-- Worse readings of one publisher never look better: the evaluation goes through as before and
proposes no lower a severity. -/
theorem worse_readings_propose {requested accepted : CongestionPolicy}
    (haccepted : validatePolicy requested = .ok accepted) (hpolicy : context.policy = some accepted)
    {request request' : EvaluationRequest} (h : WorseBatch accepted request request')
    {prior : DomainState} {outcome : EvaluationOutcome}
    (hevaluate : evaluate request prior context = .ok outcome) :
    ∃ p p' outcome', evaluate request' prior context = .ok outcome' ∧
      proposalOf request accepted context prior = .ok p ∧
      proposalOf request' accepted context prior = .ok p' ∧ p.upward ≤ p'.upward := by
  obtain ⟨_, haccept⟩ := validatePolicy_accepted haccepted
  have hscope := scope_worse h context.topology
  have hdomain : request'.domain = request.domain := by rw [h.same]
  have hnow : request'.now = request.now := by rw [h.same]
  have hverdict : (evaluate request prior context).map EvaluationOutcome.verdict =
      .ok (EvaluationOutcome.verdict outcome) := by
    rw [hevaluate]
    rfl
  rw [evaluate_classified haccept hpolicy] at hverdict
  simp only [bind_ok, refuseIf_ok, exists_const] at hverdict
  obtain ⟨hvalid, htick, hroom, resources, hs, _⟩ := hverdict
  have hs' : CongestionEvaluator.scope request' accepted context.topology = .ok resources :=
    hscope.trans hs
  have hverdict' : (evaluate request' prior context).map EvaluationOutcome.verdict =
      .ok (verdictOn request' accepted context prior
        (aggregate (classifyScope request' accepted context resources).classified)) := by
    rw [evaluate_classified haccept hpolicy, hdomain, hnow, ← h.samples.length_eq]
    simp only [bind_ok, refuseIf_ok, exists_const]
    exact ⟨hvalid, htick, hroom, resources, hs', rfl⟩
  obtain ⟨outcome', hevaluate', _⟩ := map_ok.mp hverdict'
  obtain ⟨hconflict, hevidence, hincomplete, hup⟩ :=
    aggregate_worse (@classifyScope_worse accepted context _ _ h resources)
  refine ⟨_, _, outcome', hevaluate', ?_, ?_,
    @propose_worse accepted prior _ _ hconflict hevidence hincomplete hup⟩
  · rw [proposalOf_classified haccept, hs]
    rfl
  · rw [proposalOf_classified haccept, hs']
    rfl

theorem utilization_worse {value value' : UInt64} (h : value ≤ value') :
    ∀ rule ∈ makeDefaultPolicy.rules, Option.Rel (NoBetter rule.op)
      (MetricSet.get ((∅ : MetricSet).insert .utilizationPpm value) rule.metric)
      (MetricSet.get ((∅ : MetricSet).insert .utilizationPpm value') rule.metric) := by
  have hops : ∀ rule ∈ makeDefaultPolicy.rules, rule.op = .atLeast := by decide
  intro rule hrule
  have hworse : NoBetter rule.op value value' := by
    unfold NoBetter
    rw [if_pos (hops rule hrule)]
    exact h
  have hget : ∀ v : UInt64, MetricSet.get ((∅ : MetricSet).insert .utilizationPpm v) rule.metric =
      if rule.metric = .utilizationPpm then some v else none := by
    intro v
    exact SortedMap.find?_insert _ _ _ _
  rw [hget, hget]
  split
  · exact .some hworse
  · exact .none

theorem queuesRequest_worse : WorseBatch makeDefaultPolicy (queuesRequest 720000 840000)
    (queuesRequest 800000 960000) := by
  refine ⟨rfl, .cons ⟨rfl, rfl, ?_⟩ (.cons ⟨rfl, rfl, ?_⟩ .nil), ⟨1⟩, ?_⟩
  · exact utilization_worse (by decide : (720000 : UInt64) ≤ 800000)
  · exact utilization_worse (by decide : (840000 : UInt64) ≤ 960000)
  · intro sample hsample
    rcases List.mem_cons.mp hsample with rfl | hsample
    · rfl
    · obtain rfl := List.mem_singleton.mp hsample
      rfl

theorem worse_readings_propose_queues : ∃ p p' outcome',
    evaluate (queuesRequest 800000 960000) {} pairContext = .ok outcome' ∧
    proposalOf (queuesRequest 720000 840000) makeDefaultPolicy pairContext {} = .ok p ∧
    proposalOf (queuesRequest 800000 960000) makeDefaultPolicy pairContext {} = .ok p' ∧
    p.upward ≤ p'.upward := by
  obtain ⟨outcome, hevaluate⟩ : ∃ outcome,
      evaluate (queuesRequest 720000 840000) {} pairContext = .ok outcome :=
    Result.exists_of_isOk (by decide +kernel)
  exact worse_readings_propose defaultPolicy_accepted rfl queuesRequest_worse hevaluate

end CongestionEvaluator

end CongestionFabric
