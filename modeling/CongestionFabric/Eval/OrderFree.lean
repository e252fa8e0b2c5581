import CongestionFabric.Eval.ConflictCaught

namespace CongestionFabric

/-- A reading without what is only reported of it. -/
def Reading.bare (r : Reading) : Reading :=
  { r with boot := {}, snapshot := {}, degraded := false, future := false }

theorem Reading.bare_eq_iff {r r' : Reading} : r.bare = r'.bare ↔
    r.value = r'.value ∧ readingRank r = readingRank r' := by
  unfold Reading.bare readingRank
  rw [EmbeddingLike.apply_eq_iff_eq, Prod.mk.injEq, EmbeddingLike.apply_eq_iff_eq, Prod.mk.injEq,
    EmbeddingLike.apply_eq_iff_eq, UInt64.toNat_inj]
  simp only [Reading.mk.injEq]
  tauto

namespace CongestionEvaluator

/-! ### Decisions do not read what is only reported -/

def Extremes.bare (e : Extremes) : Extremes := ⟨e.low.bare, e.high.bare⟩

theorem newestOf_bare (first : Reading) (rest : List Reading) :
    newestOf first.bare (rest.map Reading.bare) = (newestOf first rest).bare := by
  unfold newestOf
  induction rest generalizing first with
  | nil => rfl
  | cons r rest ih =>
    rw [List.map_cons, List.foldl_cons, List.foldl_cons, ← ih]
    congr 1
    have hbetter : readingBetter r.bare first.bare = readingBetter r first := rfl
    rw [hbetter]
    split <;> rfl

theorem extremesOf_bare (first : Reading) (rest : List Reading) :
    extremesOf first.bare (rest.map Reading.bare) = (extremesOf first rest).bare := by
  have hfold : ∀ (rest : List Reading) (e : Extremes),
      (rest.map Reading.bare).foldl (fun e r =>
        ({ low := if r.value < e.low.value then r else e.low
           high := if r.value > e.high.value then r else e.high } : Extremes)) e.bare =
      (rest.foldl (fun e r =>
        ({ low := if r.value < e.low.value then r else e.low
           high := if r.value > e.high.value then r else e.high } : Extremes)) e).bare := by
    intro rest
    induction rest with
    | nil => exact fun e => rfl
    | cons r rest ih =>
      intro e
      rw [List.map_cons, List.foldl_cons, List.foldl_cons, ← ih]
      congr 1
      have hlow : (if r.bare.value < e.bare.low.value then r.bare else e.bare.low) =
          (if r.value < e.low.value then r else e.low).bare := (apply_ite Reading.bare _ _ _).symm
      have hhigh : (if r.bare.value > e.bare.high.value then r.bare else e.bare.high) =
          (if r.value > e.high.value then r else e.high).bare := (apply_ite Reading.bare _ _ _).symm
      exact congrArg₂ Extremes.mk hlow hhigh
  exact hfold rest ⟨first, first⟩

theorem disagreement_bare (policy : ContradictionPolicy) (first : Reading) (rest : List Reading) :
    disagreement policy first.bare (rest.map Reading.bare) =
      (disagreement policy first rest).map Extremes.bare := by
  unfold disagreement
  rw [extremesOf_bare, List.length_map]
  have hspan : (extremesOf first rest).bare.span = (extremesOf first rest).span := rfl
  have htolerance : tolerance policy (extremesOf first rest).bare =
      tolerance policy (extremesOf first rest) := rfl
  dsimp only
  rw [hspan, htolerance]
  split <;> rfl

theorem highestPriority_bare (order : List PublisherId) (readings : List Reading) :
    highestPriority order (readings.map Reading.bare) =
      (highestPriority order readings).map Reading.bare := by
  have hfold : ∀ (readings : List Reading) (best : Nat × Option Reading),
      ((readings.map Reading.bare).foldl (fun (best : Nat × Option Reading) candidate =>
        let index := order.idxOf candidate.publisher
        if index < best.1 then (index, some candidate) else best)
          (best.1, best.2.map Reading.bare)).2 =
      (readings.foldl (fun (best : Nat × Option Reading) candidate =>
        let index := order.idxOf candidate.publisher
        if index < best.1 then (index, some candidate) else best) best).2.map Reading.bare := by
    intro readings
    induction readings with
    | nil => exact fun best => rfl
    | cons r rest ih =>
      intro best
      rw [List.map_cons, List.foldl_cons, List.foldl_cons, ← ih]
      have hpublisher : r.bare.publisher = r.publisher := rfl
      dsimp only
      rw [hpublisher]
      split <;> rfl
  exact hfold readings (order.length, none)

/-- What the newest readings of one key decide: the winner, and whether they stay in conflict. -/
def verdictOf (policy : CongestionPolicy) : List Reading → Option (Reading × Bool)
  | [] => none
  | first :: rest =>
    let newest := newestOf first rest
    match disagreement policy.contradiction first rest with
    | none => some (newest, false)
    | some _ =>
      match policy.contradiction.mode with
      | .reject => some (newest, true)
      | .preferHighestPriority =>
        some ((highestPriority policy.contradiction.priorityOrder (first :: rest)).getD newest,
          false)
      | .preferNewest => some (newest, false)
      | .undeclared _ _ => some (newest, false)

theorem verdictOf_bare (policy : CongestionPolicy) (readings : List Reading) :
    verdictOf policy (readings.map Reading.bare) =
      (verdictOf policy readings).map (Prod.map Reading.bare id) := by
  cases readings with
  | nil => rfl
  | cons first rest =>
    have hpriority := highestPriority_bare policy.contradiction.priorityOrder (first :: rest)
    rw [List.map_cons] at hpriority ⊢
    unfold verdictOf
    dsimp only
    rw [disagreement_bare, newestOf_bare, hpriority]
    cases disagreement policy.contradiction first rest with
    | none => rfl
    | some e =>
      cases policy.contradiction.mode with
      | preferHighestPriority =>
        cases highestPriority policy.contradiction.priorityOrder (first :: rest) <;> rfl
      | reject | preferNewest | undeclared => rfl

/-- What an evaluation decides from: the winners of the keys, and the pairs in conflict. -/
structure Decisions where
  chosen : SortedMap ReadingKey Reading := ∅
  unresolved : List (ResourceId × MetricKind) := []

def Resolution.decisions (resolution : Resolution) : Decisions where
  chosen := resolution.chosen.mapVal fun _ => Reading.bare
  unresolved := resolution.unresolved

def decideKey (policy : CongestionPolicy) (acc : Decisions) (entry : ReadingKey × List Reading) :
    Decisions :=
  match verdictOf policy entry.2 with
  | none => acc
  | some (winner, inConflict) =>
    { chosen := acc.chosen.insert entry.1 winner
      unresolved := if inConflict then (entry.1.resource, entry.1.metric) :: acc.unresolved
        else acc.unresolved }

/-- The newest reading of each publisher, without what is only reported. -/
def bareBucket (bucket : List Reading) : List Reading :=
  (perPublisher bucket).values.map Reading.bare

theorem chooseReading_decisions (key : ReadingKey) (winner : Reading) (acc : Resolution) :
    (chooseReading key winner acc).decisions =
      { chosen := acc.decisions.chosen.insert key winner.bare
        unresolved := acc.unresolved } := by
  unfold chooseReading Resolution.decisions
  rw [SortedMap.mapVal_insert]

theorem resolveKey_decisions (policy : CongestionPolicy) (acc : Resolution)
    (entry : ReadingKey × List Reading) : (resolveKey policy acc entry).decisions =
      decideKey policy acc.decisions (entry.1, bareBucket entry.2) := by
  unfold decideKey bareBucket
  dsimp only
  rw [verdictOf_bare]
  unfold resolveKey verdictOf
  cases (perPublisher entry.2).values with
  | nil => rfl
  | cons first rest =>
    dsimp only
    cases disagreement policy.contradiction first rest with
    | none => exact chooseReading_decisions _ _ _
    | some e =>
      cases policy.contradiction.mode with
      | reject | preferHighestPriority | preferNewest | undeclared =>
        exact chooseReading_decisions _ _ _

theorem resolve_decisions (policy : CongestionPolicy) (admission : Admission) :
    (resolve policy admission).decisions =
      (admission.readings.mapVal fun _ => bareBucket).entries.foldl (decideKey policy) {} := by
  have hfold : ∀ (entries : List (ReadingKey × List Reading)) (acc : Resolution),
      (entries.foldl (resolveKey policy) acc).decisions =
        (entries.map fun e => (e.1, bareBucket e.2)).foldl (decideKey policy) acc.decisions := by
    intro entries
    induction entries with
    | nil => exact fun acc => rfl
    | cons entry rest ih =>
      intro acc
      rw [List.foldl_cons, ih, resolveKey_decisions]
      rfl
  exact hfold _ _

/-! ### Classification reads the decisions -/

theorem readingsFor_bare (resolution : Resolution) (resource : ResourceId) (metric : MetricKind) :
    (readingsFor resolution resource metric).map (Prod.map id Reading.bare) =
      (resolution.decisions.chosen.entries.filter fun e =>
        e.1.resource = resource ∧ e.1.metric = metric).map fun e => (e.1.queue, e.2) := by
  unfold readingsFor Resolution.decisions SortedMap.mapVal
  rw [List.map_map, List.filter_map, List.map_map]
  rfl

def RuleOutcome.bare (outcome : RuleOutcome) : RuleOutcome :=
  { outcome with reading := outcome.reading.bare }

theorem worstOutcome_bare (rule : ThresholdRule) (marginPpm : UInt32)
    (candidates : List (QueueId × Reading)) :
    worstOutcome rule marginPpm (candidates.map (Prod.map id Reading.bare)) =
      (worstOutcome rule marginPpm candidates).map RuleOutcome.bare := by
  cases candidates with
  | nil => rfl
  | cons first rest =>
    have hfold : ∀ (rest : List (QueueId × Reading)) (incumbent : RuleOutcome),
        (rest.map (Prod.map id Reading.bare)).foldl (fun incumbent candidate =>
          let outcome := ruleOutcomeOf rule marginPpm candidate
          if outcomeBetter outcome incumbent then outcome else incumbent) incumbent.bare =
        (rest.foldl (fun incumbent candidate =>
          let outcome := ruleOutcomeOf rule marginPpm candidate
          if outcomeBetter outcome incumbent then outcome else incumbent) incumbent).bare := by
      intro rest
      induction rest with
      | nil => exact fun incumbent => rfl
      | cons candidate rest ih =>
        intro incumbent
        rw [List.map_cons, List.foldl_cons, List.foldl_cons, ← ih]
        congr 1
        exact (apply_ite RuleOutcome.bare (outcomeBetter (ruleOutcomeOf rule marginPpm candidate)
          incumbent = true) (ruleOutcomeOf rule marginPpm candidate) incumbent).symm
    exact congrArg some (hfold rest (ruleOutcomeOf rule marginPpm first))

theorem RuleOutcome.severities_of_bare {outcome outcome' : RuleOutcome}
    (h : outcome'.bare = outcome.bare) :
    outcome'.upward = outcome.upward ∧ outcome'.downward = outcome.downward := by
  unfold RuleOutcome.bare at h
  obtain ⟨hup, hdown, _⟩ := RuleOutcome.mk.inj h
  exact ⟨hup, hdown⟩

/-- A tally without what is only reported. -/
def Tally.bare (t : Tally) : Tally :=
  { t with assessment := { contradictory := t.assessment.contradictory }, outcomes := [] }

theorem tallyRule_bare (policy : CongestionPolicy) {resolution resolution' : Resolution}
    (h : resolution'.decisions = resolution.decisions) (resource : ResourceId) {t t' : Tally}
    (ht : t'.bare = t.bare) (rule : ThresholdRule) :
    (tallyRule policy resolution' resource t' rule).bare =
      (tallyRule policy resolution resource t rule).bare := by
  have hunresolved : resolution'.unresolved = resolution.unresolved :=
    congrArg Decisions.unresolved h
  have hreadings := readingsFor_bare resolution' resource rule.metric
  rw [h, ← readingsFor_bare resolution resource rule.metric] at hreadings
  have hworst := congrArg (worstOutcome rule policy.hysteresis.downgradeMarginPpm) hreadings
  rw [worstOutcome_bare, worstOutcome_bare] at hworst
  cases t
  cases t'
  simp only [Tally.bare, Tally.mk.injEq, ResourceAssessment.mk.injEq, true_and, and_true] at ht
  obtain ⟨hcontradictory, rfl, rfl, rfl, rfl, rfl, rfl, rfl, rfl, rfl, rfl⟩ := ht
  unfold tallyRule
  rw [hunresolved]
  dsimp only
  split
  · rfl
  · generalize worstOutcome rule policy.hysteresis.downgradeMarginPpm
      (readingsFor resolution' resource rule.metric) = worst' at hworst
    generalize worstOutcome rule policy.hysteresis.downgradeMarginPpm
      (readingsFor resolution resource rule.metric) = worst at hworst
    cases worst with
    | none =>
      cases worst' with
      | none => simp [Tally.bare, hcontradictory]
      | some outcome' => simp at hworst
    | some outcome =>
      cases worst' with
      | none => simp at hworst
      | some outcome' =>
        obtain ⟨hup, hdown⟩ := RuleOutcome.severities_of_bare (Option.some.inj hworst)
        simp [Tally.bare, assessReading, hcontradictory, hup, hdown]

theorem tallyResource_bare (policy : CongestionPolicy) {resolution resolution' : Resolution}
    (h : resolution'.decisions = resolution.decisions) (resource : ResourceId) :
    (tallyResource policy resolution' resource).bare =
      (tallyResource policy resolution resource).bare := by
  have hfold : ∀ (rules : List ThresholdRule) (t t' : Tally), t'.bare = t.bare →
      (rules.foldl (tallyRule policy resolution' resource) t').bare =
        (rules.foldl (tallyRule policy resolution resource) t).bare := by
    intro rules
    induction rules with
    | nil => exact fun t t' ht => ht
    | cons rule rest ih => exact fun t t' ht => ih _ _ (tallyRule_bare policy h resource ht rule)
  exact hfold policy.rules _ _ rfl

/-- What the aggregate reads of a resource. -/
def Classified.verdict (c : Classified) : ResourceCoverage × Bool × Severity × Severity :=
  (c.assessment.coverage, c.assessment.contradictory, c.upward, c.downward)

theorem classify_verdict (policy : CongestionPolicy) {t t' : Tally} (h : t'.bare = t.bare) :
    (classify policy t').verdict = (classify policy t).verdict := by
  have hbare : ∀ t : Tally, (classify policy t).verdict = (classify policy t.bare).verdict :=
    fun t => rfl
  rw [hbare t', h, ← hbare t]

theorem aggregate_verdict {cs cs' : List Classified}
    (h : cs'.map Classified.verdict = cs.map Classified.verdict) :
    aggregate cs' = aggregate cs := by
  have hfold : ∀ (cs cs' : List Classified) (acc : Aggregate),
      cs'.map Classified.verdict = cs.map Classified.verdict →
        cs'.foldl aggregateOne acc = cs.foldl aggregateOne acc := by
    intro cs
    induction cs with
    | nil =>
      intro cs' acc h
      rw [List.map_eq_nil_iff.mp h]
    | cons c rest ih =>
      intro cs' acc h
      obtain ⟨c', rest', rfl, hc, hrest⟩ := List.map_eq_cons_iff.mp h
      have hone : aggregateOne acc c' = aggregateOne acc c := by
        unfold Classified.verdict at hc
        simp only [Prod.mk.injEq] at hc
        obtain ⟨hcoverage, hcontradictory, hup, hdown⟩ := hc
        unfold aggregateOne
        rw [hcoverage, hcontradictory, hup, hdown]
      rw [List.foldl_cons, List.foldl_cons, hone]
      exact ih rest' _ hrest
  exact hfold cs cs' {} h

/-- Admissions whose keys hold the same newest readings classify the resources alike. -/
theorem classifyScope_aggregate {policy : CongestionPolicy} {request request' : EvaluationRequest}
    {context : EvaluationContext} {resources : List ResourceId}
    (h : ((admitSamples request' policy context resources).readings.mapVal fun _ => bareBucket) =
      (admitSamples request policy context resources).readings.mapVal fun _ => bareBucket) :
    aggregate (classifyScope request' policy context resources).classified =
      aggregate (classifyScope request policy context resources).classified := by
  have hdecisions : (resolve policy (admitSamples request' policy context resources)).decisions =
      (resolve policy (admitSamples request policy context resources)).decisions := by
    rw [resolve_decisions, resolve_decisions, h]
  apply aggregate_verdict
  unfold classifyScope
  dsimp only
  rw [List.map_map, List.map_map, List.map_map, List.map_map]
  apply List.map_congr_left
  intro resource _
  exact classify_verdict policy (tallyResource_bare policy hdecisions resource)

/-! ### Permuted batches -/

/-- Of the readings of highest rank a publisher has, no two differ in their value. -/
def Unambiguous (readings : List Reading) : Prop :=
  ∀ r ∈ readings, ∀ r' ∈ readings, r.publisher = r'.publisher → readingRank r = readingRank r' →
    (∀ other ∈ readings, other.publisher = r.publisher → readingRank other ≤ readingRank r) →
    r.value = r'.value

theorem bareBucket_perm {bucket bucket' : List Reading} (hperm : bucket.Perm bucket')
    (h : Unambiguous bucket) : bareBucket bucket' = bareBucket bucket := by
  have hmap : ((perPublisher bucket').mapVal fun _ => Reading.bare) =
      (perPublisher bucket).mapVal fun _ => Reading.bare := by
    ext publisher : 1
    have hfilter := hperm.filter fun r => r.publisher = publisher
    rw [SortedMap.find?_mapVal, SortedMap.find?_mapVal, perPublisher_eq, perPublisher_eq]
    cases hf : (SortedMap.bestByKey (·.publisher) readingRank bucket).find? publisher with
    | none =>
      rw [SortedMap.find?_bestByKey_none] at hf
      rw [SortedMap.find?_bestByKey_none.mpr (by rw [hf] at hfilter; exact hfilter.nil_eq.symm)]
    | some r =>
      cases hf' : (SortedMap.bestByKey (·.publisher) readingRank bucket').find? publisher with
      | none =>
        rw [SortedMap.find?_bestByKey_none] at hf'
        rw [hf'] at hfilter
        rw [SortedMap.find?_bestByKey_none.mpr hfilter.eq_nil] at hf
        cases hf
      | some r' =>
        have hbest := SortedMap.find?_bestByKey.mp hf
        have hbest' := SortedMap.find?_bestByKey.mp hf'
        have hrank := IsFirstBest.rank_eq hfilter hbest hbest'
        obtain ⟨hr, hpublisher⟩ := List.mem_filter.mp hbest.mem
        obtain ⟨hr', hpublisher'⟩ := List.mem_filter.mp (hfilter.symm.subset hbest'.mem)
        have hpublisher : r.publisher = publisher := of_decide_eq_true hpublisher
        have hpublisher' : r'.publisher = publisher := of_decide_eq_true hpublisher'
        have hvalue : r.value = r'.value := by
          refine h r hr r' hr' (hpublisher.trans hpublisher'.symm) hrank fun other hother hsame => ?_
          exact hbest.le (List.mem_filter.mpr ⟨hother, by simp [hsame, hpublisher]⟩)
        rw [Option.map_some, Option.map_some, Reading.bare_eq_iff.mpr ⟨hvalue, hrank⟩]
  have hentries : ∀ b : List Reading, bareBucket b =
      ((perPublisher b).mapVal fun _ => Reading.bare).values := by
    intro b
    simp [bareBucket, SortedMap.values, SortedMap.mapVal]
  rw [hentries, hmap, ← hentries]

theorem newest_cons {r : Reading} {rest : List Reading}
    (h : ∀ other ∈ rest, other.publisher = r.publisher → readingRank other ≤ readingRank r) :
    Newest (r :: rest) r := by
  unfold Newest
  rw [List.filter_cons_of_pos (by simp)]
  refine ⟨[], _, rfl, fun _ hx => absurd hx List.not_mem_nil, fun other hother => ?_⟩
  obtain ⟨hmem, hsame⟩ := List.mem_filter.mp hother
  exact h other hmem (of_decide_eq_true hsame)

/-- The newest readings of a bucket are the same in every order exactly when none is ambiguous. -/
theorem bareBucket_stable_iff {bucket : List Reading} :
    (∀ bucket', bucket.Perm bucket' → bareBucket bucket' = bareBucket bucket) ↔
      Unambiguous bucket := by
  refine ⟨fun hstable r hr r' hr' hpublisher hrank hmax => ?_, fun h _ hperm => bareBucket_perm hperm h⟩
  have hfirst : Newest (r :: bucket.erase r) r :=
    newest_cons fun other hother => hmax other (List.mem_of_mem_erase hother)
  have hfirst' : Newest (r' :: bucket.erase r') r' := newest_cons fun other hother hsame =>
    hrank ▸ hmax other (List.mem_of_mem_erase hother) (hsame.trans hpublisher.symm)
  have hbuckets : bareBucket (r :: bucket.erase r) = bareBucket (r' :: bucket.erase r') :=
    (hstable _ (List.perm_cons_erase hr)).trans (hstable _ (List.perm_cons_erase hr')).symm
  have hmem : r.bare ∈ bareBucket (r' :: bucket.erase r') :=
    hbuckets ▸ List.mem_map_of_mem (mem_perPublisher.mpr hfirst)
  obtain ⟨found, hfound, hbare⟩ := List.mem_map.mp hmem
  have hnewest := mem_perPublisher.mp hfound
  have hpublisher' : found.publisher = r'.publisher := by
    have hsame : found.bare.publisher = r.bare.publisher := congrArg Reading.publisher hbare
    exact Eq.trans hsame hpublisher
  unfold Newest at hnewest hfirst'
  rw [hpublisher'] at hnewest
  rw [IsFirstBest.unique hnewest hfirst'] at hbare
  exact (Reading.bare_eq_iff.mp hbare).1.symm

/-- A batch in which no key overflows its bucket and no publisher's newest reading is ambiguous. -/
def OrderFree (request : EvaluationRequest) (policy : CongestionPolicy)
    (context : EvaluationContext) (resources : List ResourceId) : Prop :=
  ∀ key, key.metric ∈ ruleMetrics policy →
    (admissible request policy context resources key).length ≤ limits.kMaxContradictionPeers ∧
      Unambiguous (admissible request policy context resources key)

/-- The request with its samples in another order. -/
def reordered (request : EvaluationRequest) (samples : List EvidenceSample) : EvaluationRequest :=
  { request with evidence := { request.evidence with samples } }

variable {policy : CongestionPolicy} {request : EvaluationRequest} {context : EvaluationContext}
  {resources : List ResourceId} {samples : List EvidenceSample}

theorem Stocked.find?_eq {readings : SortedMap ReadingKey (List Reading)} (h : Stocked readings)
    (key : ReadingKey) : readings.find? key =
      if readings.findD key [] = [] then none else some (readings.findD key []) := by
  unfold SortedMap.findD
  cases hf : readings.find? key with
  | none => rfl
  | some bucket => exact (if_neg (h key bucket hf)).symm

theorem admitSamples_reordered (hperm : request.evidence.samples.Perm samples)
    (hdistinct : (request.evidence.samples.map snapshotOf).Nodup)
    (h : OrderFree request policy context resources) :
    ((admitSamples (reordered request samples) policy context resources).readings.mapVal
        fun _ => bareBucket) =
      (admitSamples request policy context resources).readings.mapVal fun _ => bareBucket := by
  have hdistinct' : ((reordered request samples).evidence.samples.map snapshotOf).Nodup :=
    (hperm.map snapshotOf).nodup_iff.mp hdistinct
  ext key : 1
  rw [SortedMap.find?_mapVal, SortedMap.find?_mapVal, (admitSamples_stocked _).find?_eq,
    (admitSamples_stocked _).find?_eq]
  by_cases hkey : key.metric ∈ ruleMetrics policy
  · obtain ⟨hroom, hsettled⟩ := h key hkey
    have hreadings : (admissible request policy context resources key).Perm
        (admissible (reordered request samples) policy context resources key) :=
      (hperm.filter _).filterMap _
    have hbucket : (admitSamples request policy context resources).readings.findD key [] =
        admissible request policy context resources key :=
      (admitSamples_bucket request hkey).trans (counted_eq_admissible hdistinct hroom)
    have hbucket' : (admitSamples (reordered request samples) policy context
        resources).readings.findD key [] =
        admissible (reordered request samples) policy context resources key :=
      (admitSamples_bucket _ hkey).trans
        (counted_eq_admissible hdistinct' (hreadings.length_eq ▸ hroom))
    rw [hbucket, hbucket']
    by_cases hnil : admissible request policy context resources key = []
    · rw [if_pos hnil, if_pos (by rw [hnil] at hreadings; exact hreadings.nil_eq.symm)]
    · rw [if_neg hnil, if_neg (fun hnil' => hnil (by rw [hnil'] at hreadings; exact hreadings.eq_nil))]
      exact congrArg some (bareBucket_perm hreadings hsettled)
  · rw [admitSamples_unruled _ hkey, admitSamples_unruled _ hkey]

theorem scope_reordered (hperm : request.evidence.samples.Perm samples)
    (topology : Option TopologyIndex) :
    scope (reordered request samples) policy topology = scope request policy topology := by
  have hmembers : dedupe ((samples.map (·.resource)).filter (·.valid)) =
      dedupe ((request.evidence.samples.map (·.resource)).filter (·.valid)) := by
    apply SortedMap.sortedSet_congr
    intro resource
    exact (((hperm.map (·.resource)).filter (·.valid)).mem_iff).symm
  unfold scope reordered
  dsimp only
  rw [hmembers]

theorem aggregate_assessed (h : Accepted policy) (request : EvaluationRequest)
    (context : EvaluationContext) (resources : List ResourceId) :
    ∃ a, assess request policy context resources = .ok a ∧ aggregate a.classified =
      aggregate (classifyScope request policy context resources).classified := by
  have hgrounded : ∀ c ∈ (classifyScope request policy context resources).classified, Grounded c :=
    classifyScope_grounded request context
  obtain ⟨a, hassess, hneutral⟩ := spreadPressure_neutral h context.topology hgrounded
  exact ⟨a, hassess, hneutral.aggregate⟩

/-- The state an evaluation commits, and whether its result is authoritative. -/
def EvaluationOutcome.verdict (outcome : EvaluationOutcome) : DomainState × Bool :=
  (outcome.updated, outcome.authoritative)

/-- The verdict on an aggregate. -/
def verdictOn (request : EvaluationRequest) (policy : CongestionPolicy)
    (context : EvaluationContext) (prior : DomainState) (g : Aggregate) : DomainState × Bool :=
  let proposal := propose policy prior g
  let updated := (foldState request policy context prior proposal).1
  (updated, updated.authoritative && proposal.hasValue && !g.anyConflict)

theorem map_bind_result {α β γ : Type} (f : β → γ) (x : Result α) (g : α → Result β) :
    (x >>= g).map f = x >>= fun a => (g a).map f := by
  cases x <;> rfl

theorem proposalOf_classified (h : Accepted policy) (prior : DomainState) :
    proposalOf request policy context prior = do
      let resources ← scope request policy context.topology
      return propose policy prior
        (aggregate (classifyScope request policy context resources).classified) := by
  unfold proposalOf
  refine bind_congr fun resources => ?_
  obtain ⟨a, ha, hg⟩ := aggregate_assessed h request context resources
  rw [ha, ← hg]
  rfl

/-- Under an accepted policy the verdict is made of what the resources say before propagation. -/
theorem evaluate_classified (h : Accepted policy) (hp : context.policy = some policy)
    (prior : DomainState) :
    (evaluate request prior context).map EvaluationOutcome.verdict = do
      refuseIf (¬request.domain.valid) .invalidArgument "evaluation request has no domain"
      refuseIf (request.now = kNoTick) .invalidArgument "evaluation requires an explicit tick"
      refuseIf (request.evidence.samples.length > context.maxSamplesPerBatch) .limitExceeded
        "evidence batch exceeds the permitted sample count"
      let resources ← scope request policy context.topology
      return verdictOn request policy context prior
        (aggregate (classifyScope request policy context resources).classified) := by
  unfold evaluate
  rw [hp]
  dsimp only
  simp only [map_bind_result]
  refine bind_congr fun _ => bind_congr fun _ => bind_congr fun _ => bind_congr fun resources => ?_
  obtain ⟨a, ha, hg⟩ := aggregate_assessed h request context resources
  rw [ha, ← hg]
  rfl

/-- The order of the samples of a batch does not matter, as long as no bucket overflows and no
publisher's newest reading is ambiguous. -/
theorem evaluate_order_free {requested : CongestionPolicy}
    (haccepted : validatePolicy requested = .ok policy) (hp : context.policy = some policy)
    (hperm : request.evidence.samples.Perm samples)
    (hdistinct : (request.evidence.samples.map snapshotOf).Nodup)
    (h : ∀ resources, scope request policy context.topology = .ok resources →
      OrderFree request policy context resources) (prior : DomainState) :
    proposalOf (reordered request samples) policy context prior =
        proposalOf request policy context prior ∧
      (evaluate (reordered request samples) prior context).map EvaluationOutcome.verdict =
        (evaluate request prior context).map EvaluationOutcome.verdict := by
  obtain ⟨_, haccept⟩ := validatePolicy_accepted haccepted
  have hscope : scope (reordered request samples) policy context.topology =
      scope request policy context.topology := scope_reordered hperm _
  have hlength : (reordered request samples).evidence.samples.length =
      request.evidence.samples.length := hperm.length_eq.symm
  have haggregate : ∀ resources, scope request policy context.topology = .ok resources →
      aggregate (classifyScope (reordered request samples) policy context resources).classified =
        aggregate (classifyScope request policy context resources).classified := fun resources hs =>
    classifyScope_aggregate (admitSamples_reordered hperm hdistinct (h resources hs))
  rw [proposalOf_classified haccept, proposalOf_classified haccept, evaluate_classified haccept hp,
    evaluate_classified haccept hp, hscope, hlength]
  cases hs : scope request policy context.topology with
  | error e => exact ⟨rfl, rfl⟩
  | ok resources =>
    have hsame := haggregate resources hs
    constructor
    · exact congrArg (fun g => Except.ok (propose policy prior g)) hsame
    · refine bind_congr fun _ => bind_congr fun _ => bind_congr fun _ => ?_
      exact congrArg (fun g => Except.ok (verdictOn request policy context prior g)) hsame

theorem freshReading_source {now : Tick} {key : ReadingKey} {sample : EvidenceSample} {r : Reading}
    (h : freshReading policy now key sample = some r) :
    r.publisher = sample.publisher ∧ r.generation = sample.generation := by
  unfold freshReading at h
  split at h
  · obtain ⟨value, _, h⟩ := Option.bind_eq_some_iff.mp h
    dsimp only at h
    split at h
    · obtain rfl := Option.some.inj h
      exact ⟨rfl, rfl⟩
    · cases h
  · cases h

/-- A publisher whose samples carry distinct generations is never ambiguous. -/
theorem unambiguous_of_generations (now : Tick) (key : ReadingKey) {samples : List EvidenceSample}
    (h : ∀ sample ∈ samples, ∀ other ∈ samples, sample.publisher = other.publisher →
      sample.generation = other.generation → sample = other) :
    Unambiguous (readingsOn policy now key samples) := by
  intro r hr r' hr' hpublisher hrank _
  obtain ⟨sample, hsample, hreading⟩ := List.mem_filterMap.mp hr
  obtain ⟨other, hother, hreading'⟩ := List.mem_filterMap.mp hr'
  obtain ⟨hsource, hgeneration⟩ := freshReading_source hreading
  obtain ⟨hsource', hgeneration'⟩ := freshReading_source hreading'
  have hsame : r.generation = r'.generation := by
    unfold readingRank at hrank
    simp only [EmbeddingLike.apply_eq_iff_eq, Prod.mk.injEq] at hrank
    exact hrank.2.2
  obtain rfl : sample = other := by
    apply h sample hsample other hother
    · rw [← hsource, ← hsource', hpublisher]
    · rw [← hgeneration, ← hgeneration', hsame]
  rw [Option.some.inj (hreading.symm.trans hreading')]

/-- Two samples of one publisher that differ in value and snapshot identity only. -/
def tiedSample (snapshot : EvidenceSnapshotId) (utilization : UInt64) : EvidenceSample where
  resource := ⟨1⟩
  publisher := ⟨1⟩
  publisherBoot := ⟨1⟩
  epoch := ⟨1⟩
  generation := ⟨1⟩
  sequence := 1
  observedTick := 10
  snapshot
  metrics := (∅ : MetricSet).insert .utilizationPpm utilization

def tiedRequest : EvaluationRequest :=
  reordered (utilizationRequest []) [tiedSample ⟨1⟩ 100000, tiedSample ⟨2⟩ 990000]

theorem evaluate_order_free_disputed : ∃ samples,
    disputedRequest.evidence.samples.Perm samples ∧ samples ≠ disputedRequest.evidence.samples ∧
    proposalOf (reordered disputedRequest samples) makeDefaultPolicy pairContext {} =
      proposalOf disputedRequest makeDefaultPolicy pairContext {} ∧
    (evaluate (reordered disputedRequest samples) {} pairContext).map EvaluationOutcome.verdict =
      (evaluate disputedRequest {} pairContext).map EvaluationOutcome.verdict := by
  have hperm : disputedRequest.evidence.samples.Perm disputedRequest.evidence.samples.reverse :=
    (List.reverse_perm _).symm
  have hfree : ∀ resources,
      scope disputedRequest makeDefaultPolicy pairContext.topology = .ok resources →
        OrderFree disputedRequest makeDefaultPolicy pairContext resources := by
    intro resources _ key _
    constructor
    · have hlength := (List.length_filterMap_le
        (freshReading makeDefaultPolicy disputedRequest.now key)
        (disputedRequest.evidence.samples.filter (eligible pairContext resources))).trans
        (List.length_filter_le _ _)
      exact hlength.trans (by decide)
    · apply unambiguous_of_generations
      intro sample hsample other hother
      have hall : ∀ sample ∈ disputedRequest.evidence.samples,
          ∀ other ∈ disputedRequest.evidence.samples, sample.publisher = other.publisher →
            sample.generation = other.generation → sample = other := by
        decide +kernel
      exact hall sample (List.mem_of_mem_filter hsample) other (List.mem_of_mem_filter hother)
  exact ⟨_, hperm, by decide +kernel,
    evaluate_order_free defaultPolicy_accepted rfl hperm (by decide +kernel) hfree {}⟩

/-- The first of the two tied samples wins: CLEAR in one order, WATCH in the other. -/
theorem tied_samples_ordered :
    validatePolicy makeDefaultPolicy = .ok makeDefaultPolicy ∧
    tiedRequest.evidence.samples.Perm tiedRequest.evidence.samples.reverse ∧
    (tiedRequest.evidence.samples.map snapshotOf).Nodup ∧
    (evaluate tiedRequest {} pairContext).toOption.map (·.updated.state) = some .clear ∧
    (evaluate (reordered tiedRequest tiedRequest.evidence.samples.reverse) {}
      pairContext).toOption.map (·.updated.state) = some .watch := by
  refine ⟨defaultPolicy_accepted, (List.reverse_perm _).symm, by decide +kernel, ?_, ?_⟩
  · decide +kernel
  · decide +kernel

end CongestionEvaluator

end CongestionFabric
