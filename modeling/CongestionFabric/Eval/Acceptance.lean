import CongestionFabric.Eval.Evaluator

namespace CongestionFabric.CongestionEvaluator

variable {policy : CongestionPolicy} {context : EvaluationContext} {now : Tick}
  {scope : List ResourceId} {sample : EvidenceSample} {incarnation : PublisherId × BootId}

/-- The incarnations whose readings are kept: bindings, winners, conflicts and coverage are made
from these readings alone. -/
def incarnationsOf (readings : SortedMap ReadingKey (List Reading)) :
    List (PublisherId × BootId) :=
  readings.values.flatten.map fun reading => (reading.publisher, reading.boot)

def identity (sample : EvidenceSample) : PublisherId × BootId :=
  (sample.publisher, sample.publisherBoot)

/-- The tests by which a sample leaves a reading of a metric. -/
def readable (policy : CongestionPolicy) (now : Tick) (sample : EvidenceSample)
    (readings : SortedMap ReadingKey (List Reading)) (metric : MetricKind) : Bool :=
  (sample.metrics.get metric).isSome && (ageOf policy now sample.observedTick metric).fresh &&
    decide ((readings.findD (keyOf sample metric) []).length < limits.kMaxContradictionPeers)

/-- The tests by which a sample leaves a reading, after what was admitted before it. -/
def takes (policy : CongestionPolicy) (context : EvaluationContext) (now : Tick)
    (scope : List ResourceId) (acc : Admission) (sample : EvidenceSample) : Bool :=
  eligible context scope sample && decide (snapshotOf sample ∉ acc.seenSnapshots) &&
    (ruleMetrics policy).any (readable policy now sample acc.readings)

theorem mem_incarnationsOf {readings : SortedMap ReadingKey (List Reading)} :
    incarnation ∈ incarnationsOf readings ↔ ∃ key bucket reading,
      readings.find? key = some bucket ∧ reading ∈ bucket ∧
        (reading.publisher, reading.boot) = incarnation := by
  unfold incarnationsOf
  constructor
  · intro h
    obtain ⟨reading, hr, rfl⟩ := List.mem_map.mp h
    obtain ⟨bucket, hb, hr⟩ := List.mem_flatten.mp hr
    obtain ⟨key, hk⟩ := SortedMap.mem_values_iff.mp hb
    exact ⟨key, bucket, reading, hk, hr, rfl⟩
  · rintro ⟨key, bucket, reading, hk, hr, rfl⟩
    exact List.mem_map.mpr ⟨reading, List.mem_flatten.mpr
      ⟨bucket, SortedMap.mem_values_iff.mpr ⟨key, hk⟩, hr⟩, rfl⟩

theorem mem_incarnationsOf_push {readings : SortedMap ReadingKey (List Reading)} {key : ReadingKey}
    {reading : Reading} : incarnation ∈ incarnationsOf (readings.push key reading) ↔
      incarnation ∈ incarnationsOf readings ∨ incarnation = (reading.publisher, reading.boot) := by
  simp only [mem_incarnationsOf, SortedMap.push, SortedMap.find?_insert]
  constructor
  · rintro ⟨k, bucket, r, hk, hr, rfl⟩
    split_ifs at hk with heq
    · obtain rfl := Option.some.inj hk
      rcases List.mem_append.mp hr with hr | hr
      · cases hf : readings.find? key with
        | none => simp [SortedMap.findD, hf] at hr
        | some found =>
          rw [SortedMap.findD, hf] at hr
          exact .inl ⟨key, found, r, hf, hr, rfl⟩
      · rw [List.mem_singleton.mp hr]
        exact .inr rfl
    · exact .inl ⟨k, bucket, r, hk, hr, rfl⟩
  · rintro (⟨k, bucket, r, hk, hr, rfl⟩ | rfl)
    · by_cases heq : k = key
      · subst heq
        refine ⟨k, _, r, if_pos rfl, List.mem_append_left _ ?_, rfl⟩
        rwa [SortedMap.findD, hk]
      · exact ⟨k, bucket, r, (if_neg heq).trans hk, hr, rfl⟩
    · exact ⟨key, _, reading, if_pos rfl, List.mem_append_right _ List.mem_cons_self, rfl⟩

/-- One metric leaves the readings as they are, or adds one of the sample. -/
theorem admitMetric_readings (policy : CongestionPolicy) (now : Tick) (sample : EvidenceSample)
    (snapshot : EvidenceSnapshotId) (pass : SamplePass) (metric : MetricKind) :
    if readable policy now sample pass.readings metric then
      ∃ future value, (admitMetric policy now sample snapshot pass metric).readings =
        pass.readings.push (keyOf sample metric) (readingOf sample snapshot now future value)
    else (admitMetric policy now sample snapshot pass metric).readings = pass.readings := by
  unfold readable admitMetric
  cases hv : sample.metrics.get metric with
  | none => simp
  | some value =>
    by_cases hfresh : (ageOf policy now sample.observedTick metric).fresh = true
    · by_cases hfull : (pass.readings.findD (keyOf sample metric) []).length <
          limits.kMaxContradictionPeers
      · rw [if_pos (by simp [hfresh, hfull])]
        refine ⟨(ageOf policy now sample.observedTick metric).age.fromFuture, value, ?_⟩
        simp only [hfresh, Bool.not_true, Bool.false_eq_true, if_false]
        rw [if_neg (not_le.mpr hfull)]
      · rw [if_neg (by simp [hfull])]
        simp only [hfresh, Bool.not_true, Bool.false_eq_true, if_false]
        rw [if_pos (not_lt.mp hfull)]
    · simp [hfresh]

theorem foldl_admitMetric_incarnations {snapshot : EvidenceSnapshotId} {metrics : List MetricKind}
    (pass : SamplePass) :
    incarnation ∈ incarnationsOf
        (metrics.foldl (admitMetric policy now sample snapshot) pass).readings ↔
      incarnation ∈ incarnationsOf pass.readings ∨
        metrics.any (readable policy now sample pass.readings) = true ∧
          incarnation = identity sample := by
  induction metrics generalizing pass with
  | nil => simp
  | cons metric rest ih =>
    have hstep := admitMetric_readings policy now sample snapshot pass metric
    rw [List.foldl_cons, ih, List.any_cons, Bool.or_eq_true]
    split_ifs at hstep with hr
    · obtain ⟨future, value, hpush⟩ := hstep
      have hid : ((readingOf sample snapshot now future value).publisher,
          (readingOf sample snapshot now future value).boot) = identity sample := rfl
      rw [hpush, mem_incarnationsOf_push, hid]
      simp only [hr, true_or, true_and]
      constructor
      · rintro ((h | h) | ⟨_, h⟩)
        · exact .inl h
        · exact .inr h
        · exact .inr h
      · rintro (h | h)
        · exact .inl (.inl h)
        · exact .inl (.inr h)
    · rw [hstep]
      simp [hr]

theorem admitSample_incarnations (acc : Admission) :
    incarnation ∈ incarnationsOf (admitSample policy context now scope acc sample).readings ↔
      incarnation ∈ incarnationsOf acc.readings ∨
        takes policy context now scope acc sample = true ∧ incarnation = identity sample := by
  unfold admitSample takes
  split
  next h =>
    have h : eligible context scope sample = false := by simpa using h
    simp [h]
  next h =>
    have h : eligible context scope sample = true := by simpa using h
    split
    next hseen => simp [hseen]
    next hseen =>
      dsimp only
      rw [foldl_admitMetric_incarnations]
      simp [h, hseen]

variable (policy context now scope incarnation) in
/-- An incarnation is among those admitted exactly when one of its samples passes the tests at its
place in the batch. -/
theorem mem_incarnations_foldl (samples : List EvidenceSample) (acc : Admission) :
    incarnation ∈ incarnationsOf
        (samples.foldl (admitSample policy context now scope) acc).readings ↔
      incarnation ∈ incarnationsOf acc.readings ∨ ∃ before sample after,
        samples = before ++ sample :: after ∧ identity sample = incarnation ∧
          takes policy context now scope
            (before.foldl (admitSample policy context now scope) acc) sample = true := by
  induction samples generalizing acc with
  | nil => simp
  | cons sample rest ih =>
    rw [List.foldl_cons, ih, admitSample_incarnations, or_assoc]
    refine or_congr_right ⟨?_, ?_⟩
    · rintro (⟨htakes, rfl⟩ | ⟨before, s, after, rfl, hid, htakes⟩)
      · exact ⟨[], sample, rest, rfl, rfl, htakes⟩
      · exact ⟨sample :: before, s, after, rfl, hid, htakes⟩
    · rintro ⟨before, s, after, heq, hid, htakes⟩
      rcases List.cons_eq_append_iff.mp heq with ⟨rfl, hcons⟩ | ⟨before', rfl, hrest⟩
      · obtain ⟨rfl, _⟩ := List.cons.inj hcons
        exact .inl ⟨htakes, hid.symm⟩
      · exact .inr ⟨before', s, after, hrest, hid, htakes⟩

/-- The admission before the first sample. -/
def emptyAdmission (request : EvaluationRequest) : Admission where
  evidence := {
    batch := request.evidence.id, epoch := request.epoch
    samplesSeen := request.evidence.samples.length }

theorem mem_incarnations_admitted {request : EvaluationRequest} :
    incarnation ∈ incarnationsOf (admitSamples request policy context scope).readings ↔
      ∃ before sample after, request.evidence.samples = before ++ sample :: after ∧
        identity sample = incarnation ∧ takes policy context request.now scope
          (before.foldl (admitSample policy context request.now scope) (emptyAdmission request))
          sample = true := by
  have h := mem_incarnations_foldl policy context request.now scope incarnation
    request.evidence.samples (emptyAdmission request)
  exact h.trans (or_iff_right List.not_mem_nil)

end CongestionFabric.CongestionEvaluator
