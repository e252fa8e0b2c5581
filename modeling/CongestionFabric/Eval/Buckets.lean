import CongestionFabric.Eval.Acceptance
import CongestionFabric.Lib.BoundedList

namespace CongestionFabric.CongestionEvaluator

/-- The reading a sample gives of a key: it names the key's resource and queue, has a value for its
metric, and is fresh. -/
def freshReading (policy : CongestionPolicy) (now : Tick) (key : ReadingKey)
    (sample : EvidenceSample) : Option Reading :=
  if sample.resource = key.resource ∧ sample.queue = key.queue then
    (sample.metrics.get key.metric).bind fun value =>
      let a := ageOf policy now sample.observedTick key.metric
      if a.fresh then some (readingOf sample (snapshotOf sample) now a.age.fromFuture value)
      else none
  else none

/-- The fresh readings these samples give of a key, in their order. -/
def readingsOn (policy : CongestionPolicy) (now : Tick) (key : ReadingKey)
    (samples : List EvidenceSample) : List Reading :=
  samples.filterMap (freshReading policy now key)

/-- The samples without those that repeat a snapshot identity. -/
def firstsOf (seen : List EvidenceSnapshotId) : List EvidenceSample → List EvidenceSample
  | [] => []
  | sample :: rest =>
    if snapshotOf sample ∈ seen then firstsOf seen rest
    else sample :: firstsOf (snapshotOf sample :: seen) rest

/-- Append to a bucket that has room. -/
def fill (bucket : List Reading) (reading : Option Reading) : List Reading :=
  match reading with
  | none => bucket
  | some reading =>
    if bucket.length ≥ limits.kMaxContradictionPeers then bucket else bucket ++ [reading]

variable {policy : CongestionPolicy} {context : EvaluationContext} {now : Tick}
  {scope : List ResourceId} {sample : EvidenceSample} {key : ReadingKey}

/-- A bucket filled reading by reading holds the first ones, up to the bound. -/
theorem fill_take (readings : List Reading) (reading : Option Reading) :
    fill (readings.take limits.kMaxContradictionPeers) reading =
      (readings ++ reading.toList).take limits.kMaxContradictionPeers := by
  cases reading with
  | none => simp [fill]
  | some reading =>
    unfold fill
    dsimp only
    rw [Option.toList_some]
    split
    next hfull => exact (List.take_concat_of_full (not_lt.mpr hfull) reading).symm
    next hroom => exact (List.take_concat_of_room (not_le.mp hroom) reading).symm

theorem keyOf_eq_iff {metric : MetricKind} : keyOf sample metric = key ↔
    (sample.resource = key.resource ∧ sample.queue = key.queue) ∧ metric = key.metric := by
  cases key
  simp [keyOf, and_assoc]

/-- One metric of a sample fills the bucket of its own key. -/
theorem admitMetric_bucket (pass : SamplePass) (metric : MetricKind) :
    (admitMetric policy now sample (snapshotOf sample) pass metric).readings.findD key [] =
      if metric = key.metric then
        fill (pass.readings.findD key []) (freshReading policy now key sample)
      else pass.readings.findD key [] := by
  have hother : ∀ (h : metric = key.metric) (hne : keyOf sample metric ≠ key),
      freshReading policy now key sample = none :=
    fun h hne => if_neg fun hsame => hne (keyOf_eq_iff.mpr ⟨hsame, h⟩)
  have hnone : sample.metrics.get metric = none → metric = key.metric →
      freshReading policy now key sample = none := by
    rintro hv rfl
    unfold freshReading
    rw [hv]
    split <;> rfl
  have hstale : (ageOf policy now sample.observedTick metric).fresh = false →
      metric = key.metric → freshReading policy now key sample = none := by
    rintro hfresh rfl
    unfold freshReading
    dsimp only
    rw [hfresh]
    split
    · cases sample.metrics.get key.metric <;> rfl
    · rfl
  have hunchanged : ∀ {readings : SortedMap ReadingKey (List Reading)},
      (metric = key.metric → freshReading policy now key sample = none) →
      readings = pass.readings → readings.findD key [] =
        if metric = key.metric then
          fill (pass.readings.findD key []) (freshReading policy now key sample)
        else pass.readings.findD key [] := by
    rintro readings h rfl
    split
    next hm => rw [h hm]; rfl
    next => rfl
  unfold admitMetric
  split
  next hv => exact hunchanged (hnone hv) rfl
  next value hv =>
    dsimp only
    split
    next hfresh => exact hunchanged (hstale (by simpa using hfresh)) rfl
    next hfresh =>
      have hfresh : (ageOf policy now sample.observedTick metric).fresh = true := by
        simpa using hfresh
      by_cases hkey : keyOf sample metric = key
      · obtain ⟨hsame, rfl⟩ := keyOf_eq_iff.mp hkey
        have hreading : freshReading policy now key sample = some (readingOf sample
            (snapshotOf sample) now
            (ageOf policy now sample.observedTick key.metric).age.fromFuture value) := by
          unfold freshReading
          rw [if_pos hsame, hv]
          exact if_pos hfresh
        rw [if_pos rfl, hreading, hkey]
        unfold fill
        dsimp only
        split
        · rfl
        · rw [SortedMap.findD_push, if_pos rfl]
      · split
        next => exact hunchanged (fun hm => hother hm hkey) rfl
        next =>
          dsimp only
          rw [SortedMap.findD_push, if_neg (Ne.symm hkey)]
          split
          next hm => rw [hother hm hkey]; rfl
          next => rfl

theorem foldl_admitMetric_bucket {metrics : List MetricKind} (hnodup : metrics.Nodup)
    (pass : SamplePass) :
    (metrics.foldl (admitMetric policy now sample (snapshotOf sample)) pass).readings.findD key [] =
      if key.metric ∈ metrics then
        fill (pass.readings.findD key []) (freshReading policy now key sample)
      else pass.readings.findD key [] := by
  induction metrics generalizing pass with
  | nil => simp
  | cons metric rest ih =>
    obtain ⟨hnew, hrest⟩ := List.nodup_cons.mp hnodup
    rw [List.foldl_cons, ih hrest, admitMetric_bucket]
    by_cases hm : metric = key.metric
    · subst hm
      rw [if_neg hnew, if_pos rfl, if_pos List.mem_cons_self]
    · rw [if_neg hm]
      simp only [List.mem_cons, Ne.symm hm, false_or]

theorem ruleMetrics_nodup (policy : CongestionPolicy) : (ruleMetrics policy).Nodup :=
  (SortedMap.sorted _).imp fun hlt heq => (heq ▸ hlt).false

theorem mem_ruleMetrics {metric : MetricKind} :
    metric ∈ ruleMetrics policy ↔ ∃ rule ∈ policy.rules, rule.metric = metric := by
  unfold ruleMetrics
  rw [SortedMap.mem_sortedSet, List.mem_map]

/-- Each bucket of an admission holds the first fresh readings of its key among the samples that
are eligible and repeat no snapshot identity. -/
theorem foldl_admitSample_bucket (hkey : key.metric ∈ ruleMetrics policy)
    (samples : List EvidenceSample) (acc : Admission) (readings : List Reading)
    (hacc : acc.readings.findD key [] = readings.take limits.kMaxContradictionPeers) :
    (samples.foldl (admitSample policy context now scope) acc).readings.findD key [] =
      (readings ++ readingsOn policy now key
        (firstsOf acc.seenSnapshots (samples.filter (eligible context scope)))).take
        limits.kMaxContradictionPeers := by
  induction samples generalizing acc readings with
  | nil => simpa [readingsOn, firstsOf] using hacc
  | cons sample rest ih =>
    rw [List.foldl_cons]
    by_cases heligible : eligible context scope sample = true
    · rw [List.filter_cons_of_pos heligible, firstsOf]
      by_cases hseen : snapshotOf sample ∈ acc.seenSnapshots
      · have hstep : admitSample policy context now scope acc sample = { acc with
            evidence := { acc.evidence with
              samplesDuplicate := acc.evidence.samplesDuplicate + 1 } } := by
          unfold admitSample
          rw [if_neg (by simp [heligible]), if_pos hseen]
        rw [hstep, if_pos hseen]
        exact ih _ readings hacc
      · have hstep : (admitSample policy context now scope acc sample).readings.findD key [] =
            (readings ++ (freshReading policy now key sample).toList).take
              limits.kMaxContradictionPeers := by
          unfold admitSample
          rw [if_neg (by simp [heligible]), if_neg hseen]
          dsimp only
          rw [foldl_admitMetric_bucket (ruleMetrics_nodup policy), if_pos hkey]
          dsimp only
          rw [hacc, fill_take]
        have hsnapshots : (admitSample policy context now scope acc sample).seenSnapshots =
            snapshotOf sample :: acc.seenSnapshots := by
          unfold admitSample
          rw [if_neg (by simp [heligible]), if_neg hseen]
        rw [if_neg hseen, ih _ _ hstep, hsnapshots, List.append_assoc]
        congr 2
        unfold readingsOn
        cases hf : freshReading policy now key sample with
        | none => simp [hf]
        | some reading => simp [hf]
    · have hstep : admitSample policy context now scope acc sample =
          { acc with evidence := noteIneligible scope sample acc.evidence } := by
        unfold admitSample
        rw [if_pos (by simpa using heligible)]
      rw [List.filter_cons_of_neg heligible, hstep]
      exact ih _ readings hacc

theorem admitSamples_bucket (request : EvaluationRequest) (hkey : key.metric ∈ ruleMetrics policy) :
    (admitSamples request policy context scope).readings.findD key [] =
      (readingsOn policy request.now key
        (firstsOf [] (request.evidence.samples.filter (eligible context scope)))).take
        limits.kMaxContradictionPeers := by
  refine (foldl_admitSample_bucket hkey _ _ [] ?_).trans ?_
  · rfl
  · rw [List.nil_append]

/-- No bucket is left empty. -/
def Stocked (readings : SortedMap ReadingKey (List Reading)) : Prop :=
  ∀ key bucket, readings.find? key = some bucket → bucket ≠ []

theorem Stocked.push {readings : SortedMap ReadingKey (List Reading)} (h : Stocked readings)
    (key : ReadingKey) (reading : Reading) : Stocked (readings.push key reading) := by
  intro key' bucket hf
  unfold SortedMap.push at hf
  rw [SortedMap.find?_insert] at hf
  split_ifs at hf with hkey
  · obtain rfl := Option.some.inj hf
    simp
  · exact h key' bucket hf

theorem foldl_admitMetric_stocked {snapshot : EvidenceSnapshotId} (metrics : List MetricKind)
    (pass : SamplePass) (h : Stocked pass.readings) :
    Stocked (metrics.foldl (admitMetric policy now sample snapshot) pass).readings := by
  induction metrics generalizing pass with
  | nil => exact h
  | cons metric rest ih =>
    apply ih
    have hstep := admitMetric_readings policy now sample snapshot pass metric
    split_ifs at hstep
    · obtain ⟨reading, _, hpush⟩ := hstep
      rw [hpush]
      exact h.push _ _
    · rwa [hstep]

theorem admitSample_stocked (acc : Admission) (h : Stocked acc.readings) :
    Stocked (admitSample policy context now scope acc sample).readings := by
  unfold admitSample
  split
  · exact h
  · split
    · exact h
    · exact foldl_admitMetric_stocked _ _ h

theorem admitSamples_stocked (request : EvaluationRequest) :
    Stocked (admitSamples request policy context scope).readings := by
  have hfold : ∀ (samples : List EvidenceSample) (acc : Admission), Stocked acc.readings →
      Stocked (samples.foldl (admitSample policy context request.now scope) acc).readings := by
    intro samples
    induction samples with
    | nil => exact fun acc h => h
    | cons sample rest ih => exact fun acc h => ih _ (admitSample_stocked acc h)
  exact hfold _ _ nofun

/-- Nothing is kept of a metric without a rule. -/
theorem admitSamples_unruled (request : EvaluationRequest) (hkey : key.metric ∉ ruleMetrics policy) :
    (admitSamples request policy context scope).readings.findD key [] = [] := by
  have hfold : ∀ (samples : List EvidenceSample) (acc : Admission),
      acc.readings.findD key [] = [] →
      (samples.foldl (admitSample policy context request.now scope) acc).readings.findD key [] =
        [] := by
    intro samples
    induction samples with
    | nil => exact fun acc h => h
    | cons sample rest ih =>
      intro acc h
      apply ih
      unfold admitSample
      split
      · exact h
      · split
        · exact h
        · dsimp only
          rw [foldl_admitMetric_bucket (ruleMetrics_nodup policy), if_neg hkey]
          exact h
  exact hfold _ _ rfl

end CongestionFabric.CongestionEvaluator
