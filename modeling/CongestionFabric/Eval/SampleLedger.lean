import CongestionFabric.Eval.Buckets
import CongestionFabric.Lib.BoundedList

namespace CongestionFabric.CongestionEvaluator

variable {policy : CongestionPolicy} {context : EvaluationContext} {now : Tick}
  {scope : List ResourceId} {sample : EvidenceSample}

/-! ### The fate of a sample -/

/-- What becomes of a sample: one that is read gives a reading that is kept, or else stale readings,
or else none, for want of a metric of the policy or of room for it. -/
inductive Fate where
  | rejected | elsewhere | heartbeat | duplicate | accepted | stale | unread
  deriving DecidableEq

/-- The counter of an evidence vector that counts a fate. Samples of other domains are not counted,
and of those that are only stale the stale readings are. -/
def Fate.counter : Fate → Option (EvidenceVector → Nat)
  | rejected => some (·.samplesRejected)
  | heartbeat => some (·.heartbeats)
  | duplicate => some (·.samplesDuplicate)
  | accepted => some (·.samplesAccepted)
  | unread => some (·.unknownMetricSamples)
  | elsewhere | stale => none

/-- A sample in the ledger: its fate, its stale readings, and how many fresh ones found their key
full. -/
structure Entry where
  fate : Fate
  stale : List StaleReport := []
  crowded : Nat := 0

/-- The report of a reading that is too old or too far ahead. -/
def staleReading (policy : CongestionPolicy) (now : Tick) (sample : EvidenceSample)
    (metric : MetricKind) : Option StaleReport :=
  let a := ageOf policy now sample.observedTick metric
  if (sample.metrics.get metric).isSome && !a.fresh then
    some {
      resource := sample.resource, queue := sample.queue, metric
      publisher := sample.publisher, observedTick := sample.observedTick
      ageTicks := a.age.age, allowedAgeTicks := a.maxAge
      fromFuture := a.age.fromFuture, beyondFutureSkew := a.beyondSkew }
  else none

def freshIn (policy : CongestionPolicy) (now : Tick) (sample : EvidenceSample)
    (metric : MetricKind) : Bool :=
  (sample.metrics.get metric).isSome && (ageOf policy now sample.observedTick metric).fresh

/-- What a sample whose metrics are read is in the ledger, with the keys that have room. -/
def readEntry (policy : CongestionPolicy) (now : Tick) (room : MetricKind → Bool)
    (sample : EvidenceSample) : Entry :=
  let stale := (ruleMetrics policy).filterMap (staleReading policy now sample)
  let fresh := (ruleMetrics policy).filter (freshIn policy now sample)
  { fate := if fresh.any room then .accepted else if stale = [] then .unread else .stale
    stale, crowded := fresh.countP (!room ·) }

def entryOf (policy : CongestionPolicy) (context : EvaluationContext) (now : Tick)
    (scope : List ResourceId) (repeated : Bool) (room : MetricKind → Bool)
    (sample : EvidenceSample) : Entry :=
  if !sample.resource.valid then { fate := .rejected }
  else if sample.resource ∉ scope then { fate := .elsewhere }
  else if sample.isHeartbeat then { fate := .heartbeat }
  else if !eligible context scope sample then { fate := .rejected }
  else if repeated then { fate := .duplicate }
  else readEntry policy now room sample

/-- A sample in the ledger after those before it in the batch: it is a duplicate if one of them that
was eligible has its snapshot identity, and a key has room until they gave all the readings it
keeps. -/
def entryAfter (policy : CongestionPolicy) (context : EvaluationContext) (now : Tick)
    (scope : List ResourceId) (before : List EvidenceSample) (sample : EvidenceSample) : Entry :=
  let before := before.filter (eligible context scope)
  entryOf policy context now scope (decide (snapshotOf sample ∈ before.map snapshotOf))
    (fun metric => decide ((readingsOn policy now (keyOf sample metric)
      (firstsOf [] before)).length < limits.kMaxContradictionPeers)) sample

/-- One entry for each sample, in the order of the batch. -/
def ledgerFrom (policy : CongestionPolicy) (context : EvaluationContext) (now : Tick)
    (scope : List ResourceId) (before : List EvidenceSample) : List EvidenceSample → List Entry
  | [] => []
  | sample :: rest => entryAfter policy context now scope before sample ::
      ledgerFrom policy context now scope (before ++ [sample]) rest

/-- A sample is only stale if it has stale readings. -/
theorem entryOf_stale {repeated : Bool} {room : MetricKind → Bool}
    (h : (entryOf policy context now scope repeated room sample).fate = .stale) :
    (entryOf policy context now scope repeated room sample).stale ≠ [] := by
  unfold entryOf at h ⊢
  split_ifs at h ⊢
  unfold readEntry at h ⊢
  dsimp only at h ⊢
  split_ifs at h with _ hstale
  exact hstale

theorem ledgerFrom_length (before samples : List EvidenceSample) :
    (ledgerFrom policy context now scope before samples).length = samples.length := by
  induction samples generalizing before with
  | nil => rfl
  | cons sample rest ih => exact congrArg Nat.succ (ih _)

theorem mem_ledgerFrom {before samples : List EvidenceSample} {entry : Entry}
    (h : entry ∈ ledgerFrom policy context now scope before samples) :
    ∃ earlier sample, entry = entryAfter policy context now scope earlier sample := by
  induction samples generalizing before with
  | nil => cases h
  | cons sample rest ih =>
    rcases List.mem_cons.mp h with rfl | h
    · exact ⟨before, sample, rfl⟩
    · exact ih h

/-! ### What a report lists -/

/-- What an evaluation finds for its report. -/
structure Findings where
  stale : List StaleReport := []
  crowded : Nat := 0
  conflicts : List ConflictReport := []
  bindings : List ThresholdBinding := []
  propagation : List PropagationEdge := []
  resources : List ResourceAssessment := []

/-- Whether a list that is cut as a whole leaves something out. -/
def cut {α : Type} (bound : Nat) (all : List α) : Nat := if bound < all.length then 1 else 0

/-- A report lists what was found as far as its bounds allow, and counts what it leaves out: entry by
entry, but only once for the propagation and for the resources. -/
structure Reports (policy : CongestionPolicy) (found : Findings) (evidence : EvidenceVector) :
    Prop where
  staleSamples : evidence.staleSamples = found.stale.length
  stale : evidence.stale = found.stale.take policy.limits.maxStaleReports.toNat
  conflicts : evidence.conflicts = found.conflicts.take policy.limits.maxConflictReports.toNat
  bindings : evidence.bindings = found.bindings.take policy.limits.maxExplanationEntries.toNat
  propagation : evidence.propagation =
    found.propagation.take policy.limits.maxExplanationEntries.toNat
  resources : evidence.resources = found.resources.take policy.limits.maxExplanationEntries.toNat
  truncated : evidence.truncatedSections =
    found.stale.excess policy.limits.maxStaleReports.toNat + found.crowded +
      found.conflicts.excess policy.limits.maxConflictReports.toNat +
      found.bindings.excess policy.limits.maxExplanationEntries.toNat +
      cut policy.limits.maxExplanationEntries.toNat found.propagation +
      cut policy.limits.maxExplanationEntries.toNat found.resources

/-- The findings with those of one more sample. -/
def Findings.read (found : Findings) (stale : List StaleReport) (crowded : Nat) : Findings :=
  { found with stale := found.stale ++ stale, crowded := found.crowded + crowded }

theorem Findings.read_nil (found : Findings) : found.read [] 0 = found := by
  cases found
  simp [Findings.read]

theorem Findings.read_read (found : Findings) (stale stale' : List StaleReport)
    (crowded crowded' : Nat) : (found.read stale crowded).read stale' crowded' =
      found.read (stale ++ stale') (crowded + crowded') := by
  unfold Findings.read
  dsimp only
  rw [List.append_assoc, Nat.add_assoc]

variable {found : Findings} {evidence : EvidenceVector}

theorem Reports.noteStale (h : Reports policy found evidence) (report : StaleReport) :
    Reports policy (found.read [report] 0) (noteStale policy evidence report) := by
  obtain ⟨hsamples, hstale, hconflicts, hbindings, hpropagation, hresources, htruncated⟩ := h
  have hcounted : evidence.staleSamples + 1 = (found.stale ++ [report]).length := by
    rw [List.length_append, List.length_singleton, hsamples]
  unfold CongestionEvaluator.noteStale Findings.read
  dsimp only
  rw [hstale]
  split
  next hroom =>
    refine ⟨hcounted, ?_, hconflicts, hbindings, hpropagation, hresources, ?_⟩
    · exact (List.take_concat_of_room hroom report).symm
    · dsimp only
      rw [List.excess_concat_of_room hroom]
      exact htruncated
  next hfull =>
    refine ⟨hcounted, ?_, hconflicts, hbindings, hpropagation, hresources, ?_⟩
    · exact (List.take_concat_of_full hfull report).symm
    · dsimp only
      rw [List.excess_concat_of_full hfull, htruncated]
      omega

/-- A fresh reading that finds its key full is only counted. -/
theorem Reports.crowd (h : Reports policy found evidence) : Reports policy (found.read [] 1)
    { evidence with truncatedSections := evidence.truncatedSections + 1 } := by
  obtain ⟨hsamples, hstale, hconflicts, hbindings, hpropagation, hresources, htruncated⟩ := h
  unfold Findings.read
  rw [List.append_nil]
  refine ⟨hsamples, hstale, hconflicts, hbindings, hpropagation, hresources, ?_⟩
  dsimp only
  rw [htruncated]
  omega

/-! ### The metrics of one sample -/

/-- The counters are as they were. -/
structure SameCounters (e e' : EvidenceVector) : Prop where
  seen : e'.samplesSeen = e.samplesSeen
  counted : ∀ {fate counter}, Fate.counter fate = some counter → counter e' = counter e

theorem SameCounters.trans {e e' e'' : EvidenceVector} (h : SameCounters e e')
    (h' : SameCounters e' e'') : SameCounters e e'' :=
  ⟨h'.seen.trans h.seen, fun hf => (h'.counted hf).trans (h.counted hf)⟩

theorem noteStale_counters (report : StaleReport) :
    SameCounters evidence (noteStale policy evidence report) := by
  constructor
  · unfold noteStale
    dsimp only
    split <;> rfl
  · intro fate counter hf
    unfold noteStale
    dsimp only
    cases fate <;> cases hf <;> split <;> rfl

/-- The evidence once a reading is known to be from the future or not: it is counted on its own, which
no list and no other counter sees. -/
theorem future_counters (future : Bool) : SameCounters evidence
    (if future = true then { evidence with futureSamples := evidence.futureSamples + 1 }
      else evidence) := by
  constructor
  · split <;> rfl
  · intro fate counter hf
    cases fate <;> cases hf <;> split <;> rfl

theorem Reports.future (h : Reports policy found evidence) (future : Bool) : Reports policy found
    (if future = true then { evidence with futureSamples := evidence.futureSamples + 1 }
      else evidence) := by
  obtain ⟨hsamples, hstale, hconflicts, hbindings, hpropagation, hresources, htruncated⟩ := h
  split
  · exact ⟨hsamples, hstale, hconflicts, hbindings, hpropagation, hresources, htruncated⟩
  · exact ⟨hsamples, hstale, hconflicts, hbindings, hpropagation, hresources, htruncated⟩

/-- Whether the key of a metric has room. -/
def roomIn (readings : SortedMap ReadingKey (List Reading)) (sample : EvidenceSample)
    (metric : MetricKind) : Bool :=
  decide ((readings.findD (keyOf sample metric) []).length < limits.kMaxContradictionPeers)

/-- What a pass over some metrics of a sample adds. -/
structure Passed (policy : CongestionPolicy) (now : Tick) (sample : EvidenceSample)
    (room : MetricKind → Bool) (metrics : List MetricKind) (pass pass' : SamplePass) : Prop where
  counters : SameCounters pass.evidence pass'.evidence
  accepted : pass'.acceptedAny =
    (pass.acceptedAny || (metrics.filter (freshIn policy now sample)).any room)
  refused : pass'.refusedAny = true ↔
    pass.refusedAny = true ∨ metrics.filterMap (staleReading policy now sample) ≠ []
  reports : ∀ {found}, Reports policy found pass.evidence →
    Reports policy (found.read (metrics.filterMap (staleReading policy now sample))
      ((metrics.filter (freshIn policy now sample)).countP (!room ·))) pass'.evidence

theorem Passed.trans {room : MetricKind → Bool} {metrics metrics' : List MetricKind}
    {pass pass' pass'' : SamplePass} (h : Passed policy now sample room metrics pass pass')
    (h' : Passed policy now sample room metrics' pass' pass'') :
    Passed policy now sample room (metrics ++ metrics') pass pass'' := by
  constructor
  · exact h.counters.trans h'.counters
  · rw [h'.accepted, h.accepted, List.filter_append, List.any_append, Bool.or_assoc]
  · rw [h'.refused, h.refused, List.filterMap_append, Ne, Ne, Ne, List.append_eq_nil_iff,
      not_and_or, or_assoc]
  · intro found hfound
    have hboth := h'.reports (h.reports hfound)
    rwa [Findings.read_read, ← List.filterMap_append, ← List.countP_append,
      ← List.filter_append] at hboth

/-- A pass over one metric that is not fresh only notes its stale reading, if it has one. -/
theorem Passed.notFresh {room : MetricKind → Bool} {metric : MetricKind} {pass pass' : SamplePass}
    (hfresh : freshIn policy now sample metric = false)
    (hcounters : SameCounters pass.evidence pass'.evidence)
    (haccepted : pass'.acceptedAny = pass.acceptedAny)
    (hrefused : pass'.refusedAny = true ↔
      pass.refusedAny = true ∨ staleReading policy now sample metric ≠ none)
    (hreports : ∀ {found}, Reports policy found pass.evidence →
      Reports policy (found.read (staleReading policy now sample metric).toList 0) pass'.evidence) :
    Passed policy now sample room [metric] pass pass' := by
  have hnone : [metric].filter (freshIn policy now sample) = [] := by simp [hfresh]
  have hlist : [metric].filterMap (staleReading policy now sample) =
      (staleReading policy now sample metric).toList := by
    cases hstale : staleReading policy now sample metric <;> simp [hstale]
  constructor
  · exact hcounters
  · rw [hnone, haccepted, List.any_nil, Bool.or_false]
  · rw [hlist, hrefused]
    cases staleReading policy now sample metric <;> simp
  · intro found hfound
    rw [hnone, hlist]
    exact hreports hfound

/-- A pass over one fresh metric accepts the sample if its key has room, and only counts it
otherwise. -/
theorem Passed.fresh {room : MetricKind → Bool} {metric : MetricKind} {pass pass' : SamplePass}
    (hfresh : freshIn policy now sample metric = true)
    (hstale : staleReading policy now sample metric = none)
    (hcounters : SameCounters pass.evidence pass'.evidence)
    (haccepted : pass'.acceptedAny = (pass.acceptedAny || room metric))
    (hrefused : pass'.refusedAny = pass.refusedAny)
    (hreports : ∀ {found}, Reports policy found pass.evidence →
      Reports policy (found.read [] (!room metric).toNat) pass'.evidence) :
    Passed policy now sample room [metric] pass pass' := by
  have hone : [metric].filter (freshIn policy now sample) = [metric] := by simp [hfresh]
  have hnone : [metric].filterMap (staleReading policy now sample) = [] := by simp [hstale]
  have hcount : [metric].countP (!room ·) = (!room metric).toNat := by
    rw [List.countP_singleton]
    cases room metric <;> rfl
  constructor
  · exact hcounters
  · rw [hone, haccepted, List.any_cons, List.any_nil, Bool.or_false]
  · rw [hnone, hrefused]
    simp
  · intro found hfound
    rw [hone, hnone, hcount]
    exact hreports hfound

theorem admitMetric_passed (pass : SamplePass) (metric : MetricKind) :
    Passed policy now sample (roomIn pass.readings sample) [metric] pass
      (admitMetric policy now sample (snapshotOf sample) pass metric) := by
  unfold admitMetric
  cases hvalue : sample.metrics.get metric with
  | none =>
    have hstale : staleReading policy now sample metric = none := by
      simp [staleReading, hvalue]
    refine .notFresh (by simp [freshIn, hvalue]) ⟨rfl, fun _ => rfl⟩ rfl (by simp [hstale]) ?_
    intro found hfound
    rwa [hstale, Option.toList_none, Findings.read_nil]
  | some value =>
    dsimp only
    generalize ha : ageOf policy now sample.observedTick metric = a
    have hcounters := @future_counters pass.evidence a.age.fromFuture
    cases hfresh : a.fresh with
    | false =>
      have hstale : staleReading policy now sample metric = some {
          resource := sample.resource, queue := sample.queue, metric
          publisher := sample.publisher, observedTick := sample.observedTick
          ageTicks := a.age.age, allowedAgeTicks := a.maxAge
          fromFuture := a.age.fromFuture, beyondFutureSkew := a.beyondSkew } := by
        simp [staleReading, hvalue, ha, hfresh]
      rw [Bool.not_false, if_pos rfl]
      refine .notFresh (by simp [freshIn, ha, hfresh]) (hcounters.trans (noteStale_counters _)) rfl
        (by simp [hstale]) ?_
      intro found hfound
      rw [hstale]
      exact (hfound.future _).noteStale _
    | true =>
      have hin : freshIn policy now sample metric = true := by
        simp [freshIn, hvalue, ha, hfresh]
      have hstale : staleReading policy now sample metric = none := by
        simp [staleReading, ha, hfresh]
      rw [Bool.not_true, if_neg Bool.false_ne_true]
      split
      next hfull =>
        have hroom : roomIn pass.readings sample metric = false :=
          decide_eq_false (not_lt.mpr hfull)
        refine .fresh hin hstale (hcounters.trans ⟨rfl, ?_⟩) (by simp [hroom]) rfl ?_
        · intro fate counter hf
          cases fate <;> cases hf <;> rfl
        · intro found hfound
          rw [hroom]
          exact (hfound.future _).crowd
      next hroom =>
        have hroom : roomIn pass.readings sample metric = true :=
          decide_eq_true (not_le.mp hroom)
        refine .fresh hin hstale hcounters (by simp [hroom]) rfl ?_
        intro found hfound
        rw [hroom, Bool.not_true, Bool.toNat_false, Findings.read_nil]
        exact hfound.future _

/-- The room a sample finds for its other metrics is not taken by one of its own. -/
theorem roomIn_admitMetric {pass : SamplePass} {metric other : MetricKind} (hne : metric ≠ other) :
    roomIn (admitMetric policy now sample (snapshotOf sample) pass metric).readings sample other =
      roomIn pass.readings sample other := by
  unfold roomIn
  rw [admitMetric_bucket, if_neg]
  exact hne

theorem any_congr_mem {α : Type} {l : List α} {p q : α → Bool} (h : ∀ x ∈ l, p x = q x) :
    l.any p = l.any q := by
  rw [Bool.eq_iff_iff, List.any_eq_true, List.any_eq_true]
  exact exists_congr fun x => and_congr_right fun hx => by rw [h x hx]

theorem Passed.congr {room room' : MetricKind → Bool} {metrics : List MetricKind}
    {pass pass' : SamplePass} (h : Passed policy now sample room metrics pass pass')
    (hroom : ∀ metric ∈ metrics, room metric = room' metric) :
    Passed policy now sample room' metrics pass pass' := by
  have hany : (metrics.filter (freshIn policy now sample)).any room =
      (metrics.filter (freshIn policy now sample)).any room' :=
    any_congr_mem fun metric hm => hroom metric (List.mem_of_mem_filter hm)
  have hcount : (metrics.filter (freshIn policy now sample)).countP (!room ·) =
      (metrics.filter (freshIn policy now sample)).countP (!room' ·) :=
    List.countP_congr fun metric hm => by rw [hroom metric (List.mem_of_mem_filter hm)]
  refine ⟨h.counters, ?_, h.refused, ?_⟩
  · rw [h.accepted, hany]
  · intro found hfound
    rw [← hcount]
    exact h.reports hfound

theorem foldl_admitMetric_passed {metrics : List MetricKind} (hnodup : metrics.Nodup)
    (pass : SamplePass) : Passed policy now sample (roomIn pass.readings sample) metrics pass
      (metrics.foldl (admitMetric policy now sample (snapshotOf sample)) pass) := by
  induction metrics generalizing pass with
  | nil =>
    refine ⟨⟨rfl, fun _ => rfl⟩, ?_, ?_, ?_⟩
    · simp
    · simp
    · intro found hfound
      exact (found.read_nil).symm ▸ hfound
  | cons metric rest ih =>
    obtain ⟨hnew, hrest⟩ := List.nodup_cons.mp hnodup
    have hfirst : Passed policy now sample (roomIn pass.readings sample) [metric] pass
        (admitMetric policy now sample (snapshotOf sample) pass metric) :=
      admitMetric_passed pass metric
    refine hfirst.trans ((ih hrest _).congr fun other hother => ?_)
    exact roomIn_admitMetric fun heq => hnew (heq ▸ hother)

/-! ### The samples of a batch -/

/-- What one sample does to the evidence: its fate is counted, and what it gave is listed or counted
as left out. -/
structure Records (policy : CongestionPolicy) (entry : Entry) (e e' : EvidenceVector) : Prop where
  seen : e'.samplesSeen = e.samplesSeen
  counted : ∀ {fate counter}, Fate.counter fate = some counter →
    counter e' = counter e + if entry.fate = fate then 1 else 0
  reports : ∀ {found}, Reports policy found e →
    Reports policy (found.read entry.stale entry.crowded) e'

theorem noteIneligible_records (evidence : EvidenceVector) {repeated : Bool}
    {room : MetricKind → Bool} (h : eligible context scope sample = false) :
    Records policy (entryOf policy context now scope repeated room sample) evidence
      (noteIneligible scope sample evidence) := by
  have hlists : ∀ {found : Findings} {e' : EvidenceVector}, Reports policy found e' →
      Reports policy (found.read [] 0) e' := fun hfound => (Findings.read_nil _).symm ▸ hfound
  unfold entryOf noteIneligible
  rw [h, Bool.not_false, if_pos rfl]
  split_ifs with hvalid hscope hbeat
  all_goals
    refine ⟨rfl, ?_, ?_⟩
    · intro fate counter hf
      cases fate <;> cases hf <;> rfl
    · rintro found ⟨hsamples, hstale, hconflicts, hbindings, hpropagation, hresources, htruncated⟩
      exact hlists
        ⟨hsamples, hstale, hconflicts, hbindings, hpropagation, hresources, htruncated⟩

theorem duplicate_records (evidence : EvidenceVector) : Records policy { fate := .duplicate }
    evidence { evidence with samplesDuplicate := evidence.samplesDuplicate + 1 } := by
  refine ⟨rfl, ?_, ?_⟩
  · intro fate counter hf
    cases fate <;> cases hf <;> rfl
  · rintro found ⟨hsamples, hstale, hconflicts, hbindings, hpropagation, hresources, htruncated⟩
    rw [Findings.read_nil]
    exact ⟨hsamples, hstale, hconflicts, hbindings, hpropagation, hresources, htruncated⟩

/-- The end of a pass counts the fate of its sample and leaves the lists alone. -/
theorem noteAccepted_records {start pass : SamplePass} {room : MetricKind → Bool}
    (hstart : start.acceptedAny = false ∧ start.refusedAny = false)
    (h : Passed policy now sample room (ruleMetrics policy) start pass) :
    Records policy (readEntry policy now room sample) start.evidence (noteAccepted sample pass) := by
  have haccepted := h.accepted
  have hrefused := h.refused
  rw [hstart.1, Bool.false_or] at haccepted
  rw [hstart.2, or_iff_right Bool.false_ne_true] at hrefused
  have hfate : (readEntry policy now room sample).fate = if pass.acceptedAny then .accepted
      else if !pass.refusedAny then .unread else .stale := by
    unfold readEntry
    dsimp only
    rw [← haccepted]
    congr 1
    cases hpass : pass.refusedAny with
    | false =>
      rw [if_pos]
      · rfl
      · by_contra hsome
        exact Bool.false_ne_true (hpass ▸ hrefused.mpr hsome)
    | true => exact if_neg (hrefused.mp hpass)
  constructor
  · rw [← h.counters.seen]
    unfold noteAccepted
    cases pass.acceptedAny <;> cases pass.refusedAny <;> rfl
  · intro fate counter hf
    rw [← h.counters.counted hf, hfate]
    unfold noteAccepted
    cases pass.acceptedAny <;> cases pass.refusedAny <;> cases fate <;> cases hf <;> rfl
  · intro found hfound
    obtain ⟨hsamples, hstale, hconflicts, hbindings, hpropagation, hresources, htruncated⟩ :=
      h.reports hfound
    unfold noteAccepted
    cases pass.acceptedAny <;> cases pass.refusedAny <;>
      exact ⟨hsamples, hstale, hconflicts, hbindings, hpropagation, hresources, htruncated⟩

theorem entryOf_eligible {repeated : Bool} {room : MetricKind → Bool}
    (h : eligible context scope sample = true) :
    entryOf policy context now scope repeated room sample =
      if repeated then { fate := .duplicate } else readEntry policy now room sample := by
  have htests := h
  unfold eligible at htests
  simp only [Bool.and_eq_true, decide_eq_true_eq, Bool.not_eq_true'] at htests
  obtain ⟨⟨⟨⟨hvalid, hscope⟩, hbeat⟩, _⟩, _⟩ := htests
  simp [entryOf, hvalid, hscope, hbeat, h]

theorem admitSample_records (acc : Admission) : Records policy
    (entryOf policy context now scope (decide (snapshotOf sample ∈ acc.seenSnapshots))
      (roomIn acc.readings sample) sample) acc.evidence
    (admitSample policy context now scope acc sample).evidence := by
  cases heligible : eligible context scope sample with
  | false =>
    unfold admitSample
    rw [heligible, Bool.not_false, if_pos rfl]
    exact noteIneligible_records acc.evidence heligible
  | true =>
    rw [entryOf_eligible heligible]
    unfold admitSample
    rw [heligible, Bool.not_true, if_neg Bool.false_ne_true]
    by_cases hseen : snapshotOf sample ∈ acc.seenSnapshots
    · rw [if_pos hseen, if_pos (decide_eq_true hseen)]
      exact duplicate_records acc.evidence
    · rw [if_neg hseen, decide_eq_false hseen, if_neg Bool.false_ne_true]
      have hpass := @foldl_admitMetric_passed policy now sample _ (ruleMetrics_nodup policy)
        { readings := acc.readings, evidence := acc.evidence }
      exact noteAccepted_records ⟨rfl, rfl⟩ hpass

/-- The snapshot identities an admission has seen. -/
theorem foldl_admitSample_seen (samples : List EvidenceSample) (acc : Admission)
    (snapshot : EvidenceSnapshotId) :
    snapshot ∈ (samples.foldl (admitSample policy context now scope) acc).seenSnapshots ↔
      snapshot ∈ acc.seenSnapshots ∨
        snapshot ∈ (samples.filter (eligible context scope)).map snapshotOf := by
  induction samples generalizing acc with
  | nil => simp
  | cons sample rest ih =>
    rw [List.foldl_cons, ih]
    unfold admitSample
    cases heligible : eligible context scope sample with
    | false => simp [heligible]
    | true =>
      rw [List.filter_cons_of_pos heligible, List.map_cons, List.mem_cons]
      by_cases hseen : snapshotOf sample ∈ acc.seenSnapshots
      · rw [if_neg (by simp), if_pos hseen]
        constructor
        · rintro (h | h)
          · exact .inl h
          · exact .inr (.inr h)
        · rintro (h | rfl | h)
          · exact .inl h
          · exact .inl hseen
          · exact .inr h
      · rw [if_neg (by simp), if_neg hseen]
        dsimp only
        rw [List.mem_cons, or_comm (a := snapshot = snapshotOf sample), or_assoc]

/-- Only the room for the metrics of the policy matters. -/
theorem entryOf_congr {repeated : Bool} {room room' : MetricKind → Bool}
    (h : ∀ metric ∈ ruleMetrics policy, room metric = room' metric) :
    entryOf policy context now scope repeated room sample =
      entryOf policy context now scope repeated room' sample := by
  have hany : ((ruleMetrics policy).filter (freshIn policy now sample)).any room =
      ((ruleMetrics policy).filter (freshIn policy now sample)).any room' :=
    any_congr_mem fun metric hm => h metric (List.mem_of_mem_filter hm)
  have hcount : ((ruleMetrics policy).filter (freshIn policy now sample)).countP (!room ·) =
      ((ruleMetrics policy).filter (freshIn policy now sample)).countP (!room' ·) :=
    List.countP_congr fun metric hm => by rw [h metric (List.mem_of_mem_filter hm)]
  have hread : readEntry policy now room sample = readEntry policy now room' sample := by
    unfold readEntry
    dsimp only
    rw [hany, hcount]
  unfold entryOf
  rw [hread]

/-- The admission after some samples of a batch tells what becomes of the next one. -/
theorem entryOf_admitted (request : EvaluationRequest) (before : List EvidenceSample)
    {acc : Admission} (hacc : before.foldl (admitSample policy context now scope)
      (emptyAdmission request) = acc) :
    entryOf policy context now scope (decide (snapshotOf sample ∈ acc.seenSnapshots))
        (roomIn acc.readings sample) sample =
      entryAfter policy context now scope before sample := by
  subst hacc
  unfold entryAfter
  dsimp only
  have hseen : snapshotOf sample ∈ (before.foldl (admitSample policy context now scope)
      (emptyAdmission request)).seenSnapshots ↔
        snapshotOf sample ∈ (before.filter (eligible context scope)).map snapshotOf := by
    rw [foldl_admitSample_seen]
    exact or_iff_right List.not_mem_nil
  rw [decide_eq_decide.mpr hseen]
  refine entryOf_congr fun metric hmetric => ?_
  have hbucket := @foldl_admitSample_bucket policy context now scope (keyOf sample metric) hmetric
    before (emptyAdmission request) [] rfl
  unfold roomIn
  rw [hbucket, List.nil_append, List.length_take]
  refine decide_eq_decide.mpr ?_
  rw [min_lt_iff, or_iff_right (lt_irrefl _)]
  rfl

/-- What the entries of a ledger leave for the report. -/
def foundIn (entries : List Entry) : Findings where
  stale := entries.flatMap (·.stale)
  crowded := (entries.map (·.crowded)).sum

/-- The evidence after the samples of these entries. -/
structure Recorded (policy : CongestionPolicy) (entries : List Entry) (evidence : EvidenceVector) :
    Prop where
  counted : ∀ {fate counter}, Fate.counter fate = some counter →
    counter evidence = entries.countP (·.fate = fate)
  reports : Reports policy (foundIn entries) evidence

theorem Recorded.add {entries : List Entry} {entry : Entry} {e e' : EvidenceVector}
    (h : Recorded policy entries e) (hentry : Records policy entry e e') :
    Recorded policy (entries ++ [entry]) e' := by
  constructor
  · intro fate counter hf
    rw [hentry.counted hf, h.counted hf, List.countP_append, List.countP_singleton]
    simp only [decide_eq_true_eq]
  · have hfound : foundIn (entries ++ [entry]) =
        (foundIn entries).read entry.stale entry.crowded := by
      simp [foundIn, Findings.read]
    rw [hfound]
    exact hentry.reports h.reports

theorem foldl_admitSample_recorded (request : EvaluationRequest)
    (samples before : List EvidenceSample) {entries : List Entry} {acc : Admission}
    (hacc : before.foldl (admitSample policy context now scope) (emptyAdmission request) = acc)
    (h : Recorded policy entries acc.evidence) :
    Recorded policy (entries ++ ledgerFrom policy context now scope before samples)
        (samples.foldl (admitSample policy context now scope) acc).evidence ∧
      (samples.foldl (admitSample policy context now scope) acc).evidence.samplesSeen =
        acc.evidence.samplesSeen := by
  induction samples generalizing before entries acc with
  | nil => exact ⟨by rwa [ledgerFrom, List.append_nil], rfl⟩
  | cons sample rest ih =>
    have hstep := @admitSample_records policy context now scope sample acc
    rw [entryOf_admitted request before hacc] at hstep
    have hnext : (before ++ [sample]).foldl (admitSample policy context now scope)
        (emptyAdmission request) = admitSample policy context now scope acc sample := by
      rw [List.foldl_append, hacc]
      rfl
    have hrest := ih (before ++ [sample]) hnext (h.add hstep)
    rw [List.append_assoc] at hrest
    exact ⟨hrest.1, hrest.2.trans hstep.seen⟩

/-- The ledger of a batch. -/
def ledger (request : EvaluationRequest) (policy : CongestionPolicy) (context : EvaluationContext)
    (resources : List ResourceId) : List Entry :=
  ledgerFrom policy context request.now resources [] request.evidence.samples

theorem emptyAdmission_recorded (request : EvaluationRequest) :
    Recorded policy [] (emptyAdmission request).evidence := by
  constructor
  · intro fate counter hf
    cases fate <;> cases hf <;> rfl
  · constructor <;> simp [emptyAdmission, foundIn, cut]

theorem admitSamples_recorded (request : EvaluationRequest) (policy : CongestionPolicy)
    (context : EvaluationContext) (resources : List ResourceId) :
    Recorded policy (ledger request policy context resources)
        (admitSamples request policy context resources).evidence ∧
      (admitSamples request policy context resources).evidence.samplesSeen =
        request.evidence.samples.length :=
  foldl_admitSample_recorded request request.evidence.samples [] rfl
    (emptyAdmission_recorded request)

end CongestionFabric.CongestionEvaluator
