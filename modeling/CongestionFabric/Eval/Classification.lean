import CongestionFabric.Eval.Admission

namespace CongestionFabric.CongestionEvaluator

/-! ### Contradiction detection -/

def perPublisher (bucket : List Reading) : SortedMap PublisherId Reading :=
  bucket.foldl (fun m reading =>
    match m.find? reading.publisher with
    | some found => if readingBetter reading found then m.insert reading.publisher reading else m
    | none => m.insert reading.publisher reading) ∅

def newestOf (first : Reading) (rest : List Reading) : Reading :=
  rest.foldl (fun winner candidate => if readingBetter candidate winner then candidate else winner)
    first

/-- The extreme readings of one key, by publisher. -/
structure Extremes where
  low : Reading
  high : Reading

def extremesOf (first : Reading) (rest : List Reading) : Extremes :=
  rest.foldl (fun e r =>
    { low := if r.value < e.low.value then r else e.low
      high := if r.value > e.high.value then r else e.high }) ⟨first, first⟩

def Extremes.span (e : Extremes) : UInt64 := e.high.value - e.low.value

def tolerance (policy : ContradictionPolicy) (e : Extremes) : UInt64 :=
  max policy.absoluteTolerance (applyPpm e.high.value policy.relativeTolerancePpm)

/-- The present publisher that ranks first in the priority order, if any is ranked. -/
def highestPriority (order : List PublisherId) (readings : List Reading) : Option Reading :=
  (readings.foldl (fun (best : Nat × Option Reading) candidate =>
    let index := order.idxOf candidate.publisher
    if index < best.1 then (index, some candidate) else best) (order.length, none)).2

structure Resolution where
  chosen : SortedMap ReadingKey Reading := ∅
  unresolved : List (ResourceId × MetricKind) := []
  degraded : List ResourceId := []
  evidence : EvidenceVector := {}

instance : LawfulBEq (ResourceId × MetricKind) := inferInstance

def conflictReport (key : ReadingKey) (e : Extremes) : ConflictReport where
  resource := key.resource
  queue := key.queue
  metric := key.metric
  lowValue := e.low.value
  highValue := e.high.value
  spread := e.span
  lowPublisher := e.low.publisher
  highPublisher := e.high.publisher
  lowObservedTick := e.low.observedTick
  highObservedTick := e.high.observedTick

def noteConflict (policy : CongestionPolicy) (evidence : EvidenceVector)
    (report : ConflictReport) : EvidenceVector :=
  if evidence.conflicts.length < policy.limits.maxConflictReports.toNat then
    { evidence with conflicts := evidence.conflicts ++ [report] }
  else { evidence with truncatedSections := evidence.truncatedSections + 1 }

def chooseReading (key : ReadingKey) (winner : Reading) (acc : Resolution) : Resolution :=
  { acc with
    degraded := if winner.degraded then key.resource :: acc.degraded else acc.degraded
    chosen := acc.chosen.insert key winner }

/-- The publishers of one key that disagree beyond the tolerance, if they do. -/
def disagreement (policy : ContradictionPolicy) (first : Reading) (rest : List Reading) :
    Option Extremes :=
  let e := extremesOf first rest
  if (rest.length + 1 ≥ policy.minDistinctPublishers.toNat) ∧ e.span > tolerance policy e then
    some e
  else none

def resolveKey (policy : CongestionPolicy) (acc : Resolution)
    (entry : ReadingKey × List Reading) : Resolution :=
  match (perPublisher entry.2).values with
  | [] => acc
  | first :: rest =>
    let newest := newestOf first rest
    match disagreement policy.contradiction first rest with
    | none => chooseReading entry.1 newest acc
    | some e =>
      let report := conflictReport entry.1 e
      match policy.contradiction.mode with
      | .reject =>
        let acc := { acc with
          evidence := noteConflict policy acc.evidence report
          unresolved := (entry.1.resource, entry.1.metric) :: acc.unresolved }
        chooseReading entry.1 newest acc
      | .preferHighestPriority =>
        let winner := (highestPriority policy.contradiction.priorityOrder (first :: rest)).getD newest
        let report := { report with resolved := true, selectedPublisher := winner.publisher }
        chooseReading entry.1 winner
          { acc with evidence := noteConflict policy acc.evidence report }
      | .preferNewest =>
        let report := { report with resolved := true, selectedPublisher := newest.publisher }
        chooseReading entry.1 newest
          { acc with evidence := noteConflict policy acc.evidence report }
      | .undeclared _ _ =>
        chooseReading entry.1 newest
          { acc with evidence := noteConflict policy acc.evidence { report with resolved := true } }

def resolve (policy : CongestionPolicy) (admission : Admission) : Resolution :=
  admission.readings.entries.foldl (resolveKey policy) { evidence := admission.evidence }

/-! ### Per-resource classification -/

def gateSeverity (agreeWatch agreeCongested agreeSevere : Nat) (policy : CongestionPolicy) :
    Severity :=
  if policy.minAgreeingRulesForSevere ≠ 0 ∧
      agreeSevere ≥ policy.minAgreeingRulesForSevere.toNat then .severe
  else if policy.minAgreeingRulesForCongested ≠ 0 ∧
      agreeCongested ≥ policy.minAgreeingRulesForCongested.toNat then .congested
  else if policy.minAgreeingRulesForWatch ≠ 0 ∧
      agreeWatch ≥ policy.minAgreeingRulesForWatch.toNat then .watch
  else .clear

structure RuleOutcome where
  upward : Severity := .clear
  downward : Severity := .clear
  value : UInt64 := 0
  queue : QueueId := {}
  reading : Reading := {}

/-- The chosen readings of one resource and metric, in queue order. -/
def readingsFor (resolution : Resolution) (resource : ResourceId) (metric : MetricKind) :
    List (QueueId × Reading) :=
  (resolution.chosen.entries.filter fun e => e.1.resource = resource ∧ e.1.metric = metric).map
    fun e => (e.1.queue, e.2)

def ruleOutcomeOf (rule : ThresholdRule) (marginPpm : UInt32) (candidate : QueueId × Reading) :
    RuleOutcome where
  upward := classifyRuleWithMargin rule candidate.2.value 0
  downward := classifyRuleWithMargin rule candidate.2.value marginPpm
  value := candidate.2.value
  queue := candidate.1
  reading := candidate.2

def outcomeBetter (candidate incumbent : RuleOutcome) : Bool :=
  candidate.upward > incumbent.upward ||
    (candidate.upward = incumbent.upward &&
      (candidate.reading.observedTick > incumbent.reading.observedTick ||
        (candidate.reading.observedTick = incumbent.reading.observedTick &&
          candidate.queue < incumbent.queue)))

/-- The worst queue decides a rule. -/
def worstOutcome (rule : ThresholdRule) (marginPpm : UInt32) :
    List (QueueId × Reading) → Option RuleOutcome
  | [] => none
  | first :: rest =>
    some (rest.foldl (fun incumbent candidate =>
      let outcome := ruleOutcomeOf rule marginPpm candidate
      if outcomeBetter outcome incumbent then outcome else incumbent)
      (ruleOutcomeOf rule marginPpm first))

structure Tally where
  assessment : ResourceAssessment
  outcomes : List (ThresholdRule × RuleOutcome) := []
  anyPresent : Bool := false
  requiredTotal : Nat := 0
  requiredPresent : Nat := 0
  agreeWatch : Nat := 0
  agreeCongested : Nat := 0
  agreeSevere : Nat := 0
  downWatch : Nat := 0
  downCongested : Nat := 0
  downSevere : Nat := 0
  strictestDown : Severity := .clear

def countIf (p : Prop) [Decidable p] (n : Nat) : Nat := if p then n + 1 else n

def assessReading (degraded : Bool) (outcome : RuleOutcome) (assessment : ResourceAssessment) :
    ResourceAssessment :=
  let newer := assessment.newestObservedTick = kNoTick ∨
    outcome.reading.observedTick > assessment.newestObservedTick
  let snapshot := if newer then outcome.reading.snapshot else assessment.newestSnapshot
  { assessment with
    samplesConsidered := assessment.samplesConsidered + 1
    futureSamples := countIf outcome.reading.future assessment.futureSamples
    newestObservedTick :=
      if newer then outcome.reading.observedTick else assessment.newestObservedTick
    newestSnapshot := if snapshot.valid then snapshot else outcome.reading.snapshot
    degradedSource := assessment.degradedSource || degraded }

/-- Fold one rule of the policy into the tally of a resource. -/
def tallyRule (policy : CongestionPolicy) (resolution : Resolution) (resource : ResourceId)
    (t : Tally) (rule : ThresholdRule) : Tally :=
  let t := { t with requiredTotal := countIf rule.required t.requiredTotal }
  if (resource, rule.metric) ∈ resolution.unresolved then
    { t with
      assessment := { t.assessment with contradictory := true, coverage := .partially } }
  else
    match worstOutcome rule policy.hysteresis.downgradeMarginPpm
        (readingsFor resolution resource rule.metric) with
    | none => t
    | some outcome =>
      { t with
        assessment := assessReading (resource ∈ resolution.degraded) outcome t.assessment
        outcomes := t.outcomes ++ [(rule, outcome)]
        anyPresent := true
        requiredPresent := countIf rule.required t.requiredPresent
        agreeWatch := countIf (outcome.upward ≥ .watch) t.agreeWatch
        agreeCongested := countIf (outcome.upward ≥ .congested) t.agreeCongested
        agreeSevere := countIf (outcome.upward ≥ .severe) t.agreeSevere
        downWatch := countIf (outcome.downward ≥ .watch) t.downWatch
        downCongested := countIf (outcome.downward ≥ .congested) t.downCongested
        downSevere := countIf (outcome.downward ≥ .severe) t.downSevere
        strictestDown := max t.strictestDown outcome.downward }

def tallyResource (policy : CongestionPolicy) (resolution : Resolution) (resource : ResourceId) :
    Tally :=
  policy.rules.foldl (tallyRule policy resolution resource) { assessment := { resource } }

def Tally.upward (policy : CongestionPolicy) (t : Tally) : Severity :=
  gateSeverity t.agreeWatch t.agreeCongested t.agreeSevere policy

def Tally.downward (policy : CongestionPolicy) (t : Tally) : Severity :=
  let up := t.upward policy
  let down :=
    if policy.hysteresis.requireAllRulesAgreeOnDowngrade then t.strictestDown
    else max up (gateSeverity t.downWatch t.downCongested t.downSevere policy)
  if down < up then up else down

def Tally.coverage (t : Tally) : ResourceCoverage :=
  if !t.anyPresent then if t.assessment.contradictory then .partially else .none
  else if t.requiredPresent = t.requiredTotal then .full
  else .partially

/-- What one resource brings to the domain. -/
structure Classified where
  assessment : ResourceAssessment
  upward : Severity
  downward : Severity

def classify (policy : CongestionPolicy) (t : Tally) : Classified where
  assessment := { t.assessment with rawSeverity := t.upward policy, coverage := t.coverage }
  upward := t.upward policy
  downward := t.downward policy

def noteBinding (policy : CongestionPolicy) (resource : ResourceId) (evidence : EvidenceVector)
    (bound : ThresholdRule × RuleOutcome) : EvidenceVector :=
  let (rule, outcome) := bound
  if evidence.bindings.length < policy.limits.maxExplanationEntries.toNat then
    let binding : ThresholdBinding := {
      resource, queue := outcome.queue, metric := rule.metric, op := rule.op
      value := outcome.value, watch := rule.watch, congested := rule.congested
      severe := rule.severe, level := outcome.upward, required := rule.required
      degradedSource := outcome.reading.degraded, publisher := outcome.reading.publisher
      observedTick := outcome.reading.observedTick }
    { evidence with bindings := evidence.bindings ++ [binding] }
  else { evidence with truncatedSections := evidence.truncatedSections + 1 }

def noteBindings (policy : CongestionPolicy) (evidence : EvidenceVector) (t : Tally) :
    EvidenceVector :=
  t.outcomes.foldl (noteBinding policy t.assessment.resource) evidence

end CongestionFabric.CongestionEvaluator
