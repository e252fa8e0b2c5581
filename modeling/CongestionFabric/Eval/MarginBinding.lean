import CongestionFabric.Eval.RuleLevels

namespace CongestionFabric.CongestionEvaluator

variable {policy : CongestionPolicy} {resolution : Resolution} {resource : ResourceId}

/-- The readings a rule may go by: one for each queue, none where the metric is contradicted. -/
def winningReadings (resolution : Resolution) (resource : ResourceId) (rule : ThresholdRule) :
    List (QueueId × Reading) :=
  if (resource, rule.metric) ∈ resolution.unresolved then []
  else readingsFor resolution resource rule.metric

def marginLevel (policy : CongestionPolicy) (rule : ThresholdRule)
    (candidate : QueueId × Reading) : Severity :=
  classifyRuleWithMargin rule candidate.2.value policy.hysteresis.downgradeMarginPpm

/-- The resource falls no lower than any of its queues clears by the margin. -/
def MarginBinds (policy : CongestionPolicy) (resolution : Resolution) (c : Classified) : Prop :=
  ∀ rule ∈ policy.rules, ∀ candidate ∈ winningReadings resolution c.assessment.resource rule,
    marginLevel policy rule candidate ≤ c.downward

/-- For every queue of the resource, the reading that stands for some rule is no further below its
thresholds. -/
def SpokenFor (policy : CongestionPolicy) (resolution : Resolution) (resource : ResourceId) :
    Prop :=
  ∀ rule ∈ policy.rules, ∀ candidate ∈ winningReadings resolution resource rule,
    ∃ rule' ∈ policy.rules, ∃ lead,
      Represents rule' (winningReadings resolution resource rule') lead ∧
      marginLevel policy rule candidate ≤ marginLevel policy rule' lead

theorem exists_represents (rule : ThresholdRule) {candidates : List (QueueId × Reading)}
    (h : candidates ≠ []) : ∃ lead, Represents rule candidates lead := by
  cases candidates with
  | nil => exact absurd rfl h
  | cons first rest => exact ⟨_, (IsFirstBest.single (prominence rule) first).foldl rest⟩

theorem ruleOutcome_eq_some {rule : ThresholdRule} {outcome : RuleOutcome} :
    ruleOutcome policy resolution resource rule = some outcome ↔
      ∃ lead, Represents rule (winningReadings resolution resource rule) lead ∧
        outcome = ruleOutcomeOf rule policy.hysteresis.downgradeMarginPpm lead := by
  unfold ruleOutcome winningReadings
  split
  · refine iff_of_false (by simp) ?_
    rintro ⟨lead, hlead, _⟩
    exact absurd hlead.mem List.not_mem_nil
  · exact worstOutcome_eq_some

/-- A rule keeps the resource at the level its representative has under the margin. -/
theorem le_keptBy {rule : ThresholdRule} {v : Severity} (hv : ¬v ≤ .clear) :
    v ≤ keptBy policy resolution resource rule ↔
      ∃ lead, Represents rule (winningReadings resolution resource rule) lead ∧
        v ≤ marginLevel policy rule lead := by
  unfold keptBy
  cases houtcome : ruleOutcome policy resolution resource rule with
  | none =>
    refine iff_of_false hv ?_
    rintro ⟨lead, hlead, _⟩
    have hsome : ruleOutcome policy resolution resource rule =
        some (ruleOutcomeOf rule policy.hysteresis.downgradeMarginPpm lead) :=
      ruleOutcome_eq_some.mpr ⟨lead, hlead, rfl⟩
    rw [houtcome] at hsome
    cases hsome
  | some outcome =>
    obtain ⟨lead, hlead, rfl⟩ := ruleOutcome_eq_some.mp houtcome
    constructor
    · exact fun hle => ⟨lead, hlead, hle⟩
    · rintro ⟨lead', hlead', hle⟩
      rw [IsFirstBest.unique hlead hlead']
      exact hle

/-- What raises a resource also keeps it there. -/
theorem raisedBy_le_keptBy (rule : ThresholdRule) :
    raisedBy policy resolution resource rule ≤ keptBy policy resolution resource rule := by
  unfold raisedBy keptBy
  cases houtcome : ruleOutcome policy resolution resource rule with
  | none => exact le_refl _
  | some outcome =>
    obtain ⟨lead, _, rfl⟩ := ruleOutcome_eq_some.mp houtcome
    exact classifyRuleWithMargin_margin rule lead.2.value policy.hysteresis.downgradeMarginPpm

/-- The gates only pass a level that some rule reached. -/
theorem upward_supported {v : Severity} (hv : ¬v ≤ .clear)
    (h : v ≤ (tallyResource policy resolution resource).upward policy) :
    ∃ rule ∈ policy.rules, v ≤ raisedBy policy resolution resource rule := by
  have hcount : ∀ {level : Severity} {n : UInt32}, v ≤ level → n ≠ 0 ∧
      policy.rules.countP (fun r => level ≤ raisedBy policy resolution resource r) ≥ n.toNat →
      ∃ rule ∈ policy.rules, v ≤ raisedBy policy resolution resource rule := by
    intro level n hle hn
    have hpos : n.toNat ≠ 0 := fun hz => hn.1 (UInt32.toNat_inj.mp hz)
    obtain ⟨rule, hrule, hlevel⟩ := List.countP_pos_iff.mp (by omega :
      0 < policy.rules.countP fun r => level ≤ raisedBy policy resolution resource r)
    exact ⟨rule, hrule, hle.trans (of_decide_eq_true hlevel)⟩
  rw [upward_eq] at h
  unfold gateSeverity at h
  split_ifs at h with hsevere hcongested hwatch
  · exact hcount h hsevere
  · exact hcount h hcongested
  · exact hcount h hwatch
  · exact absurd h hv

/-- With all rules to agree, a resource falls to the highest level any rule keeps it at. -/
theorem le_downward (hagree : policy.hysteresis.requireAllRulesAgreeOnDowngrade = true)
    {v : Severity} (hv : ¬v ≤ .clear) :
    v ≤ (tallyResource policy resolution resource).downward policy ↔
      ∃ rule ∈ policy.rules, v ≤ keptBy policy resolution resource rule := by
  have hstrictest : v ≤ (tallyResource policy resolution resource).strictestDown ↔
      ∃ rule ∈ policy.rules, v ≤ keptBy policy resolution resource rule := by
    have hfold := (@tallyFold_levels policy resolution resource policy.rules { assessment := { resource } }).2.2.2 v
    exact hfold.trans (or_iff_right hv)
  unfold Tally.downward
  dsimp only
  rw [if_pos hagree]
  split
  next hlt =>
    constructor
    · intro h
      obtain ⟨rule, hrule, hle⟩ := upward_supported hv h
      exact ⟨rule, hrule, hle.trans (raisedBy_le_keptBy rule)⟩
    · exact fun h => (hstrictest.mpr h).trans hlt.le
  next => exact hstrictest

/-- The margin binds every queue of a resource exactly when every queue is spoken for; propagation
only raises what the resources may fall to. -/
theorem margin_binds_iff
    (hagree : policy.hysteresis.requireAllRulesAgreeOnDowngrade = true)
    (request : EvaluationRequest) (context : EvaluationContext) (resources : List ResourceId) :
    (∀ c ∈ (classifyScope request policy context resources).classified,
      MarginBinds policy (resolve policy (admitSamples request policy context resources)) c ↔
        SpokenFor policy (resolve policy (admitSamples request policy context resources))
          c.assessment.resource) ∧
    ∀ a, assess request policy context resources = .ok a →
      List.Forall₂ (fun c c' => c.downward ≤ c'.downward)
        (classifyScope request policy context resources).classified a.classified := by
  constructor
  · intro c hc
    unfold classifyScope at hc
    obtain ⟨t, ht, rfl⟩ := List.mem_map.mp hc
    obtain ⟨resource, _, rfl⟩ := List.mem_map.mp ht
    generalize resolve policy (admitSamples request policy context resources) = resolution
    have hresource : (classify policy (tallyResource policy resolution
        resource)).assessment.resource = resource := tally_resource
    unfold MarginBinds SpokenFor
    rw [hresource]
    refine forall₂_congr fun rule hrule => forall₂_congr fun candidate hcandidate => ?_
    by_cases hclear : marginLevel policy rule candidate ≤ .clear
    · refine iff_of_true (hclear.trans (Nat.zero_le _)) ⟨rule, hrule, ?_⟩
      obtain ⟨lead, hlead⟩ := exists_represents rule (List.ne_nil_of_mem hcandidate)
      exact ⟨lead, hlead, hclear.trans (Nat.zero_le _)⟩
    · rw [show (classify policy (tallyResource policy resolution resource)).downward =
        (tallyResource policy resolution resource).downward policy from rfl,
        le_downward hagree hclear]
      exact exists_congr fun rule' => and_congr_right fun _ => le_keptBy hclear
  · intro a ha
    obtain ⟨f, hf, hraised, _⟩ := assess_classified ha
    rw [hf, List.forall₂_map_right_iff]
    exact List.forall₂_same.mpr fun c _ => (hraised c).2.2.2

/-- Two queues of one resource report their utilization. -/
def queuesRequest (first second : UInt64) : EvaluationRequest where
  domain := ⟨1⟩
  epoch := ⟨1⟩
  now := 10
  evidence := {
    id := ⟨1⟩, epoch := ⟨1⟩, submittedTick := 10
    samples := [{
      resource := ⟨1⟩, queue := ⟨1⟩, publisher := ⟨1⟩, publisherBoot := ⟨1⟩, epoch := ⟨1⟩
      generation := ⟨1⟩, sequence := 1, observedTick := 10, snapshot := ⟨1⟩
      metrics := (∅ : MetricSet).insert .utilizationPpm first }, {
      resource := ⟨1⟩, queue := ⟨2⟩, publisher := ⟨1⟩, publisherBoot := ⟨1⟩, epoch := ⟨1⟩
      generation := ⟨1⟩, sequence := 2, observedTick := 10, snapshot := ⟨2⟩
      metrics := (∅ : MetricSet).insert .utilizationPpm second }] }

def queuesResolution (first second : UInt64) : Resolution :=
  resolve makeDefaultPolicy
    (admitSamples (queuesRequest first second) makeDefaultPolicy pairContext [⟨1⟩, ⟨2⟩])

instance (c : Classified) : Decidable (MarginBinds policy resolution c) :=
  inferInstanceAs (Decidable (∀ rule ∈ policy.rules, ∀ candidate ∈ _, _ ≤ _))

theorem margin_binds_iff_worst_first :
    ∃ c ∈ (classifyScope (queuesRequest 840000 720000) makeDefaultPolicy pairContext
      [⟨1⟩, ⟨2⟩]).classified, c.downward = .congested ∧
      MarginBinds makeDefaultPolicy (queuesResolution 840000 720000) c ∧
      SpokenFor makeDefaultPolicy (queuesResolution 840000 720000) c.assessment.resource := by
  obtain ⟨first, second, hcs, hdown, hbinds⟩ : ∃ first second,
      (classifyScope (queuesRequest 840000 720000) makeDefaultPolicy pairContext
        [⟨1⟩, ⟨2⟩]).classified = [first, second] ∧ first.downward = .congested ∧
      MarginBinds makeDefaultPolicy (queuesResolution 840000 720000) first := by
    refine ⟨_, _, rfl, ?_⟩
    decide +kernel
  have hfirst : first ∈ (classifyScope (queuesRequest 840000 720000) makeDefaultPolicy pairContext
      [⟨1⟩, ⟨2⟩]).classified := by
    rw [hcs]
    exact List.mem_cons_self
  have hagree : makeDefaultPolicy.hysteresis.requireAllRulesAgreeOnDowngrade = true := by decide
  have hiff := (margin_binds_iff hagree (queuesRequest 840000 720000) pairContext
    [⟨1⟩, ⟨2⟩]).1 first hfirst
  exact ⟨first, hfirst, hdown, hbinds, hiff.mp hbinds⟩

/-- Both queues read WATCH, and the lower one by its id speaks for both: the other, still within
the margin of CONGESTED, is overlooked. -/
theorem queue_within_margin_overlooked :
    validatePolicy makeDefaultPolicy = .ok makeDefaultPolicy ∧
    makeDefaultPolicy.hysteresis.requireAllRulesAgreeOnDowngrade = true ∧
    scope (queuesRequest 720000 840000) makeDefaultPolicy pairContext.topology =
      .ok [⟨1⟩, ⟨2⟩] ∧
    ∃ c ∈ (classifyScope (queuesRequest 720000 840000) makeDefaultPolicy pairContext
      [⟨1⟩, ⟨2⟩]).classified, c.downward = .watch ∧
      ∃ rule ∈ makeDefaultPolicy.rules,
        ∃ candidate ∈ winningReadings (queuesResolution 720000 840000) c.assessment.resource rule,
          candidate.1 = ⟨2⟩ ∧ marginLevel makeDefaultPolicy rule candidate = .congested := by
  refine ⟨defaultPolicy_accepted, by decide, by decide +kernel, ?_⟩
  obtain ⟨first, second, hcs, hoverlooked⟩ : ∃ first second,
      (classifyScope (queuesRequest 720000 840000) makeDefaultPolicy pairContext
        [⟨1⟩, ⟨2⟩]).classified = [first, second] ∧ first.downward = .watch ∧
      ∃ rule ∈ makeDefaultPolicy.rules, ∃ candidate ∈
        winningReadings (queuesResolution 720000 840000) first.assessment.resource rule,
        candidate.1 = ⟨2⟩ ∧ marginLevel makeDefaultPolicy rule candidate = .congested := by
    refine ⟨_, _, rfl, ?_⟩
    decide +kernel
  exact ⟨first, by rw [hcs]; exact List.mem_cons_self, hoverlooked⟩

end CongestionFabric.CongestionEvaluator
