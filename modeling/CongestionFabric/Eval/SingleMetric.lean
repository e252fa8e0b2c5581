import CongestionFabric.Eval.PropagationNeutral

namespace CongestionFabric

theorem validateRules_metrics {freshness : FreshnessPolicy} {rules : List ThresholdRule} :
    ∀ {seen : List MetricKind}, validateRules freshness seen rules = .ok () →
      (rules.map (·.metric)).Nodup ∧ ∀ rule ∈ rules, rule.metric ∉ seen := by
  induction rules with
  | nil => intro seen _; simp
  | cons rule rest ih =>
    intro seen h
    simp only [validateRules, bind_ok] at h
    obtain ⟨_, hrule, hrest⟩ := h
    simp only [validateRule, bind_ok, refuseIf_ok, exists_const] at hrule
    obtain ⟨_, hnew, _⟩ := hrule
    obtain ⟨hnodup, hlater⟩ := ih hrest
    have hhead : rule.metric ∉ rest.map (·.metric) := by
      intro hmem
      obtain ⟨later, hl, heq⟩ := List.mem_map.mp hmem
      exact hlater later hl (heq ▸ List.mem_cons_self)
    refine ⟨List.nodup_cons.mpr ⟨hhead, hnodup⟩, ?_⟩
    intro later hl
    rcases List.mem_cons.mp hl with rfl | hl
    · exact hnew
    · exact fun hseen => hlater later hl (List.mem_cons_of_mem _ hseen)

/-- An accepted policy has at most one rule for a metric. -/
theorem Accepted.countP_metric {policy : CongestionPolicy} (h : Accepted policy)
    (metric : MetricKind) : policy.rules.countP (fun rule => rule.metric = metric) ≤ 1 := by
  have hcount := List.nodup_iff_count.mp (validateRules_metrics h.rules).1 metric
  rw [List.count, List.countP_map] at hcount
  refine le_trans (le_of_eq ?_) hcount
  apply List.countP_congr
  intro rule _
  simp

theorem Accepted.severe_gate {policy : CongestionPolicy} (h : Accepted policy) :
    policy.minAgreeingRulesForCongested ≤ policy.minAgreeingRulesForSevere := by
  have hgates := h.gates
  simp only [validateGates, bind_ok, refuseIf_ok, exists_const] at hgates
  exact UInt32.not_lt.mp hgates.2.2.2

namespace HysteresisEngine

/-- Neither CONGESTED nor SEVERE, nor on the way back from them. -/
def Calm (state : CongestionState) : Prop :=
  state ≠ .congested ∧ state ≠ .severe ∧ state ≠ .recovering

instance (state : CongestionState) : Decidable (Calm state) :=
  inferInstanceAs (Decidable (_ ∧ _ ∧ _))

/-- Calm, and with nothing worse than WATCH to recover from. -/
structure NeverCongested (s : DomainState) : Prop where
  calm : Calm s.state
  memory : s.lastCommittedSeverity ≤ .watch

theorem Calm.severity {state : CongestionState} (h : Calm state) :
    (severityOf state).getD .clear ≤ .watch := by
  obtain ⟨hc, hs, hr⟩ := h
  cases state with
  | congested => exact absurd rfl hc
  | severe => exact absurd rfl hs
  | recovering => exact absurd rfl hr
  | clear | watch => decide
  | unknown | stale | conflict | undeclared => exact le_of_lt (by decide : Severity.clear < .watch)

theorem Calm.of_severity {v : Severity} (h : v ≤ .watch) : Calm (stateOf v) := by
  cases v with
  | clear | watch => decide
  | congested | severe => exact absurd h (by decide)
  | undeclared raw hraw => exact ⟨by simp [stateOf], by simp [stateOf], by simp [stateOf]⟩

theorem Calm.of_indeterminate {state : CongestionState} (h : isIndeterminate state = true) :
    Calm state := by
  cases state with
  | unknown | stale | conflict => decide
  | _ => simp [isIndeterminate] at h

/-- From calm, a proposal of WATCH at most aims at a calm state. -/
theorem ladder_calm {s : DomainState} {p : SeverityProposal} {hysteresis : HysteresisPolicy}
    {recovery : RecoveryPolicy} {aim : Aim} (hs : NeverCongested s) (hp : p.upward ≤ .watch)
    (hl : ladder s p hysteresis recovery = some aim) : Calm aim.target := by
  have hnot : ∀ v : Severity, v ≤ .watch → ¬Severity.congested ≤ v := by
    intro v hv hcongested
    exact absurd (hcongested.trans hv) (by decide)
  have hcurrent : currentSeverity s ≤ .watch := hs.calm.severity
  unfold ladder at hl
  split_ifs at hl with _ hup hmemory hrise hfall hrecovering hclear hback
  · exact absurd hup (hnot _ hp)
  · exact absurd hmemory.2 (hnot _ hs.memory)
  · cases hl
    exact .of_severity hp
  · cases hl
    exact .of_severity hp
  · exact absurd hrecovering hs.calm.2.2
  · exact absurd hrecovering hs.calm.2.2
  · exact absurd hback.2.2 (hnot _ hcurrent)
  · cases hl
    exact .of_severity (hfall.le.trans hcurrent)

theorem step_neverCongested {s : DomainState} {p : SeverityProposal} (hs : NeverCongested s)
    (hp : p.upward ≤ .watch) (hysteresis : HysteresisPolicy) (recovery : RecoveryPolicy)
    (now : Tick) :
    NeverCongested (step s p hysteresis recovery now).1 := by
  have h := step_cases s p hysteresis recovery now
  generalize step s p hysteresis recovery now = result at h ⊢
  cases h with
  | regressed | invalid => exact hs
  | indeterminate _ _ hi =>
    have ht := indeterminateTarget_indeterminate s hi
    unfold stepIndeterminate
    dsimp only
    split
    · exact ⟨.of_indeterminate ht, hs.memory⟩
    · exact ⟨hs.calm, hs.memory⟩
  | steady => exact ⟨hs.calm, hs.calm.severity⟩
  | confirms => exact ⟨hs.calm, hs.memory⟩
  | pending aim =>
    rw [countSample_eq]
    exact ⟨hs.calm, hs.memory⟩
  | commits aim _ _ hl =>
    have hcalm : Calm aim.target := ladder_calm hs hp hl
    rw [countSample_eq]
    unfold commit
    dsimp only
    split
    · exact ⟨hcalm, hcalm.severity⟩
    · exact ⟨hcalm, hs.memory⟩

end HysteresisEngine

namespace CongestionEvaluator

open HysteresisEngine

variable {policy : CongestionPolicy} {metric : MetricKind}

/-! ### One metric fills one rule -/

theorem resolveKey_chosen (policy : CongestionPolicy) (acc : Resolution) (entry : ReadingKey × List Reading) :
    (resolveKey policy acc entry).chosen = acc.chosen ∨
      ∃ winner, (resolveKey policy acc entry).chosen = acc.chosen.insert entry.1 winner := by
  unfold resolveKey
  split
  · exact .inl rfl
  · dsimp only
    split
    · exact .inr ⟨_, rfl⟩
    · split <;> exact .inr ⟨_, rfl⟩

/-- Only admitted keys are chosen. -/
theorem resolve_keys {admission : Admission} {chosen : ReadingKey × Reading}
    (h : chosen ∈ (resolve policy admission).chosen.entries) :
    ∃ entry ∈ admission.readings.entries, entry.1 = chosen.1 := by
  have hfold : ∀ (entries : List (ReadingKey × List Reading)) (acc : Resolution),
      chosen ∈ (entries.foldl (resolveKey policy) acc).chosen.entries →
        chosen ∈ acc.chosen.entries ∨ ∃ entry ∈ entries, entry.1 = chosen.1 := by
    intro entries
    induction entries with
    | nil => exact fun acc hc => .inl hc
    | cons entry rest ih =>
      intro acc hc
      rcases ih _ hc with hc | ⟨later, hl, heq⟩
      · rcases resolveKey_chosen policy acc entry with hkept | ⟨winner, hinsert⟩
        · exact .inl (hkept ▸ hc)
        · rw [hinsert] at hc
          rcases SortedMap.mem_insertEntry hc with rfl | hc
          · exact .inr ⟨entry, List.mem_cons_self, rfl⟩
          · exact .inl hc
      · exact .inr ⟨later, List.mem_cons_of_mem _ hl, heq⟩
  exact (hfold _ _ h).resolve_left List.not_mem_nil

def AdmitsOnly (metric : MetricKind) (admission : Admission) : Prop :=
  ∀ entry ∈ admission.readings.entries, entry.1.metric = metric

instance (metric : MetricKind) (admission : Admission) : Decidable (AdmitsOnly metric admission) :=
  inferInstanceAs (Decidable (∀ entry ∈ _, _))

theorem readingsFor_other {admission : Admission} (h : AdmitsOnly metric admission)
    (resource : ResourceId) {other : MetricKind} (hne : other ≠ metric) :
    readingsFor (resolve policy admission) resource other = [] := by
  unfold readingsFor
  rw [List.map_eq_nil_iff, List.filter_eq_nil_iff]
  intro chosen hc hmatch
  obtain ⟨entry, hentry, hkey⟩ := resolve_keys hc
  have hmetric : chosen.1.metric = other := (of_decide_eq_true hmatch).2
  exact hne (by rw [← hmetric, ← hkey]; exact h entry hentry)

/-- A rule for another metric supports nothing, and no rule supports a severity twice. -/
theorem tallyRule_support (policy : CongestionPolicy) {admission : Admission}
    (h : AdmitsOnly metric admission) (resource : ResourceId) (t : Tally) (rule : ThresholdRule) :
    let t' := tallyRule policy (resolve policy admission) resource t rule
    t'.agreeCongested ≤ t.agreeCongested + (if rule.metric = metric then 1 else 0) ∧
      t'.agreeSevere ≤ t.agreeSevere + (if rule.metric = metric then 1 else 0) := by
  intro t'
  simp only [t', tallyRule]
  split
  · exact ⟨Nat.le_add_right _ _, Nat.le_add_right _ _⟩
  · by_cases hm : rule.metric = metric
    · rw [if_pos hm]
      split
      · exact ⟨Nat.le_add_right _ _, Nat.le_add_right _ _⟩
      · dsimp only
        unfold countIf
        constructor
        · split <;> omega
        · split <;> omega
    · rw [readingsFor_other h resource hm]
      exact ⟨Nat.le_add_right _ _, Nat.le_add_right _ _⟩

theorem tally_support (policy : CongestionPolicy) {admission : Admission}
    (h : AdmitsOnly metric admission) (resource : ResourceId) :
    let t := tallyResource policy (resolve policy admission) resource
    t.agreeCongested ≤ policy.rules.countP (fun rule => rule.metric = metric) ∧
      t.agreeSevere ≤ policy.rules.countP (fun rule => rule.metric = metric) := by
  have hfold : ∀ (rules : List ThresholdRule) (t : Tally),
      let t' := rules.foldl (tallyRule policy (resolve policy admission) resource) t
      t'.agreeCongested ≤ t.agreeCongested + rules.countP (fun rule => rule.metric = metric) ∧
        t'.agreeSevere ≤ t.agreeSevere + rules.countP (fun rule => rule.metric = metric) := by
    intro rules
    induction rules with
    | nil => intro t; exact ⟨le_refl _, le_refl _⟩
    | cons rule rest ih =>
      intro t
      obtain ⟨hc, hs⟩ := tallyRule_support policy h resource t rule
      obtain ⟨ic, is⟩ := ih (tallyRule policy (resolve policy admission) resource t rule)
      simp only [List.foldl_cons, List.countP_cons, decide_eq_true_eq]
      constructor
      · omega
      · omega
  have htotal := hfold policy.rules { assessment := { resource } }
  simp only [Nat.zero_add] at htotal
  exact htotal

/-- Support below both gates reaches WATCH at most. -/
theorem gateSeverity_le_watch {watch congested severe : Nat}
    (hc : congested < policy.minAgreeingRulesForCongested.toNat)
    (hs : severe < policy.minAgreeingRulesForSevere.toNat) :
    gateSeverity watch congested severe policy ≤ .watch := by
  unfold gateSeverity
  rw [if_neg (fun hgate => absurd hgate.2 (by omega)),
    if_neg (fun hgate => absurd hgate.2 (by omega))]
  split <;> decide

variable (haccepted : Accepted policy) (hgate : 2 ≤ policy.minAgreeingRulesForCongested)

include haccepted hgate

theorem classifyScope_le_watch {request : EvaluationRequest} {context : EvaluationContext}
    {resources : List ResourceId}
    (honly : AdmitsOnly metric (admitSamples request policy context resources)) :
    ∀ c ∈ (classifyScope request policy context resources).classified, c.upward ≤ .watch := by
  have hcongested : 2 ≤ policy.minAgreeingRulesForCongested.toNat := UInt32.le_iff_toNat_le.mp hgate
  have hsevere := UInt32.le_iff_toNat_le.mp haccepted.severe_gate
  have hrules := haccepted.countP_metric metric
  intro c hc
  unfold classifyScope at hc
  dsimp only at hc
  rw [List.map_map] at hc
  obtain ⟨resource, _, rfl⟩ := List.mem_map.mp hc
  obtain ⟨hsupported, hsupported'⟩ := tally_support policy honly resource
  show gateSeverity _ _ _ policy ≤ .watch
  apply gateSeverity_le_watch
  · omega
  · omega

/-- Neither propagation nor the coverage floor takes one metric beyond WATCH. -/
theorem proposal_le_watch {request : EvaluationRequest} {context : EvaluationContext}
    {resources : List ResourceId} {a : Assessed} {prior : DomainState}
    (honly : AdmitsOnly metric (admitSamples request policy context resources))
    (ha : assess request policy context resources = .ok a) :
    (propose policy prior (aggregate a.classified)).upward ≤ .watch := by
  have hgrounded : ∀ c ∈ (classifyScope request policy context resources).classified, Grounded c :=
    classifyScope_grounded request context
  obtain ⟨a', ha', hneutral⟩ := spreadPressure_neutral haccepted context.topology hgrounded
  obtain rfl : a' = a := Except.ok.inj (ha'.symm.trans ha)
  have hclasses := classifyScope_le_watch haccepted hgate honly
  obtain ⟨_, _, _, hup, _⟩ := aggregate_map
    (classifyScope request policy context resources).classified (f := id)
    fun c => ⟨rfl, rfl, le_refl _, le_refl _⟩
  rw [List.map_id] at hup
  have hdomain : (aggregate a'.classified).upward ≤ .watch := by
    rw [hneutral.aggregate]
    rcases (hup _).mp (le_refl _) with hclear | ⟨c, hc, _, hle⟩
    · exact hclear.trans (by decide)
    · exact hle.trans (hclasses c hc)
  unfold propose
  split
  · show Severity.clear ≤ .watch
    decide
  · split
    · show Severity.clear ≤ .watch
      decide
    · split
      · exact max_le hdomain (le_refl _)
      · exact hdomain

/-- What an evaluation commits to a domain that was never congested keeps it so. -/
theorem evaluate_neverCongested {request : EvaluationRequest} {context : EvaluationContext}
    {resources : List ResourceId} {prior : DomainState} {outcome : EvaluationOutcome}
    (hpolicy : context.policy = some policy)
    (hscope : scope request policy context.topology = .ok resources)
    (honly : AdmitsOnly metric (admitSamples request policy context resources))
    (hprior : NeverCongested prior) (h : evaluate request prior context = .ok outcome) :
    NeverCongested outcome.updated := by
  obtain ⟨policy', resources', a, hp, _, _, hs, ha, rfl⟩ := evaluate_ok h
  obtain rfl : policy' = policy := Option.some.inj (hp.symm.trans hpolicy)
  obtain rfl : resources' = resources := Except.ok.inj (hs.symm.trans hscope)
  have hproposal : (propose policy' prior (aggregate a.classified)).upward ≤ .watch :=
    proposal_le_watch haccepted hgate honly ha
  have hprepared : NeverCongested (prepare request policy' context prior) :=
    ⟨hprior.calm, hprior.memory⟩
  have hstep := step_neverCongested hprepared hproposal policy'.hysteresis policy'.recovery
    request.now
  exact ⟨hstep.calm, hstep.memory⟩

omit haccepted hgate

/-! ### Runs of one domain -/

/-- What one call of the evaluator is given besides the domain's state. -/
structure Call where
  request : EvaluationRequest
  context : EvaluationContext

/-- The state a call commits; a refused call commits nothing. -/
def committed (prior : DomainState) (call : Call) : DomainState :=
  match evaluate call.request prior call.context with
  | .ok outcome => outcome.updated
  | .error _ => prior

/-- The readings a call admits under the policy are all of one metric. -/
def OneMetric (policy : CongestionPolicy) (metric : MetricKind) (call : Call) : Prop :=
  ∀ resources, scope call.request policy call.context.topology = .ok resources →
    AdmitsOnly metric (admitSamples call.request policy call.context resources)

/-- Calls of one domain under one policy, each over any topology and any evidence of the metric. -/
def SingleMetricStep (policy : CongestionPolicy) (domain : DomainId) (metric : MetricKind)
    (s : DomainState) (call : Call) (s' : DomainState) : Prop :=
  call.context.policy = some policy ∧ call.request.domain = domain ∧ OneMetric policy metric call ∧
    committed s call = s'

theorem SingleMetricStep.neverCongested (haccepted : Accepted policy)
    (hgate : 2 ≤ policy.minAgreeingRulesForCongested) {domain : DomainId} {call : Call}
    {s s' : DomainState} (hs : NeverCongested s)
    (h : SingleMetricStep policy domain metric s call s') : NeverCongested s' := by
  obtain ⟨hpolicy, _, honly, rfl⟩ := h
  unfold committed
  split
  next outcome hok =>
    obtain ⟨policy', resources, _, hp, _, _, hscope, _⟩ := evaluate_ok hok
    obtain rfl : policy' = policy := Option.some.inj (hp.symm.trans hpolicy)
    exact evaluate_neverCongested haccepted hgate hpolicy hscope (honly resources hscope) hs hok
  next => exact hs

/-- One metric alone never congests a domain when congestion needs two rules to agree. -/
theorem single_metric_calm {requested policy : CongestionPolicy}
    (hvalid : validatePolicy requested = .ok policy)
    (hgate : 2 ≤ policy.minAgreeingRulesForCongested) {domain : DomainId} {metric : MetricKind}
    {calls : List (Event DomainState Call)} {s : DomainState}
    (hrun : Run (SingleMetricStep policy domain metric) {} calls s) : Calm s.state := by
  obtain ⟨_, haccepted⟩ := validatePolicy_accepted hvalid
  have hstart : NeverCongested {} := ⟨by decide, by decide⟩
  have hend : NeverCongested s :=
    hrun.invariant hstart fun _ _ _ hs hstep => hstep.neverCongested haccepted hgate hs
  exact hend.calm

/-- Utilization beyond its severe threshold, and nothing else. -/
def saturatedCall (now : Tick) : Call where
  request := { pairRequest 990000 with now }
  context := { pairContext with now }

theorem saturatedCall_oneMetric {now : Tick}
    (h : (scope (saturatedCall now).request makeDefaultPolicy pairContext.topology).toOption.all
      (fun resources => decide (AdmitsOnly .utilizationPpm
        (admitSamples (saturatedCall now).request makeDefaultPolicy (saturatedCall now).context
          resources))) = true) :
    OneMetric makeDefaultPolicy .utilizationPpm (saturatedCall now) := by
  intro resources hscope
  rw [show (saturatedCall now).context.topology = pairContext.topology from rfl] at hscope
  rw [hscope] at h
  exact of_decide_eq_true h

theorem single_metric_calm_saturated :
    let s := [10, 11, 12].foldl (fun s now => committed s (saturatedCall now)) {}
    s.state = .watch ∧ Calm s.state := by
  have hone : ∀ now ∈ [(10 : Tick), 11, 12],
      OneMetric makeDefaultPolicy .utilizationPpm (saturatedCall now) := by
    simp only [List.forall_mem_cons]
    exact ⟨saturatedCall_oneMetric (by decide +kernel), saturatedCall_oneMetric (by decide +kernel),
      saturatedCall_oneMetric (by decide +kernel), nofun⟩
  have hstep : ∀ (s : DomainState), ∀ now ∈ [(10 : Tick), 11, 12],
      SingleMetricStep makeDefaultPolicy ⟨1⟩ .utilizationPpm s (saturatedCall now)
        (committed s (saturatedCall now)) :=
    fun s now hnow => ⟨rfl, rfl, hone now hnow, rfl⟩
  refine ⟨by decide +kernel, ?_⟩
  exact single_metric_calm defaultPolicy_accepted (by decide)
    (((Run.start.next (hstep _ 10 (by decide))).next (hstep _ 11 (by decide))).next
      (hstep _ 12 (by decide)))

end CongestionEvaluator

end CongestionFabric
