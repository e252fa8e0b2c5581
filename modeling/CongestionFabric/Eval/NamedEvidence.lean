import CongestionFabric.Eval.Acceptance
import CongestionFabric.Eval.BoundReadings
import CongestionFabric.Eval.PlanBudget

namespace CongestionFabric

namespace CongestionEvaluator

variable {policy : CongestionPolicy} {context : EvaluationContext} {now : Tick}
  {scope : List ResourceId} {request : EvaluationRequest} {sample : EvidenceSample}
  {resource resource' : ResourceId} {id : EvidenceSnapshotId} {start : Admission}
  {samples : List EvidenceSample}

/-! ### Snapshots of accepted samples -/

/-- One of these samples is of the resource, carries the snapshot and is accepted at its place. -/
def Vouches (policy : CongestionPolicy) (context : EvaluationContext) (now : Tick)
    (scope : List ResourceId) (start : Admission) (samples : List EvidenceSample)
    (resource : ResourceId) (id : EvidenceSnapshotId) : Prop :=
  ∃ before sample after, samples = before ++ sample :: after ∧ sample.resource = resource ∧
    snapshotOf sample = id ∧ takes policy context now scope
      (before.foldl (admitSample policy context now scope) start) sample = true

theorem vouches_nil : ¬Vouches policy context now scope start [] resource id := by
  rintro ⟨before, sample, after, heq, _⟩
  exact absurd heq.symm (by simp)

theorem vouches_snoc : Vouches policy context now scope start (samples ++ [sample]) resource id ↔
    Vouches policy context now scope start samples resource id ∨
      (sample.resource = resource ∧ snapshotOf sample = id ∧ takes policy context now scope
        (samples.foldl (admitSample policy context now scope) start) sample = true) := by
  constructor
  · rintro ⟨before, found, after, heq, hresource, hid, htakes⟩
    rcases List.eq_nil_or_concat after with rfl | ⟨middle, last, rfl⟩
    · obtain ⟨rfl, hlast⟩ := List.append_inj' heq rfl
      obtain rfl := List.singleton_inj.mp hlast
      exact .inr ⟨hresource, hid, htakes⟩
    · have heq : samples ++ [sample] = (before ++ found :: middle) ++ [last] := by
        simpa using heq
      obtain ⟨hsamples, _⟩ := List.append_inj' heq rfl
      exact .inl ⟨before, found, middle, hsamples, hresource, hid, htakes⟩
  · rintro (⟨before, found, after, rfl, h⟩ | ⟨hresource, hid, htakes⟩)
    · exact ⟨before, found, after ++ [sample], by simp, h⟩
    · exact ⟨samples, sample, [], rfl, hresource, hid, htakes⟩

theorem admitSample_takes {a : Admission} (h : takes policy context now scope a sample = true) :
    snapshotOf sample ∉ a.seenSnapshots ∧
      snapshotOf sample ∈ (admitSample policy context now scope a sample).seenSnapshots := by
  unfold takes at h
  rw [Bool.and_eq_true, Bool.and_eq_true, decide_eq_true_eq] at h
  obtain ⟨⟨heligible, hnew⟩, _⟩ := h
  refine ⟨hnew, ?_⟩
  unfold admitSample
  rw [if_neg (by simp [heligible]), if_neg hnew]
  exact List.mem_cons_self

theorem admitSample_seen {a : Admission} (h : id ∈ a.seenSnapshots) :
    id ∈ (admitSample policy context now scope a sample).seenSnapshots := by
  unfold admitSample
  split
  · exact h
  · split
    · exact h
    · exact List.mem_cons_of_mem _ h

/-- An accepted snapshot is remembered, so a second sample that carries it is a duplicate. -/
theorem vouches_seen (h : Vouches policy context now scope start samples resource id) :
    id ∈ (samples.foldl (admitSample policy context now scope) start).seenSnapshots := by
  induction samples using List.reverseRecOn with
  | nil => exact absurd h vouches_nil
  | append_singleton samples sample ih =>
    rw [List.foldl_append, List.foldl_cons, List.foldl_nil]
    rcases vouches_snoc.mp h with h | ⟨_, hid, htakes⟩
    · exact admitSample_seen (ih h)
    · rw [← hid]
      exact (admitSample_takes htakes).2

theorem vouches_unique (h : Vouches policy context now scope start samples resource id)
    (h' : Vouches policy context now scope start samples resource' id) :
    resource = resource' := by
  induction samples using List.reverseRecOn with
  | nil => exact absurd h vouches_nil
  | append_singleton samples sample ih =>
    have hfresh : ∀ {r}, Vouches policy context now scope start samples r id →
        snapshotOf sample = id → takes policy context now scope
          (samples.foldl (admitSample policy context now scope) start) sample = true → False := by
      intro r hseen hid htakes
      exact (admitSample_takes htakes).1 (hid ▸ vouches_seen hseen)
    rcases vouches_snoc.mp h with h | ⟨hresource, hid, htakes⟩
    · rcases vouches_snoc.mp h' with h' | ⟨_, hid', htakes'⟩
      · exact ih h h'
      · exact (hfresh h hid' htakes').elim
    · rcases vouches_snoc.mp h' with h' | ⟨hresource', _, _⟩
      · exact (hfresh h' hid htakes).elim
      · exact hresource.symm.trans hresource'

/-! ### A kept reading carries the snapshot of an accepted sample of its resource -/

theorem foldl_admitMetric_snapshot {snapshot : EvidenceSnapshotId} {metrics : List MetricKind}
    {pass : SamplePass} {key : ReadingKey} {reading : Reading}
    (h : reading ∈
      (metrics.foldl (admitMetric policy now sample snapshot) pass).readings.findD key []) :
    reading ∈ pass.readings.findD key [] ∨
      (sample.resource = key.resource ∧ snapshot = reading.snapshot ∧
        metrics.any (readable policy now sample pass.readings) = true) := by
  induction metrics generalizing pass with
  | nil => exact .inl h
  | cons metric rest ih =>
    have hstep := admitMetric_readings policy now sample snapshot pass metric
    rw [List.any_cons, Bool.or_eq_true]
    split_ifs at hstep with hr
    · obtain ⟨future, value, hpush⟩ := hstep
      rcases ih h with hold | ⟨hresource, hsame, _⟩
      · rw [hpush, SortedMap.findD_push] at hold
        split at hold
        next hkey =>
          rcases List.mem_append.mp hold with hold | hnew
          · exact .inl (hkey ▸ hold)
          · obtain rfl := List.mem_singleton.mp hnew
            exact .inr ⟨by rw [hkey]; rfl, rfl, .inl hr⟩
        next => exact .inl hold
      · exact .inr ⟨hresource, hsame, .inl hr⟩
    · rcases ih h with hold | ⟨hresource, hsame, hany⟩
      · exact .inl (hstep ▸ hold)
      · exact .inr ⟨hresource, hsame, .inr (hstep ▸ hany)⟩

theorem admitSample_snapshot {a : Admission} {key : ReadingKey} {reading : Reading}
    (h : reading ∈ (admitSample policy context now scope a sample).readings.findD key []) :
    reading ∈ a.readings.findD key [] ∨
      (sample.resource = key.resource ∧ snapshotOf sample = reading.snapshot ∧
        takes policy context now scope a sample = true) := by
  unfold admitSample at h
  split at h
  · exact .inl h
  next heligible =>
    split at h
    · exact .inl h
    next hnew =>
      rcases foldl_admitMetric_snapshot h with hold | ⟨hresource, hsnapshot, hany⟩
      · exact .inl hold
      · refine .inr ⟨hresource, hsnapshot, ?_⟩
        unfold takes
        rw [Bool.and_eq_true, Bool.and_eq_true, decide_eq_true_eq]
        exact ⟨⟨by simpa using heligible, hnew⟩, hany⟩

theorem foldl_admitSample_snapshot {key : ReadingKey} {reading : Reading}
    (hempty : start.readings.findD key [] = [])
    (h : reading ∈
      (samples.foldl (admitSample policy context now scope) start).readings.findD key []) :
    Vouches policy context now scope start samples key.resource reading.snapshot := by
  induction samples using List.reverseRecOn with
  | nil =>
    rw [List.foldl_nil, hempty] at h
    exact absurd h List.not_mem_nil
  | append_singleton samples sample ih =>
    rw [List.foldl_append, List.foldl_cons, List.foldl_nil] at h
    rcases admitSample_snapshot h with hold | hnew
    · exact vouches_snoc.mpr (.inl (ih hold))
    · exact vouches_snoc.mpr (.inr hnew)

/-! ### The newest snapshot of a resource -/

theorem tallyRule_newestSnapshot {resolution : Resolution} (t : Tally) (rule : ThresholdRule) :
    (tallyRule policy resolution resource t rule).assessment.newestSnapshot =
        t.assessment.newestSnapshot ∨
      ∃ candidate ∈ readingsFor resolution resource rule.metric,
        (tallyRule policy resolution resource t rule).assessment.newestSnapshot =
          candidate.2.snapshot := by
  unfold tallyRule
  dsimp only
  split
  · exact .inl rfl
  · split
    · exact .inl rfl
    next outcome houtcome =>
      obtain ⟨candidate, hbest, hbound⟩ := worstOutcome_eq_some.mp houtcome
      have hsnapshot : outcome.reading.snapshot = candidate.2.snapshot := by
        rw [hbound]
        rfl
      unfold assessReading
      dsimp only
      split
      · split
        · exact .inr ⟨candidate, hbest.mem, hsnapshot⟩
        · exact .inr ⟨candidate, hbest.mem, hsnapshot⟩
      · split
        · exact .inl rfl
        · exact .inr ⟨candidate, hbest.mem, hsnapshot⟩

/-- The newest snapshot of a tally, when it has one, comes from a reading the tally was made from. -/
theorem tally_newestSnapshot {resolution : Resolution}
    (h : (tallyResource policy resolution resource).assessment.newestSnapshot.valid = true) :
    ∃ metric, ∃ candidate ∈ readingsFor resolution resource metric,
      (tallyResource policy resolution resource).assessment.newestSnapshot =
        candidate.2.snapshot := by
  have hfold : ∀ (rules : List ThresholdRule) (t : Tally),
      (rules.foldl (tallyRule policy resolution resource) t).assessment.newestSnapshot =
          t.assessment.newestSnapshot ∨
        ∃ metric, ∃ candidate ∈ readingsFor resolution resource metric,
          (rules.foldl (tallyRule policy resolution resource) t).assessment.newestSnapshot =
            candidate.2.snapshot := by
    intro rules
    induction rules with
    | nil => exact fun t => .inl rfl
    | cons rule rest ih =>
      intro t
      rw [List.foldl_cons]
      rcases ih (tallyRule policy resolution resource t rule) with hkept | hnew
      · rcases tallyRule_newestSnapshot t rule with hold | ⟨candidate, hmem, hread⟩
        · exact .inl (hkept.trans hold)
        · exact .inr ⟨rule.metric, candidate, hmem, hkept.trans hread⟩
      · exact .inr hnew
  rcases hfold policy.rules { assessment := { resource } } with hunset | hread
  · unfold tallyResource at h
    rw [hunset] at h
    have hzero : ({} : EvidenceSnapshotId).valid = false := rfl
    exact absurd (hzero.symm.trans h) Bool.false_ne_true
  · exact hread

theorem admitted_vouches {key : ReadingKey} {reading : Reading}
    (h : reading ∈ (admitSamples request policy context scope).readings.findD key []) :
    Vouches policy context request.now scope (emptyAdmission request) request.evidence.samples
      key.resource reading.snapshot :=
  foldl_admitSample_snapshot rfl h

/-- What an evaluation reports as the newest snapshot of a resource is the snapshot of a sample of
that resource that it accepted. -/
theorem reported_vouches {prior : DomainState} {outcome : EvaluationOutcome}
    {report : ResourceAssessment} (hpolicy : context.policy = some policy)
    (hscope : CongestionEvaluator.scope request policy context.topology = .ok scope)
    (h : evaluate request prior context = .ok outcome) (hreport : report ∈ outcome.evidence.resources)
    (hvalid : report.newestSnapshot.valid = true) :
    Vouches policy context request.now scope (emptyAdmission request) request.evidence.samples
      report.resource report.newestSnapshot := by
  obtain ⟨policy', scope', assessed, hpolicy', _, _, hscope', hassess, rfl⟩ := evaluate_ok h
  obtain rfl := Option.some.inj (hpolicy.symm.trans hpolicy')
  obtain rfl := Except.ok.inj (hscope.symm.trans hscope')
  have hlisted : report ∈ assessed.classified.map (·.assessment) := by
    unfold conclude reportResources at hreport
    dsimp only at hreport
    split at hreport
    · exact List.mem_of_mem_take hreport
    · exact List.mem_of_mem_take hreport
  have hreported := assess_reported
    (f := fun report => (report.resource, report.newestSnapshot)) (fun _ _ => rfl) hassess
  obtain ⟨c, hc, rfl⟩ := List.mem_map.mp hlisted
  have hpair : (c.assessment.resource, c.assessment.newestSnapshot) ∈
      assessed.classified.map fun c => (c.assessment.resource, c.assessment.newestSnapshot) :=
    List.mem_map.mpr ⟨c, hc, rfl⟩
  rw [hreported] at hpair
  obtain ⟨resource, _, hpair⟩ := List.mem_map.mp hpair
  obtain ⟨hresource, hsnapshot⟩ := Prod.mk.inj hpair
  rw [← hsnapshot] at hvalid
  rw [← hsnapshot, ← hresource]
  obtain ⟨metric, candidate, hmem, hread⟩ := tally_newestSnapshot hvalid
  have hadmitted := admitted_vouches (resolve_chosen (readingsFor_chosen hmem))
  change Vouches policy context request.now scope _ _ (tallyResource _ _ resource).assessment.resource
    (tallyResource _ _ resource).assessment.newestSnapshot
  rw [hread, tally_resource]
  exact hadmitted

/-- The evaluation accepted a sample of this resource with this snapshot. -/
def AcceptedSnapshot (request : EvaluationRequest) (context : EvaluationContext)
    (resource : ResourceId) (id : EvidenceSnapshotId) : Prop :=
  ∃ policy scope, context.policy = some policy ∧
    CongestionEvaluator.scope request policy context.topology = .ok scope ∧
    Vouches policy context request.now scope (emptyAdmission request) request.evidence.samples
      resource id

theorem AcceptedSnapshot.unique (h : AcceptedSnapshot request context resource id)
    (h' : AcceptedSnapshot request context resource' id) : resource = resource' := by
  obtain ⟨policy, scope, hpolicy, hscope, hvouches⟩ := h
  obtain ⟨policy', scope', hpolicy', hscope', hvouches'⟩ := h'
  obtain rfl := Option.some.inj (hpolicy.symm.trans hpolicy')
  obtain rfl := Except.ok.inj (hscope.symm.trans hscope')
  exact vouches_unique hvouches hvouches'

theorem reported_accepted {prior : DomainState} {outcome : EvaluationOutcome}
    {report : ResourceAssessment} (h : evaluate request prior context = .ok outcome)
    (hreport : report ∈ outcome.evidence.resources) (hvalid : report.newestSnapshot.valid = true) :
    AcceptedSnapshot request context report.resource report.newestSnapshot := by
  obtain ⟨policy, scope, assessed, hpolicy, _, _, hscope, _, _⟩ := evaluate_ok h
  exact ⟨policy, scope, hpolicy, hscope, reported_vouches hpolicy hscope h hreport hvalid⟩

end CongestionEvaluator

namespace InterventionPlanner

open CongestionEvaluator

variable {policy : CongestionPolicy} {planning : PlanningContext}
  {active : List InterventionIntent} {rule : InterventionRule} {target : ResourceId}
  {request : EvaluationRequest} {context : EvaluationContext} {prior : DomainState}
  {outcome : EvaluationOutcome} {intent : InterventionIntent}

/-- The identity an intent names when the evaluation has no snapshot for it. -/
def fallbackEvidence (outcome : EvaluationOutcome) : EvidenceSnapshotId :=
  if outcome.evidence.batch.value ≠ 0 then ⟨outcome.evidence.batch.value⟩ else ⟨outcome.id.value⟩

def NamesSnapshotOf (request : EvaluationRequest) (context : EvaluationContext)
    (outcome : EvaluationOutcome) (target : ResourceId) (evidence : EvidenceSnapshotId) : Prop :=
  AcceptedSnapshot request context target evidence ∨
    (¬∃ id, AcceptedSnapshot request context target id) ∧ evidence = fallbackEvidence outcome

/-- What the planner takes from the first resource of the report is right for this target: it is the
target itself, or neither has a snapshot to name. -/
def FirstReportServes (request : EvaluationRequest) (context : EvaluationContext)
    (outcome : EvaluationOutcome) (target : ResourceId) : Prop :=
  match outcome.evidence.resources.head?.filter (·.newestSnapshot.valid) with
  | some first => first.resource = target ∨
      (¬∃ id, AcceptedSnapshot request context target id) ∧
        first.newestSnapshot = fallbackEvidence outcome
  | none => (∃ id, AcceptedSnapshot request context target id) →
      AcceptedSnapshot request context target (fallbackEvidence outcome)

theorem judge_evidence
    (h : judge policy planning active outcome rule target = .authorize intent) :
    intent.evidence = basisEvidence outcome := by
  unfold judge at h
  split at h
  next => cases h
  next =>
    split at h
    next => cases h
    next =>
      split at h
      next => cases h
      next =>
        split at h
        next => cases h
        next =>
          split at h
          next => cases h
          next =>
            dsimp only at h
            split at h
            next => cases h
            next =>
              split at h
              next => cases h
              next =>
                split at h
                next => cases h
                next =>
                  cases h
                  rfl

theorem basisEvidence_eq (outcome : EvaluationOutcome) : basisEvidence outcome =
    match outcome.evidence.resources.head?.filter (·.newestSnapshot.valid) with
    | some first => first.newestSnapshot
    | none => fallbackEvidence outcome := by
  unfold basisEvidence fallbackEvidence
  cases outcome.evidence.resources.head? with
  | none => rfl
  | some first =>
    dsimp only [Option.map_some, Option.getD_some]
    by_cases hvalid : first.newestSnapshot.valid = true
    · rw [if_pos hvalid, Option.filter_some, if_pos hvalid]
    · rw [if_neg hvalid, Option.filter_some, if_neg hvalid]

theorem basisEvidence_names_iff (h : evaluate request prior context = .ok outcome) :
    NamesSnapshotOf request context outcome target (basisEvidence outcome) ↔
      FirstReportServes request context outcome target := by
  unfold NamesSnapshotOf FirstReportServes
  rw [basisEvidence_eq]
  split
  next first hfirst =>
    obtain ⟨hhead, hvalid⟩ := Option.filter_eq_some_iff.mp hfirst
    have hfirst : AcceptedSnapshot request context first.resource first.newestSnapshot :=
      reported_accepted h (List.mem_of_head? hhead) hvalid
    refine or_congr_left ⟨fun htarget => hfirst.unique htarget, fun heq => ?_⟩
    rw [← heq]
    exact hfirst
  next =>
    constructor
    · rintro (hnamed | ⟨hnone, _⟩)
      · exact fun _ => hnamed
      · exact fun hsome => absurd hsome hnone
    · intro hserves
      by_cases hsome : ∃ id, AcceptedSnapshot request context target id
      · exact .inl (hserves hsome)
      · exact .inr ⟨hsome, rfl⟩

/-- An authorized intent names the snapshot of an accepted sample of its own target, or the fallback
where there is none, exactly when the first resource of the report serves for that target. -/
theorem intent_names_snapshot_iff {plan : InterventionPlan}
    (h : evaluate request prior context = .ok outcome)
    (hplan : InterventionPlanner.plan outcome planning active = .ok plan)
    (hintent : intent ∈ plan.authorized) :
    NamesSnapshotOf request context outcome intent.resource intent.evidence ↔
      FirstReportServes request context outcome intent.resource := by
  cases hpolicy : planning.policy with
  | none =>
    unfold InterventionPlanner.plan at hplan
    rw [hpolicy] at hplan
    cases hplan
  | some policy =>
    obtain ⟨rule, _, _, target, _, hjudge⟩ := plan_authorized hpolicy hplan hintent
    rw [judge_evidence hjudge]
    exact basisEvidence_names_iff h

def pairedPlanning : PlanningContext :=
  { fullAuthority with policy := some makeDefaultPolicy, topology := pairContext.topology }

/-- A plan for the pair of busy resources: one intent for each, both with one piece of evidence. -/
theorem busy_plan : ∃ outcome plan, evaluate busyRequest {} pairContext = .ok outcome ∧
    InterventionPlanner.plan outcome pairedPlanning [] = .ok plan ∧
    outcome.evidence.resources.head?.map (fun first => (first.resource, first.newestSnapshot)) =
      some (⟨1⟩, basisEvidence outcome) ∧ (basisEvidence outcome).valid = true ∧
    plan.authorized.map (fun intent => (intent.resource, intent.evidence)) =
      [(⟨1⟩, basisEvidence outcome), (⟨2⟩, basisEvidence outcome)] := by
  obtain ⟨outcome, h⟩ : ∃ outcome, evaluate busyRequest {} pairContext = .ok outcome :=
    Result.exists_of_isOk (by decide +kernel)
  obtain ⟨plan, hplan⟩ : ∃ plan, InterventionPlanner.plan outcome pairedPlanning [] = .ok plan :=
    ⟨_, rfl⟩
  have hrun : (evaluate busyRequest {} pairContext).toOption.any (fun outcome =>
      outcome.evidence.resources.head?.map (fun first => (first.resource, first.newestSnapshot)) =
        some (⟨1⟩, basisEvidence outcome) ∧ (basisEvidence outcome).valid ∧
      ((InterventionPlanner.plan outcome pairedPlanning []).toOption.map fun plan =>
        plan.authorized.map fun intent => (intent.resource, intent.evidence)) =
          some [(⟨1⟩, basisEvidence outcome), (⟨2⟩, basisEvidence outcome)]) = true := by
    decide +kernel
  rw [h] at hrun
  obtain ⟨hhead, hvalid, hauthorized⟩ := of_decide_eq_true hrun
  rw [hplan] at hauthorized
  exact ⟨outcome, plan, h, hplan, hhead, hvalid, Option.some.inj hauthorized⟩

theorem intent_names_snapshot_iff_first : ∃ outcome plan,
    evaluate busyRequest {} pairContext = .ok outcome ∧
    InterventionPlanner.plan outcome pairedPlanning [] = .ok plan ∧
    ∃ intent ∈ plan.authorized, intent.resource = ⟨1⟩ ∧
      NamesSnapshotOf busyRequest pairContext outcome ⟨1⟩ intent.evidence := by
  obtain ⟨outcome, plan, h, hplan, hhead, hvalid, hauthorized⟩ := busy_plan
  have hmem : ((⟨1⟩ : ResourceId), basisEvidence outcome) ∈
      plan.authorized.map fun intent => (intent.resource, intent.evidence) := by
    rw [hauthorized]
    exact List.mem_cons_self
  obtain ⟨intent, hintent, hpair⟩ := List.mem_map.mp hmem
  obtain ⟨hresource, hevidence⟩ := Prod.mk.inj hpair
  refine ⟨outcome, plan, h, hplan, intent, hintent, hresource, ?_⟩
  have hnames := intent_names_snapshot_iff h hplan hintent
  rw [hresource] at hnames
  refine hnames.mpr ?_
  obtain ⟨first, hfirst, hpair⟩ := Option.map_eq_some_iff.mp hhead
  obtain ⟨hown, hsnapshot⟩ := Prod.mk.inj hpair
  unfold FirstReportServes
  rw [hfirst, Option.filter_some, if_pos (hsnapshot ▸ hvalid)]
  exact .inl hown

/-- The intent for the second resource names the snapshot of a sample of the first one, although a
sample of its own was accepted. -/
theorem intent_names_other_snapshot : ∃ outcome plan,
    evaluate busyRequest {} pairContext = .ok outcome ∧
    InterventionPlanner.plan outcome pairedPlanning [] = .ok plan ∧
    ∃ intent ∈ plan.authorized, intent.resource = ⟨2⟩ ∧
      ¬NamesSnapshotOf busyRequest pairContext outcome ⟨2⟩ intent.evidence := by
  obtain ⟨outcome, plan, h, hplan, hhead, hvalid, hauthorized⟩ := busy_plan
  have hmem : ((⟨2⟩ : ResourceId), basisEvidence outcome) ∈
      plan.authorized.map fun intent => (intent.resource, intent.evidence) := by
    rw [hauthorized]
    exact List.mem_cons_of_mem _ List.mem_cons_self
  obtain ⟨intent, hintent, hpair⟩ := List.mem_map.mp hmem
  obtain ⟨hresource, hevidence⟩ := Prod.mk.inj hpair
  refine ⟨outcome, plan, h, hplan, intent, hintent, hresource, ?_⟩
  rw [hevidence]
  obtain ⟨first, hfirst, hpair⟩ := Option.map_eq_some_iff.mp hhead
  obtain ⟨hown, hsnapshot⟩ := Prod.mk.inj hpair
  have hother : AcceptedSnapshot busyRequest pairContext ⟨1⟩ (basisEvidence outcome) := by
    rw [← hown, ← hsnapshot]
    exact reported_accepted h (List.mem_of_head? hfirst) (hsnapshot ▸ hvalid)
  have hsample : ∃ id, AcceptedSnapshot busyRequest pairContext ⟨2⟩ id :=
    ⟨_, makeDefaultPolicy, [⟨1⟩, ⟨2⟩], rfl, by decide +kernel,
      busyRequest.evidence.samples.take 1, _, [], rfl, rfl, rfl, by decide +kernel⟩
  rintro (hnamed | ⟨hnone, _⟩)
  · exact absurd (hnamed.unique hother) (by decide)
  · exact hnone hsample

end InterventionPlanner

end CongestionFabric
