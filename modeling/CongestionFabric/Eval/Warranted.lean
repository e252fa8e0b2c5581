import CongestionFabric.Eval.BoundedPlan

namespace CongestionFabric.InterventionPlanner

variable {policy : CongestionPolicy} {context : PlanningContext}
  {active : List InterventionIntent} {outcome : EvaluationOutcome} {rule : InterventionRule}
  {target : ResourceId} {intent : InterventionIntent}

/-- What an authorized intent relies on: a rule that asks for it, a target the evaluation speaks
for, a capability that is held, and no equivalent intent still in force. -/
structure Warranted (policy : CongestionPolicy) (context : PlanningContext)
    (active : List InterventionIntent) (outcome : EvaluationOutcome)
    (intent : InterventionIntent) (rule : InterventionRule) : Prop where
  kind : intent.kind = rule.kind
  severity : ∃ severity, severityOf outcome.state = some severity ∧ rule.atLeast ≤ severity
  domain : rule.targetDomain.valid = true → rule.targetDomain = outcome.domain
  envelope : rule.parameterMin ≤ intent.parameter ∧ intent.parameter ≤ rule.parameterMax
  assessed : context.topology = none →
    ∃ report ∈ outcome.evidence.resources, report.resource = intent.resource
  member : ∀ topology, context.topology = some topology →
    intent.resource ∈ topology.domainResources outcome.domain ∧
      (rule.targetClass.valid = true → ∃ record, topology.resource intent.resource = some record ∧
        record.servingClass = rule.targetClass) ∧
      ∃ report ∈ outcome.evidence.resources, report.resource = intent.resource ∧
        report.coverage ≠ .none
  basis : isAuthoritative intent.basisState = true ∧ intent.basisState = outcome.state
  capability : ∃ required, requiredAuthority intent.kind = some required ∧
    context.authority.granted.grants required = true ∧
    context.authority.denied.grants required = false ∧
    context.authority.expiredAt context.now = false
  unrepeated : ∀ other ∈ active, other.kind = intent.kind → other.domain = intent.domain →
    other.resource = intent.resource → other.expiredAt context.now = false →
      rule.minRepeatIntervalTicks ≠ 0 ∧
        rule.minRepeatIntervalTicks ≤ HysteresisEngine.elapsedSince context.now other.issuedTick
  stamped : intent.domain = outcome.domain ∧ intent.epoch = context.epoch ∧
    intent.authorityGeneration = context.authority.generation ∧
    intent.policyFingerprint = policy.fingerprint

theorem clampParameter_within {rule : InterventionRule} (h : rule.parameterMin ≤ rule.parameterMax) :
    rule.parameterMin ≤ (clampParameter rule).value ∧
      (clampParameter rule).value ≤ rule.parameterMax := by
  have hinverted : ¬rule.parameterMin > rule.parameterMax := UInt64.not_lt.mpr h
  unfold clampParameter
  dsimp only
  by_cases hlow : rule.parameterDefault < rule.parameterMin
  · rw [if_pos hlow]
    dsimp only
    rw [if_neg hinverted]
    exact ⟨UInt64.le_refl _, h⟩
  · rw [if_neg hlow]
    dsimp only
    by_cases hhigh : rule.parameterDefault > rule.parameterMax
    · rw [if_pos hhigh]
      exact ⟨h, UInt64.le_refl _⟩
    · rw [if_neg hhigh]
      exact ⟨UInt64.not_lt.mp hlow, UInt64.not_lt.mp hhigh⟩

theorem checkAuthority_allowed {vector : AuthorityVector} {now : Tick} {required : Option Authority}
    (h : (checkAuthority vector now required).allowed = true) :
    ∃ capability, required = some capability ∧ vector.granted.grants capability = true ∧
      vector.denied.grants capability = false ∧ vector.expiredAt now = false := by
  unfold checkAuthority at h
  split at h
  next => cases h
  next capability =>
    split at h
    next => cases h
    next =>
      split at h
      next => cases h
      next hexpired =>
        split at h
        next => cases h
        next hdenied =>
          split at h
          next => cases h
          next hgranted =>
            exact ⟨capability, rfl, by simpa using hgranted, Bool.eq_false_iff.mpr hdenied,
              Bool.eq_false_iff.mpr hexpired⟩

theorem targetsOf_listed (hnone : context.topology = none)
    (h : target ∈ targetsOf context outcome rule) :
    ∃ report ∈ outcome.evidence.resources, report.resource = target := by
  unfold targetsOf at h
  rw [hnone] at h
  obtain ⟨report, hreport, htarget⟩ := List.mem_map.mp h
  exact ⟨report, hreport, htarget⟩

theorem targetsOf_member {topology : TopologyIndex} (hsome : context.topology = some topology)
    (h : target ∈ targetsOf context outcome rule) :
    target ∈ topology.domainResources outcome.domain ∧
      (rule.targetClass.valid = true → ∃ record, topology.resource target = some record ∧
        record.servingClass = rule.targetClass) := by
  unfold targetsOf at h
  rw [hsome] at h
  obtain ⟨hmember, hclass⟩ := List.mem_filter.mp h
  refine ⟨hmember, fun hvalid => ?_⟩
  rw [hvalid, Bool.not_true, Bool.false_or, Option.any_eq_true] at hclass
  obtain ⟨record, hrecord, hserves⟩ := hclass
  exact ⟨record, hrecord, of_decide_eq_true hserves⟩

theorem targetCovered_iff : targetCovered outcome target = true ↔
    ∃ report ∈ outcome.evidence.resources, report.resource = target ∧ report.coverage ≠ .none := by
  unfold targetCovered
  rw [List.any_eq_true]
  simp only [Bool.and_eq_true, decide_eq_true_eq]

theorem alreadyActive_free (h : alreadyActive context active outcome rule target = false)
    {other : InterventionIntent} (hother : other ∈ active) (hkind : other.kind = rule.kind)
    (hdomain : other.domain = outcome.domain) (hresource : other.resource = target)
    (hlive : other.expiredAt context.now = false) :
    rule.minRepeatIntervalTicks ≠ 0 ∧
      rule.minRepeatIntervalTicks ≤ HysteresisEngine.elapsedSince context.now other.issuedTick := by
  unfold alreadyActive at h
  have hother := List.any_eq_false.mp h other hother
  rw [hkind, hdomain, hresource, hlive] at hother
  simpa using hother

/-- Every intent a plan authorizes is warranted by a rule of the policy. -/
theorem plan_warranted {requested : CongestionPolicy} {plan : InterventionPlan} (haccepted : validatePolicy requested = .ok policy)
    (hp : context.policy = some policy)
    (h : InterventionPlanner.plan outcome context active = .ok plan)
    (hi : intent ∈ plan.authorized) :
    ∃ rule ∈ policy.interventions, Warranted policy context active outcome intent rule := by
  obtain ⟨rule, hrule, hdomain, target, htarget, hjudge⟩ := plan_authorized hp h hi
  obtain ⟨_, haccept⟩ := validatePolicy_accepted haccepted
  have henvelope : rule.parameterMin ≤ rule.parameterMax := by
    have hvalid := validateInterventions_mem haccept.interventions hrule
    simp only [validateIntervention, bind_ok, refuseIf_ok, exists_const] at hvalid
    exact UInt64.not_lt.mp hvalid.2.2.1
  have hpassed := judge_authorize hjudge
  refine ⟨rule, hrule, ?_⟩
  constructor
  case kind => exact hpassed.kind
  case severity => exact hpassed.severity
  case domain => exact hdomain
  case envelope =>
    rw [hpassed.parameter]
    exact clampParameter_within henvelope
  case assessed =>
    intro hnone
    rw [hpassed.resource]
    exact targetsOf_listed hnone htarget
  case member =>
    intro topology hsome
    have hcovered := hpassed.covered (by rw [hsome]; rfl)
    obtain ⟨hmember, hclass⟩ := targetsOf_member hsome htarget
    rw [hpassed.resource]
    exact ⟨hmember, hclass, targetCovered_iff.mp hcovered⟩
  case basis =>
    rw [hpassed.basisState]
    exact ⟨hpassed.basis, rfl⟩
  case capability =>
    rw [hpassed.kind]
    exact checkAuthority_allowed hpassed.capability
  case unrepeated =>
    intro other hother hkind hdom hresource hlive
    rw [hpassed.kind] at hkind
    rw [hpassed.domain] at hdom
    rw [hpassed.resource] at hresource
    exact alreadyActive_free hpassed.idle hother hkind hdom hresource hlive
  case stamped => exact ⟨hpassed.domain, hpassed.epoch, hpassed.generation, hpassed.fingerprint⟩

open CongestionEvaluator in
theorem plan_warranted_busy : ∃ outcome plan intent rule,
    evaluate busyRequest {} pairContext = .ok outcome ∧
    InterventionPlanner.plan outcome
      { fullAuthority with policy := some makeDefaultPolicy, topology := pairContext.topology } [] =
        .ok plan ∧
    intent ∈ plan.authorized ∧ rule ∈ makeDefaultPolicy.interventions ∧
    Warranted makeDefaultPolicy
      { fullAuthority with policy := some makeDefaultPolicy, topology := pairContext.topology } []
      outcome intent rule := by
  obtain ⟨outcome, houtcome⟩ : ∃ outcome, evaluate busyRequest {} pairContext = .ok outcome :=
    Result.exists_of_isOk (by decide +kernel)
  obtain ⟨plan, hplan⟩ : ∃ plan, InterventionPlanner.plan outcome
      { fullAuthority with policy := some makeDefaultPolicy, topology := pairContext.topology } [] =
        .ok plan := ⟨_, rfl⟩
  have hsome : ((evaluate busyRequest {} pairContext).toOption.bind fun outcome =>
      (InterventionPlanner.plan outcome { fullAuthority with
        policy := some makeDefaultPolicy, topology := pairContext.topology } []).toOption).any
      (fun plan => !plan.authorized.isEmpty) = true := by decide +kernel
  rw [houtcome] at hsome
  dsimp only [Except.toOption, Option.bind] at hsome
  rw [hplan] at hsome
  obtain ⟨intent, hintent⟩ : ∃ intent, intent ∈ plan.authorized :=
    List.exists_mem_of_ne_nil _ (by simpa using hsome)
  obtain ⟨rule, hrule, hwarranted⟩ := plan_warranted defaultPolicy_accepted rfl hplan hintent
  exact ⟨outcome, plan, intent, rule, houtcome, hplan, hintent, hrule, hwarranted⟩

end CongestionFabric.InterventionPlanner
