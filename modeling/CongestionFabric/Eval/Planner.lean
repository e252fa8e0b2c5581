import CongestionFabric.Eval.Evaluator

namespace CongestionFabric

structure PlanningContext where
  policy : Option CongestionPolicy := none
  topology : Option TopologyIndex := none
  now : Tick := kNoTick
  epoch : EpochId := {}
  authority : AuthorityVector := {}

namespace InterventionPlanner

/-- What the gates say about one rule and one target. -/
inductive Verdict where
  | skip
  | suppress (reason : SuppressionReason) (detail : String)
  | authorize (intent : InterventionIntent)

variable (policy : CongestionPolicy) (context : PlanningContext)
  (active : List InterventionIntent) (outcome : EvaluationOutcome)

def targetsOf (rule : InterventionRule) : List ResourceId :=
  match context.topology with
  | some topology =>
    (topology.domainResources outcome.domain).filter fun member =>
      !rule.targetClass.valid ||
        (topology.resource member).any fun record => record.servingClass = rule.targetClass
  | none => outcome.evidence.resources.map (·.resource)

def targetCovered (target : ResourceId) : Bool :=
  outcome.evidence.resources.any fun a => a.resource = target && a.coverage ≠ .none

/-- An unexpired equivalent intent inside the repeat interval. -/
def alreadyActive (rule : InterventionRule) (target : ResourceId) : Bool :=
  active.any fun intent =>
    intent.kind = rule.kind && intent.domain = outcome.domain && intent.resource = target &&
      !intent.expiredAt context.now &&
      (rule.minRepeatIntervalTicks = 0 ||
        HysteresisEngine.elapsedSince context.now intent.issuedTick < rule.minRepeatIntervalTicks)

structure Parameter where
  value : UInt64
  clamped : Bool := false

def clampParameter (rule : InterventionRule) : Parameter :=
  let p : Parameter :=
    if rule.parameterDefault < rule.parameterMin then ⟨rule.parameterMin, true⟩
    else ⟨rule.parameterDefault, false⟩
  if p.value > rule.parameterMax then ⟨rule.parameterMax, true⟩ else p

/-- The snapshot an intent names; without one, an identity derived from the evaluation. -/
def basisEvidence : EvidenceSnapshotId :=
  let first := (outcome.evidence.resources.head?.map (·.newestSnapshot)).getD {}
  if first.valid then first
  else if outcome.evidence.batch.value ≠ 0 then ⟨outcome.evidence.batch.value⟩
  else ⟨outcome.id.value⟩

def draft (rule : InterventionRule) (severity : Severity) (target : ResourceId) :
    InterventionIntent where
  kind := rule.kind
  domain := outcome.domain
  resource := target
  trafficClass := rule.targetClass
  basisSeverity := severity
  basisState := outcome.state
  evidence := basisEvidence outcome
  evaluation := outcome.id
  epoch := context.epoch
  authorityGeneration := context.authority.generation
  policy := policy.id
  policyFingerprint := policy.fingerprint
  issuedTick := context.now
  parameter := (clampParameter rule).value
  priority := rule.priority
  parameterClamped := (clampParameter rule).clamped
  rationale := rule.kind.name ++ " for " ++ outcome.domain.toText

def judge (rule : InterventionRule) (target : ResourceId) : Verdict :=
  if rule.requireAuthoritativeState && !(outcome.authoritative && isAuthoritative outcome.state) then
    .suppress .nonAuthoritativeState "domain state is not authoritative at this evaluation"
  else match severityOf outcome.state with
    | none => .skip
    | some severity =>
      if severity < rule.atLeast then .skip
      else if rule.requireFreshEvidence &&
          !evidenceWithinFreshness outcome.evidence policy context.now then
        .suppress .staleEvidence "no fresh accepted evidence supports this intervention"
      else if !targetCovered outcome target && context.topology.isSome then
        .suppress .missingEvidence
          "target resource produced no usable evidence in this evaluation"
      else
        let decision :=
          checkAuthority context.authority context.now (requiredAuthority rule.kind)
        if !decision.allowed then .suppress decision.reason decision.detail
        else if alreadyActive context active outcome rule target then
          .suppress .alreadyActive
            "an equivalent intervention is already outstanding for this target"
        else
          let intent := draft policy context outcome rule severity target
          match validateIntent intent with
          | .error status => .suppress .limitExceeded status.describe
          | .ok _ => .authorize { intent with id := computeInterventionId intent }

def pushSuppressed (rule : InterventionRule) (target : ResourceId) (reason : SuppressionReason)
    (detail : String) (plan : InterventionPlan) : InterventionPlan :=
  if plan.suppressed.length ≥ (policy.limits.maxInterventionsPerPlan * 4).toNat then plan
  else { plan with
    suppressed := plan.suppressed ++ [{
      kind := rule.kind, domain := outcome.domain, resource := target
      trafficClass := rule.targetClass, reason, detail }] }

def planTarget (rule : InterventionRule) (plan : InterventionPlan) (target : ResourceId) :
    InterventionPlan :=
  match judge policy context active outcome rule target with
  | .skip => plan
  | .suppress reason detail => pushSuppressed policy outcome rule target reason detail plan
  | .authorize intent => { plan with authorized := plan.authorized ++ [intent] }

/-- A rule refused before its targets are looked at; these refusals are not capped. -/
def refuseRule (rule : InterventionRule) (reason : SuppressionReason) (detail : String)
    (plan : InterventionPlan) : InterventionPlan :=
  { plan with
    suppressed :=
      plan.suppressed ++ [{ kind := rule.kind, domain := outcome.domain, reason, detail }] }

def planRule (plan : InterventionPlan) (rule : InterventionRule) : InterventionPlan :=
  if plan.authorized.length ≥ policy.limits.maxInterventionsPerPlan.toNat then
    refuseRule outcome rule .limitExceeded "intervention plan reached its configured bound" plan
  else if rule.targetDomain.valid ∧ rule.targetDomain ≠ outcome.domain then plan
  else if targetsOf context outcome rule = [] then
    refuseRule outcome rule .targetNotPresent "no resource in the domain matches the rule target" plan
  else (targetsOf context outcome rule).foldl (planTarget policy context active outcome rule) plan

def emptyPlan : InterventionPlan where
  evaluation := outcome.id
  domain := outcome.domain
  epoch := context.epoch
  authorityGeneration := context.authority.generation
  policy := policy.id
  policyFingerprint := policy.fingerprint
  plannedTick := context.now

end InterventionPlanner

open InterventionPlanner in
def InterventionPlanner.plan (outcome : EvaluationOutcome) (context : PlanningContext)
    (active : List InterventionIntent) : Result InterventionPlan :=
  match context.policy with
  | none => fail .notReady "no congestion policy is installed"
  | some policy =>
    .ok (policy.interventions.foldl (planRule policy context active outcome)
      (emptyPlan policy context outcome))

namespace InterventionPlanner

variable {policy : CongestionPolicy} {context : PlanningContext}
  {active : List InterventionIntent} {outcome : EvaluationOutcome} {rule : InterventionRule}
  {target : ResourceId} {intent : InterventionIntent}

/-- The gates every authorized intent has passed, and what it is stamped with. -/
structure Passed (policy : CongestionPolicy) (context : PlanningContext)
    (active : List InterventionIntent) (outcome : EvaluationOutcome) (rule : InterventionRule)
    (target : ResourceId) (intent : InterventionIntent) : Prop where
  authoritative : rule.requireAuthoritativeState = true → outcome.authoritative = true
  severity : ∃ severity, severityOf outcome.state = some severity ∧ rule.atLeast ≤ severity
  fresh : rule.requireFreshEvidence = true →
    evidenceWithinFreshness outcome.evidence policy context.now = true
  covered : context.topology.isSome = true → targetCovered outcome target = true
  capability : (checkAuthority context.authority context.now
    (requiredAuthority rule.kind)).allowed = true
  idle : alreadyActive context active outcome rule target = false
  basis : isAuthoritative outcome.state = true
  kind : intent.kind = rule.kind
  domain : intent.domain = outcome.domain
  resource : intent.resource = target
  parameter : intent.parameter = (clampParameter rule).value
  basisState : intent.basisState = outcome.state
  evaluation : intent.evaluation = outcome.id
  epoch : intent.epoch = context.epoch
  generation : intent.authorityGeneration = context.authority.generation
  policyId : intent.policy = policy.id
  fingerprint : intent.policyFingerprint = policy.fingerprint
  issuedTick : intent.issuedTick = context.now
  unexpiring : intent.expiresTick = 0

theorem validateIntent_basis {intent : InterventionIntent} (h : validateIntent intent = .ok ()) :
    isAuthoritative intent.basisState = true := by
  simp only [validateIntent, bind_ok, refuseIf_ok, exists_const] at h
  exact not_not.mp h.2.2.1

theorem judge_authorize
    (h : judge policy context active outcome rule target = .authorize intent) :
    Passed policy context active outcome rule target intent := by
  unfold judge at h
  split at h
  next => cases h
  next hauth =>
    split at h
    next => cases h
    next severity hs =>
      split at h
      next => cases h
      next hle =>
        split at h
        next => cases h
        next hfresh =>
          split at h
          next => cases h
          next hcovered =>
            dsimp only at h
            split at h
            next => cases h
            next hcap =>
              split at h
              next => cases h
              next hidle =>
                split at h
                next => cases h
                next hvalid =>
                  have hbasis := validateIntent_basis hvalid
                  cases h
                  exact {
                    authoritative := fun hr => by simp [hr] at hauth; exact hauth.1
                    severity := ⟨severity, hs, not_lt.mp hle⟩
                    fresh := fun hr => by simpa [hr] using hfresh
                    covered := fun ht => by simpa [ht] using hcovered
                    capability := by simpa using hcap
                    idle := Bool.eq_false_iff.mpr hidle
                    basis := hbasis
                    kind := rfl, domain := rfl, resource := rfl, parameter := rfl
                    basisState := rfl, evaluation := rfl
                    epoch := rfl, generation := rfl, policyId := rfl, fingerprint := rfl
                    issuedTick := rfl, unexpiring := rfl }

theorem planTarget_authorized {plan : InterventionPlan}
    (h : intent ∈ (planTarget policy context active outcome rule plan target).authorized) :
    intent ∈ plan.authorized ∨
      judge policy context active outcome rule target = .authorize intent := by
  unfold planTarget at h
  split at h
  next => exact .inl h
  next =>
    unfold pushSuppressed at h
    split at h <;> exact .inl h
  next found hj =>
    rcases List.mem_append.mp h with h | h
    · exact .inl h
    · cases List.mem_singleton.mp h
      exact .inr hj

theorem planTargets_authorized {targets : List ResourceId} {plan : InterventionPlan}
    (h : intent ∈
      (targets.foldl (planTarget policy context active outcome rule) plan).authorized) :
    intent ∈ plan.authorized ∨
      ∃ target ∈ targets, judge policy context active outcome rule target = .authorize intent := by
  induction targets generalizing plan with
  | nil => exact .inl h
  | cons target rest ih =>
    rcases ih h with h | ⟨target', hm, hj⟩
    · exact (planTarget_authorized h).imp id fun hj => ⟨target, List.mem_cons_self, hj⟩
    · exact .inr ⟨target', List.mem_cons_of_mem _ hm, hj⟩

theorem planRule_authorized {plan : InterventionPlan}
    (h : intent ∈ (planRule policy context active outcome plan rule).authorized) :
    intent ∈ plan.authorized ∨
      (rule.targetDomain.valid = true → rule.targetDomain = outcome.domain) ∧
      ∃ target ∈ targetsOf context outcome rule,
        judge policy context active outcome rule target = .authorize intent := by
  unfold planRule at h
  split at h
  next => exact .inl h
  next =>
    split at h
    next => exact .inl h
    next helsewhere =>
      split at h
      next => exact .inl h
      next =>
        rcases planTargets_authorized h with h | h
        · exact .inl h
        · exact .inr ⟨fun hvalid => not_not.mp fun hne => helsewhere ⟨hvalid, hne⟩, h⟩

/-- Every authorized intent was judged under a rule of the policy. -/
theorem plan_authorized {plan : InterventionPlan} (hp : context.policy = some policy)
    (h : InterventionPlanner.plan outcome context active = .ok plan)
    (hi : intent ∈ plan.authorized) :
    ∃ rule ∈ policy.interventions,
      (rule.targetDomain.valid = true → rule.targetDomain = outcome.domain) ∧
      ∃ target ∈ targetsOf context outcome rule,
        judge policy context active outcome rule target = .authorize intent := by
  have hfold : ∀ (rules : List InterventionRule) (p : InterventionPlan),
      intent ∈ (rules.foldl (planRule policy context active outcome) p).authorized →
      intent ∈ p.authorized ∨ ∃ rule ∈ rules,
        (rule.targetDomain.valid = true → rule.targetDomain = outcome.domain) ∧
        ∃ target ∈ targetsOf context outcome rule,
          judge policy context active outcome rule target = .authorize intent := by
    intro rules
    induction rules with
    | nil => exact fun p h => .inl h
    | cons rule rest ih =>
      intro p h
      rcases ih _ h with h | ⟨rule', hr, hj⟩
      · exact (planRule_authorized h).imp id fun hj => ⟨rule, List.mem_cons_self, hj⟩
      · exact .inr ⟨rule', List.mem_cons_of_mem _ hr, hj⟩
  unfold InterventionPlanner.plan at h
  rw [hp] at h
  cases h
  exact (hfold _ _ hi).resolve_left List.not_mem_nil

end InterventionPlanner

end CongestionFabric
