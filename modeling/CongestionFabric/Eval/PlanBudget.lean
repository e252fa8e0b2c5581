import CongestionFabric.Eval.BoundedPlan

namespace CongestionFabric

namespace InterventionPlanner

variable (policy : CongestionPolicy) (context : PlanningContext)
  (active : List InterventionIntent) (outcome : EvaluationOutcome)

/-- Every gate of a rule is open for a target, and the intent drafted for it is valid. -/
def authorizable (rule : InterventionRule) (target : ResourceId) : Bool :=
  (!rule.requireAuthoritativeState || (outcome.authoritative && isAuthoritative outcome.state)) &&
    (severityOf outcome.state).any (fun severity => !decide (severity < rule.atLeast) &&
      (validateIntent (draft policy context outcome rule severity target)).isOk) &&
    (!rule.requireFreshEvidence || evidenceWithinFreshness outcome.evidence policy context.now) &&
    (targetCovered outcome target || context.topology.isNone) &&
    (checkAuthority context.authority context.now (requiredAuthority rule.kind)).allowed &&
    !alreadyActive context active outcome rule target

/-- The targets a rule asks intents for. -/
def asked (rule : InterventionRule) : List ResourceId :=
  if rule.targetDomain.valid ∧ rule.targetDomain ≠ outcome.domain then []
  else (targetsOf context outcome rule).filter (authorizable policy context active outcome rule)

/-- The intent a rule drafts for a target. -/
def drafted (rule : InterventionRule) (target : ResourceId) : InterventionIntent :=
  let intent :=
    draft policy context outcome rule ((severityOf outcome.state).getD .clear) target
  { intent with id := computeInterventionId intent }

/-- Every rule that is reached while the plan is under its bound asks for no more than what is left
of it. -/
def WithinBudget : Prop :=
  ∀ before rule after, policy.interventions = before ++ rule :: after →
    (before.map fun rule => (asked policy context active outcome rule).length).sum <
      policy.limits.maxInterventionsPerPlan.toNat →
    (before.map fun rule => (asked policy context active outcome rule).length).sum +
      (asked policy context active outcome rule).length ≤
        policy.limits.maxInterventionsPerPlan.toNat

variable {policy context active outcome} {rule : InterventionRule} {target : ResourceId}

theorem authorizable_iff : authorizable policy context active outcome rule target = true ↔
    (rule.requireAuthoritativeState = true →
        (outcome.authoritative && isAuthoritative outcome.state) = true) ∧
      (∃ severity, severityOf outcome.state = some severity ∧ ¬severity < rule.atLeast ∧
        validateIntent (draft policy context outcome rule severity target) = .ok ()) ∧
      (rule.requireFreshEvidence = true →
        evidenceWithinFreshness outcome.evidence policy context.now = true) ∧
      (targetCovered outcome target = true ∨ context.topology = none) ∧
      (checkAuthority context.authority context.now (requiredAuthority rule.kind)).allowed = true ∧
      alreadyActive context active outcome rule target = false := by
  have himplies : ∀ p q : Bool, (!p || q) = true ↔ (p = true → q = true) := by decide
  have hvalid : ∀ status : VoidResult, status.isOk = true ↔ status = .ok () := by
    intro status
    cases status with
    | error status => exact ⟨nofun, nofun⟩
    | ok u => exact iff_of_true rfl rfl
  unfold authorizable
  rw [Bool.and_eq_true, Bool.and_eq_true, Bool.and_eq_true, Bool.and_eq_true, Bool.and_eq_true,
    himplies, himplies, Option.any_eq_true, Bool.or_eq_true, Option.isNone_iff_eq_none,
    Bool.not_eq_true']
  simp only [Bool.and_eq_true, Bool.not_eq_true', decide_eq_false_iff_not, hvalid, and_assoc]

/-- A target whose gates are open has its intent drafted. -/
theorem judge_of_authorizable
    (h : authorizable policy context active outcome rule target = true) :
    judge policy context active outcome rule target =
      .authorize (drafted policy context outcome rule target) := by
  rw [authorizable_iff, ← covered_iff] at h
  obtain ⟨hauth, ⟨severity, hseverity, hatLeast, hvalid⟩, hfresh, hcover, hallowed, hactive⟩ := h
  have hdrafted : drafted policy context outcome rule target =
      { draft policy context outcome rule severity target with
        id := computeInterventionId (draft policy context outcome rule severity target) } := by
    unfold drafted
    rw [hseverity]
    rfl
  unfold judge
  rw [if_neg ((unless_iff _ _).mpr hauth), hseverity, hdrafted]
  dsimp only
  rw [if_neg hatLeast, if_neg ((unless_iff _ _).mpr hfresh),
    if_neg (Bool.eq_false_iff.mp hcover), hallowed, hactive, hvalid]
  rfl

/-- The gates are asked one after the other, and all of them have to be open. -/
theorem judge_authorizable : (∃ intent,
    judge policy context active outcome rule target = .authorize intent) ↔
      authorizable policy context active outcome rule target = true := by
  refine ⟨?_, fun h => ⟨_, judge_of_authorizable h⟩⟩
  rw [authorizable_iff, ← covered_iff]
  rintro ⟨intent, h⟩
  unfold judge at h
  split at h
  next => cases h
  next hauth =>
    split at h
    next => cases h
    next severity hseverity =>
      split at h
      next => cases h
      next hatLeast =>
        split at h
        next => cases h
        next hfresh =>
          split at h
          next => cases h
          next hcover =>
            dsimp only at h
            split at h
            next => cases h
            next hallowed =>
              split at h
              next => cases h
              next hactive =>
                split at h
                next => cases h
                next hvalid =>
                  refine ⟨(unless_iff _ _).mp hauth, ⟨severity, hseverity, hatLeast, hvalid⟩,
                    (unless_iff _ _).mp hfresh, Bool.eq_false_iff.mpr hcover, ?_,
                    Bool.eq_false_iff.mpr hactive⟩
                  simpa using hallowed

theorem planTarget_served (plan : InterventionPlan) :
    (planTarget policy context active outcome rule plan target).authorized =
      plan.authorized ++
        if authorizable policy context active outcome rule target then
          [drafted policy context outcome rule target] else [] := by
  have hjudge : (∃ intent, judge policy context active outcome rule target = .authorize intent) ↔
    authorizable policy context active outcome rule target = true := judge_authorizable
  unfold planTarget
  split
  next hskip =>
    rw [if_neg fun h => ?_, List.append_nil]
    obtain ⟨intent, hintent⟩ := hjudge.mpr h
    exact absurd (hskip.symm.trans hintent) (by simp)
  next reason detail hsuppress =>
    rw [if_neg fun h => ?_, List.append_nil]
    · unfold pushSuppressed
      split <;> rfl
    · obtain ⟨intent, hintent⟩ := hjudge.mpr h
      exact absurd (hsuppress.symm.trans hintent) (by simp)
  next intent hintent =>
    have hopen := hjudge.mp ⟨intent, hintent⟩
    obtain rfl := Verdict.authorize.inj (hintent.symm.trans (judge_of_authorizable hopen))
    rw [if_pos hopen]

theorem planTargets_served (targets : List ResourceId) (plan : InterventionPlan) :
    (targets.foldl (planTarget policy context active outcome rule) plan).authorized =
      plan.authorized ++ (targets.filter (authorizable policy context active outcome rule)).map
        (drafted policy context outcome rule) := by
  induction targets generalizing plan with
  | nil => exact (List.append_nil _).symm
  | cons target rest ih =>
    rw [List.foldl_cons, ih, planTarget_served, List.append_assoc, List.filter_cons]
    split <;> rfl

theorem planRule_served (plan : InterventionPlan) :
    (planRule policy context active outcome plan rule).authorized =
      if plan.authorized.length ≥ policy.limits.maxInterventionsPerPlan.toNat then plan.authorized
      else plan.authorized ++ (asked policy context active outcome rule).map
        (drafted policy context outcome rule) := by
  unfold planRule asked
  split
  · rfl
  · split
    · exact (List.append_nil _).symm
    · split
      next hempty =>
        rw [hempty]
        exact (List.append_nil _).symm
      next => exact planTargets_served _ plan

/-- A plan holds the intents its rules draft for the targets they ask for, in order, until the bound
is reached. -/
theorem plan_served {plan : InterventionPlan} (hp : context.policy = some policy)
    (h : InterventionPlanner.plan outcome context active = .ok plan) :
    plan.authorized = serve policy.limits.maxInterventionsPerPlan.toNat
      (fun rule => (asked policy context active outcome rule).map
        (drafted policy context outcome rule)) policy.interventions [] := by
  have hfold : ∀ (rules : List InterventionRule) (p : InterventionPlan),
      (rules.foldl (planRule policy context active outcome) p).authorized =
        serve policy.limits.maxInterventionsPerPlan.toNat
          (fun rule => (asked policy context active outcome rule).map
            (drafted policy context outcome rule)) rules p.authorized := by
    intro rules
    induction rules with
    | nil => exact fun p => rfl
    | cons rule rest ih =>
      intro p
      rw [List.foldl_cons, ih, planRule_served]
      rfl
  unfold InterventionPlanner.plan at h
  rw [hp] at h
  cases h
  exact hfold _ _

/-- A plan holds no more intents than the policy allows exactly when no rule that is reached asks for
more of them than are left. -/
theorem plan_within_bound_iff {plan : InterventionPlan} (hp : context.policy = some policy)
    (h : InterventionPlanner.plan outcome context active = .ok plan) :
    plan.authorized.length ≤ policy.limits.maxInterventionsPerPlan.toNat ↔
      WithinBudget policy context active outcome := by
  rw [plan_served hp h, serve_le_iff (Nat.zero_le _)]
  unfold WithinBudget Reached
  simp only [List.length_nil, Nat.zero_add, List.length_map]

end InterventionPlanner

namespace CongestionEvaluator

open InterventionPlanner

theorem plan_within_bound_iff_busy : ∃ outcome plan,
    evaluate busyRequest {} { pairContext with policy := some makeDefaultPolicy } = .ok outcome ∧
    InterventionPlanner.plan outcome { fullAuthority with
      policy := some makeDefaultPolicy, topology := pairContext.topology } [] = .ok plan ∧
    plan.authorized.length = 2 ∧
    WithinBudget makeDefaultPolicy { fullAuthority with
      policy := some makeDefaultPolicy, topology := pairContext.topology } [] outcome := by
  obtain ⟨outcome, h⟩ : ∃ outcome, evaluate busyRequest {}
      { pairContext with policy := some makeDefaultPolicy } = .ok outcome :=
    Result.exists_of_isOk (by decide +kernel)
  obtain ⟨plan, hplan⟩ : ∃ plan, InterventionPlanner.plan outcome { fullAuthority with
      policy := some makeDefaultPolicy, topology := pairContext.topology } [] = .ok plan :=
    ⟨_, rfl⟩
  have htwo : ((evaluate busyRequest {}
      { pairContext with policy := some makeDefaultPolicy }).toOption.bind fun outcome =>
        (InterventionPlanner.plan outcome { fullAuthority with policy := some makeDefaultPolicy
                                                               topology := pairContext.topology }
          []).toOption).map (·.authorized.length) = some 2 := by
    decide +kernel
  rw [h] at htwo
  have htwo : plan.authorized.length = 2 := by
    have htwo : (InterventionPlanner.plan outcome { fullAuthority with
        policy := some makeDefaultPolicy, topology := pairContext.topology } []).toOption.map
          (·.authorized.length) = some 2 := htwo
    rw [hplan] at htwo
    exact Option.some.inj htwo
  refine ⟨outcome, plan, h, hplan, htwo, (plan_within_bound_iff rfl hplan).mp ?_⟩
  rw [htwo]
  decide

/-- The default policy with room for so many intents in a plan. -/
def allowing (intents : UInt64) : CongestionPolicy :=
  let policy : CongestionPolicy := { makeDefaultPolicy with
    limits := { makeDefaultPolicy.limits with maxInterventionsPerPlan := intents } }
  { policy with fingerprint := fingerprintPolicy policy }

/-- With room for one intent, a rule that matches two targets has two authorized. -/
theorem plan_exceeds_bound : validatePolicy (allowing 1) = .ok (allowing 1) ∧
    (allowing 1).limits.maxInterventionsPerPlan.toNat = 1 ∧
    ((evaluate busyRequest {} { pairContext with policy := some (allowing 1) }).toOption.bind
      fun outcome => (InterventionPlanner.plan outcome { fullAuthority with
        policy := some (allowing 1), topology := pairContext.topology } []).toOption).map
      (·.authorized.length) = some 2 := by
  refine ⟨?_, rfl, ?_⟩
  · decide +kernel
  · decide +kernel

end CongestionEvaluator

end CongestionFabric
