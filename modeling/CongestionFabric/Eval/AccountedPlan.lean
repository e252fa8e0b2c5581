import CongestionFabric.Eval.PlanBudget

namespace CongestionFabric

namespace InterventionPlanner

variable (policy : CongestionPolicy) (context : PlanningContext)
  (active : List InterventionIntent) (outcome : EvaluationOutcome)

/-- The domain is in the state a rule asks for. -/
def severeEnough (rule : InterventionRule) : Bool :=
  (severityOf outcome.state).any fun severity => !decide (severity < rule.atLeast)

/-- One question a plan asks about a rule and a target, and its verdict if the answer is no. -/
structure Gate where
  isOpen : Bool
  verdict : Verdict

/-- The gates of a rule for a target, in the order they are asked. -/
def gates (rule : InterventionRule) (target : ResourceId) : List Gate :=
  let decision := checkAuthority context.authority context.now (requiredAuthority rule.kind)
  let intent :=
    draft policy context outcome rule ((severityOf outcome.state).getD .clear) target
  [⟨!rule.requireAuthoritativeState || (outcome.authoritative && isAuthoritative outcome.state),
      .suppress .nonAuthoritativeState "domain state is not authoritative at this evaluation"⟩,
    ⟨severeEnough outcome rule, .skip⟩,
    ⟨!rule.requireFreshEvidence || evidenceWithinFreshness outcome.evidence policy context.now,
      .suppress .staleEvidence "no fresh accepted evidence supports this intervention"⟩,
    ⟨targetCovered outcome target || context.topology.isNone,
      .suppress .missingEvidence
        "target resource produced no usable evidence in this evaluation"⟩,
    ⟨decision.allowed, .suppress decision.reason decision.detail⟩,
    ⟨!alreadyActive context active outcome rule target,
      .suppress .alreadyActive
        "an equivalent intervention is already outstanding for this target"⟩,
    ⟨(validateIntent intent).isOk,
      .suppress .limitExceeded (match validateIntent intent with
        | .error status => status.describe
        | .ok _ => "")⟩]

/-- What the first closed gate says. -/
def firstClosed (rule : InterventionRule) (target : ResourceId) : Option Verdict :=
  ((gates policy context active outcome rule target).find? fun gate => !gate.isOpen).map
    (·.verdict)

/-- A rule that is refused before its targets are looked at. -/
inductive Refuses (rule : InterventionRule) (plan : InterventionPlan) : SuppressionReason → Prop where
  | full (hfull : policy.limits.maxInterventionsPerPlan.toNat ≤ plan.authorized.length) :
      Refuses rule plan .limitExceeded
  | untargeted (hhere : rule.targetDomain.valid = true → rule.targetDomain = outcome.domain)
      (hnone : targetsOf context outcome rule = []) : Refuses rule plan .targetNotPresent

/-- The entry of a plan that suppresses a rule for a target. -/
def entryOf (rule : InterventionRule) (target : ResourceId) (reason : SuppressionReason)
    (detail : String) : SuppressedIntervention where
  kind := rule.kind
  domain := outcome.domain
  resource := target
  trafficClass := rule.targetClass
  reason
  detail

/-- The entry of a plan that refuses a rule as a whole. -/
def refusalOf (rule : InterventionRule) (reason : SuppressionReason) (detail : String) :
    SuppressedIntervention where
  kind := rule.kind
  domain := outcome.domain
  reason
  detail

/-- The number of suppressions from which on those of single targets are no longer listed. -/
def suppressedBound : Nat := (policy.limits.maxInterventionsPerPlan * 4).toNat

/-- The plan says what becomes of a rule for a target. -/
inductive Accounted (rule : InterventionRule) (plan : InterventionPlan) (target : ResourceId) :
    Prop where
  | authorized (hopen : firstClosed policy context active outcome rule target = none)
      (hmem : drafted policy context outcome rule target ∈ plan.authorized) :
      Accounted rule plan target
  | suppressed (reason : SuppressionReason) (detail : String)
      (hclosed : firstClosed policy context active outcome rule target =
        some (.suppress reason detail))
      (hlisted : entryOf outcome rule target reason detail ∈ plan.suppressed ∨
        suppressedBound policy ≤ plan.suppressed.length) : Accounted rule plan target
  | below (hbelow : firstClosed policy context active outcome rule target = some .skip) :
      Accounted rule plan target

variable {policy context active outcome} {rule : InterventionRule} {target : ResourceId}
  {plan plan' : InterventionPlan}

/-- The verdict on a rule and a target is that of the first closed gate; when all are open, the
drafted intent is authorized. -/
theorem judge_eq : judge policy context active outcome rule target =
    (firstClosed policy context active outcome rule target).getD
      (.authorize (drafted policy context outcome rule target)) := by
  have hunless : ∀ p q : Bool, (p && !q) = !(!p || q) := by decide
  have huncovered : (!targetCovered outcome target && context.topology.isSome) =
      !(targetCovered outcome target || context.topology.isNone) := by
    rw [Bool.not_or, Option.not_isNone]
  unfold judge firstClosed gates drafted severeEnough
  rw [hunless, hunless, huncovered]
  dsimp only
  simp only [List.find?_cons, List.find?_nil]
  -- the gates in the order of the plan: a closed one decides, an open one leaves it to the rest
  cases !rule.requireAuthoritativeState || (outcome.authoritative && isAuthoritative outcome.state) with
  | false => rfl
  | true =>
    cases severityOf outcome.state with
    | none => rfl
    | some severity =>
      by_cases hbelow : severity < rule.atLeast
      · simp [hbelow]
      · simp only [Option.any_some, hbelow, decide_false, Bool.not_false]
        cases !rule.requireFreshEvidence ||
            evidenceWithinFreshness outcome.evidence policy context.now with
        | false => rfl
        | true =>
          cases targetCovered outcome target || context.topology.isNone with
          | false => rfl
          | true =>
            cases (checkAuthority context.authority context.now
                (requiredAuthority rule.kind)).allowed with
            | false => rfl
            | true =>
              cases alreadyActive context active outcome rule target with
              | true => rfl
              | false =>
                cases hvalid : validateIntent (draft policy context outcome rule severity target) with
                | error status => simp [hvalid, Result.isOk]
                | ok _ => simp [hvalid, Result.isOk]

/-- No gate authorizes anything. -/
theorem firstClosed_refuses {intent : InterventionIntent} :
    firstClosed policy context active outcome rule target ≠ some (.authorize intent) := by
  intro h
  obtain ⟨gate, hgate, hverdict⟩ := Option.map_eq_some_iff.mp h
  have hmem := List.mem_of_find?_eq_some hgate
  simp only [gates, List.mem_cons, List.not_mem_nil, or_false] at hmem
  rcases hmem with rfl | rfl | rfl | rfl | rfl | rfl | rfl <;> cases hverdict

theorem judge_suppress {reason : SuppressionReason} {detail : String}
    (h : judge policy context active outcome rule target = .suppress reason detail) :
    firstClosed policy context active outcome rule target = some (.suppress reason detail) := by
  rw [judge_eq] at h
  cases hfirst : firstClosed policy context active outcome rule target with
  | none =>
    rw [hfirst] at h
    cases h
  | some verdict =>
    rw [hfirst] at h
    exact congrArg some h

/-! ### What a plan keeps as it grows -/

/-- Later rules and targets only add to a plan. -/
structure Extends (plan plan' : InterventionPlan) : Prop where
  authorized : plan.authorized <+: plan'.authorized
  suppressed : plan.suppressed <+: plan'.suppressed

theorem Extends.refl (plan : InterventionPlan) : Extends plan plan :=
  ⟨List.prefix_rfl, List.prefix_rfl⟩

theorem Extends.trans {plan'' : InterventionPlan} (h : Extends plan plan')
    (h' : Extends plan' plan'') : Extends plan plan'' :=
  ⟨h.authorized.trans h'.authorized, h.suppressed.trans h'.suppressed⟩

theorem pushSuppressed_extends (reason : SuppressionReason) (detail : String) :
    Extends plan (pushSuppressed policy outcome rule target reason detail plan) := by
  unfold pushSuppressed
  split
  · exact .refl plan
  · exact ⟨List.prefix_rfl, List.prefix_append _ _⟩

theorem planTarget_extends :
    Extends plan (planTarget policy context active outcome rule plan target) := by
  unfold planTarget
  split
  · exact .refl plan
  · exact pushSuppressed_extends _ _
  · exact ⟨List.prefix_append _ _, List.prefix_rfl⟩

theorem planTargets_extends (targets : List ResourceId) : Extends plan
    (targets.foldl (planTarget policy context active outcome rule) plan) := by
  induction targets generalizing plan with
  | nil => exact .refl plan
  | cons target rest ih => exact planTarget_extends.trans ih

theorem planRule_extends :
    Extends plan (planRule policy context active outcome plan rule) := by
  unfold planRule
  split_ifs
  · exact ⟨List.prefix_rfl, List.prefix_append _ _⟩
  · exact .refl plan
  · exact ⟨List.prefix_rfl, List.prefix_append _ _⟩
  · exact planTargets_extends _

theorem Accounted.extends (h : Accounted policy context active outcome rule plan target)
    (hext : Extends plan plan') : Accounted policy context active outcome rule plan' target := by
  cases h with
  | authorized hopen hmem => exact .authorized hopen (hext.authorized.subset hmem)
  | suppressed reason detail hclosed hlisted =>
    refine .suppressed reason detail hclosed ?_
    rcases hlisted with hmem | hfull
    · exact .inl (hext.suppressed.subset hmem)
    · exact .inr (hfull.trans hext.suppressed.length_le)
  | below hbelow => exact .below hbelow

/-! ### Every target of every rule -/

theorem planTarget_accounts : Accounted policy context active outcome rule
    (planTarget policy context active outcome rule plan target) target := by
  unfold planTarget
  rw [judge_eq]
  cases hfirst : firstClosed policy context active outcome rule target with
  | none => exact .authorized hfirst (List.mem_append_right _ (List.mem_singleton_self _))
  | some verdict =>
    cases verdict with
    | skip => exact .below hfirst
    | suppress reason detail =>
      refine .suppressed reason detail hfirst ?_
      show _ ∈ (pushSuppressed ..).suppressed ∨ _ ≤ (pushSuppressed ..).suppressed.length
      unfold pushSuppressed
      split
      next hfull => exact .inr hfull
      next => exact .inl (List.mem_append_right _ (List.mem_singleton_self _))
    | authorize intent => exact absurd hfirst firstClosed_refuses

theorem planTargets_account {targets : List ResourceId} (htarget : target ∈ targets) :
    Accounted policy context active outcome rule
      (targets.foldl (planTarget policy context active outcome rule) plan) target := by
  induction targets generalizing plan with
  | nil => cases htarget
  | cons first rest ih =>
    rcases List.mem_cons.mp htarget with rfl | htarget
    · exact planTarget_accounts.extends (planTargets_extends rest)
    · exact ih htarget

/-- The rule is refused as a whole, with an entry that says why. -/
def RuleRefused (policy : CongestionPolicy) (context : PlanningContext)
    (outcome : EvaluationOutcome) (rule : InterventionRule) (plan : InterventionPlan) : Prop :=
  ∃ reason detail, Refuses policy context outcome rule plan reason ∧
    refusalOf outcome rule reason detail ∈ plan.suppressed

theorem RuleRefused.extends (h : RuleRefused policy context outcome rule plan)
    (hext : Extends plan plan') : RuleRefused policy context outcome rule plan' := by
  obtain ⟨reason, detail, hrefuses, hmem⟩ := h
  refine ⟨reason, detail, ?_, hext.suppressed.subset hmem⟩
  cases hrefuses with
  | full hfull => exact .full (hfull.trans hext.authorized.length_le)
  | untargeted hhere hnone => exact .untargeted hhere hnone

theorem planRule_accounts (hhere : rule.targetDomain.valid = true → rule.targetDomain = outcome.domain) :
    RuleRefused policy context outcome rule (planRule policy context active outcome plan rule) ∨
      ∀ target ∈ targetsOf context outcome rule, Accounted policy context active outcome rule
        (planRule policy context active outcome plan rule) target := by
  unfold planRule
  split_ifs with hfull helsewhere hnone
  · exact .inl ⟨_, _, .full hfull, List.mem_append_right _ (List.mem_singleton_self _)⟩
  · exact absurd (hhere helsewhere.1) helsewhere.2
  · exact .inl ⟨_, _, .untargeted hhere hnone, List.mem_append_right _ (List.mem_singleton_self _)⟩
  · exact .inr fun target htarget => planTargets_account htarget

/-! ### Every entry of a plan -/

/-- An entry of a plan belongs to a rule: it refuses the rule, or suppresses it for a target. -/
inductive Belongs (policy : CongestionPolicy) (context : PlanningContext)
    (active : List InterventionIntent) (outcome : EvaluationOutcome) (rule : InterventionRule)
    (plan : InterventionPlan) (entry : SuppressedIntervention) : Prop where
  | refused (reason : SuppressionReason) (detail : String)
      (hrefuses : Refuses policy context outcome rule plan reason)
      (hentry : entry = refusalOf outcome rule reason detail) :
      Belongs policy context active outcome rule plan entry
  | closed (hhere : rule.targetDomain.valid = true → rule.targetDomain = outcome.domain)
      (target : ResourceId) (reason : SuppressionReason) (detail : String)
      (htarget : target ∈ targetsOf context outcome rule)
      (hclosed : firstClosed policy context active outcome rule target =
        some (.suppress reason detail))
      (hentry : entry = entryOf outcome rule target reason detail) :
      Belongs policy context active outcome rule plan entry

theorem Belongs.extends {entry : SuppressedIntervention}
    (h : Belongs policy context active outcome rule plan entry) (hext : Extends plan plan') :
    Belongs policy context active outcome rule plan' entry := by
  cases h with
  | refused reason detail hrefuses hentry =>
    refine .refused reason detail ?_ hentry
    cases hrefuses with
    | full hfull => exact .full (hfull.trans hext.authorized.length_le)
    | untargeted hhere hnone => exact .untargeted hhere hnone
  | closed hhere target reason detail htarget hclosed hentry =>
    exact .closed hhere target reason detail htarget hclosed hentry

theorem planTargets_suppressed {targets : List ResourceId} {entry : SuppressedIntervention}
    (h : entry ∈ (targets.foldl (planTarget policy context active outcome rule) plan).suppressed) :
    entry ∈ plan.suppressed ∨ ∃ target ∈ targets, ∃ reason detail,
      firstClosed policy context active outcome rule target = some (.suppress reason detail) ∧
        entry = entryOf outcome rule target reason detail := by
  induction targets generalizing plan with
  | nil => exact .inl h
  | cons target rest ih =>
    rcases ih h with h | ⟨target', htarget, hclosed⟩
    · unfold planTarget at h
      split at h
      next => exact .inl h
      next reason detail hsuppress =>
        unfold pushSuppressed at h
        split at h
        next => exact .inl h
        next =>
          rcases List.mem_append.mp h with h | h
          · exact .inl h
          · exact .inr ⟨target, List.mem_cons_self, reason, detail, judge_suppress hsuppress,
              List.mem_singleton.mp h⟩
      next => exact .inl h
    · exact .inr ⟨target', List.mem_cons_of_mem _ htarget, hclosed⟩

theorem here_of_not (h : ¬(rule.targetDomain.valid = true ∧ rule.targetDomain ≠ outcome.domain)) :
    rule.targetDomain.valid = true → rule.targetDomain = outcome.domain :=
  fun hvalid => not_not.mp fun hne => h ⟨hvalid, hne⟩

theorem planRule_suppressed {entry : SuppressedIntervention}
    (h : entry ∈ (planRule policy context active outcome plan rule).suppressed) :
    entry ∈ plan.suppressed ∨ Belongs policy context active outcome rule
      (planRule policy context active outcome plan rule) entry := by
  unfold planRule at h ⊢
  split_ifs at h ⊢ with hfull helsewhere hnone
  · rcases List.mem_append.mp h with h | h
    · exact .inl h
    · exact .inr (.refused _ _ (.full hfull) (List.mem_singleton.mp h))
  · exact .inl h
  · rcases List.mem_append.mp h with h | h
    · exact .inl h
    · exact .inr (.refused _ _ (.untargeted (here_of_not helsewhere) hnone) (List.mem_singleton.mp h))
  · rcases planTargets_suppressed h with h | ⟨target, htarget, reason, detail, hclosed, hentry⟩
    · exact .inl h
    · exact .inr (.closed (here_of_not helsewhere) target reason detail htarget hclosed hentry)

/-- What a plan has to say about the rules of the policy, and what it may say. -/
structure Accounts (policy : CongestionPolicy) (context : PlanningContext)
    (active : List InterventionIntent) (outcome : EvaluationOutcome) (rules : List InterventionRule)
    (plan : InterventionPlan) : Prop where
  complete : ∀ rule ∈ rules,
    (rule.targetDomain.valid = true → rule.targetDomain = outcome.domain) →
      RuleRefused policy context outcome rule plan ∨
        ∀ target ∈ targetsOf context outcome rule,
          Accounted policy context active outcome rule plan target
  sound : ∀ entry ∈ plan.suppressed, ∃ rule ∈ rules,
    Belongs policy context active outcome rule plan entry

theorem planRules_account (rules : List InterventionRule) :
    Accounts policy context active outcome rules (rules.foldl
      (planRule policy context active outcome) (emptyPlan policy context outcome)) := by
  induction rules using List.reverseRecOn with
  | nil => exact ⟨by simp, by simp [emptyPlan]⟩
  | append_singleton rules rule ih =>
    rw [List.foldl_append, List.foldl_cons, List.foldl_nil]
    generalize rules.foldl (planRule policy context active outcome)
      (emptyPlan policy context outcome) = plan at ih ⊢
    have hext : Extends plan (planRule policy context active outcome plan rule) := planRule_extends
    constructor
    · intro found hfound hhere
      rcases List.mem_append.mp hfound with hfound | hfound
      · rcases ih.complete found hfound hhere with hrefused | hall
        · exact .inl (hrefused.extends hext)
        · exact .inr fun target htarget => (hall target htarget).extends hext
      · obtain rfl := List.mem_singleton.mp hfound
        exact planRule_accounts hhere
    · intro entry hentry
      rcases planRule_suppressed hentry with hentry | hbelongs
      · obtain ⟨found, hfound, hbelongs⟩ := ih.sound entry hentry
        exact ⟨found, List.mem_append_left _ hfound, hbelongs.extends hext⟩
      · exact ⟨rule, List.mem_append_right _ (List.mem_singleton_self _), hbelongs⟩

/-- No intervention disappears without a word. For every rule that concerns the domain, a plan
refuses the rule as a whole, being full or finding no target, or says of every target that it is
authorized or what its first closed gate says, unless that is the severity of the state or the listed
suppressions are at their bound; and it lists nothing else. -/
theorem plan_accounts (hp : context.policy = some policy)
    (h : InterventionPlanner.plan outcome context active = .ok plan) :
    Accounts policy context active outcome policy.interventions plan := by
  unfold InterventionPlanner.plan at h
  rw [hp] at h
  obtain rfl := Except.ok.inj h
  exact planRules_account policy.interventions

end InterventionPlanner

namespace CongestionEvaluator

open InterventionPlanner

def busyPlanning : PlanningContext :=
  { fullAuthority with policy := some makeDefaultPolicy, topology := pairContext.topology }

/-- A pair of busy resources, the first with the intervention already outstanding. -/
theorem plan_accounts_busy : ∃ outcome plan again,
    evaluate busyRequest {} { pairContext with policy := some makeDefaultPolicy } = .ok outcome ∧
    InterventionPlanner.plan outcome busyPlanning [] = .ok plan ∧
    InterventionPlanner.plan outcome busyPlanning (plan.authorized.take 1) = .ok again ∧
    again.authorized.length = 1 ∧
    Accounts makeDefaultPolicy busyPlanning (plan.authorized.take 1) outcome
      makeDefaultPolicy.interventions again := by
  obtain ⟨outcome, h⟩ : ∃ outcome, evaluate busyRequest {}
      { pairContext with policy := some makeDefaultPolicy } = .ok outcome :=
    Result.exists_of_isOk (by decide +kernel)
  have hone : (evaluate busyRequest {}
      { pairContext with policy := some makeDefaultPolicy }).toOption.any (fun outcome =>
        (InterventionPlanner.plan outcome busyPlanning []).toOption.any fun plan =>
          (InterventionPlanner.plan outcome busyPlanning (plan.authorized.take 1)).toOption.any
            fun again => again.authorized.length = 1) = true := by
    decide +kernel
  rw [h] at hone
  obtain ⟨plan, hplan⟩ : ∃ plan, InterventionPlanner.plan outcome busyPlanning [] = .ok plan :=
    ⟨_, rfl⟩
  obtain ⟨again, hagain⟩ : ∃ again,
      InterventionPlanner.plan outcome busyPlanning (plan.authorized.take 1) = .ok again := ⟨_, rfl⟩
  simp only [Except.toOption, Option.any_some, hplan, hagain] at hone
  exact ⟨outcome, plan, again, h, hplan, hagain, of_decide_eq_true hone, plan_accounts rfl hagain⟩

end CongestionEvaluator

end CongestionFabric
