import CongestionFabric.Eval.ReportBounds

namespace CongestionFabric

/-- What the gates of a plan read of an evaluation. -/
structure Standing where
  domain : DomainId
  state : CongestionState
  authoritative : Bool
  evidence : EvidenceVector

def EvaluationOutcome.standing (outcome : EvaluationOutcome) : Standing where
  domain := outcome.domain
  state := outcome.state
  authoritative := outcome.authoritative
  evidence := outcome.evidence.tallied

namespace InterventionPlanner

/-- The kind, the target and the parameter of an intent. -/
abbrev Combination := InterventionKind × ResourceId × UInt64

def combinationOf (intent : InterventionIntent) : Combination :=
  (intent.kind, intent.resource, intent.parameter)

def combination (rule : InterventionRule) (target : ResourceId) : Combination :=
  (rule.kind, target, (clampParameter rule).value)

variable (policy : CongestionPolicy) (context : PlanningContext)
  (active : List InterventionIntent) (standing : Standing)

/-- An equivalent intervention is outstanding. -/
def outstanding (rule : InterventionRule) (target : ResourceId) : Bool :=
  active.any fun intent =>
    intent.kind = rule.kind && intent.domain = standing.domain && intent.resource = target &&
      !intent.expiredAt context.now &&
      (rule.minRepeatIntervalTicks = 0 ||
        HysteresisEngine.elapsedSince context.now intent.issuedTick < rule.minRepeatIntervalTicks)

/-- An intent of the rule names everything it has to name. -/
def bindable (rule : InterventionRule) : Bool :=
  decide (rule.kind ≠ .none ∧ rule.kind ≠ .count ∧ standing.domain.valid = true ∧
    isAuthoritative standing.state = true ∧ context.epoch.valid = true ∧
    context.authority.generation.valid = true ∧ policy.id.valid = true ∧ context.now ≠ kNoTick ∧
    (rule.kind.name ++ " for " ++ standing.domain.toText).utf8ByteSize ≤ kMaxRationaleBytes)

/-- Every gate of a rule but the coverage of its target. -/
def admits (rule : InterventionRule) (target : ResourceId) : Bool :=
  (!rule.requireAuthoritativeState ||
      (standing.authoritative && isAuthoritative standing.state)) &&
    (severityOf standing.state).any (fun severity => !decide (severity < rule.atLeast)) &&
    (!rule.requireFreshEvidence ||
      evidenceWithinFreshness standing.evidence policy context.now) &&
    (checkAuthority context.authority context.now (requiredAuthority rule.kind)).allowed &&
    !outstanding context active standing rule target && bindable policy context standing rule

variable {policy context active standing} {rule : InterventionRule} {target : ResourceId}
  {outcome : EvaluationOutcome} {intent : InterventionIntent}

theorem basisEvidence_valid (h : outcome.id.valid = true) :
    (basisEvidence outcome).valid = true := by
  unfold basisEvidence
  dsimp only
  split
  · assumption
  · split
    next hb => exact decide_eq_true hb
    next => exact h

theorem validateIntent_draft (hid : outcome.id.valid = true)
    (hfingerprint : policy.fingerprint.value ≠ 0) (severity : Severity) :
    validateIntent (draft policy context outcome rule severity target) = .ok () ↔
      bindable policy context outcome.standing rule = true := by
  have hevidence := basisEvidence_valid hid
  unfold validateIntent bindable
  rw [decide_eq_true_eq]
  simp only [bind_ok, refuseIf_ok, exists_const]
  simp only [draft, EvaluationOutcome.standing, hevidence, hid, hfingerprint, not_or, not_not,
    not_true_eq_false, not_false_eq_true, ne_eq, or_false, false_and, true_and, gt_iff_lt, not_lt]
  constructor
  · rintro ⟨⟨hnone, hcount⟩, hdomain, hstate, hepoch, hgeneration, hpolicy, hnow, hrationale⟩
    exact ⟨hnone, hcount, hdomain, hstate, hepoch, hgeneration, hpolicy, hnow, hrationale⟩
  · rintro ⟨hnone, hcount, hdomain, hstate, hepoch, hgeneration, hpolicy, hnow, hrationale⟩
    exact ⟨⟨hnone, hcount⟩, hdomain, hstate, hepoch, hgeneration, hpolicy, hnow, hrationale⟩

theorem outstanding_standing (rule : InterventionRule) (target : ResourceId) :
    outstanding context active outcome.standing rule target =
      alreadyActive context active outcome rule target := rfl

/-- The gates of a rule, one by one. -/
theorem admits_iff : admits policy context active standing rule target = true ↔
    (rule.requireAuthoritativeState = true →
        (standing.authoritative && isAuthoritative standing.state) = true) ∧
      (∃ severity, severityOf standing.state = some severity ∧ ¬severity < rule.atLeast) ∧
      (rule.requireFreshEvidence = true →
        evidenceWithinFreshness standing.evidence policy context.now = true) ∧
      (checkAuthority context.authority context.now (requiredAuthority rule.kind)).allowed = true ∧
      outstanding context active standing rule target = false ∧
      bindable policy context standing rule = true := by
  have himplies : ∀ p q : Bool, (!p || q) = true ↔ (p = true → q = true) := by decide
  unfold admits
  rw [Bool.and_eq_true, Bool.and_eq_true, Bool.and_eq_true, Bool.and_eq_true, Bool.and_eq_true,
    himplies, himplies, Option.any_eq_true, Bool.not_eq_true']
  simp only [Bool.not_eq_true', decide_eq_false_iff_not, and_assoc]

theorem unless_iff (p q : Bool) : ¬(p && !q) = true ↔ (p = true → q = true) := by
  revert p q
  decide

theorem covered_iff : (!targetCovered outcome target && context.topology.isSome) = false ↔
    targetCovered outcome target = true ∨ context.topology = none := by
  cases targetCovered outcome target <;> cases context.topology <;> simp

/-- What an authorized intent went through. -/
theorem judge_opened (hid : outcome.id.valid = true) (hfingerprint : policy.fingerprint.value ≠ 0)
    (h : judge policy context active outcome rule target = .authorize intent) :
    admits policy context active outcome.standing rule target = true ∧
      (targetCovered outcome target = true ∨ context.topology = none) ∧
      combinationOf intent = combination rule target := by
  rw [admits_iff, outstanding_standing, ← covered_iff]
  unfold judge at h
  split at h
  next => cases h
  next hauth =>
    split at h
    next => cases h
    next severity hseverity =>
      split at h
      next => cases h
      next hatLeast =>
        split at h
        next => cases h
        next hfresh =>
          split at h
          next => cases h
          next hcover =>
            dsimp only at h
            split at h
            next => cases h
            next hallowed =>
              split at h
              next => cases h
              next hactive =>
                split at h
                next => cases h
                next hvalid =>
                  cases h
                  refine ⟨⟨(unless_iff _ _).mp hauth, ⟨severity, hseverity, hatLeast⟩,
                    (unless_iff _ _).mp hfresh, ?_, Bool.eq_false_iff.mpr hactive,
                    (validateIntent_draft hid hfingerprint severity).mp hvalid⟩,
                    Bool.eq_false_iff.mpr hcover, rfl⟩
                  simpa using hallowed

/-- An intent is authorized when every gate is open and its target is covered; without a topology
coverage is not asked for. -/
theorem judge_iff (hid : outcome.id.valid = true) (hfingerprint : policy.fingerprint.value ≠ 0) :
    (∃ intent, judge policy context active outcome rule target = .authorize intent) ↔
      admits policy context active outcome.standing rule target = true ∧
        (targetCovered outcome target = true ∨ context.topology = none) := by
  constructor
  · rintro ⟨intent, h⟩
    obtain ⟨hadmits, hcover, _⟩ := judge_opened hid hfingerprint h
    exact ⟨hadmits, hcover⟩
  · rw [admits_iff, outstanding_standing, ← covered_iff]
    rintro ⟨⟨hauth, ⟨severity, hseverity, hatLeast⟩, hfresh, hallowed, hactive, hbind⟩, hcover⟩
    have hvalid : validateIntent (draft policy context outcome rule severity target) = .ok () :=
      (validateIntent_draft hid hfingerprint severity).mpr hbind
    have hauth' : ¬(rule.requireAuthoritativeState &&
        !(outcome.authoritative && isAuthoritative outcome.state)) = true :=
      (unless_iff _ _).mpr hauth
    have hfresh' : ¬(rule.requireFreshEvidence &&
        !evidenceWithinFreshness outcome.evidence policy context.now) = true :=
      (unless_iff _ _).mpr hfresh
    have hstate : severityOf outcome.state = some severity := hseverity
    refine ⟨{ draft policy context outcome rule severity target with
      id := computeInterventionId (draft policy context outcome rule severity target) }, ?_⟩
    unfold judge
    rw [if_neg hauth', hstate]
    dsimp only
    rw [if_neg hatLeast, if_neg hfresh', if_neg (Bool.eq_false_iff.mp hcover), hallowed, hactive,
      hvalid]
    rfl

variable (policy context active outcome) in
/-- The gates and the coverage of a target. -/
def permits (rule : InterventionRule) (target : ResourceId) : Bool :=
  admits policy context active outcome.standing rule target &&
    (targetCovered outcome target || context.topology.isNone)

theorem permits_iff (hid : outcome.id.valid = true) (hfingerprint : policy.fingerprint.value ≠ 0) :
    permits policy context active outcome rule target = true ↔
      ∃ intent, judge policy context active outcome rule target = .authorize intent := by
  rw [judge_iff hid hfingerprint]
  unfold permits
  rw [Bool.and_eq_true, Bool.or_eq_true, Option.isNone_iff_eq_none]

variable (policy context active outcome) in
/-- What a rule is granted once it is reached. -/
def granted (rule : InterventionRule) : List Combination :=
  if rule.targetDomain.valid ∧ rule.targetDomain ≠ outcome.domain then []
  else ((targetsOf context outcome rule).filter (permits policy context active outcome rule)).map
    (combination rule)

variable (hid : outcome.id.valid = true) (hfingerprint : policy.fingerprint.value ≠ 0)

include hid hfingerprint

theorem planTarget_combinations (plan : InterventionPlan) :
    (planTarget policy context active outcome rule plan target).authorized.map combinationOf =
      plan.authorized.map combinationOf ++
        if permits policy context active outcome rule target then [combination rule target]
        else [] := by
  have hjudge : permits policy context active outcome rule target = true ↔
      ∃ intent, judge policy context active outcome rule target = .authorize intent :=
    permits_iff hid hfingerprint
  unfold planTarget
  split
  next hskip =>
    rw [if_neg fun h => ?_, List.append_nil]
    obtain ⟨intent, hintent⟩ := hjudge.mp h
    exact absurd (hskip.symm.trans hintent) (by simp)
  next reason detail hsuppress =>
    rw [if_neg fun h => ?_, List.append_nil]
    · unfold pushSuppressed
      split <;> rfl
    · obtain ⟨intent, hintent⟩ := hjudge.mp h
      exact absurd (hsuppress.symm.trans hintent) (by simp)
  next intent hintent =>
    rw [if_pos (hjudge.mpr ⟨intent, hintent⟩), List.map_append, List.map_cons, List.map_nil,
      (judge_opened hid hfingerprint hintent).2.2]

theorem planTargets_combinations (targets : List ResourceId) (plan : InterventionPlan) :
    (targets.foldl (planTarget policy context active outcome rule) plan).authorized.map
        combinationOf =
      plan.authorized.map combinationOf ++
        (targets.filter (permits policy context active outcome rule)).map (combination rule) := by
  induction targets generalizing plan with
  | nil => simp
  | cons target rest ih =>
    rw [List.foldl_cons, ih, planTarget_combinations hid hfingerprint, List.append_assoc,
      List.filter_cons]
    split <;> rfl

theorem planRule_combinations (plan : InterventionPlan) :
    (planRule policy context active outcome plan rule).authorized.map combinationOf =
      if (plan.authorized.map combinationOf).length ≥ policy.limits.maxInterventionsPerPlan.toNat
      then plan.authorized.map combinationOf
      else plan.authorized.map combinationOf ++ granted policy context active outcome rule := by
  unfold planRule granted
  rw [List.length_map]
  split
  · rfl
  · split
    · rw [List.append_nil]
    · split
      next hempty =>
        rw [hempty]
        exact (List.append_nil _).symm
      next => exact planTargets_combinations hid hfingerprint _ plan

/-- The rules are served in order, each in full, until the plan holds as many intents as it may. -/
theorem plan_combinations {plan : InterventionPlan} (hp : context.policy = some policy)
    (h : InterventionPlanner.plan outcome context active = .ok plan) :
    plan.authorized.map combinationOf =
      serve policy.limits.maxInterventionsPerPlan.toNat (granted policy context active outcome)
        policy.interventions [] := by
  have hfold : ∀ (rules : List InterventionRule) (p : InterventionPlan),
      (rules.foldl (planRule policy context active outcome) p).authorized.map combinationOf =
        serve policy.limits.maxInterventionsPerPlan.toNat (granted policy context active outcome)
          rules (p.authorized.map combinationOf) := by
    intro rules
    induction rules with
    | nil => exact fun p => rfl
    | cons rule rest ih =>
      intro p
      rw [List.foldl_cons, ih, planRule_combinations hid hfingerprint]
      rfl
  unfold InterventionPlanner.plan at h
  rw [hp] at h
  cases h
  exact hfold _ _

end InterventionPlanner

namespace CongestionEvaluator

open InterventionPlanner

variable (request : EvaluationRequest) (policy : CongestionPolicy) (context : EvaluationContext)
  (prior : DomainState) (resources : List ResourceId)

/-- Where the evidence puts the domain, before anything is listed. -/
def standingOf : Standing :=
  let verdict := verdictOn request policy context prior
    (aggregate (classifyScope request policy context resources).classified)
  { domain := request.domain
    state := verdict.1.state
    authoritative := verdict.2
    evidence := (admitSamples request policy context resources).evidence.tallied }

/-- Something was read from the resource, or contradicted. -/
def heard (resource : ResourceId) : Bool :=
  decide (resource ∈ resources ∧ (tallyResource policy
    (resolve policy (admitSamples request policy context resources)) resource).coverage ≠ .none)

/-- The members of the domain that fit the class of a rule and were heard of; without a topology, the
resources that were evaluated. -/
def candidates (rule : InterventionRule) : List ResourceId :=
  match context.topology with
  | some topology =>
    (topology.domainResources request.domain).filter fun member =>
      (!rule.targetClass.valid ||
        (topology.resource member).any fun record => record.servingClass = rule.targetClass) &&
      heard request policy context resources member
  | none => resources

/-- The targets of a rule that pass every gate, if all of them are listed. -/
def grantable (planning : PlanningContext) (active : List InterventionIntent)
    (rule : InterventionRule) : List ResourceId :=
  if rule.targetDomain.valid ∧ rule.targetDomain ≠ request.domain then []
  else (candidates request policy context resources rule).filter
    (admits policy planning active (standingOf request policy context prior resources) rule)

/-- The grantable targets among the first so many resources. -/
def grantedWithin (planning : PlanningContext) (active : List InterventionIntent) (entries : Nat)
    (rule : InterventionRule) : List Combination :=
  ((grantable request policy context prior resources planning active rule).filter
    fun target => decide (target ∈ resources.take entries)).map (combination rule)

variable {request policy context prior resources} {bounds : ReportBounds} {fingerprint : Hash64}
  {planning : PlanningContext} {active : List InterventionIntent} {a : Assessed}

theorem standing_reporting
    (haggregate : aggregate a.classified =
      aggregate (classifyScope request policy context resources).classified)
    (hevidence : a.evidence.tallied =
      (admitSamples request policy context resources).evidence.tallied) :
    (conclude request (policy.reporting bounds fingerprint) context prior a).standing =
      standingOf request policy context prior resources := by
  have hscope : (classifyScope request policy context resources).evidence.tallied =
      (admitSamples request policy context resources).evidence.tallied := classifyScope_tallied
  have hsame : SameCommit fingerprint
      (conclude request policy context prior (classifyScope request policy context resources))
      (conclude request (policy.reporting bounds fingerprint) context prior a) :=
    conclude_reporting haggregate (hevidence.trans hscope.symm)
  unfold EvaluationOutcome.standing standingOf
  rw [hsame.domain, hsame.state, hsame.authoritative, hsame.evidence]
  have htallied : (conclude request policy context prior
      (classifyScope request policy context resources)).evidence.tallied =
      (admitSamples request policy context resources).evidence.tallied :=
    (reportResources_tallied _).trans hscope
  rw [htallied]
  rfl

theorem reported_resources
    (h : assess request (policy.reporting bounds fingerprint) context resources = .ok a) :
    ((reportResources (policy.reporting bounds fingerprint) a).resources.map
        fun r => (r.resource, r.coverage)) =
      (resources.take bounds.entries.toNat).map fun resource => (resource, (tallyResource policy
        (resolve policy (admitSamples request policy context resources)) resource).coverage) := by
  have hcoverage : ∀ resource, (tallyResource (policy.reporting bounds fingerprint)
      (resolve (policy.reporting bounds fingerprint)
        (admitSamples request (policy.reporting bounds fingerprint) context resources))
      resource).coverage = (tallyResource policy
        (resolve policy (admitSamples request policy context resources)) resource).coverage :=
    fun resource => congrArg Prod.fst (classify_reporting resource)
  have hreports := assess_reports h
  simp only [hcoverage] at hreports
  have hlisted : (reportResources (policy.reporting bounds fingerprint) a).resources =
      (a.classified.map (·.assessment)).take bounds.entries.toNat := by
    unfold reportResources
    dsimp only
    split <;> rfl
  rw [hlisted, List.map_take, List.map_map, List.map_take, ← hreports]
  rfl

theorem targetCovered_reported
    (h : assess request (policy.reporting bounds fingerprint) context resources = .ok a)
    (target : ResourceId) :
    targetCovered (conclude request (policy.reporting bounds fingerprint) context prior a) target =
      decide (target ∈ resources.take bounds.entries.toNat ∧
        heard request policy context resources target = true) := by
  have hany : targetCovered
      (conclude request (policy.reporting bounds fingerprint) context prior a) target =
      ((reportResources (policy.reporting bounds fingerprint) a).resources.map
        fun r => (r.resource, r.coverage)).any fun r => r.1 = target && r.2 ≠ .none := by
    rw [List.any_map]
    rfl
  rw [hany, reported_resources h, Bool.eq_iff_iff, decide_eq_true_eq, List.any_map,
    List.any_eq_true]
  unfold heard
  rw [decide_eq_true_eq]
  constructor
  · rintro ⟨resource, hlisted, hcovered⟩
    obtain ⟨htarget, hcoverage⟩ := (Bool.and_eq_true _ _).mp hcovered
    obtain rfl : resource = target := of_decide_eq_true htarget
    exact ⟨hlisted, List.mem_of_mem_take hlisted, of_decide_eq_true hcoverage⟩
  · rintro ⟨hlisted, _, hcoverage⟩
    refine ⟨target, hlisted, ?_⟩
    simpa using hcoverage

theorem scope_nodup {topology : Option TopologyIndex}
    (htopology : ∀ index, topology = some index → ∀ domain, (index.domainResources domain).Nodup)
    (hscope : scope request policy topology = .ok resources) : resources.Nodup := by
  have hchosen : ∀ {members : List ResourceId}, members.Nodup → (do
      let resources ← if request.onlyResource.valid then do
          refuseIf (request.onlyResource ∉ members) .notFound
            "the requested resource is not a member of the domain"
          pure [request.onlyResource]
        else pure members
      refuseIf (resources = []) .notFound "domain has no resources to evaluate"
      return resources) = .ok resources → resources.Nodup := by
    intro members hmembers h
    split at h
    · obtain ⟨_, _, h⟩ := bind_ok.mp h
      obtain ⟨_, hchosen, h⟩ := bind_ok.mp h
      obtain ⟨_, _, h⟩ := bind_ok.mp h
      cases h
      cases hchosen
      exact List.nodup_singleton _
    · obtain ⟨_, hchosen, h⟩ := bind_ok.mp h
      obtain ⟨_, _, h⟩ := bind_ok.mp h
      cases h
      cases hchosen
      exact hmembers
  unfold scope at hscope
  simp only [pure_bind] at hscope
  split at hscope
  next index =>
    obtain ⟨_, _, hscope⟩ := bind_ok.mp hscope
    obtain ⟨_, _, hscope⟩ := bind_ok.mp hscope
    exact hchosen (htopology index rfl request.domain) hscope
  next =>
    obtain ⟨_, _, hscope⟩ := bind_ok.mp hscope
    exact hchosen (SortedMap.sortedSet_nodup _) hscope

theorem filter_mem_take {α : Type} [DecidableEq α] {l : List α} (h : l.Nodup) (n : Nat) :
    l.filter (fun x => decide (x ∈ l.take n)) = l.take n := by
  have hdisjoint : List.Disjoint (l.take n) (l.drop n) := List.disjoint_take_drop h (le_refl n)
  have hfront : (l.take n).filter (fun x => decide (x ∈ l.take n)) = l.take n :=
    List.filter_eq_self.mpr fun x hx => decide_eq_true hx
  have hback : (l.drop n).filter (fun x => decide (x ∈ l.take n)) = [] :=
    List.filter_eq_nil_iff.mpr fun x hx htrue => hdisjoint (of_decide_eq_true htrue) hx
  calc l.filter (fun x => decide (x ∈ l.take n))
      = (l.take n ++ l.drop n).filter (fun x => decide (x ∈ l.take n)) := by
        rw [List.take_append_drop]
    _ = l.take n := by rw [List.filter_append, hfront, hback, List.append_nil]

theorem granted_reporting
    (h : assess request (policy.reporting bounds fingerprint) context resources = .ok a)
    (hscope : scope request policy context.topology = .ok resources)
    (hstanding : (conclude request (policy.reporting bounds fingerprint) context prior a).standing =
      standingOf request policy context prior resources) (rule : InterventionRule) :
    granted (policy.reporting bounds fingerprint)
        { planning with
          policy := some (policy.reporting bounds fingerprint), topology := context.topology }
        active (conclude request (policy.reporting bounds fingerprint) context prior a) rule =
      grantedWithin request policy context prior resources planning active bounds.entries.toNat
        rule := by
  have hadmits : ∀ target, admits (policy.reporting bounds fingerprint)
      { planning with
        policy := some (policy.reporting bounds fingerprint), topology := context.topology }
      active (standingOf request policy context prior resources) rule target =
      admits policy planning active (standingOf request policy context prior resources) rule
        target := fun _ => rfl
  have hcovered : ∀ target, targetCovered
      (conclude request (policy.reporting bounds fingerprint) context prior a) target =
      decide (target ∈ resources.take bounds.entries.toNat ∧
        heard request policy context resources target = true) := targetCovered_reported h
  have hdomain : (conclude request (policy.reporting bounds fingerprint) context prior a).domain =
      request.domain := rfl
  unfold granted grantedWithin grantable
  rw [hdomain]
  split
  · rfl
  · congr 1
    unfold permits
    rw [hstanding]
    simp only [hadmits, hcovered]
    unfold targetsOf candidates
    rw [hdomain]
    dsimp only
    cases htopology : context.topology with
    | none =>
      have hnodup : resources.Nodup := scope_nodup (by simp) (htopology ▸ hscope)
      have hlisted : (conclude request (policy.reporting bounds fingerprint) context prior
          a).evidence.resources.map (·.resource) = resources.take bounds.entries.toNat := by
        have hfst := congrArg (List.map Prod.fst) (reported_resources h)
        rw [List.map_map, List.map_map] at hfst
        exact hfst.trans (List.map_id _)
      rw [hlisted, List.filter_comm, filter_mem_take hnodup]
      apply List.filter_congr
      intro target _
      simp
    | some topology =>
      dsimp only
      rw [List.filter_filter, List.filter_filter, List.filter_filter]
      apply List.filter_congr
      intro target _
      rw [Bool.eq_iff_iff]
      simp only [Bool.and_eq_true, Bool.or_eq_true, decide_eq_true_eq, Option.isNone_some,
        Bool.false_eq_true, or_false]
      constructor
      · rintro ⟨⟨hadmitted, hnamed, hheard⟩, hclass⟩
        exact ⟨⟨hnamed, hadmitted⟩, hclass, hheard⟩
      · rintro ⟨⟨hnamed, hadmitted⟩, hclass, hheard⟩
        exact ⟨⟨hadmitted, hnamed, hheard⟩, hclass⟩

variable (request policy context prior resources planning active) in
/-- No rule that is reached has a target that only the longer of two lists of resources names. -/
def Unclipped (entries entries' : Nat) : Prop :=
  ∀ before rule after, policy.interventions = before ++ rule :: after →
    Reached policy.limits.maxInterventionsPerPlan.toNat (grantedWithin request policy context prior
      resources planning active (min entries entries')) [] before →
    ∀ target ∈ grantable request policy context prior resources planning active rule,
      target ∈ resources.take (max entries entries') → target ∈ resources.take (min entries entries')

/-- The plan for a shorter list of resources holds the same combinations as that for a longer one
exactly when no rule is clipped. -/
theorem serve_within_iff {entries entries' : Nat} (hle : entries ≤ entries') :
    (∀ c, c ∈ serve policy.limits.maxInterventionsPerPlan.toNat
          (grantedWithin request policy context prior resources planning active entries')
          policy.interventions [] ↔
        c ∈ serve policy.limits.maxInterventionsPerPlan.toNat
          (grantedWithin request policy context prior resources planning active entries)
          policy.interventions []) ↔
      Unclipped request policy context prior resources planning active entries entries' := by
  have hsubset : ∀ target, target ∈ resources.take entries → target ∈ resources.take entries' :=
    fun target h => (List.take_subset_take_left resources hle) h
  have hkept : ∀ rule, grantedWithin request policy context prior resources planning active entries
      rule = (grantedWithin request policy context prior resources planning active entries'
        rule).filter fun c => decide (c.2.1 ∈ resources.take entries) := by
    intro rule
    unfold grantedWithin
    rw [List.filter_map, List.filter_filter]
    congr 1
    apply List.filter_congr
    intro target _
    rw [Bool.eq_iff_iff]
    simp only [Function.comp_apply, combination, Bool.and_eq_true, decide_eq_true_eq]
    exact ⟨fun h => ⟨decide_eq_true h, hsubset target h⟩, fun h => of_decide_eq_true h.1⟩
  rw [serve_same_iff (fun c hc => absurd hc List.not_mem_nil) hkept]
  unfold Unclipped
  rw [Nat.min_eq_left hle, Nat.max_eq_right hle]
  refine forall_congr' fun before => forall_congr' fun rule => forall_congr' fun after =>
    imp_congr_right fun _ => imp_congr_right fun _ => ?_
  unfold grantedWithin
  simp only [List.mem_map, List.mem_filter, decide_eq_true_eq]
  constructor
  · intro h target htarget hnamed
    exact h (combination rule target) ⟨target, ⟨htarget, hnamed⟩, rfl⟩
  · rintro h c ⟨target, ⟨htarget, hnamed⟩, rfl⟩
    exact h target htarget hnamed

theorem Unclipped.comm (entries entries' : Nat) :
    Unclipped request policy context prior resources planning active entries entries' ↔
      Unclipped request policy context prior resources planning active entries' entries := by
  unfold Unclipped
  rw [Nat.min_comm, Nat.max_comm]

/-- The bounds a policy has. -/
def reportBounds (policy : CongestionPolicy) : ReportBounds :=
  ⟨policy.limits.maxExplanationEntries, policy.limits.maxConflictReports,
    policy.limits.maxStaleReports⟩

theorem evaluationId_valid (request : EvaluationRequest) (policy : CongestionPolicy)
    (context : EvaluationContext) (prior : DomainState) (state : CongestionState) :
    (evaluationId request policy context prior state).valid = true :=
  decide_eq_true (Hasher.finish_ne_zero _)

/-- The evaluation and the plan under one choice of bounds. -/
theorem plan_reporting (haccept : Accepted (policy.reporting bounds fingerprint))
    (hfingerprint : fingerprint.value ≠ 0) (hdomain : request.domain.valid = true)
    (hnow : request.now ≠ kNoTick)
    (hsamples : ¬request.evidence.samples.length > context.maxSamplesPerBatch)
    (hscope : scope request policy context.topology = .ok resources) (prior : DomainState)
    (planning : PlanningContext) (active : List InterventionIntent) :
    ∃ outcome plan,
      evaluate request prior { context with policy := some (policy.reporting bounds fingerprint) } =
        .ok outcome ∧
      InterventionPlanner.plan outcome
        { planning with
          policy := some (policy.reporting bounds fingerprint), topology := context.topology }
        active = .ok plan ∧
      outcome.updated =
        { (verdictOn request policy context prior
            (aggregate (classifyScope request policy context resources).classified)).1 with
          policyFingerprint := fingerprint } ∧
      plan.authorized.map combinationOf =
        serve policy.limits.maxInterventionsPerPlan.toNat
          (grantedWithin request policy context prior resources planning active
            bounds.entries.toNat) policy.interventions [] := by
  obtain ⟨a, hassess, hevaluate, haggregate, hevidence⟩ :=
    evaluate_reporting haccept hdomain hnow hsamples hscope prior
  have hscoped : (classifyScope request policy context resources).evidence.tallied =
      (admitSamples request policy context resources).evidence.tallied := classifyScope_tallied
  have hsame : SameCommit fingerprint
      (conclude request policy context prior (classifyScope request policy context resources))
      (conclude request (policy.reporting bounds fingerprint) context prior a) :=
    conclude_reporting haggregate (hevidence.trans hscoped.symm)
  have hgranted : granted (policy.reporting bounds fingerprint)
      { planning with
        policy := some (policy.reporting bounds fingerprint), topology := context.topology }
      active (conclude request (policy.reporting bounds fingerprint) context prior a) =
      grantedWithin request policy context prior resources planning active bounds.entries.toNat :=
    funext (granted_reporting hassess hscope (standing_reporting haggregate hevidence))
  obtain ⟨plan, hplan⟩ : ∃ plan, InterventionPlanner.plan
      (conclude request (policy.reporting bounds fingerprint) context prior a)
      { planning with
        policy := some (policy.reporting bounds fingerprint), topology := context.topology }
      active = .ok plan := ⟨_, rfl⟩
  refine ⟨_, plan, hevaluate, hplan, hsame.updated, ?_⟩
  rw [plan_combinations (evaluationId_valid _ _ _ _ _) hfingerprint rfl hplan, hgranted]
  rfl

/-- The bounds on explanations never decide what an evaluation commits; they decide what a plan
authorizes exactly when a rule that is reached has a target only the longer list of resources
names. -/
theorem explanation_bounds_iff {requested accepted accepted' : CongestionPolicy}
    (haccepted : validatePolicy requested = .ok accepted)
    (haccepted' : validatePolicy (requested.reporting bounds requested.fingerprint) =
      .ok accepted')
    (hscope : scope request accepted context.topology = .ok resources)
    {outcome : EvaluationOutcome}
    (h : evaluate request prior { context with policy := some accepted } = .ok outcome)
    (planning : PlanningContext) (active : List InterventionIntent) :
    ∃ outcome' plan plan',
      evaluate request prior { context with policy := some accepted' } = .ok outcome' ∧
      InterventionPlanner.plan outcome
        { planning with policy := some accepted, topology := context.topology } active =
          .ok plan ∧
      InterventionPlanner.plan outcome'
        { planning with policy := some accepted', topology := context.topology } active =
          .ok plan' ∧
      ((outcome'.updated =
            { outcome.updated with policyFingerprint := accepted'.fingerprint } ∧
          ∀ c, c ∈ plan'.authorized.map combinationOf ↔ c ∈ plan.authorized.map combinationOf) ↔
        Unclipped request accepted context prior resources planning active
          accepted.limits.maxExplanationEntries.toNat bounds.entries.toNat) := by
  obtain ⟨hstamped, haccept⟩ := validatePolicy_accepted haccepted
  obtain ⟨hstamped', haccept'⟩ := validatePolicy_accepted haccepted'
  have hreporting : accepted' = accepted.reporting bounds accepted'.fingerprint := by
    rw [hstamped', hstamped]
    rfl
  have hown : Accepted (accepted.reporting (reportBounds accepted) accepted.fingerprint) := haccept
  have hfingerprint : accepted.fingerprint.value ≠ 0 := by
    rw [hstamped]
    exact Hasher.finish_ne_zero _
  have hfingerprint' : accepted'.fingerprint.value ≠ 0 := by
    rw [hstamped']
    exact Hasher.finish_ne_zero _
  have hsamples : ¬request.evidence.samples.length > context.maxSamplesPerBatch := by
    unfold evaluate at h
    simp only [bind_ok, refuseIf_ok, exists_const] at h
    exact h.2.2.1
  obtain ⟨_, _, _, _, hdomain, hnow, _, _, _⟩ := evaluate_ok h
  rw [hreporting] at haccept'
  obtain ⟨outcome₁, plan, hevaluate, hplan, hupdated, hcombinations⟩ := plan_reporting
    hown hfingerprint hdomain hnow hsamples hscope prior planning active
  obtain ⟨outcome', plan', hevaluate', hplan', hupdated', hcombinations'⟩ := plan_reporting
    haccept' hfingerprint' hdomain hnow hsamples hscope prior planning active
  rw [← hreporting] at hevaluate' hplan'
  obtain rfl : outcome₁ = outcome := Except.ok.inj (hevaluate.symm.trans h)
  refine ⟨outcome', plan, plan', hevaluate', hplan, hplan', ?_⟩
  rw [hcombinations, hcombinations', and_iff_right]
  · rcases Nat.le_total accepted.limits.maxExplanationEntries.toNat bounds.entries.toNat with
      hle | hle
    · exact serve_within_iff hle
    · rw [Unclipped.comm, ← serve_within_iff hle]
      exact forall_congr' fun c => Iff.comm
  · rw [hupdated, hupdated']

/-- Both resources of the domain report the same utilization. -/
def busyRequest : EvaluationRequest :=
  reordered (pairRequest 900000) ([⟨1⟩, ⟨2⟩].map fun resource => {
    resource, publisher := ⟨1⟩, publisherBoot := ⟨1⟩, epoch := ⟨1⟩, generation := ⟨1⟩
    sequence := resource.value, observedTick := 10
    metrics := (∅ : MetricSet).insert .utilizationPpm 900000 })

def fullAuthority : PlanningContext where
  now := 10
  epoch := ⟨1⟩
  authority := { epoch := ⟨1⟩, generation := ⟨1⟩, granted := .all }

/-- The default policy with room for so many entries in an explanation. -/
def listing (entries : UInt64) : CongestionPolicy :=
  let policy := makeDefaultPolicy.reporting ⟨entries, 32, 64⟩ makeDefaultPolicy.fingerprint
  policy.reporting ⟨entries, 32, 64⟩ (fingerprintPolicy policy)

theorem explanation_bounds_iff_listed : ∃ outcome outcome' plan plan',
    evaluate busyRequest {} { pairContext with policy := some makeDefaultPolicy } = .ok outcome ∧
    evaluate busyRequest {} { pairContext with policy := some (listing 2) } = .ok outcome' ∧
    InterventionPlanner.plan outcome
      { fullAuthority with policy := some makeDefaultPolicy, topology := pairContext.topology } [] =
        .ok plan ∧
    InterventionPlanner.plan outcome'
      { fullAuthority with policy := some (listing 2), topology := pairContext.topology } [] =
        .ok plan' ∧
    ∀ c, c ∈ plan'.authorized.map combinationOf ↔ c ∈ plan.authorized.map combinationOf := by
  have haccepted : validatePolicy (makeDefaultPolicy.reporting ⟨2, 32, 64⟩
      makeDefaultPolicy.fingerprint) = .ok (listing 2) := by decide +kernel
  have hscope : scope busyRequest makeDefaultPolicy pairContext.topology = .ok [⟨1⟩, ⟨2⟩] := by
    decide +kernel
  obtain ⟨outcome, h⟩ : ∃ outcome, evaluate busyRequest {}
      { pairContext with policy := some makeDefaultPolicy } = .ok outcome :=
    Result.exists_of_isOk (by decide +kernel)
  obtain ⟨outcome', plan, plan', hevaluate, hplan, hplan', hiff⟩ := explanation_bounds_iff
    defaultPolicy_accepted haccepted hscope h fullAuthority []
  refine ⟨outcome, outcome', plan, plan', h, hevaluate, hplan, hplan', (hiff.mpr ?_).2⟩
  intro before rule after _ _ target _ hnamed
  exact hnamed

/-- With room for one entry the second resource is authorized nothing, though it reported. -/
theorem unlisted_target_refused :
    validatePolicy makeDefaultPolicy = .ok makeDefaultPolicy ∧
    validatePolicy (makeDefaultPolicy.reporting ⟨1, 32, 64⟩ makeDefaultPolicy.fingerprint) =
      .ok (listing 1) ∧
    ((evaluate busyRequest {} { pairContext with policy := some makeDefaultPolicy }).toOption.bind
      fun outcome => (InterventionPlanner.plan outcome { fullAuthority with
        policy := some makeDefaultPolicy, topology := pairContext.topology } []).toOption).map
      (·.authorized.map combinationOf) =
        some [(.makeRecoveryPlanEligible, ⟨1⟩, 1), (.makeRecoveryPlanEligible, ⟨2⟩, 1)] ∧
    ((evaluate busyRequest {} { pairContext with policy := some (listing 1) }).toOption.bind
      fun outcome => (InterventionPlanner.plan outcome { fullAuthority with
        policy := some (listing 1), topology := pairContext.topology } []).toOption).map
      (·.authorized.map combinationOf) = some [(.makeRecoveryPlanEligible, ⟨1⟩, 1)] := by
  refine ⟨defaultPolicy_accepted, ?_, ?_, ?_⟩
  · decide +kernel
  · decide +kernel
  · decide +kernel

end CongestionEvaluator

end CongestionFabric
