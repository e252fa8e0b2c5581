import CongestionFabric.Eval.PlanBudget
import CongestionFabric.Eval.ReportBounds
import CongestionFabric.Eval.Warranted

namespace CongestionFabric

open HysteresisEngine

/-- Two intents of one kind for one target. -/
def InterventionIntent.Equivalent (first second : InterventionIntent) : Prop :=
  first.kind = second.kind ∧ first.domain = second.domain ∧ first.resource = second.resource

instance (first second : InterventionIntent) : Decidable (first.Equivalent second) :=
  inferInstanceAs (Decidable (_ ∧ _ ∧ _))

namespace InterventionRule

variable {rule other : InterventionRule} {now later : Tick} {first second : InterventionIntent}

/-- An intent of the rule's kind is unexpired and within the interval of the rule; without an
interval it is so until it expires. -/
structure Outstanding (rule : InterventionRule) (now : Tick) (intent : InterventionIntent) :
    Prop where
  kind : intent.kind = rule.kind
  live : intent.expiredAt now = false
  within : rule.minRepeatIntervalTicks = 0 ∨
    elapsedSince now intent.issuedTick < rule.minRepeatIntervalTicks

/-- The second intent was issued no sooner after the first than the rule allows. -/
structure Spaced (rule : InterventionRule) (first second : InterventionIntent) : Prop where
  apart : first.issuedTick.toNat + rule.minRepeatIntervalTicks.toNat ≤ second.issuedTick.toNat
  expired : rule.minRepeatIntervalTicks = 0 → first.expiredAt second.issuedTick = true

instance (rule : InterventionRule) (first second : InterventionIntent) :
    Decidable (rule.Spaced first second) :=
  decidable_of_iff (_ ∧ _) ⟨fun ⟨happart, hexpired⟩ => Spaced.mk happart hexpired,
    fun h => ⟨h.apart, h.expired⟩⟩

/-- Two intents of the rule's kind for one target keep its interval. -/
def KeepsInterval (rule : InterventionRule) (first second : InterventionIntent) : Prop :=
  first.kind = rule.kind → first.Equivalent second → rule.Spaced first second

instance (rule : InterventionRule) (first second : InterventionIntent) :
    Decidable (rule.KeepsInterval first second) := inferInstanceAs (Decidable (_ → _ → _))

/-- A rule waits no longer than another; without an interval a rule waits longest. -/
def NoLonger (rule other : InterventionRule) : Prop :=
  other.minRepeatIntervalTicks = 0 ∨
    rule.minRepeatIntervalTicks ≠ 0 ∧ rule.minRepeatIntervalTicks ≤ other.minRepeatIntervalTicks

theorem NoLonger.refl (rule : InterventionRule) : rule.NoLonger rule := by
  by_cases hzero : rule.minRepeatIntervalTicks = 0
  · exact .inl hzero
  · exact .inr ⟨hzero, UInt64.le_refl _⟩

theorem NoLonger.outstanding (h : rule.NoLonger other) (hkind : other.kind = rule.kind)
    (hout : rule.Outstanding now first) : other.Outstanding now first := by
  refine ⟨hout.kind.trans hkind.symm, hout.live, ?_⟩
  rcases h with hzero | ⟨hinterval, hle⟩
  · exact .inl hzero
  · have hwithin := hout.within.resolve_left hinterval
    exact .inr (UInt64.lt_of_lt_of_le hwithin hle)

theorem elapsed_toNat (h : first.issuedTick ≤ now) :
    (elapsedSince now first.issuedTick).toNat = now.toNat - first.issuedTick.toNat := by
  unfold elapsedSince
  rw [if_pos h]
  exact UInt64.toNat_sub_of_le _ _ h

/-- What is outstanding was so at any tick since it was issued. -/
theorem Outstanding.earlier (h : rule.Outstanding later first) (hissued : first.issuedTick ≤ now)
    (hle : now ≤ later) : rule.Outstanding now first := by
  have hnow := UInt64.le_iff_toNat_le.mp hle
  refine ⟨h.kind, ?_, ?_⟩
  · have hlive := h.live
    unfold InterventionIntent.expiredAt at hlive ⊢
    rw [Bool.and_eq_false_iff] at hlive ⊢
    refine hlive.imp id fun hbefore => ?_
    have hbefore := UInt64.le_iff_toNat_le.mp (UInt64.not_lt.mp (of_decide_eq_false hbefore))
    refine decide_eq_false (UInt64.not_lt.mpr (UInt64.le_iff_toNat_le.mpr ?_))
    omega
  · refine h.within.imp id fun hwithin => ?_
    have hwithin := UInt64.lt_iff_toNat_lt.mp hwithin
    rw [elapsed_toNat (UInt64.le_trans hissued hle)] at hwithin
    refine UInt64.lt_iff_toNat_lt.mpr ?_
    rw [elapsed_toNat hissued]
    omega

/-- An intent that does not expire and is not outstanding any more is spaced from what is issued
now. -/
theorem spaced_of_not_outstanding (h : ¬rule.Outstanding second.issuedTick first)
    (hkind : first.kind = rule.kind) (hissued : first.issuedTick ≤ second.issuedTick)
    (hunexpiring : first.expiresTick = 0) : rule.Spaced first second := by
  have hlive : first.expiredAt second.issuedTick = false := by
    unfold InterventionIntent.expiredAt
    rw [hunexpiring]
    rfl
  have hinterval : rule.minRepeatIntervalTicks ≠ 0 := fun hzero => h ⟨hkind, hlive, .inl hzero⟩
  refine ⟨?_, fun hzero => absurd hzero hinterval⟩
  have hle := UInt64.le_iff_toNat_le.mp
    (UInt64.not_lt.mp fun hwithin => h ⟨hkind, hlive, .inr hwithin⟩)
  rw [elapsed_toNat hissued] at hle
  have hissued := UInt64.le_iff_toNat_le.mp hissued
  omega

end InterventionRule

/-! ### No target comes twice -/

theorem TopologyIndex.build_nodup {topology : TopologySnapshot} {index : TopologyIndex}
    (h : build topology = .ok index) (domain : DomainId) :
    (index.domainResources domain).Nodup := by
  obtain ⟨_, _, hindex⟩ := bind_ok.mp h
  rw [← Except.ok.inj hindex]
  unfold domainResources SortedMap.findD
  dsimp only
  rw [SortedMap.find?_mapVal]
  cases (topology.resources.foldl
      (fun m record => SortedMap.push m record.domain record.id) ∅).find? domain with
  | none => exact List.nodup_nil
  | some members => exact SortedMap.sortedSet_nodup members

namespace CongestionEvaluator

variable {request : EvaluationRequest} {context : EvaluationContext} {prior : DomainState}
  {outcome : EvaluationOutcome}

/-- The reports of an evaluation are about different resources. -/
theorem evaluate_reports_nodup
    (htopology : ∀ index, context.topology = some index → ∀ domain,
      (index.domainResources domain).Nodup)
    (h : evaluate request prior context = .ok outcome) :
    (outcome.evidence.resources.map (·.resource)).Nodup := by
  obtain ⟨policy, resources, assessed, _, _, _, hscope, hassess, rfl⟩ := evaluate_ok h
  have hresources : assessed.classified.map (·.assessment.resource) = resources := by
    have hreports := congrArg (List.map Prod.fst) (assess_reports hassess)
    rw [List.map_map, List.map_map] at hreports
    exact hreports.trans (List.map_id resources)
  have hlisted : (conclude request policy context prior assessed).evidence.resources =
      (assessed.classified.map (·.assessment)).take policy.limits.maxExplanationEntries.toNat := by
    change (reportResources policy assessed).resources = _
    unfold reportResources
    dsimp only
    split <;> rfl
  rw [hlisted, List.map_take, List.map_map]
  change (List.take _ (assessed.classified.map (·.assessment.resource))).Nodup
  rw [hresources]
  exact (scope_nodup htopology hscope).sublist (List.take_sublist _ _)

end CongestionEvaluator

namespace InterventionPlanner

variable (policy : CongestionPolicy) (context : PlanningContext)
  (active : List InterventionIntent) (outcome : EvaluationOutcome)

/-- The rules a plan looks at before its bound. -/
def reachedRules : List InterventionRule :=
  served policy.limits.maxInterventionsPerPlan.toNat (asked policy context active outcome) 0
    policy.interventions

/-- The rules of a kind that a plan looks at ask for different targets, and those that ask for any
wait at least as long as this one. -/
structure Orderly (rule : InterventionRule) : Prop where
  alone : ((reachedRules policy context active outcome).filter (·.kind = rule.kind)).Pairwise
    fun r r' => ∀ target ∈ asked policy context active outcome r,
      target ∉ asked policy context active outcome r'
  longest : ∀ r ∈ reachedRules policy context active outcome, r.kind = rule.kind →
    asked policy context active outcome r ≠ [] → rule.NoLonger r

variable {policy context active outcome} {rule r : InterventionRule} {target : ResourceId}
  {plan : InterventionPlan}

/-- A policy with one rule for each kind plans in order. -/
theorem Orderly.of_kinds (h : (policy.interventions.map (·.kind)).Nodup)
    (hrule : rule ∈ policy.interventions) : Orderly policy context active outcome rule := by
  have hreached : (reachedRules policy context active outcome).Sublist policy.interventions :=
    served_sublist _ _ _ _
  constructor
  · have hkinds := List.pairwise_map.mp (h.sublist (hreached.map (·.kind)))
    rw [List.pairwise_filter]
    refine hkinds.imp fun {r r'} hne hr hr' => ?_
    exact absurd ((of_decide_eq_true hr).trans (of_decide_eq_true hr').symm) hne
  · intro r hr hkind _
    obtain rfl := List.inj_on_of_nodup_map h (hreached.subset hr) hrule hkind
    exact .refl r

/-- The targets of a rule differ where the members of a domain and the reports do. -/
theorem targetsOf_nodup
    (htopology : ∀ index, context.topology = some index → ∀ domain,
      (index.domainResources domain).Nodup)
    (hreports : (outcome.evidence.resources.map (·.resource)).Nodup) :
    (targetsOf context outcome rule).Nodup := by
  unfold targetsOf
  split
  next index hindex => exact (htopology index hindex outcome.domain).filter _
  next => exact hreports

theorem plan_eq (hp : context.policy = some policy)
    (h : InterventionPlanner.plan outcome context active = .ok plan) :
    plan.authorized = (reachedRules policy context active outcome).flatMap fun rule =>
      (asked policy context active outcome rule).map (drafted policy context outcome rule) := by
  rw [plan_served hp h, serve_eq, served_map]
  rfl

theorem asked_authorizable (h : target ∈ asked policy context active outcome r) :
    target ∈ targetsOf context outcome r ∧
      authorizable policy context active outcome r target = true := by
  unfold asked at h
  split at h
  · cases h
  · exact List.mem_filter.mp h

/-- A rule does not ask for a target that has an equivalent intent outstanding. -/
theorem asked_idle (h : target ∈ asked policy context active outcome r) {found : InterventionIntent}
    (hfound : found ∈ active) (hdomain : found.domain = outcome.domain)
    (hresource : found.resource = target) : ¬r.Outstanding context.now found := by
  intro hout
  obtain ⟨_, _, _, _, _, hidle⟩ := authorizable_iff.mp (asked_authorizable h).2
  obtain ⟨hinterval, hle⟩ :=
    alreadyActive_free hidle hfound hout.kind hdomain hresource hout.live
  rcases hout.within with hzero | hwithin
  · exact hinterval hzero
  · exact absurd hwithin (UInt64.not_lt.mpr hle)

theorem asked_nodup (h : (targetsOf context outcome r).Nodup) :
    (asked policy context active outcome r).Nodup := by
  unfold asked
  split
  · exact List.nodup_nil
  · exact h.filter _

/-- The intents of a plan are issued now, do not expire and are bound to the authority they were
planned under. -/
theorem plan_issued (hp : context.policy = some policy)
    (h : InterventionPlanner.plan outcome context active = .ok plan) {intent : InterventionIntent}
    (hintent : intent ∈ plan.authorized) :
    intent.issuedTick = context.now ∧ intent.expiresTick = 0 ∧ intent.domain = outcome.domain ∧
      intent.epoch = context.epoch ∧ intent.authorityGeneration = context.authority.generation ∧
      intent.policy = policy.id ∧ intent.policyFingerprint = policy.fingerprint := by
  rw [plan_eq hp h] at hintent
  obtain ⟨rule, _, hintent⟩ := List.mem_flatMap.mp hintent
  obtain ⟨target, _, rfl⟩ := List.mem_map.mp hintent
  exact ⟨rfl, rfl, rfl, rfl, rfl, rfl, rfl⟩

/-- An orderly plan authorizes nothing that is outstanding for the rule. -/
theorem Orderly.idle (horderly : Orderly policy context active outcome rule)
    (hp : context.policy = some policy)
    (h : InterventionPlanner.plan outcome context active = .ok plan)
    {found intent : InterventionIntent} (hfound : found ∈ active) (hintent : intent ∈ plan.authorized)
    (hequivalent : found.Equivalent intent) : ¬rule.Outstanding context.now found := by
  rw [plan_eq hp h] at hintent
  obtain ⟨r, hr, hintent⟩ := List.mem_flatMap.mp hintent
  obtain ⟨target, htarget, rfl⟩ := List.mem_map.mp hintent
  obtain ⟨hkind, hdomain, hresource⟩ := hequivalent
  intro hout
  have hkinds : r.kind = rule.kind := hkind.symm.trans hout.kind
  have hlongest := horderly.longest r hr hkinds (List.ne_nil_of_mem htarget)
  exact asked_idle htarget hfound hdomain hresource (hlongest.outstanding hkinds hout)

/-- An orderly plan authorizes no two equivalent intents of the kind. -/
theorem Orderly.distinct (horderly : Orderly policy context active outcome rule)
    (hp : context.policy = some policy)
    (h : InterventionPlanner.plan outcome context active = .ok plan)
    (hnodup : ∀ r, (targetsOf context outcome r).Nodup) :
    plan.authorized.Pairwise fun first second =>
      first.kind = rule.kind → ¬first.Equivalent second := by
  rw [plan_eq hp h, List.pairwise_flatMap]
  constructor
  · intro r _
    rw [List.pairwise_map]
    refine (asked_nodup (hnodup r)).imp fun {target target'} hne _ hequivalent => ?_
    exact hne hequivalent.2.2
  · refine (List.pairwise_filter.mp horderly.alone).imp fun {r r'} hdisjoint => ?_
    intro first hfirst second hsecond hkind hequivalent
    obtain ⟨target, htarget, rfl⟩ := List.mem_map.mp hfirst
    obtain ⟨target', htarget', rfl⟩ := List.mem_map.mp hsecond
    have hr : r.kind = rule.kind := hkind
    have hr' : r'.kind = rule.kind := hequivalent.1.symm.trans hkind
    have hsame : target = target' := hequivalent.2.2
    exact hdisjoint (decide_eq_true hr) (decide_eq_true hr') target htarget (hsame ▸ htarget')

end InterventionPlanner

end CongestionFabric
