import CongestionFabric.Eval.BoundReadings
import CongestionFabric.Eval.MissingEvidence
import CongestionFabric.Fabric.Planned

namespace CongestionFabric

namespace InterventionPlanner

variable {policy : CongestionPolicy} {context : PlanningContext}
  {active : List InterventionIntent} {outcome : EvaluationOutcome} {rule : InterventionRule}
  {target : ResourceId} {intent : InterventionIntent}

/-- The gates of a rule are open for a target. -/
structure Admitted (policy : CongestionPolicy) (context : PlanningContext)
    (active : List InterventionIntent) (outcome : EvaluationOutcome) (rule : InterventionRule)
    (target : ResourceId) : Prop where
  authoritative : rule.requireAuthoritativeState = true → outcome.authoritative = true
  basis : isAuthoritative outcome.state = true
  severity : ∃ severity, severityOf outcome.state = some severity ∧ rule.atLeast ≤ severity
  fresh : rule.requireFreshEvidence = true →
    evidenceWithinFreshness outcome.evidence policy context.now = true
  covered : context.topology.isSome = true → targetCovered outcome target = true
  capability : (checkAuthority context.authority context.now
    (requiredAuthority rule.kind)).allowed = true
  idle : alreadyActive context active outcome rule target = false

theorem Passed.admitted (h : Passed policy context active outcome rule target intent) :
    Admitted policy context active outcome rule target :=
  ⟨h.authoritative, h.basis, h.severity, h.fresh, h.covered, h.capability, h.idle⟩

/-- A rule of the policy authorizes an intent. -/
structure Authorizes (policy : CongestionPolicy) (context : PlanningContext)
    (active : List InterventionIntent) (outcome : EvaluationOutcome) (rule : InterventionRule)
    (intent : InterventionIntent) : Prop where
  mem : rule ∈ policy.interventions
  domain : rule.targetDomain.valid = true → rule.targetDomain = outcome.domain
  target : intent.resource ∈ targetsOf context outcome rule
  judged : judge policy context active outcome rule intent.resource = .authorize intent

theorem plan_authorizes {plan : InterventionPlan} (hpolicy : context.policy = some policy)
    (h : InterventionPlanner.plan outcome context active = .ok plan)
    (hintent : intent ∈ plan.authorized) :
    ∃ rule, Authorizes policy context active outcome rule intent := by
  obtain ⟨rule, hrule, hdomain, target, htarget, hjudge⟩ := plan_authorized hpolicy h hintent
  obtain rfl := (judge_authorize hjudge).resource
  exact ⟨rule, hrule, hdomain, htarget, hjudge⟩

end InterventionPlanner

/-- Evidence the gate lets through has no observation further ahead than the skew. -/
theorem evidenceWithinFreshness_ahead {vector : EvidenceVector} {policy : CongestionPolicy}
    {now observed : Tick} (h : evidenceWithinFreshness vector policy now = true)
    (hle : observed ≤ vector.newestObservedTick) :
    observed.toNat ≤ now.toNat + policy.freshness.maxFutureSkewTicks.toNat := by
  have hle := UInt64.le_iff_toNat_le.mp hle
  unfold evidenceWithinFreshness tickAge at h
  split at h
  next => cases h
  next =>
    split at h
    next => cases h
    next =>
      by_cases hahead : vector.newestObservedTick > now
      · rw [if_pos hahead] at h
        have hskew := UInt64.le_iff_toNat_le.mp (of_decide_eq_true h)
        rw [UInt64.toNat_sub_of_le _ _ (UInt64.le_of_lt hahead)] at hskew
        omega
      · have hbehind := UInt64.le_iff_toNat_le.mp (UInt64.not_lt.mp hahead)
        omega

namespace Fabric

open CongestionEvaluator

/-- The readings a basis binds for a resource. -/
def Basis.bound (b : Basis) (resource : ResourceId) : List (ThresholdRule × RuleOutcome) :=
  let request := b.fabric.evaluationRequest b.domain b.batch
  match scope request b.fabric.policy b.fabric.topology with
  | .error _ => []
  | .ok resources =>
    boundReadings request b.fabric.policy b.fabric.evaluationContext resources resource

/-- The last tick at which no reading bound for a resource is older than its metric allows. -/
def Basis.deadline (b : Basis) (policy : CongestionPolicy) (resource : ResourceId) : Option Nat :=
  ((b.bound resource).map fun bound =>
    bound.2.reading.observedTick.toNat + (policy.maxAgeFor bound.1.metric).toNat).min?

theorem Basis.before_deadline {b : Basis} {policy : CongestionPolicy} {resource : ResourceId}
    {now : Nat} : (∀ deadline ∈ b.deadline policy resource, now ≤ deadline) ↔
      ∀ bound ∈ b.bound resource,
        now ≤ bound.2.reading.observedTick.toNat + (policy.maxAgeFor bound.1.metric).toNat := by
  unfold Basis.deadline
  rw [← List.forall_mem_map (P := fun limit => now ≤ limit)]
  cases hmin : ((b.bound resource).map fun bound =>
      bound.2.reading.observedTick.toNat + (policy.maxAgeFor bound.1.metric).toNat).min? with
  | none =>
    rw [List.min?_eq_none_iff.mp hmin]
    simp
  | some deadline =>
    rw [← List.le_min?_iff hmin]
    simp

/-- The bound readings of a basis are no newer than the newest observation its outcome reports and
were young enough when it was committed, and all bindings of the outcome are among them. -/
theorem Basis.Committed.bound {b : Basis} (h : b.Committed) :
    (∀ resource, ∀ bound ∈ b.bound resource,
      bound.2.reading.observedTick ≤ b.outcome.evidence.newestObservedTick ∧
      b.fabric.clock.toNat ≤ bound.2.reading.observedTick.toNat +
        (b.fabric.policy.maxAgeFor bound.1.metric).toNat) ∧
    ∀ binding ∈ b.outcome.evidence.bindings,
      ∃ bound ∈ b.bound binding.resource, Lists binding bound := by
  obtain ⟨resources, hscope, hnewest, hbindings⟩ := evaluate_bound rfl h
  have hbound : ∀ resource, b.bound resource =
      boundReadings (b.fabric.evaluationRequest b.domain b.batch) b.fabric.policy
        b.fabric.evaluationContext resources resource := by
    intro resource
    have hscope : scope (b.fabric.evaluationRequest b.domain b.batch) b.fabric.policy
        b.fabric.topology = .ok resources := hscope
    unfold Basis.bound
    dsimp only
    rw [hscope]
  simp only [hbound]
  exact ⟨hnewest, hbindings⟩

end Fabric

namespace World

open Fabric InterventionPlanner CongestionEvaluator

variable {w : World} {a : Action}

/-- A planning action comes no later than the deadlines of the targets for which a rule that
requires fresh evidence finds its gates open. -/
def InTime (w : World) (a : Action) : Prop :=
  ∀ b, w.basisOf a = some b → ∀ rule ∈ w.fabric.policy.interventions,
    rule.requireFreshEvidence = true →
    (rule.targetDomain.valid = true → rule.targetDomain = b.outcome.domain) →
    ∀ target ∈ targetsOf w.fabric.planningContext b.outcome rule,
      Admitted w.fabric.policy w.fabric.planningContext (w.fabric.activeIntents b.domain)
        b.outcome rule target →
      ∀ deadline ∈ b.deadline w.fabric.policy target, w.fabric.clock.toNat ≤ deadline

/-- Every reading bound for a resource, and every binding listed for it, is fresh now. -/
structure FreshFor (w : World) (b : Basis) (resource : ResourceId) : Prop where
  bound : ∀ bound ∈ b.bound resource,
    (ageOf w.fabric.policy w.fabric.clock bound.2.reading.observedTick bound.1.metric).fresh = true
  listed : ∀ binding ∈ b.outcome.evidence.bindings, binding.resource = resource →
    (ageOf w.fabric.policy w.fabric.clock binding.observedTick binding.metric).fresh = true

theorem freshFor_of_inTime {b : Basis} (hb : b.Committed) (hbasis : w.basisOf a = some b)
    (hintime : w.InTime a) {rule : InterventionRule} {intent : InterventionIntent}
    (hauthorizes : Authorizes w.fabric.policy w.fabric.planningContext
      (w.fabric.activeIntents b.domain) b.outcome rule intent)
    (hrule : rule.requireFreshEvidence = true) : w.FreshFor b intent.resource := by
  have hpassed := judge_authorize hauthorizes.judged
  have hdeadline := hintime b hbasis rule hauthorizes.mem hrule hauthorizes.domain _
    hauthorizes.target hpassed.admitted
  rw [Basis.before_deadline] at hdeadline
  obtain ⟨hnewest, hlists⟩ := hb.bound
  have hfresh : ∀ bound ∈ b.bound intent.resource, (ageOf w.fabric.policy w.fabric.clock
      bound.2.reading.observedTick bound.1.metric).fresh = true := by
    intro bound hbound
    rw [ageOf_fresh_iff]
    exact ⟨hdeadline bound hbound,
      evidenceWithinFreshness_ahead (hpassed.fresh hrule) (hnewest _ bound hbound).1⟩
  refine ⟨hfresh, fun binding hbinding hresource => ?_⟩
  obtain ⟨bound, hbound, hmetric, htick⟩ := hlists binding hbinding
  rw [hresource] at hbound
  rw [hmetric, htick]
  exact hfresh bound hbound

/-- A plan at the tick of its evaluation and under the policy of its evaluation comes in time. -/
theorem inTime_of_undelayed (h : Based w) (hundelayed : ∀ b, w.basisOf a = some b →
    b.fabric.clock = w.fabric.clock ∧ b.fabric.policy = w.fabric.policy) : w.InTime a := by
  intro b hbasis rule _ _ _ target _ _
  obtain ⟨hclock, hpolicy⟩ := hundelayed b hbasis
  rw [Basis.before_deadline, ← hclock, ← hpolicy]
  exact fun bound hbound => ((h.basis hbasis).bound.1 target bound hbound).2

/-- In a run whose plans all come in time, what an authorized intent relies on is fresh when it is
planned. -/
theorem plan_relies_on_fresh {options : FabricOptions} {clock : Tick} {disk : Disk} {f : Fabric}
    {es : List (Event World Input)} (hopen : openOn options clock disk = .ok f)
    (run : Run Step ⟨f, [], ∅⟩ es w)
    (hintime : ∀ e ∈ es, ∀ a, e.input = .act a → e.before.InTime a) :
    ∀ e ∈ es, ∀ a, e.input = .act a → ∀ plan, e.before.planned a = some plan →
      ∃ b, e.before.basisOf a = some b ∧ b.Committed ∧ ∀ intent ∈ plan.authorized,
        (∃ rule, Authorizes e.before.fabric.policy e.before.fabric.planningContext
          (e.before.fabric.activeIntents b.domain) b.outcome rule intent) ∧
        ∀ rule, Authorizes e.before.fabric.policy e.before.fabric.planningContext
          (e.before.fabric.activeIntents b.domain) b.outcome rule intent →
          rule.requireFreshEvidence = true → e.before.FreshFor b intent.resource := by
  intro e he a ha plan hplan
  obtain ⟨hbased, _⟩ := run_based hopen run
  obtain ⟨b, hbasis, hcommitted, hplanned⟩ := planned_basis (hbased e he) hplan
  refine ⟨b, hbasis, hcommitted, fun intent hintent => ⟨?_, fun rule hauthorizes hrule => ?_⟩⟩
  · exact plan_authorizes rfl hplanned hintent
  · exact freshFor_of_inTime hcommitted hbasis (hintime e he a ha) hauthorizes hrule

/-- The default policy, but readings no older than ten ticks. -/
def briskPolicy : CongestionPolicy :=
  let policy : CongestionPolicy := { makeDefaultPolicy with
    rules := makeDefaultPolicy.rules.map fun rule : ThresholdRule =>
      { rule with maxAgeTicks := 10 } }
  { policy with fingerprint := fingerprintPolicy policy }

/-- Both resources report now. -/
def reportNow (now : Tick) : EvaluationRequest :=
  { pairRequest 900000 with
    now
    evidence := { (pairRequest 900000).evidence with
      samples := [⟨1⟩, ⟨2⟩].map fun resource => {
        resource, publisher := ⟨1⟩, publisherBoot := ⟨1⟩, epoch := ⟨1⟩, generation := ⟨1⟩
        sequence := resource.value, observedTick := now
        metrics := (∅ : MetricSet).insert .utilizationPpm 900000 } } }

def briskWorld : World := (⟨memoryFabric, [], ∅⟩ : World).act (.setPolicy briskPolicy)

def pairedWorld : World := briskWorld.act (.setTopology pairSnapshot)

def reportedWorld : World := pairedWorld.act (.evaluateRequest (reportNow 100))

theorem reported_run : Run Step ⟨memoryFabric, [], ∅⟩
    ([⟨⟨memoryFabric, [], ∅⟩, .act (.setPolicy briskPolicy), briskWorld⟩,
      ⟨briskWorld, .act (.setTopology pairSnapshot), pairedWorld⟩] ++
      [⟨pairedWorld, .act (.evaluateRequest (reportNow 100)), reportedWorld⟩]) reportedWorld :=
  ((Run.start.next (.act _)).next (.act _)).next (.act _)

set_option maxRecDepth 100000 in
theorem plan_relies_on_fresh_reported : ∃ plan b, reportedWorld.planned (.planLast ⟨1⟩) = some plan ∧
    plan.authorized.length = 2 ∧ reportedWorld.basisOf (.planLast ⟨1⟩) = some b ∧
    ∀ intent ∈ plan.authorized, ∀ rule,
      Authorizes reportedWorld.fabric.policy reportedWorld.fabric.planningContext
        (reportedWorld.fabric.activeIntents b.domain) b.outcome rule intent →
      rule.requireFreshEvidence = true → reportedWorld.FreshFor b intent.resource := by
  have hplans : (reportedWorld.planned (.planLast ⟨1⟩)).map (·.authorized.length) = some 2 := by
    decide +kernel
  obtain ⟨plan, hplan, htwo⟩ := Option.map_eq_some_iff.mp hplans
  have hundelayed : (reportedWorld.basisOf (.planLast ⟨1⟩)).all fun b =>
      decide (b.fabric.clock = reportedWorld.fabric.clock ∧
        b.fabric.policy = reportedWorld.fabric.policy) := by
    decide +kernel
  have run := reported_run.next (.act (.planLast ⟨1⟩))
  have hbased := (run_based openOn_memory reported_run).2
  obtain ⟨b, hbasis, _, hfresh⟩ := plan_relies_on_fresh openOn_memory run
    (by
      intro e he a ha
      simp only [List.mem_append, List.mem_cons, List.not_mem_nil, or_false] at he
      rcases he with ((rfl | rfl) | rfl) | rfl
      · obtain rfl := Input.act.inj ha
        exact fun b hb => nomatch hb
      · obtain rfl := Input.act.inj ha
        exact fun b hb => nomatch hb
      · obtain rfl := Input.act.inj ha
        exact fun b hb => nomatch hb
      · obtain rfl := Input.act.inj ha
        refine inTime_of_undelayed hbased fun b hb => ?_
        rw [show reportedWorld.basisOf _ = some b from hb] at hundelayed
        exact of_decide_eq_true hundelayed)
    ⟨reportedWorld, .act (.planLast ⟨1⟩), _⟩ (List.mem_append_right _ List.mem_cons_self)
    (.planLast ⟨1⟩) rfl plan hplan
  exact ⟨plan, b, hplan, htwo, hbasis, fun intent hintent => (hfresh intent hintent).2⟩

/-- A hundred ticks later the default age still lets the evidence through. -/
def delayedWorld : World := reportedWorld.act (.readClock 200)

set_option maxRecDepth 100000 in
theorem expired_reading_relied_on : ∃ f es b plan intent rule bound,
    openOn {} 100 {} = .ok f ∧ Run Step ⟨f, [], ∅⟩ es delayedWorld ∧
    delayedWorld.planned (.planLast ⟨1⟩) = some plan ∧
    delayedWorld.basisOf (.planLast ⟨1⟩) = some b ∧ intent ∈ plan.authorized ∧
    Authorizes delayedWorld.fabric.policy delayedWorld.fabric.planningContext
      (delayedWorld.fabric.activeIntents b.domain) b.outcome rule intent ∧
    rule.requireFreshEvidence = true ∧ bound ∈ b.bound intent.resource ∧
    (ageOf delayedWorld.fabric.policy delayedWorld.fabric.clock bound.2.reading.observedTick
      bound.1.metric).fresh = false := by
  have hrelied : (delayedWorld.planned (.planLast ⟨1⟩)).any (fun plan =>
      (delayedWorld.basisOf (.planLast ⟨1⟩)).any fun b => plan.authorized.any fun intent =>
        (b.bound intent.resource).any fun bound =>
          !(ageOf delayedWorld.fabric.policy delayedWorld.fabric.clock
            bound.2.reading.observedTick bound.1.metric).fresh) = true := by
    decide +kernel
  have hrules : delayedWorld.fabric.policy.interventions.all (·.requireFreshEvidence) = true := by
    decide +kernel
  have run := reported_run.next (.act (.readClock 200))
  obtain ⟨plan, hplan, hrelied⟩ := (Option.any_eq_true _ _).mp hrelied
  obtain ⟨b, hbasis, hrelied⟩ := (Option.any_eq_true _ _).mp hrelied
  obtain ⟨intent, hintent, hrelied⟩ := List.any_eq_true.mp hrelied
  obtain ⟨bound, hbound, hstale⟩ := List.any_eq_true.mp hrelied
  obtain ⟨b', hbasis', _, hplanned⟩ := planned_basis (run_based openOn_memory run).2 hplan
  obtain rfl := Option.some.inj (hbasis.symm.trans hbasis')
  obtain ⟨rule, hauthorizes⟩ := plan_authorizes rfl hplanned hintent
  exact ⟨memoryFabric, _, b, plan, intent, rule, bound, openOn_memory, run, hplan, hbasis,
    hintent, hauthorizes, List.all_eq_true.mp hrules rule hauthorizes.mem, hbound,
    by simpa using hstale⟩

end World

end CongestionFabric
