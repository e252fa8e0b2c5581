import CongestionFabric.Fabric.Currency

namespace CongestionFabric

namespace Fabric

variable {f g : Fabric} {domain : DomainId}

/-- No rule waives the authority of a domain: each one that concerns it, and that its severity calls
for, insists on authority. -/
def Unwaived (f : Fabric) (domain : DomainId) : Prop :=
  ∀ rule ∈ f.policy.interventions,
    (rule.targetDomain.valid = true → rule.targetDomain = domain) →
    (∃ severity, severityOf (f.domainState domain).state = some severity ∧
      rule.atLeast ≤ severity) →
    rule.requireAuthoritativeState = true

/-- Nothing is outstanding for a domain without authority. -/
def Quiet (f : Fabric) : Prop :=
  ∀ domain, (f.domainState domain).authoritative = false → f.activeIntents domain = []

theorem Quiet.of_empty (h : f.intents = ∅) : f.Quiet := by
  intro domain _
  rw [activeIntents, h]
  rfl

theorem Quiet.of_same (h : f.Quiet) (hdomains : g.domains = f.domains)
    (hintents : g.intents = f.intents) : g.Quiet := by
  intro domain hauthority
  have hstate : g.domainState domain = f.domainState domain := by
    unfold domainState
    rw [hdomains]
  rw [hstate] at hauthority
  unfold activeIntents
  rw [hintents]
  exact h domain hauthority

/-- The state an outcome reports is the one it commits. -/
theorem Basis.Committed.state {b : Basis} (h : b.Committed) :
    b.outcome.state = b.outcome.updated.state := by
  obtain ⟨_, _, _, _, _, _, _, _, houtcome⟩ := CongestionEvaluator.evaluate_ok h
  rw [houtcome]
  rfl

theorem domainState_commitOutcome (f : Fabric) (domain k : DomainId)
    (outcome : EvaluationOutcome) : (f.commitOutcome domain outcome).domainState k =
      if k = domain then outcome.updated else f.domainState k := by
  unfold domainState commitOutcome SortedMap.findD
  dsimp only
  rw [SortedMap.find?_insert]
  split
  · rfl
  · rfl

theorem activeIntents_commitOutcome (f : Fabric) (domain k : DomainId)
    (outcome : EvaluationOutcome) : (f.commitOutcome domain outcome).activeIntents k =
      if k = domain ∧ outcome.authoritative = false then [] else f.activeIntents k := by
  unfold activeIntents commitOutcome SortedMap.findD
  dsimp only
  cases outcome.authoritative with
  | true =>
    rw [if_pos rfl, if_neg fun h => Bool.noConfusion h.2]
  | false =>
    rw [if_neg Bool.false_ne_true, SortedMap.find?_erase]
    by_cases hk : k = domain
    · rw [if_pos hk, if_pos ⟨hk, rfl⟩]
      rfl
    · rw [if_neg hk, if_neg fun h => hk h.1]

/-- Committing an evaluation keeps a fabric quiet: an outcome without authority takes the intents
of its domain away. -/
theorem Quiet.commitOutcome (h : f.Quiet) {b : Basis} (hcommitted : b.Committed) :
    (f.commitOutcome b.domain b.outcome).Quiet := by
  intro k hauthority
  rw [domainState_commitOutcome] at hauthority
  rw [activeIntents_commitOutcome]
  by_cases hk : k = b.domain
  · rw [if_pos hk] at hauthority
    have houtcome : b.outcome.authoritative = false := by
      by_contra hauthoritative
      have := hcommitted.authoritative (Bool.eq_true_of_not_eq_false hauthoritative)
      rw [hauthority] at this
      cases this
    rw [if_pos ⟨hk, houtcome⟩]
  · rw [if_neg fun hboth => hk hboth.1]
    rw [if_neg hk] at hauthority
    exact h k hauthority

theorem Quiet.withPlan (h : f.Quiet) {plan : InterventionPlan}
    (hplan : (f.domainState domain).authoritative = false → plan.authorized = []) :
    (f.withPlan domain plan).Quiet := by
  intro k hauthority
  have hauthority : (f.domainState k).authoritative = false := hauthority
  rw [List.eq_nil_iff_forall_not_mem]
  intro intent hintent
  by_cases hk : k = domain
  · rcases withPlan_intents hintent with hold | hbound
    · rw [h k hauthority] at hold
      exact List.not_mem_nil hold
    · rw [hk] at hauthority
      have hauthorized := (List.mem_filter.mp hbound).1
      rw [hplan hauthority] at hauthorized
      exact List.not_mem_nil hauthorized
  · have hsame : (f.withPlan domain plan).activeIntents k = f.activeIntents k := by
      unfold Fabric.withPlan activeIntents SortedMap.findD
      dsimp only
      rw [SortedMap.find?_insert, if_neg hk]
    rw [hsame, h k hauthority] at hintent
    exact List.not_mem_nil hintent

end Fabric

namespace World

open Fabric InterventionPlanner CongestionEvaluator

variable {w w' : World} {a : Action} {b : Basis}

/-- A planning action for a domain without authority plans from an evaluation that nothing
invalidated since its commit, and under no rule that waives authority. -/
def PlansGuarded (w : World) (a : Action) : Prop :=
  ∀ b, w.basisOf a = some b → (w.fabric.domainState b.domain).authoritative = false →
    b.invalidated = false ∧ w.fabric.Unwaived b.domain

/-- A valid evaluation of a domain without authority is the one that left it so. -/
theorem unauthoritative_outcome (htracked : Tracks w.fabric b) (hcommitted : b.Committed)
    (hvalid : b.invalidated = false)
    (hauthority : (w.fabric.domainState b.domain).authoritative = false) :
    w.fabric.domainState b.domain = b.outcome.updated ∧ b.outcome.authoritative = false := by
  obtain ⟨_, _, _, hdomain⟩ := htracked.kept hvalid
  rcases hdomain with hdomain | hauthoritative
  · refine ⟨hdomain, ?_⟩
    by_contra houtcome
    have hupdated := hcommitted.authoritative (Bool.eq_true_of_not_eq_false houtcome)
    rw [← hdomain, hauthority] at hupdated
    cases hupdated
  · rw [hauthority] at hauthoritative
    cases hauthoritative

/-- From a valid evaluation of a domain without authority a plan authorizes only what a rule that
waives authority calls for. -/
theorem authorizes_waived (htracked : Tracks w.fabric b) (hcommitted : b.Committed)
    (hvalid : b.invalidated = false)
    (hauthority : (w.fabric.domainState b.domain).authoritative = false) {rule : InterventionRule}
    {intent : InterventionIntent} {active : List InterventionIntent}
    (hauthorizes : Authorizes w.fabric.policy w.fabric.planningContext active b.outcome rule
      intent) :
    (∃ severity, severityOf (w.fabric.domainState b.domain).state = some severity ∧
      rule.atLeast ≤ severity) ∧ rule.requireAuthoritativeState = false := by
  obtain ⟨hdomain, houtcome⟩ := unauthoritative_outcome htracked hcommitted hvalid hauthority
  have hadmitted := (judge_authorize hauthorizes.judged).admitted
  constructor
  · rw [hdomain, ← hcommitted.state]
    exact hadmitted.severity
  · by_contra hrequired
    have hauthoritative := hadmitted.authoritative (Bool.eq_true_of_not_eq_false hrequired)
    rw [houtcome] at hauthoritative
    cases hauthoritative

theorem plan_guarded (htracked : Tracks w.fabric b) (hcommitted : b.Committed)
    (hguarded : w.PlansGuarded a) (hbasis : w.basisOf a = some b)
    (hauthority : (w.fabric.domainState b.domain).authoritative = false)
    {active : List InterventionIntent} {plan : InterventionPlan}
    (hplan : InterventionPlanner.plan b.outcome w.fabric.planningContext active = .ok plan) :
    plan.authorized = [] := by
  obtain ⟨hvalid, hunwaived⟩ := hguarded b hbasis hauthority
  rw [List.eq_nil_iff_forall_not_mem]
  intro intent hintent
  obtain ⟨rule, hauthorizes⟩ := plan_authorizes rfl hplan hintent
  obtain ⟨hseverity, hwaived⟩ := authorizes_waived htracked hcommitted hvalid hauthority hauthorizes
  have hconcerns : rule.targetDomain.valid = true → rule.targetDomain = b.domain :=
    fun htargeted => (hauthorizes.domain htargeted).trans hcommitted.domain_eq
  rw [hunwaived rule hauthorizes.mem hconcerns hseverity] at hwaived
  cases hwaived

theorem Effect.quiet (heffect : Effect w a w') (h : w.fabric.Quiet) (htracked : AllTracked w)
    (hbased : Based w) (hguarded : w.PlansGuarded a) : w'.fabric.Quiet := by
  cases heffect with
  | kept => exact h
  | policy => exact .of_empty rfl
  | topology => exact .of_empty rfl
  | capacity => exact h.of_same rfl rfl
  | registered => exact h.of_same rfl rfl
  | departed publisher boot detail =>
    show (w.fabric.forgetPublisher publisher boot).Quiet
    unfold forgetPublisher
    split
    · exact h.of_same rfl rfl
    · exact h
  | alive => exact h.of_same rfl rfl
  | @fenced _ record _ =>
    show (w.fabric.fenced record).Quiet
    unfold Fabric.fenced noteFence dropEvidence forgetPublisher
    split
    · exact h.of_same rfl rfl
    · exact h.of_same rfl rfl
  | ingested batch =>
    obtain ⟨publishers, evidence, he⟩ := ingestAll_eq batch.samples w.fabric {}
    show (batch.samples.foldl ingestSample (w.fabric, {})).1.Quiet
    rw [he]
    exact h.of_same rfl rfl
  | evaluated heval => exact h.commitOutcome (evaluation_committed heval)
  | published heval =>
    exact (h.commitOutcome (evaluation_committed heval)).of_same rfl rfl
  | carried heval =>
    exact (h.commitOutcome (evaluation_committed heval)).of_same rfl rfl
  | dropped index => exact h
  | @planned index b plan hb hp =>
    have hpending := List.mem_of_getElem? hb
    exact h.withPlan fun hauthority => plan_guarded (htracked.pending b hpending)
      (hbased.pending b hpending) hguarded hb hauthority hp
  | @plannedLast domain outcome plan ho hp =>
    rw [hbased.cached, SortedMap.find?_mapVal, Option.map_eq_some_iff] at ho
    obtain ⟨b, hb, rfl⟩ := ho
    obtain ⟨hcommitted, rfl⟩ := hbased.last domain b hb
    exact h.withPlan fun hauthority => plan_guarded (htracked.last b.domain b hb) hcommitted
      hguarded hb hauthority hp
  | epoch =>
    obtain ⟨fences, he⟩ := nextEpoch_eq w.fabric _
    refine .of_empty ?_
    show (w.fabric.nextEpoch _).intents = ∅
    rw [he]
  | closed => exact h.of_same rfl rfl
  | clock => exact h.of_same rfl rfl

theorem Step.quiet {i : Input} (hstep : Step w i w') (h : w.fabric.Quiet) (htracked : AllTracked w)
    (hbased : Based w) (hguarded : ∀ a, i = .act a → w.PlansGuarded a) : w'.fabric.Quiet := by
  cases hstep with
  | act a =>
    obtain ⟨moved, store, heffect, he⟩ := act_effect w a
    have hquiet := heffect.quiet h htracked hbased (hguarded a rfl)
    rw [he]
    exact hquiet.of_same rfl rfl
  | restart hopen =>
    obtain ⟨_, _, hopened⟩ := openOn_ok hopen
    exact .of_empty hopened.intents

/-- In a run whose plans for domains without authority are all made from valid evaluations and under
rules that insist on authority, such a plan authorizes nothing, and at no time is anything outstanding
for a domain without authority. -/
theorem unauthoritative_authorizes_nothing {options : FabricOptions} {clock : Tick} {disk : Disk}
    {f : Fabric} {es : List (Event World Input)} (hopen : openOn options clock disk = .ok f)
    (run : Run Step ⟨f, [], ∅⟩ es w)
    (hguarded : ∀ e ∈ es, ∀ a, e.input = .act a → e.before.PlansGuarded a) :
    ∀ e ∈ es,
      (∀ a plan, e.input = .act a → e.before.planned a = some plan →
        ∃ b, e.before.basisOf a = some b ∧
          ((e.before.fabric.domainState b.domain).authoritative = false → plan.authorized = [])) ∧
      ∀ domain, (e.after.fabric.domainState domain).authoritative = false →
        e.after.fabric.activeIntents domain = [] := by
  intro e he
  refine ⟨fun a plan ha hplan => ?_, ?_⟩
  · obtain ⟨b, hbasis, hcommitted, hplanned⟩ := planned_basis ((run_based hopen run).1 e he) hplan
    have htracks := ((run_tracked run).1 e he).basis hbasis
    exact ⟨b, hbasis, fun hauthority =>
      plan_guarded htracks hcommitted (hguarded e he a ha) hbasis hauthority hplanned⟩
  · -- what the steps keep is that the fabric is quiet and that its evaluations can be told
    obtain ⟨_, _, hopened⟩ := openOn_ok hopen
    have hstart : (⟨f, [], ∅⟩ : World).fabric.Quiet ∧ AllTracked ⟨f, [], ∅⟩ ∧ Based ⟨f, [], ∅⟩ :=
      ⟨.of_empty hopened.intents, (run_tracked .start).2, (run_based hopen .start).2⟩
    have hsteps := run.guarded
      (P := fun w i => ∀ a, i = .act a → w.PlansGuarded a) hguarded
    exact (hsteps.invariant_at
      (P := fun w => w.fabric.Quiet ∧ AllTracked w ∧ Based w) hstart
      (fun w i w' h hstep => ⟨hstep.1.quiet h.1 h.2.1 h.2.2 hstep.2, hstep.1.tracked h.2.1,
        hstep.1.based h.2.2⟩) he).2.1

/-- Intents are outstanding for a domain at WATCH when the policy is set once more, which flags the
domain; a plan evaluates it again. -/
def reflagging : List Action :=
  [.setPolicy makeDefaultPolicy, .setTopology pairSnapshot, .registerPublisher ⟨1⟩ ⟨1⟩ {},
    .ingest (reportNow 100).evidence, .evaluate ⟨1⟩ {}, .planLast ⟨1⟩,
    .setPolicy makeDefaultPolicy, .planEvaluate ⟨1⟩ {}, .planCommit 0]

def reflaggedWorld (steps : Nat) : World := (reflagging.take steps).foldl act ⟨memoryFabric, [], ∅⟩

/-- The basis of a planning event has authority, or is valid and meets no rule that waives it. -/
def plansGuarded (e : Event World Input) : Bool :=
  match e.input with
  | .act a => (e.before.basisOf a).all fun b =>
    (e.before.fabric.domainState b.domain).authoritative ||
      !b.invalidated && e.before.fabric.policy.interventions.all (·.requireAuthoritativeState)
  | .restart .. => true

theorem PlansGuarded.of_plansGuarded {e : Event World Input} (h : plansGuarded e = true)
    (ha : e.input = .act a) : e.before.PlansGuarded a := by
  intro b hb hauthority
  unfold plansGuarded at h
  rw [ha] at h
  dsimp only at h
  rw [hb, Option.all_some, hauthority, Bool.false_or, Bool.and_eq_true, Bool.not_eq_true',
    List.all_eq_true] at h
  exact ⟨h.1, fun rule hrule _ _ => h.2 rule hrule⟩

set_option maxRecDepth 100000 in
theorem unauthoritative_authorizes_nothing_reflagged : ∃ plan,
    (reflaggedWorld 6).fabric.activeIntents ⟨1⟩ ≠ [] ∧
    ((reflaggedWorld 8).fabric.domainState ⟨1⟩).state = .watch ∧
    ((reflaggedWorld 8).fabric.domainState ⟨1⟩).requiresRevalidation = true ∧
    (reflaggedWorld 8).planned (.planCommit 0) = some plan ∧ plan.authorized = [] ∧
    (reflaggedWorld 9).fabric.activeIntents ⟨1⟩ = [] := by
  have hplans : ((reflaggedWorld 8).planned (.planCommit 0)).isSome = true := by decide +kernel
  have hbases : ((reflaggedWorld 8).basisOf (.planCommit 0)).all (fun b =>
      decide (b.domain = ⟨1⟩)) = true := by
    decide +kernel
  have hoffered : (reflaggedWorld 6).fabric.activeIntents ⟨1⟩ ≠ [] := by decide +kernel
  have hflagged : ((reflaggedWorld 8).fabric.domainState ⟨1⟩).state = .watch ∧
      ((reflaggedWorld 8).fabric.domainState ⟨1⟩).requiresRevalidation = true := by
    decide +kernel
  have hafter : ((reflaggedWorld 9).fabric.domainState ⟨1⟩).authoritative = false := by
    decide +kernel
  have hguarded : ∀ e ∈ actEvents ⟨memoryFabric, [], ∅⟩ reflagging, plansGuarded e = true := by
    decide +kernel
  obtain ⟨plan, hplan⟩ := Option.isSome_iff_exists.mp hplans
  have hlast : (⟨reflaggedWorld 8, .act (.planCommit 0), reflaggedWorld 9⟩ : Event World Input) ∈
      actEvents ⟨memoryFabric, [], ∅⟩ reflagging := by
    simp [actEvents, reflagging, reflaggedWorld]
  obtain ⟨hplanned, houtstanding⟩ := unauthoritative_authorizes_nothing openOn_memory
    (run_acts _ reflagging) (fun e he a ha => .of_plansGuarded (hguarded e he) ha) _ hlast
  obtain ⟨b, hb, hnothing⟩ := hplanned _ plan rfl hplan
  have hb : (reflaggedWorld 8).basisOf (.planCommit 0) = some b := hb
  rw [hb] at hbases
  rw [of_decide_eq_true hbases] at hnothing
  have hauthority : ((reflaggedWorld 8).fabric.domainState ⟨1⟩).authoritative = false := by
    rw [DomainState.authoritative, hflagged.2]
    exact Bool.and_false _
  exact ⟨plan, hoffered, hflagged.1, hflagged.2, hplan, hnothing hauthority,
    houtstanding ⟨1⟩ hafter⟩

/-- The default policy, with every rule waiving authority. -/
def lenientPolicy : CongestionPolicy :=
  let policy : CongestionPolicy := { makeDefaultPolicy with
    interventions := makeDefaultPolicy.interventions.map fun rule : InterventionRule =>
      { rule with requireAuthoritativeState := false } }
  { policy with fingerprint := fingerprintPolicy policy }

/-- A publisher reports, its domain is evaluated, the policy is set once more, and a plan evaluates
the domain again. -/
def waivedWorld : World :=
  [.setPolicy lenientPolicy, .setTopology pairSnapshot, .registerPublisher ⟨1⟩ ⟨1⟩ {},
    .ingest (reportNow 100).evidence, .evaluate ⟨1⟩ {}, .setPolicy lenientPolicy,
    .planEvaluate ⟨1⟩ {}].foldl act ⟨memoryFabric, [], ∅⟩

set_option maxRecDepth 100000 in
theorem waived_rule_authorizes : ∃ f es plan,
    openOn {} 100 {} = .ok f ∧
    Run Step ⟨f, [], ∅⟩ es (waivedWorld.act (.planCommit 0)) ∧
    (∀ b, waivedWorld.basisOf (.planCommit 0) = some b → b.invalidated = false) ∧
    waivedWorld.planned (.planCommit 0) = some plan ∧ plan.authorized ≠ [] ∧
    (waivedWorld.fabric.domainState ⟨1⟩).requiresRevalidation = true ∧
    ((waivedWorld.act (.planCommit 0)).fabric.domainState ⟨1⟩).requiresRevalidation = true ∧
    (waivedWorld.act (.planCommit 0)).fabric.activeIntents ⟨1⟩ = plan.authorized := by
  have hplans : (waivedWorld.planned (.planCommit 0)).any (fun plan =>
      decide (plan.authorized ≠ [] ∧
        (waivedWorld.act (.planCommit 0)).fabric.activeIntents ⟨1⟩ = plan.authorized)) = true := by
    decide +kernel
  have hbases : (waivedWorld.basisOf (.planCommit 0)).all (fun b => !b.invalidated) = true := by
    decide +kernel
  have hflagged : (waivedWorld.fabric.domainState ⟨1⟩).requiresRevalidation = true ∧
      ((waivedWorld.act (.planCommit 0)).fabric.domainState ⟨1⟩).requiresRevalidation = true := by
    decide +kernel
  obtain ⟨plan, hplan, hintents⟩ := (Option.any_eq_true _ _).mp hplans
  obtain ⟨hsome, hactive⟩ := of_decide_eq_true hintents
  refine ⟨memoryFabric, _, plan, openOn_memory, (run_acts _ _).next (.act (.planCommit 0)),
    fun b hb => ?_, hplan, hsome, hflagged.1,
    hflagged.2, hactive⟩
  rw [hb] at hbases
  exact (Bool.not_eq_true' _).mp hbases

end World

end CongestionFabric
