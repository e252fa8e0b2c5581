import CongestionFabric.Fabric.FreshBasis
import CongestionFabric.Fabric.Tracked

namespace CongestionFabric

namespace Fabric

/-- An outcome has no authority that its committed state has not. -/
theorem Basis.Committed.authoritative {b : Basis} (h : b.Committed)
    (hauthoritative : b.outcome.authoritative = true) :
    b.outcome.updated.authoritative = true := by
  obtain ⟨_, _, _, _, _, _, _, _, houtcome⟩ := CongestionEvaluator.evaluate_ok h
  rw [houtcome] at hauthoritative ⊢
  unfold CongestionEvaluator.conclude at hauthoritative ⊢
  dsimp only at hauthoritative ⊢
  rw [Bool.and_eq_true, Bool.and_eq_true] at hauthoritative
  exact hauthoritative.1.1

end Fabric

namespace World

open Fabric InterventionPlanner

variable {w : World} {a : Action} {b : Basis}

/-- An evaluation that is current: committed under the present epoch, generation and policy, for a
domain that has authority now, and from samples none of whose incarnations was fenced since. -/
structure Current (w : World) (b : Basis) : Prop where
  epoch : b.fabric.epoch = w.fabric.epoch
  generation : b.fabric.authorityGeneration = w.fabric.authorityGeneration
  fingerprint : b.fabric.policy.fingerprint = w.fabric.policy.fingerprint
  authoritative : (w.fabric.domainState b.domain).authoritative = true
  unfenced : ∀ incarnation ∈ b.accepted, incarnation ∉ b.fencedSince
  fences : ∀ publisher boot, (publisher, boot) ∈ b.accepted →
    w.fabric.isFenced publisher boot = true → b.fabric.isFenced publisher boot = true

/-- Where a rule finds its gates open, nothing happened to the evaluation since its commit, and it
left its domain with authority or the rule insists on authority. -/
def Undisturbed (w : World) (a : Action) : Prop :=
  ∀ b, w.basisOf a = some b → ∀ rule ∈ w.fabric.policy.interventions,
    (rule.targetDomain.valid = true → rule.targetDomain = b.outcome.domain) →
    ∀ target ∈ targetsOf w.fabric.planningContext b.outcome rule,
      Admitted w.fabric.policy w.fabric.planningContext (w.fabric.activeIntents b.domain)
        b.outcome rule target →
      b.invalidated = false ∧ (∀ incarnation ∈ b.accepted, incarnation ∉ b.fencedSince) ∧
        (b.outcome.updated.authoritative = true ∨ rule.requireAuthoritativeState = true)

/-- An intent rests on the evaluation a planning action plans from, and that is current. -/
def RestsOnCurrent (w : World) (a : Action) (intent : InterventionIntent) : Prop :=
  ∃ b, w.basisOf a = some b ∧ b.Committed ∧
    (∃ rule, Authorizes w.fabric.policy w.fabric.planningContext (w.fabric.activeIntents b.domain)
      b.outcome rule intent) ∧ w.Current b

theorem current_of_undisturbed (htracked : Tracks w.fabric b) (hcommitted : b.Committed)
    (hbasis : w.basisOf a = some b) (hundisturbed : w.Undisturbed a) {rule : InterventionRule}
    {intent : InterventionIntent}
    (hauthorizes : Authorizes w.fabric.policy w.fabric.planningContext
      (w.fabric.activeIntents b.domain) b.outcome rule intent) : w.Current b := by
  have hadmitted := (judge_authorize hauthorizes.judged).admitted
  obtain ⟨hvalid, hunfenced, hauthority⟩ := hundisturbed b hbasis rule hauthorizes.mem
    hauthorizes.domain _ hauthorizes.target hadmitted
  obtain ⟨hepoch, hgeneration, hpolicy, hdomain⟩ := htracked.kept hvalid
  have hupdated : b.outcome.updated.authoritative = true := by
    rcases hauthority with hupdated | hrequired
    · exact hupdated
    · exact hcommitted.authoritative (hadmitted.authoritative hrequired)
  constructor
  · exact hepoch.symm
  · exact hgeneration.symm
  · rw [hpolicy]
  · rcases hdomain with hdomain | hdomain
    · rw [hdomain]
      exact hupdated
    · exact hdomain
  · exact hunfenced
  · intro publisher boot haccepted hfenced
    rcases htracked.fenced publisher boot hfenced with hbefore | hsince
    · exact hbefore
    · exact absurd hsince (hunfenced _ haccepted)

/-- The intents a plan leaves outstanding were outstanding before, or it authorized them. -/
theorem planOutcome_intents {f : Fabric} {domain k : DomainId} {outcome : EvaluationOutcome}
    {intent : InterventionIntent}
    (h : intent ∈ (f.planOutcome domain outcome).1.activeIntents k) :
    intent ∈ f.activeIntents k ∨
      ∃ plan, (f.planOutcome domain outcome).2.toOption = some plan ∧
        intent ∈ plan.authorized := by
  rcases planOutcome_cases (f := f) domain outcome with ⟨store, status, he⟩ | ⟨plan, store, _, he⟩
  · rw [he] at h
    exact .inl h
  · rw [he] at h ⊢
    have h : intent ∈ (f.withPlan domain plan).activeIntents k := h
    rcases withPlan_intents h with hold | hbound
    · exact .inl hold
    · exact .inr ⟨plan, rfl, (List.mem_filter.mp hbound).1⟩

theorem planned_intents {k : DomainId} {intent : InterventionIntent}
    (hplans : (∃ index, a = .planCommit index) ∨ ∃ domain, a = .planLast domain)
    (h : intent ∈ (w.act a).fabric.activeIntents k) :
    intent ∈ w.fabric.activeIntents k ∨
      ∃ plan, w.planned a = some plan ∧ intent ∈ plan.authorized := by
  rcases hplans with ⟨index, rfl⟩ | ⟨domain, rfl⟩
  · unfold act at h
    unfold planned
    dsimp only at h ⊢
    cases hb : w.pending[index]? with
    | none =>
      rw [hb] at h
      exact .inl h
    | some b =>
      rw [hb] at h
      have h : intent ∈ (w.fabric.planCommit b.domain b.outcome).1.activeIntents k := h
      show _ ∨ ∃ plan, (w.fabric.planCommit b.domain b.outcome).2.toOption = some plan ∧ _
      unfold planCommit checked at h ⊢
      split at h
      · exact .inl h
      · exact planOutcome_intents h
  · have h : intent ∈ (w.fabric.planLast domain).1.activeIntents k := h
    show _ ∨ ∃ plan, (w.fabric.planLast domain).2.toOption = some plan ∧ _
    unfold planLast checked at h ⊢
    split at h
    · exact .inl h
    · split at h
      · exact .inl h
      · exact planOutcome_intents h

/-- In a run whose plans are all made from undisturbed evaluations, what a plan authorizes and what
it leaves newly outstanding rests on a current evaluation. -/
theorem authorizations_current {options : FabricOptions} {clock : Tick} {disk : Disk} {f : Fabric}
    {es : List (Event World Input)} (hopen : openOn options clock disk = .ok f)
    (run : Run Step ⟨f, [], ∅⟩ es w)
    (hundisturbed : ∀ e ∈ es, ∀ a, e.input = .act a → e.before.Undisturbed a) :
    ∀ e ∈ es, ∀ a, e.input = .act a →
      (∀ plan, e.before.planned a = some plan →
        ∀ intent ∈ plan.authorized, e.before.RestsOnCurrent a intent) ∧
      ((∃ index, a = .planCommit index) ∨ (∃ domain, a = .planLast domain) →
        ∀ k, ∀ intent ∈ e.after.fabric.activeIntents k,
          intent ∈ e.before.fabric.activeIntents k ∨ e.before.RestsOnCurrent a intent) := by
  intro e he a ha
  have hbased := (run_based hopen run).1 e he
  have htracked := (run_tracked run).1 e he
  have hrests : ∀ plan, e.before.planned a = some plan →
      ∀ intent ∈ plan.authorized, e.before.RestsOnCurrent a intent := by
    intro plan hplan intent hintent
    obtain ⟨b, hbasis, hcommitted, hplanned⟩ := planned_basis hbased hplan
    obtain ⟨rule, hauthorizes⟩ := plan_authorizes rfl hplanned hintent
    refine ⟨b, hbasis, hcommitted, ⟨rule, hauthorizes⟩, ?_⟩
    exact current_of_undisturbed (htracked.basis hbasis) hcommitted hbasis
      (hundisturbed e he a ha) hauthorizes
  refine ⟨hrests, fun hplans k intent hintent => ?_⟩
  have hstep := run.mem_step he
  rw [ha] at hstep
  rw [hstep.act_eq] at hintent
  rcases planned_intents hplans hintent with hold | ⟨plan, hplan, hauthorized⟩
  · exact .inl hold
  · exact .inr (hrests plan hplan intent hauthorized)

set_option maxRecDepth 100000 in
theorem authorizations_current_reported : ∃ plan,
    reportedWorld.planned (.planLast ⟨1⟩) = some plan ∧ plan.authorized.length = 2 ∧
    ∀ intent ∈ plan.authorized, reportedWorld.RestsOnCurrent (.planLast ⟨1⟩) intent := by
  have hplans : (reportedWorld.planned (.planLast ⟨1⟩)).map (·.authorized.length) = some 2 := by
    decide +kernel
  obtain ⟨plan, hplan, htwo⟩ := Option.map_eq_some_iff.mp hplans
  have hundisturbed : (reportedWorld.basisOf (.planLast ⟨1⟩)).all fun b =>
      decide (b.invalidated = false ∧ b.fencedSince = [] ∧
        b.outcome.updated.authoritative = true) := by
    decide +kernel
  have run := reported_run.next (.act (.planLast ⟨1⟩))
  refine ⟨plan, hplan, htwo, (authorizations_current openOn_memory run ?_
    ⟨reportedWorld, .act (.planLast ⟨1⟩), _⟩ (List.mem_append_right _ List.mem_cons_self)
    (.planLast ⟨1⟩) rfl).1 plan hplan⟩
  intro e he a ha
  simp only [List.mem_append, List.mem_cons, List.not_mem_nil, or_false] at he
  rcases he with ((rfl | rfl) | rfl) | rfl
  · obtain rfl := Input.act.inj ha
    exact fun b hb => nomatch hb
  · obtain rfl := Input.act.inj ha
    exact fun b hb => nomatch hb
  · obtain rfl := Input.act.inj ha
    exact fun b hb => nomatch hb
  · obtain rfl := Input.act.inj ha
    intro b hb rule _ _ target _ _
    rw [show reportedWorld.basisOf _ = some b from hb] at hundisturbed
    obtain ⟨hvalid, hsince, hupdated⟩ := of_decide_eq_true hundisturbed
    refine ⟨hvalid, fun incarnation _ => ?_, .inl hupdated⟩
    rw [hsince]
    exact List.not_mem_nil

/-- The policy is replaced between an evaluation and a plan from it. -/
def replacedWorld : World := reportedWorld.act (.setPolicy makeDefaultPolicy)

set_option maxRecDepth 100000 in
theorem replaced_policy_authorizes : ∃ f es b plan,
    openOn {} 100 {} = .ok f ∧ Run Step ⟨f, [], ∅⟩ es replacedWorld ∧
    replacedWorld.planned (.planLast ⟨1⟩) = some plan ∧ plan.authorized ≠ [] ∧
    (replacedWorld.act (.planLast ⟨1⟩)).fabric.activeIntents ⟨1⟩ = plan.authorized ∧
    replacedWorld.basisOf (.planLast ⟨1⟩) = some b ∧
    b.fabric.authorityGeneration ≠ replacedWorld.fabric.authorityGeneration ∧
    b.fabric.policy.fingerprint ≠ replacedWorld.fabric.policy.fingerprint ∧
    (replacedWorld.fabric.domainState b.domain).authoritative = false := by
  have hplans : (replacedWorld.planned (.planLast ⟨1⟩)).any (fun plan =>
      decide (plan.authorized ≠ [] ∧
        (replacedWorld.act (.planLast ⟨1⟩)).fabric.activeIntents ⟨1⟩ = plan.authorized)) = true := by
    decide +kernel
  have hbasis : (replacedWorld.basisOf (.planLast ⟨1⟩)).any (fun b =>
      decide (b.fabric.authorityGeneration ≠ replacedWorld.fabric.authorityGeneration ∧
        b.fabric.policy.fingerprint ≠ replacedWorld.fabric.policy.fingerprint ∧
        (replacedWorld.fabric.domainState b.domain).authoritative = false)) = true := by
    decide +kernel
  obtain ⟨plan, hplan, hintents⟩ := (Option.any_eq_true _ _).mp hplans
  obtain ⟨hsome, hactive⟩ := of_decide_eq_true hintents
  obtain ⟨b, hb, hstale⟩ := (Option.any_eq_true _ _).mp hbasis
  exact ⟨memoryFabric, _, b, plan, openOn_memory, reported_run.next (.act _), hplan, hsome,
    hactive, hb, of_decide_eq_true hstale⟩

end World

end CongestionFabric
