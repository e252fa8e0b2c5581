import CongestionFabric.Eval.Escalation
import CongestionFabric.Fabric.Enacted
import CongestionFabric.Fabric.LiveAuthority

namespace CongestionFabric

namespace Fabric

variable {f : Fabric} {a : Action} {b : Basis} {domain : DomainId}

/-- The call of the evaluator a basis comes from. -/
def Basis.call (b : Basis) : CongestionEvaluator.Call where
  request := b.fabric.evaluationRequest b.domain b.batch
  context := b.fabric.evaluationContext

/-- The domains after an action that evaluates. -/
def withEvaluation (f : Fabric) : Option Basis → SortedMap DomainId DomainState
  | some b => f.domains.insert b.domain b.outcome.updated
  | none => f.domains

theorem evaluateLocked_domains (domain : DomainId) (batch : EvidenceBatch)
    (token : CancellationToken) :
    (f.checked f.ensureOpen fun _ => f.evaluateLocked domain batch token).1.domains =
      f.withEvaluation (f.assessed domain batch token) := by
  unfold assessed checked
  cases hopen : f.ensureOpen with
  | error status => rfl
  | ok u =>
    show (f.evaluateLocked domain batch token).1.domains = _
    unfold evaluateLocked checked
    cases ho : f.outcomeOf domain batch token with
    | error status => rfl
    | ok outcome =>
      rcases durably_cases (f.commitOutcome domain outcome) (f.makeStamp .localEvaluation)
        (f.outcomeCalls domain outcome) fun g => (g.publish domain outcome, .ok outcome) with
        ⟨store, status, he⟩ | ⟨store, he⟩
      · exact congrArg (fun called => called.1.domains) he
      · exact congrArg (fun called => called.1.domains) he

end Fabric

namespace World

open Fabric CongestionEvaluator

variable {w w' : World} {a : Action} {domain : DomainId} {es : List (Event World Input)}

/-- An effect that is no evaluation and renews nothing leaves the domains and the policy alone. -/
theorem Effect.domains (h : Effect w a w') (hnone : w.fabric.evaluation a = none)
    (hkept : ¬w.Renews (.act a)) : w'.fabric.domains = w.fabric.domains := by
  cases h with
  | policy hs | topology hs => exact absurd hs hkept
  | epoch hs => exact absurd hs hkept
  | evaluated heval | published heval | carried heval =>
    rw [hnone] at heval
    cases heval
  | departed publisher boot =>
    show (w.fabric.forgetPublisher publisher boot).domains = _
    unfold forgetPublisher
    split <;> rfl
  | @fenced _ record =>
    show (w.fabric.forgetPublisher record.publisher record.boot).domains = _
    unfold forgetPublisher
    split <;> rfl
  | ingested batch =>
    obtain ⟨publishers, evidence, he⟩ := ingestAll_eq batch.samples w.fabric {}
    show (batch.samples.foldl ingestSample (w.fabric, {})).1.domains = _
    rw [he]
  | kept | capacity | registered | alive | dropped | planned | plannedLast | closed | clock => rfl

theorem act_domains (hkept : ¬w.Renews (.act a)) :
    (w.act a).fabric.domains = w.fabric.withEvaluation (w.fabric.evaluation a) := by
  cases a with
  | evaluate domain token =>
    show (w.evaluated _ _ _).fabric.domains = _
    rw [evaluated_fabric _ fun _ _ _ => rfl]
    exact evaluateLocked_domains _ _ _
  | evaluateRequest request =>
    show (w.evaluated _ _ _).fabric.domains = _
    rw [evaluated_fabric _ fun _ _ _ => rfl]
    exact evaluateLocked_domains _ _ _
  | planEvaluate domain token =>
    show (w.evaluated _ _ _).fabric.domains = _
    rw [evaluated_fabric _ fun _ _ _ => rfl]
    unfold planEvaluate evaluation
    dsimp only
    cases hbefore : token.beforePlan with
    | true => rfl
    | false => exact evaluateLocked_domains _ _ _
  | _ =>
    obtain ⟨w', store, heffect, he⟩ := act_effect w _
    rw [he]
    exact heffect.domains rfl hkept

theorem Effect.policy_kept (h : Effect w a w') (hkept : ¬w.Renews (.act a)) :
    w'.fabric.policy = w.fabric.policy := by
  cases h with
  | policy hs | topology hs => exact absurd hs hkept
  | epoch hs => exact absurd hs hkept
  | departed publisher boot =>
    show (w.fabric.forgetPublisher publisher boot).policy = _
    unfold forgetPublisher
    split <;> rfl
  | @fenced _ record =>
    show (w.fabric.forgetPublisher record.publisher record.boot).policy = _
    unfold forgetPublisher
    split <;> rfl
  | ingested batch =>
    obtain ⟨publishers, evidence, he⟩ := ingestAll_eq batch.samples w.fabric {}
    show (batch.samples.foldl ingestSample (w.fabric, {})).1.policy = _
    rw [he]
  | _ => rfl

/-- What an action makes of a domain by evaluating it. -/
def evaluationOf (w : World) (domain : DomainId) (a : Action) : List (Event DomainState Call) :=
  match w.fabric.evaluation a with
  | none => []
  | some b =>
    if b.domain = domain then [⟨w.fabric.domainState domain, b.call, b.outcome.updated⟩] else []

/-- The evaluations of a domain in a run. -/
def evaluations (domain : DomainId) (es : List (Event World Input)) :
    List (Event DomainState Call) :=
  es.flatMap fun e =>
    match e.input with
    | .act a => e.before.evaluationOf domain a
    | .restart _ _ _ => []

theorem act_evaluation (hkept : ¬w.Renews (.act a)) :
    EvaluationRun w.fabric.policy (w.fabric.domainState domain) (w.evaluationOf domain a)
      ((w.act a).fabric.domainState domain) := by
  have hdomains := act_domains hkept
  unfold domainState at *
  rw [hdomains]
  unfold evaluationOf
  cases heval : w.fabric.evaluation a with
  | none => exact .start
  | some b =>
    show EvaluationRun _ _ (if b.domain = domain then _ else _)
      ((w.fabric.domains.insert b.domain b.outcome.updated).findD domain {})
    unfold SortedMap.findD
    rw [SortedMap.find?_insert]
    by_cases hdomain : b.domain = domain
    · subst hdomain
      rw [if_pos rfl, if_pos rfl]
      obtain ⟨hfabric, _, _, ⟨token, houtcome⟩, _⟩ := evaluation_cases heval
      unfold Basis.call
      rw [hfabric]
      exact Run.start.next ⟨rfl, b.outcome, outcomeOf_ok houtcome, rfl⟩
    · rw [if_neg hdomain, if_neg (Ne.symm hdomain)]
      exact .start

/-- A run that renews nothing evaluates each domain under one policy. -/
theorem run_evaluations (run : Run Step w es w') (hkept : ∀ e ∈ es, ¬e.before.Renews e.input) :
    w'.fabric.policy = w.fabric.policy ∧
      EvaluationRun w.fabric.policy (w.fabric.domainState domain) (evaluations domain es)
        (w'.fabric.domainState domain) := by
  induction run with
  | start => exact ⟨rfl, .start⟩
  | @next es w₁ w₂ i run hstep ih =>
    obtain ⟨hpolicy, hrun⟩ := ih fun e he => hkept e (List.mem_append_left _ he)
    have hlast : ¬w₁.Renews i := hkept ⟨w₁, i, w₂⟩ (List.mem_append_right _ List.mem_cons_self)
    cases hstep with
    | restart => exact absurd trivial hlast
    | act a =>
      have hevaluation := @act_evaluation w₁ a domain hlast
      rw [hpolicy] at hevaluation
      obtain ⟨w', store, heffect, he⟩ := act_effect w₁ a
      have hsame : (w₁.act a).fabric.policy = w₁.fabric.policy := by
        rw [he]
        exact heffect.policy_kept hlast
      refine ⟨hsame.trans hpolicy, ?_⟩
      have hevents : evaluations domain (es ++ [⟨w₁, .act a, w₁.act a⟩]) =
          evaluations domain es ++ w₁.evaluationOf domain a := by
        unfold evaluations
        rw [List.flatMap_append, List.flatMap_singleton]
      rw [hevents]
      exact hrun.append hevaluation

end World

end CongestionFabric
