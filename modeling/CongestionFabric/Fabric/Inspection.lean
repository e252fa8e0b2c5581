import CongestionFabric.Fabric.Atomicity
import CongestionFabric.Fabric.DomainHistory
import CongestionFabric.Fabric.FreshBasis

namespace CongestionFabric

namespace Fabric

/-- The calls that ask about a domain. -/
inductive Inspection where
  | explain (domain : DomainId)
  | explainLast (domain : DomainId)
  | planLast (domain : DomainId)
  | domainState (domain : DomainId)
  | authority (domain : DomainId)
  | activeIntents (domain : DomainId)

/-- The fabric after a question; most of them only look. -/
def inspect (f : Fabric) : Inspection → Fabric
  | .explain domain => (f.explain domain).1
  | .planLast domain => (f.planLast domain).1
  | .explainLast _ | .domainState _ | .authority _ | .activeIntents _ => f

def inspectAll (f : Fabric) (questions : List Inspection) : Fabric := questions.foldl inspect f

variable {f : Fabric} {domain : DomainId} {s : DomainState} {questions : List Inspection}

theorem planOutcome_domains (outcome : EvaluationOutcome) :
    (f.planOutcome domain outcome).1.domains = f.domains := by
  rcases planOutcome_cases (f := f) domain outcome with ⟨store, status, he⟩ | ⟨plan, store, _, he⟩
  · exact congrArg (fun called => called.1.domains) he
  · exact congrArg (fun called => called.1.domains) he

theorem planLast_domains : (f.planLast domain).1.domains = f.domains := by
  unfold planLast checked
  split
  · rfl
  · dsimp only
    split
    · rfl
    · exact planOutcome_domains _

/-- An explanation that is cached is only read; without one the domain is evaluated. -/
theorem explain_domains : (f.explain domain).1.domains =
    if f.explanations.contains domain then f.domains
    else f.withEvaluation (f.assessed domain (f.collectEvidence domain) {}) := by
  unfold explain SortedMap.contains
  cases hcached : f.explanations.find? domain with
  | some explanation => rfl
  | none =>
    rw [Option.isSome_none, if_neg Bool.false_ne_true, ← evaluateLocked_domains]
    change _ = (f.evaluate domain).1.domains
    dsimp only
    split
    next g status he => rw [he]
    next g outcome he =>
      rw [he]
      split
      next g' status hp => exact (congrArg (·.1.domains) hp).symm.trans planLast_domains
      next g' plan hp => exact (congrArg (·.1.domains) hp).symm.trans planLast_domains

/-- An explanation asked for now would be a new evaluation: none is cached, and one would be
committed. It counts itself, unless the count is saturated and the state comes out the same. -/
def Recounts (f : Fabric) (domain : DomainId) (s : DomainState) : Prop :=
  f.explanations.contains domain = false ∧
    ∃ b, f.assessed domain (f.collectEvidence domain) {} = some b ∧
      (s.evaluationCount < limits.kMaxU64 ∨ b.outcome.updated ≠ s)

theorem assessed_updated {b : Basis} (hs : f.domains.find? domain = some s)
    (hb : f.assessed domain (f.collectEvidence domain) {} = some b)
    (hcount : s.evaluationCount < limits.kMaxU64) : b.outcome.updated ≠ s := by
  obtain ⟨_, _, _, _, _, ho⟩ := assessed_some hb
  intro hsame
  have hprior : f.domainState domain = s := by
    unfold Fabric.domainState SortedMap.findD
    rw [hs]
    rfl
  have hnext := assessDomain_count (outcomeOf_ok ho)
  rw [hprior, hsame, if_pos hcount] at hnext
  exact succ_ne_self _ hnext.symm

theorem explain_keeps_iff (hs : f.domains.find? domain = some s) :
    (f.explain domain).1.domains.find? domain = some s ↔ ¬f.Recounts domain s := by
  rw [explain_domains]
  unfold Recounts
  cases hcached : f.explanations.contains domain with
  | true => simp [hs]
  | false =>
    rw [if_neg Bool.false_ne_true]
    cases hb : f.assessed domain (f.collectEvidence domain) {} with
    | none => simp [withEvaluation, hs]
    | some b =>
      have hdomain : b.domain = domain := (assessed_some hb).1
      have hfind : (f.withEvaluation (some b)).find? domain = some b.outcome.updated := by
        unfold withEvaluation
        rw [SortedMap.find?_insert, if_pos hdomain.symm]
      rw [hfind]
      constructor
      · rintro hsame ⟨_, b', hb', hmoved⟩
        obtain rfl := Option.some.inj hb'
        have hsame : b.outcome.updated = s := Option.some.inj hsame
        rcases hmoved with hcount | hne
        · exact assessed_updated hs hb hcount hsame
        · exact hne hsame
      · intro h
        refine congrArg some (not_not.mp fun hne => h ⟨rfl, b, rfl, .inr hne⟩)

/-- A question moves the state of a domain only by explaining that domain anew. -/
theorem inspect_keeps_iff {question : Inspection} (hs : f.domains.find? domain = some s) :
    (f.inspect question).domains.find? domain = some s ↔
      ¬(question = .explain domain ∧ f.Recounts domain s) := by
  cases question with
  | explain asked =>
    by_cases hasked : asked = domain
    · subst hasked
      rw [and_iff_right rfl]
      exact explain_keeps_iff hs
    · refine iff_of_true ?_ fun h => hasked (Inspection.explain.inj h.1)
      show (f.explain asked).1.domains.find? domain = some s
      rw [explain_domains]
      split
      · exact hs
      · cases hb : f.assessed asked (f.collectEvidence asked) {} with
        | none => exact hs
        | some b =>
          have hdomain : b.domain = asked := (assessed_some hb).1
          unfold withEvaluation
          dsimp only
          rw [SortedMap.find?_insert, if_neg fun heq => hasked (hdomain.symm.trans heq.symm)]
          exact hs
  | planLast asked =>
    refine iff_of_true ?_ fun h => Inspection.noConfusion h.1
    show (f.planLast asked).1.domains.find? domain = some s
    rw [planLast_domains]
    exact hs
  | _ => exact iff_of_true hs fun h => Inspection.noConfusion h.1

/-- Questions leave the committed state of a domain alone exactly when none of them is for an
explanation that takes a new evaluation. -/
theorem inspections_keep_state_iff (hs : f.domains.find? domain = some s) :
    (∀ before after, questions = before ++ after →
      (f.inspectAll before).domains.find? domain = some s) ↔
    ∀ before after, questions = before ++ .explain domain :: after →
      ¬(f.inspectAll before).Recounts domain s := by
  have hsnoc : ∀ before question, f.inspectAll (before ++ [question]) =
      (f.inspectAll before).inspect question := by
    intro before question
    unfold inspectAll
    rw [List.foldl_append]
    rfl
  constructor
  · intro h before after heq hrecounts
    have hbefore := h before _ heq
    have hafter := h (before ++ [.explain domain]) after (by simpa using heq)
    rw [hsnoc] at hafter
    exact (inspect_keeps_iff hbefore).mp hafter ⟨rfl, hrecounts⟩
  · intro h before
    induction before using List.reverseRecOn with
    | nil => exact fun _ _ => hs
    | append_singleton before question ih =>
      intro after heq
      have hbefore := ih (question :: after) (by simpa using heq)
      rw [hsnoc]
      refine (inspect_keeps_iff hbefore).mpr ?_
      rintro ⟨rfl, hrecounts⟩
      exact h before after (by simpa using heq) hrecounts

end Fabric

namespace World

open Fabric CongestionEvaluator

/-- A fabric in memory that caches one explanation. -/
@[irreducible]
def forgetfulFabric : Fabric :=
  match openOn { maxExplanations := 1 } 100 {} with
  | .ok f => f
  | .error _ => {}

set_option maxRecDepth 100000 in
theorem openOn_forgetful : openOn { maxExplanations := 1 } 100 {} = .ok forgetfulFabric := by
  have hok : (openOn { maxExplanations := 1 } 100 {}).isOk = true := by decide +kernel
  obtain ⟨f, hf⟩ := Result.exists_of_isOk hok
  rw [hf, forgetfulFabric, hf]

def evaluateBoth : List Action :=
  [.evaluateRequest (reportNow 100), .evaluateRequest { reportNow 100 with domain := ⟨2⟩ },
    .setTopology pairSnapshot]

/-- Two domains are evaluated by a fabric that keeps the explanation of one of them. -/
def evictingWorld : World := evaluateBoth.foldl act ⟨forgetfulFabric, [], ∅⟩

set_option maxRecDepth 100000 in
theorem evictingWorld_facts : (evictingWorld.fabric.domains.find? ⟨1⟩).isSome = true ∧
    (evictingWorld.fabric.inspect (.explain ⟨1⟩)).domains.find? ⟨1⟩ ≠
      evictingWorld.fabric.domains.find? ⟨1⟩ := by
  decide +kernel

/-- Some time later. -/
def evictedLater : World := evictingWorld.act (.readClock 120)

set_option maxRecDepth 100000 in
theorem evictedLater_facts : evictedLater.fabric.clock = 120 ∧
    (evictedLater.fabric.domains.find? ⟨2⟩).isSome = true ∧
    evictedLater.fabric.explanations.contains ⟨2⟩ = true := by
  decide +kernel

/-- Questions about the domain whose explanation is kept, and one that takes an evaluation of the other
domain. -/
def questionsAround : List Inspection :=
  [.domainState ⟨2⟩, .explain ⟨2⟩, .planLast ⟨2⟩, .explain ⟨1⟩, .activeIntents ⟨2⟩]

theorem questionsAround_explain {before after : List Inspection}
    (h : questionsAround = before ++ .explain ⟨2⟩ :: after) : before = [.domainState ⟨2⟩] := by
  match before, h with
  | [], h => cases h
  | [_], h => cases h; rfl
  | [_, _], h => cases h
  | [_, _, _], h => simp [questionsAround] at h
  | [_, _, _, _], h => cases h
  | _ :: _ :: _ :: _ :: _ :: _, h => simp [questionsAround] at h

/-- They leave its state alone, though time has passed. -/
theorem inspections_keep_state_iff_cached : ∃ s, evictedLater.fabric.clock = 120 ∧
    evictedLater.fabric.domains.find? ⟨2⟩ = some s ∧
    (evictedLater.fabric.inspectAll questionsAround).domains.find? ⟨2⟩ = some s := by
  obtain ⟨hclock, hsome, hcached⟩ := evictedLater_facts
  obtain ⟨s, hs⟩ := Option.isSome_iff_exists.mp hsome
  refine ⟨s, hclock, hs, (@inspections_keep_state_iff evictedLater.fabric ⟨2⟩ s questionsAround
    hs).mpr ?_ questionsAround [] (List.append_nil _).symm⟩
  rintro before after heq ⟨huncached, _⟩
  obtain rfl := questionsAround_explain heq
  exact absurd (huncached.symm.trans hcached) Bool.false_ne_true

/-- Explaining a domain whose explanation was evicted by another domain evaluates it again. -/
theorem evicted_explanation_reevaluates : ∃ f es,
    openOn { maxExplanations := 1 } 100 {} = .ok f ∧ Run Step ⟨f, [], ∅⟩ es evictingWorld ∧
    (evictingWorld.fabric.domains.find? ⟨1⟩).isSome = true ∧
    (evictingWorld.fabric.inspect (.explain ⟨1⟩)).domains.find? ⟨1⟩ ≠
      evictingWorld.fabric.domains.find? ⟨1⟩ := by
  obtain ⟨hsome, hmoved⟩ := evictingWorld_facts
  exact ⟨forgetfulFabric, _, openOn_forgetful, run_acts _ _, hsome, hmoved⟩

end World

end CongestionFabric
