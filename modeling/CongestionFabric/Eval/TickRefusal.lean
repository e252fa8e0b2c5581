import CongestionFabric.Eval.Escalation

namespace CongestionFabric

open HysteresisEngine

namespace CongestionEvaluator

/-- One successful evaluation of a domain, from the state the previous one left. -/
def Evaluates (s : DomainState) (call : Call) (s' : DomainState) : Prop :=
  ∃ outcome, evaluate call.request s call.context = .ok outcome ∧ outcome.updated = s'

/-- Nothing the machine decides by has changed. -/
structure Untouched (before after : DomainState) : Prop where
  state : after.state = before.state
  candidate : after.candidate = before.candidate
  streak : after.candidateStreak = before.candidateStreak
  change : after.lastChangeTick = before.lastChangeTick
  authoritative : after.lastAuthoritativeTick = before.lastAuthoritativeTick
  evaluated : after.lastEvaluatedTick = before.lastEvaluatedTick
  severity : after.lastCommittedSeverity = before.lastCommittedSeverity
  revalidation : after.requiresRevalidation = before.requiresRevalidation

/-- A backwards tick is refused as a whole, and would be refused again. -/
structure TickKept (e : Event DomainState Call) : Prop where
  monotone : e.before.lastEvaluatedTick ≤ e.after.lastEvaluatedTick
  refused : tickRegressed e.before e.input.request.now = true →
    Untouched e.before e.after ∧ tickRegressed e.after e.input.request.now = true

theorem Evaluates.updated {s s' : DomainState} {call : Call} (h : Evaluates s call s') :
    ∃ policy p, call.context.policy = some policy ∧
      proposalOf call.request policy call.context s = .ok p ∧
      s' = { (step (prepare call.request policy call.context s) p policy.hysteresis policy.recovery
        call.request.now).1 with lastEvaluatedTick := call.request.now } := by
  obtain ⟨outcome, hevaluate, rfl⟩ := h
  obtain ⟨policy, _, _, hpolicy, _⟩ := evaluate_ok hevaluate
  obtain ⟨p, hproposal, hupdated⟩ := evaluate_updated hpolicy hevaluate
  exact ⟨policy, p, hpolicy, hproposal, hupdated⟩

theorem Evaluates.lastEvaluatedTick {s s' : DomainState} {call : Call} (h : Evaluates s call s') :
    s'.lastEvaluatedTick = call.request.now := by
  obtain ⟨_, _, _, _, rfl⟩ := h.updated
  rfl

/-- The machine refuses a backwards tick; the evaluator records it all the same. -/
theorem Evaluates.regressed {s s' : DomainState} {call : Call} (h : Evaluates s call s')
    (ht : tickRegressed s call.request.now = true) :
    ∃ policy, call.context.policy = some policy ∧
      s' = { prepare call.request policy call.context s with
        lastEvaluatedTick := call.request.now } := by
  obtain ⟨policy, p, hpolicy, _, hupdated⟩ := h.updated
  refine ⟨policy, hpolicy, ?_⟩
  have hprepared : tickRegressed (prepare call.request policy call.context s) call.request.now =
      true := ht
  rw [hupdated]
  unfold step
  rw [if_pos hprepared]

theorem tickKept_iff {e : Event DomainState Call} (h : Evaluates e.before e.input e.after) :
    TickKept e ↔ (tickRegressed e.before e.input.request.now = true →
      e.input.request.now = e.before.lastEvaluatedTick) := by
  have hrecorded := h.lastEvaluatedTick
  constructor
  · intro hkept ht
    obtain ⟨huntouched, _⟩ := hkept.refused ht
    rw [← hrecorded, huntouched.evaluated]
  · intro hsame
    by_cases ht : tickRegressed e.before e.input.request.now = true
    · have heq := hsame ht
      obtain ⟨policy, _, hafter⟩ := h.regressed ht
      have huntouched : Untouched e.before e.after := by
        rw [hafter]
        exact ⟨rfl, rfl, rfl, rfl, rfl, heq, rfl, rfl⟩
      refine ⟨?_, fun _ => ⟨huntouched, ?_⟩⟩
      · rw [huntouched.evaluated]
        exact UInt64.le_refl _
      · unfold tickRegressed
        rw [huntouched.change, huntouched.evaluated]
        exact ht
    · refine ⟨?_, fun hreg => absurd hreg ht⟩
      rw [hrecorded]
      exact (tickRegressed_eq_false.mp (Bool.eq_false_iff.mpr ht)).2

/-- Backwards ticks are refused as a whole in exactly the runs in which the guard has nothing to
refuse but a tick that is the recorded one. -/
theorem backward_tick_refused_iff {s₀ s : DomainState} {es : List (Event DomainState Call)}
    (hrun : Run Evaluates s₀ es s) :
    (∀ e ∈ es, TickKept e) ↔
      ∀ e ∈ es, tickRegressed e.before e.input.request.now = true →
        e.input.request.now = e.before.lastEvaluatedTick := by
  constructor
  · intro h e he
    exact (tickKept_iff (hrun.mem_step he)).mp (h e he)
  · intro h e he
    exact (tickKept_iff (hrun.mem_step he)).mpr (h e he)

theorem Evaluates.of_inputs (s₀ : DomainState) (calls : List Call)
    (h : ∀ e ∈ events committed s₀ calls,
      (evaluate e.input.request e.before e.input.context).isOk = true) :
    Run Evaluates s₀ (events committed s₀ calls) (calls.foldl committed s₀) := by
  refine ((Run.of_events committed s₀ calls).guarded
    (P := fun s call => (evaluate call.request s call.context).isOk = true) h).mono ?_
  rintro s call s' ⟨hafter, hok⟩
  obtain ⟨outcome, heval⟩ := Result.exists_of_isOk hok
  refine ⟨outcome, heval, ?_⟩
  rw [← hafter, committed, heval]

/-- Three evaluations at advancing ticks. -/
def advancingCalls : List Call := [saturatedCall 10, saturatedCall 20, saturatedCall 30]

/-- The clock is set back, and the same tick is evaluated twice. -/
def rewoundCalls : List Call :=
  [saturatedCall 10, saturatedCall 20, saturatedCall 15, saturatedCall 15]

theorem backward_tick_refused_iff_advancing : (events committed {} advancingCalls).length = 3 ∧
    ∀ e ∈ events committed {} advancingCalls, TickKept e := by
  have hrun : Run Evaluates {} (events committed {} advancingCalls) _ :=
    Evaluates.of_inputs {} advancingCalls (by decide +kernel)
  refine ⟨rfl, (backward_tick_refused_iff hrun).mpr ?_⟩
  decide +kernel

/-- The evaluation at 15 is refused but recorded, so that the next one at 15 is not refused. -/
theorem rewound_tick_recorded : ∃ e again s,
    Run Evaluates {} (events committed {} rewoundCalls) s ∧
    e ∈ events committed {} rewoundCalls ∧ again ∈ events committed {} rewoundCalls ∧
    tickRegressed e.before e.input.request.now = true ∧
    e.after.lastEvaluatedTick < e.before.lastEvaluatedTick ∧
    again.before = e.after ∧ again.input.request.now = e.input.request.now ∧
    tickRegressed again.before again.input.request.now = false := by
  have hrun : Run Evaluates {} (events committed {} rewoundCalls) _ :=
    Evaluates.of_inputs {} rewoundCalls (by decide +kernel)
  obtain ⟨first, second, third, fourth, hes, hticks⟩ : ∃ first second third fourth,
      events committed {} rewoundCalls = [first, second, third, fourth] ∧
      tickRegressed third.before third.input.request.now = true ∧
      third.after.lastEvaluatedTick < third.before.lastEvaluatedTick ∧
      fourth.before = third.after ∧ fourth.input.request.now = third.input.request.now ∧
      tickRegressed fourth.before fourth.input.request.now = false := by
    refine ⟨_, _, _, _, rfl, ?_⟩
    decide +kernel
  exact ⟨third, fourth, _, hrun, hes ▸ by simp, hes ▸ by simp, hticks⟩

end CongestionEvaluator

end CongestionFabric
