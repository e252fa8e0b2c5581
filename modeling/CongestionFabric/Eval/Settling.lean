import CongestionFabric.Eval.Coherence
import CongestionFabric.Eval.Escalation

namespace CongestionFabric.HysteresisEngine

variable {hysteresis : HysteresisPolicy} {recovery : RecoveryPolicy} {s : DomainState}
  {p : SeverityProposal} {now : Tick} {aim : Aim}

/-- One proposal folded again and again, at these ticks. -/
abbrev Repeated (hysteresis : HysteresisPolicy) (recovery : RecoveryPolicy)
    (p : SeverityProposal) :=
  Run fun (s : DomainState) (now : Tick) s' => (step s p hysteresis recovery now).1 = s'

def severityIn (state : CongestionState) : Severity := (severityOf state).getD .clear

/-- How many changes a constant proposal can still bring about: RECOVERING is the only detour. -/
def changesLeft (recovery : RecoveryPolicy) (p : SeverityProposal) (state : CongestionState) : Nat :=
  if !isAuthoritative state then 2
  else if p.upward > severityIn state then 1
  else if p.downward < severityIn state then
    if state ≠ .recovering ∧ recovery.enabled ∧ p.downward = .clear ∧
        severityIn state ≥ .congested then 2
    else 1
  else 0

theorem changesLeft_le (recovery : RecoveryPolicy) (p : SeverityProposal)
    (state : CongestionState) : changesLeft recovery p state ≤ 2 := by
  unfold changesLeft
  split_ifs <;> omega

theorem severityIn_stateOf {v : Severity} (h : v ≤ .severe) : severityIn (stateOf v) = v := by
  unfold severityIn
  rw [severityOf_stateOf h]
  rfl

/-- Where the proposal points up to, nothing is left to do. -/
theorem changesLeft_upward (hdeclared : p.upward ≤ .severe) (hordered : p.upward ≤ p.downward) :
    changesLeft recovery p (stateOf p.upward) = 0 := by
  unfold changesLeft
  rw [stateOf_authoritative hdeclared, severityIn_stateOf hdeclared]
  rw [if_neg (by decide), if_neg (lt_irrefl _), if_neg (not_lt.mpr hordered)]

/-- Where the proposal lets the domain fall to, nothing is left to do. -/
theorem changesLeft_downward (hdeclared : p.downward ≤ .severe)
    (hordered : p.upward ≤ p.downward) : changesLeft recovery p (stateOf p.downward) = 0 := by
  unfold changesLeft
  rw [stateOf_authoritative hdeclared, severityIn_stateOf hdeclared]
  rw [if_neg (by decide), if_neg (not_lt.mpr hordered), if_neg (lt_irrefl _)]

/-- From RECOVERING there is at most one way on. -/
theorem changesLeft_recovering : changesLeft recovery p .recovering ≤ 1 := by
  unfold changesLeft
  rw [if_neg (by decide)]
  split
  · exact Nat.le_refl 1
  · split
    · rw [if_neg (fun h => h.1 rfl)]
    · exact Nat.zero_le 1

/-- What the ladder aims at has fewer changes left. -/
theorem ladder_changesLeft (hdeclared : p.upward ≤ .severe) (hordered : p.upward ≤ p.downward)
    (hl : ladder s p hysteresis recovery = some aim) :
    changesLeft recovery p aim.target < changesLeft recovery p s.state := by
  have hup : changesLeft recovery p (stateOf p.upward) = 0 :=
    changesLeft_upward hdeclared hordered
  have hrecovering : changesLeft recovery p .recovering ≤ 1 := changesLeft_recovering
  have hcurrent : currentSeverity s = severityIn s.state := rfl
  unfold ladder at hl
  by_cases hauth : isAuthoritative s.state = true
  · rw [if_neg (by simp [hauth]), hcurrent] at hl
    by_cases hrise : p.upward > severityIn s.state
    · rw [if_pos hrise] at hl
      obtain rfl := Option.some.inj hl
      have hone : changesLeft recovery p s.state = 1 := by
        unfold changesLeft
        rw [if_neg (by simp [hauth]), if_pos hrise]
      dsimp only
      omega
    · rw [if_neg hrise] at hl
      by_cases hfall : p.downward < severityIn s.state
      · rw [if_pos hfall] at hl
        have hlow : p.downward ≤ .severe := hfall.le.trans (currentSeverity_le_severe s)
        have hdown : changesLeft recovery p (stateOf p.downward) = 0 :=
          changesLeft_downward hlow hordered
        have hsome : 1 ≤ changesLeft recovery p s.state := by
          unfold changesLeft
          rw [if_neg (by simp [hauth]), if_neg hrise, if_pos hfall]
          split <;> omega
        by_cases hstate : s.state = .recovering
        · rw [if_pos hstate] at hl
          by_cases hclear : p.downward = .clear
          · rw [if_pos hclear] at hl
            obtain rfl := Option.some.inj hl
            have htarget : stateOf p.downward = .clear := by rw [hclear]; rfl
            rw [htarget] at hdown
            dsimp only
            omega
          · rw [if_neg hclear] at hl
            obtain rfl := Option.some.inj hl
            dsimp only
            omega
        · rw [if_neg hstate] at hl
          by_cases hdetour : recovery.enabled ∧ p.downward = .clear ∧
              severityIn s.state ≥ .congested
          · rw [if_pos hdetour] at hl
            obtain rfl := Option.some.inj hl
            have htwo : changesLeft recovery p s.state = 2 := by
              unfold changesLeft
              rw [if_neg (by simp [hauth]), if_neg hrise, if_pos hfall, if_pos ⟨hstate, hdetour⟩]
            dsimp only
            omega
          · rw [if_neg hdetour] at hl
            obtain rfl := Option.some.inj hl
            dsimp only
            omega
      · rw [if_neg hfall] at hl
        cases hl
  · have htwo : changesLeft recovery p s.state = 2 := if_pos (by simp [hauth])
    rw [if_pos (by simp [hauth])] at hl
    split_ifs at hl <;> obtain rfl := Option.some.inj hl <;> dsimp only <;> omega

variable (hysteresis recovery now) in
theorem step_descends (hv : p.hasValue = true) (hdeclared : p.upward ≤ .severe)
    (hordered : p.upward ≤ p.downward) (s : DomainState) :
    Run.Descends DomainState.state (changesLeft recovery p)
      ⟨s, now, (step s p hysteresis recovery now).1⟩ := by
  have hcase := step_cases s p hysteresis recovery now
  unfold Run.Descends
  dsimp only
  generalize step s p hysteresis recovery now = result at hcase ⊢
  cases hcase with
  | regressed | steady | confirms => exact .inl rfl
  | invalid _ hno | indeterminate _ hno => exact absurd (hv.symm.trans hno) (by decide)
  | pending aim => exact .inl (countSample_state _ _)
  | commits aim _ _ hl =>
    rw [commit_state]
    exact .inr (ladder_changesLeft hdeclared hordered hl)

/-- What a run shows that settles: two changes at most, and no state twice. -/
structure Settles {ι : Type} (es : List (Event DomainState ι)) : Prop where
  changes : (es.countP fun e => decide (Changes e)) ≤ 2
  once : ∀ pre e post, es = pre ++ e :: post → Changes e →
    ∀ later ∈ post, later.after.state ≠ e.before.state

theorem repeated_settles (hv : p.hasValue = true) (hdeclared : p.upward ≤ .severe)
    (hordered : p.upward ≤ p.downward) {s₀ : DomainState} {es : List (Event DomainState Tick)}
    (hrun : Repeated hysteresis recovery p s₀ es s) : Settles es := by
  have hdown : ∀ e ∈ es, Run.Descends DomainState.state (changesLeft recovery p) e := by
    intro e he
    have hstep : (step e.before p hysteresis recovery e.input).1 = e.after := hrun.mem_step he
    have hdescends := step_descends hysteresis recovery e.input hv hdeclared hordered e.before
    rw [hstep] at hdescends
    exact hdescends
  constructor
  case changes =>
    have hspent := hrun.changes_le hdown
    have hbudget := changesLeft_le recovery p s₀.state
    have hcount : (es.countP fun e => decide (Changes e)) =
        es.countP fun e => decide (e.after.state ≠ e.before.state) := rfl
    omega
  case once =>
    intro pre e post hes hchange
    exact hrun.never_again hdown hes hchange

end CongestionFabric.HysteresisEngine

namespace CongestionFabric.CongestionEvaluator

open HysteresisEngine

/-- What the evaluator proposes never falls below where it rises to, and a proposal like that,
repeated, settles. -/
theorem constant_evidence_settles {requested accepted : CongestionPolicy}
    (haccepted : validatePolicy requested = .ok accepted) :
    (∀ (request : EvaluationRequest) (context : EvaluationContext) (prior : DomainState)
        (outcome : EvaluationOutcome), context.policy = some accepted →
      evaluate request prior context = .ok outcome →
      ∃ p, proposalOf request accepted context prior = .ok p ∧
        outcome.updated = { (step (prepare request accepted context prior) p accepted.hysteresis
          accepted.recovery request.now).1 with lastEvaluatedTick := request.now } ∧
        p.upward ≤ .severe ∧ p.upward ≤ p.downward) ∧
    ∀ (hysteresis : HysteresisPolicy) (recovery : RecoveryPolicy) (p : SeverityProposal),
      p.hasValue = true → p.upward ≤ .severe → p.upward ≤ p.downward →
      ∀ (s₀ s : DomainState) (es : List (Event DomainState Tick)),
        Repeated hysteresis recovery p s₀ es s → Settles es := by
  obtain ⟨_, haccept⟩ := validatePolicy_accepted haccepted
  constructor
  · intro request context prior outcome hpolicy hevaluate
    obtain ⟨p, hproposal, hupdated⟩ := evaluate_updated hpolicy hevaluate
    obtain ⟨hdeclared, hordered⟩ := proposalOf_ordered haccept hproposal
    exact ⟨p, hproposal, hupdated, hdeclared, hordered⟩
  · intro hysteresis recovery p hv hdeclared hordered s₀ s es hrun
    exact repeated_settles hv hdeclared hordered hrun

theorem constant_evidence_settles_default : ∃ p s,
    (∃ outcome, evaluate (pairRequest 900000) {} pairContext = .ok outcome) ∧
    proposalOf (pairRequest 900000) makeDefaultPolicy pairContext {} = .ok p ∧
    p.upward ≤ p.downward ∧
    Repeated makeDefaultPolicy.hysteresis makeDefaultPolicy.recovery
      { upward := .clear, downward := .clear, hasValue := true } { state := .severe }
      (events (fun s now => (step s { upward := .clear, downward := .clear, hasValue := true }
        makeDefaultPolicy.hysteresis makeDefaultPolicy.recovery now).1) { state := .severe }
        [1, 2, 3, 4]) s ∧ s.state = .clear ∧
    Settles (events (fun s now => (step s
      { upward := .clear, downward := .clear, hasValue := true }
      makeDefaultPolicy.hysteresis makeDefaultPolicy.recovery now).1) { state := .severe }
      [1, 2, 3, 4]) := by
  obtain ⟨outcome, hevaluate⟩ : ∃ outcome, evaluate (pairRequest 900000) {} pairContext =
      .ok outcome := Result.exists_of_isOk (by decide +kernel)
  obtain ⟨hproposed, hsettles⟩ := constant_evidence_settles defaultPolicy_accepted
  obtain ⟨p, hproposal, _, _, hordered⟩ := hproposed _ _ _ _ rfl hevaluate
  have hrun := Run.of_events (fun s now => (step s
    { upward := .clear, downward := .clear, hasValue := true } makeDefaultPolicy.hysteresis
    makeDefaultPolicy.recovery now).1) { state := .severe } [1, 2, 3, 4]
  exact ⟨p, _, ⟨outcome, hevaluate⟩, hproposal, hordered, hrun, by decide +kernel,
    hsettles _ _ _ rfl (by decide) (by decide) _ _ _ hrun⟩

end CongestionFabric.CongestionEvaluator
