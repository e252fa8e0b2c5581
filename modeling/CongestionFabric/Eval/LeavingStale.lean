import CongestionFabric.Eval.Revalidation

namespace CongestionFabric

namespace HysteresisEngine

variable {hysteresis : HysteresisPolicy} {recovery : RecoveryPolicy} {s : DomainState}
  {p : SeverityProposal} {now : Tick} {aim : Aim}

theorem stateOf_ne_stale (v : Severity) : stateOf v ≠ .stale := by
  cases v <;> simp [stateOf]

/-- The ladder never points at STALE. -/
theorem ladder_ne_stale (h : ladder s p hysteresis recovery = some aim) : aim.target ≠ .stale := by
  unfold ladder at h
  split_ifs at h <;> obtain rfl := Option.some.inj h <;>
    first
      | exact stateOf_ne_stale _
      | simp

/-- Without dwell nothing holds a STALE domain back. -/
theorem held_stale (hs : s.state = .stale) (hdwell : hysteresis.minDwellTicks = 0) :
    held s aim hysteresis recovery now = none := by
  unfold held
  rw [hdwell, hs]
  simp

/-- A sample that leaves a domain STALE is counted, and is not yet the last one needed. -/
theorem step_stays_stale (hdwell : hysteresis.minDwellTicks = 0) (ht : tickRegressed s now = false)
    (hv : p.hasValue = true) (hl : ladder s p hysteresis recovery = some aim)
    (hstays : (step s p hysteresis recovery now).1.state = .stale) :
    (step s p hysteresis recovery now).1 = countSample s aim.target ∧
      (countSample s aim.target).candidateStreak < capRequired aim.required := by
  have hcase := step_cases s p hysteresis recovery now
  have haim : ∀ aim', ladder s p hysteresis recovery = some aim' → aim' = aim := by
    intro aim' h
    exact Option.some.inj (h.symm.trans hl)
  have hmoves : aim.target ≠ .stale := ladder_ne_stale hl
  generalize step s p hysteresis recovery now = result at hcase hstays ⊢
  cases hcase with
  | regressed hreg => simp [ht] at hreg
  | invalid _ hno | indeterminate _ hno => simp [hv] at hno
  | steady _ _ hnone =>
    rw [hl] at hnone
    cases hnone
  | confirms aim' _ _ h hsame =>
    obtain rfl := haim aim' h
    exact absurd (hsame.trans hstays) hmoves
  | pending aim' reason _ _ h _ hwait =>
    obtain rfl := haim aim' h
    have hs : s.state = .stale := (countSample_state s _).symm.trans hstays
    exact ⟨rfl, hwait.resolve_left (not_not.mpr (held_stale hs hdwell))⟩
  | commits aim' _ _ h =>
    obtain rfl := haim aim' h
    have hcommitted : (commit (countSample s aim'.target) aim'.target now).state = aim'.target :=
      commit_state _ _ _
    exact absurd (hcommitted.symm.trans hstays) hmoves

end HysteresisEngine

namespace CongestionEvaluator

open HysteresisEngine

variable {policy : CongestionPolicy} {s s' : DomainState} {es : List (Event DomainState Call)}
  {aim : Aim}

/-- The evidence of an evaluation bears a value, there is no dwell, and the ladder points from the
state before to where this aim says. -/
def Points (aim : Aim) (e : Event DomainState Call) : Prop :=
  ∃ policy p, e.input.context.policy = some policy ∧ policy.hysteresis.minDwellTicks = 0 ∧
    proposalOf e.input.request policy e.input.context e.before = .ok p ∧ p.hasValue = true ∧
    ladder e.before p policy.hysteresis policy.recovery = some aim

/-- Evaluations that leave a domain STALE are fewer than the move they point at needs. -/
theorem run_stays_stale (run : EvaluationRun policy s es s')
    (hfolded : ∀ e ∈ es, tickRegressed e.before e.input.request.now = false)
    (hpoints : ∀ e ∈ es, Points aim e) (hstays : ∀ e ∈ es, e.after.state = .stale) :
    es.length ≤ countedToward s' aim.target ∧
      (es ≠ [] → es.length < (capRequired aim.required).toNat) := by
  induction run with
  | start => exact ⟨Nat.zero_le _, fun h => absurd rfl h⟩
  | @next es s₁ s₂ call run hstep ih =>
    obtain ⟨hcounted, hfew⟩ := ih (fun e he => hfolded e (List.mem_append_left _ he))
      (fun e he => hpoints e (List.mem_append_left _ he))
      (fun e he => hstays e (List.mem_append_left _ he))
    have hmem : (⟨s₁, call, s₂⟩ : Event DomainState Call) ∈ es ++ [⟨s₁, call, s₂⟩] := by simp
    have ht : tickRegressed s₁ call.request.now = false := hfolded _ hmem
    have hstate : s₂.state = .stale := hstays _ hmem
    obtain ⟨policy', p, hpolicy', hdwell, hproposal, hv, hl⟩ := hpoints _ hmem
    dsimp only at hpolicy' hproposal hl
    obtain ⟨hpolicy, outcome, heval, rfl⟩ := hstep
    obtain rfl := Option.some.inj (hpolicy'.symm.trans hpolicy)
    obtain ⟨p', hproposal', hupdated⟩ := evaluate_updated hpolicy heval
    obtain rfl := Except.ok.inj (hproposal'.symm.trans hproposal)
    rw [hupdated] at hstate
    obtain ⟨hcount, hshort⟩ :=
      @step_stays_stale _ _ (prepare call.request policy' call.context s₁) _ _ _ hdwell ht hv hl
        hstate
    rw [countSample_prepare] at hshort
    have hroom : es.length + 1 ≤ limits.kMaxHysteresisSamples.toNat := by
      have hcap := capRequired_le aim.required
      by_cases hnil : es = []
      · rw [hnil]
        decide
      · have := hfew hnil
        omega
    have hnext : es.length + 1 ≤ countedToward (countSample s₁ aim.target) aim.target :=
      (countedToward_countSample hroom).mpr hcounted
    have hstreak : countedToward (countSample s₁ aim.target) aim.target =
        (countSample s₁ aim.target).candidateStreak.toNat := if_pos (countSample_candidate s₁ _)
    have hshort := UInt32.lt_iff_toNat_lt.mp hshort
    rw [List.length_append, List.length_singleton]
    refine ⟨?_, fun _ => by omega⟩
    rw [hupdated, hcount]
    unfold countedToward at hnext ⊢
    dsimp only
    rw [countSample_candidate] at hnext ⊢
    rw [countSample_prepare]
    exact hnext

/-- As many evaluations as the move they point at needs take a domain out of STALE. -/
theorem leaves_stale (run : EvaluationRun policy s es s') (hsome : es ≠ [])
    (hfolded : ∀ e ∈ es, tickRegressed e.before e.input.request.now = false)
    (hpoints : ∀ e ∈ es, Points aim e)
    (henough : (capRequired aim.required).toNat ≤ es.length) :
    ∃ e ∈ es, e.after.state ≠ .stale := by
  by_contra hnone
  have hstays : ∀ e ∈ es, e.after.state = .stale := by
    intro e he
    by_contra hleft
    exact hnone ⟨e, he, hleft⟩
  have hfew := (run_stays_stale run hfolded hpoints hstays).2 hsome
  omega

end CongestionEvaluator

end CongestionFabric
