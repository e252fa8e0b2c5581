import CongestionFabric.Eval.HysteresisRun
import CongestionFabric.Model.PolicyValidation

namespace CongestionFabric.HysteresisEngine

variable {hysteresis : HysteresisPolicy} {recovery : RecoveryPolicy} {s : DomainState}
  {p : SeverityProposal} {now : Tick} {aim : Aim}

/-- In a determinate state the memory is the severity of that state. -/
def MemoryKept (s : DomainState) : Prop :=
  isAuthoritative s.state = true → s.lastCommittedSeverity = currentSeverity s

theorem indeterminate_not_authoritative {c : CongestionState} (h : isIndeterminate c = true) :
    isAuthoritative c = false := by
  cases c <;> simp_all [isIndeterminate, isAuthoritative]

theorem indeterminateTarget_indeterminate {c : CongestionState} (s : DomainState)
    (h : isIndeterminate c = true) : isIndeterminate (indeterminateTarget s c) = true := by
  unfold indeterminateTarget
  split
  · rfl
  · exact h

theorem ladder_none (h : ladder s p hysteresis recovery = none) :
    isAuthoritative s.state = true := by
  by_contra hn
  unfold ladder at h
  rw [if_pos (by simpa using hn)] at h
  split_ifs at h

theorem commit_state (s : DomainState) (target : CongestionState) (now : Tick) :
    (commit s target now).state = target := by
  unfold commit
  split <;> rfl

theorem commit_memory (s : DomainState) {target : CongestionState} (now : Tick)
    (h : isAuthoritative target = true) :
    (commit s target now).lastCommittedSeverity = (severityOf target).getD .clear := by
  simp [commit, h]

/-- In a determinate state the tick of the last determinate one is recorded. -/
def Dated (s : DomainState) : Prop :=
  isAuthoritative s.state = true → s.lastAuthoritativeTick ≠ kNoTick

theorem dated_step (hnow : now ≠ kNoTick) (hd : Dated s) :
    Dated (step s p hysteresis recovery now).1 := by
  have h := step_cases s p hysteresis recovery now
  generalize step s p hysteresis recovery now = result at h ⊢
  cases h with
  | regressed | invalid => exact hd
  | steady | confirms => exact fun _ => hnow
  | indeterminate _ _ hi =>
    intro ha
    have hnone := indeterminate_not_authoritative (indeterminateTarget_indeterminate s hi)
    unfold stepIndeterminate at ha ⊢
    dsimp only at ha ⊢
    split at ha
    next => exact absurd (hnone.symm.trans ha) Bool.false_ne_true
    next hs =>
      rw [← not_not.mp hs] at hnone
      exact absurd (hnone.symm.trans ha) Bool.false_ne_true
  | pending aim =>
    rw [countSample_eq]
    exact hd
  | commits aim =>
    intro ha
    rw [commit_state] at ha
    unfold commit
    rw [if_pos ha]
    exact hnow

variable (hysteresis recovery) in
/-- A value-bearing step stays where it is, memory included, or commits the aim it waited for. -/
theorem value_step (ht : tickRegressed s now = false) (hv : p.hasValue = true)
    (hm : MemoryKept s) :
    ((step s p hysteresis recovery now).1.state = s.state ∧
      (step s p hysteresis recovery now).1.lastCommittedSeverity = s.lastCommittedSeverity) ∨
    ∃ aim, ladder s p hysteresis recovery = some aim ∧ aim.target ≠ s.state ∧
      capRequired aim.required ≤ (countSample s aim.target).candidateStreak ∧
      (step s p hysteresis recovery now).1 =
        commit (countSample s aim.target) aim.target now := by
  have h := step_cases s p hysteresis recovery now
  generalize step s p hysteresis recovery now = result at h ⊢
  cases h with
  | regressed hreg => simp [ht] at hreg
  | invalid _ hv' | indeterminate _ hv' => simp [hv] at hv'
  | steady _ _ hl => exact .inl ⟨rfl, (hm (ladder_none hl)).symm⟩
  | confirms => exact .inl ⟨rfl, rfl⟩
  | pending aim =>
    rw [countSample_eq]
    exact .inl ⟨rfl, rfl⟩
  | commits aim _ _ hl ha _ hn => exact .inr ⟨aim, hl, ha, hn, rfl⟩

variable (hysteresis recovery) in
/-- A refusal to decide leaves a state that decides nothing and keeps the memory. -/
theorem blackout_step (ht : tickRegressed s now = false) (hv : p.hasValue = false)
    (hi : isIndeterminate p.indeterminate = true) :
    isAuthoritative (step s p hysteresis recovery now).1.state = false ∧
      (step s p hysteresis recovery now).1.lastCommittedSeverity = s.lastCommittedSeverity := by
  have h := step_cases s p hysteresis recovery now
  generalize step s p hysteresis recovery now = result at h ⊢
  cases h with
  | regressed hreg => simp [ht] at hreg
  | invalid _ _ hi' => simp [hi] at hi'
  | steady _ hv' | confirms _ _ hv' | pending _ _ _ hv' | commits _ _ hv' => simp [hv] at hv'
  | indeterminate =>
    have ha := indeterminate_not_authoritative (indeterminateTarget_indeterminate s hi)
    unfold stepIndeterminate
    dsimp only
    split
    next => exact ⟨ha, rfl⟩
    next hs => exact ⟨by rw [not_not.mp hs]; exact ha, rfl⟩

theorem memoryKept_step (ht : tickRegressed s now = false)
    (hw : p.hasValue = true ∨ isIndeterminate p.indeterminate = true) (hm : MemoryKept s) :
    MemoryKept (step s p hysteresis recovery now).1 := by
  intro ha
  cases hv : p.hasValue with
  | false =>
    have hb := blackout_step hysteresis recovery ht hv
      (hw.resolve_left (by simp [hv]))
    simp [hb.1] at ha
  | true =>
    rcases value_step hysteresis recovery ht hv hm with
      ⟨hs, hc⟩ | ⟨aim, _, _, _, hc⟩
    · rw [hc, hm (hs ▸ ha), currentSeverity, currentSeverity, hs]
    · rw [hc, commit_state] at ha
      rw [hc, commit_memory _ _ ha, currentSeverity, commit_state]

/-- CONGESTED or SEVERE, or blind with a memory of one of them. -/
def CongestedMemory (s : DomainState) : Prop :=
  s.state = .congested ∨ s.state = .severe ∨
    (isAuthoritative s.state = false ∧ s.lastCommittedSeverity ≥ .congested)

/-- WATCH, or blind with a memory of it. -/
def WatchMemory (s : DomainState) : Prop :=
  s.state = .watch ∨ (isAuthoritative s.state = false ∧ s.lastCommittedSeverity = .watch)

theorem stateOf_authoritative {v : Severity} (h : v ≤ .severe) :
    isAuthoritative (stateOf v) = true := by
  rcases Severity.declared_cases h with rfl | rfl | rfl | rfl <;> rfl

/-- From CONGESTED or SEVERE the ladder leads within them, to RECOVERING on a Clear proposal, or
one rung down to WATCH. -/
theorem ladder_from_congested (hs : s.state = .congested ∨ s.state = .severe)
    (hw : WellFormed p) (he : recovery.enabled = true)
    (hl : ladder s p hysteresis recovery = some aim) :
    (aim.target = .congested ∨ aim.target = .severe) ∨
      (aim = ⟨.recovering, recoverySamples recovery, false⟩ ∧ p.downward = .clear) ∨
      (aim = ⟨.watch, atLeastOne hysteresis.deescalateSamples, false⟩ ∧ p.downward = .watch) := by
  obtain ⟨hu, hd, _⟩ := hw
  rcases hs with hs | hs <;>
    rcases Severity.declared_cases hu with hu | hu | hu | hu <;>
    rcases Severity.declared_cases hd with hd | hd | hd | hd <;>
    simp [ladder, hs, hu, hd, he, isAuthoritative, currentSeverity, severityOf, stateOf,
      Severity.lt_iff, Severity.le_iff, Severity.toRaw] at hl <;>
    simp [← hl, hd]

/-- Leaving a refusal to decide with a congested memory is an escalation or a recovery. -/
theorem ladder_from_blind_congested (hs : isAuthoritative s.state = false)
    (hm : s.lastCommittedSeverity ≥ .congested) (hw : WellFormed p)
    (he : recovery.enabled = true) (hl : ladder s p hysteresis recovery = some aim) :
    (aim.target = .congested ∨ aim.target = .severe) ∨
      (aim = ⟨.recovering, recoverySamples recovery, false⟩ ∧ p.upward < .congested) := by
  unfold ladder at hl
  rw [if_pos (by simp [hs])] at hl
  split_ifs at hl with hc hr
  · cases hl
    rcases Severity.declared_cases hw.1 with hu | hu | hu | hu <;>
      simp_all [stateOf, Severity.le_iff, Severity.toRaw]
  · cases hl
    exact .inr ⟨rfl, not_le.mp hc⟩
  · exact absurd ⟨he, hm⟩ hr

theorem ladder_from_recovering (hs : s.state = .recovering) (hw : WellFormed p)
    (hl : ladder s p hysteresis recovery = some aim) :
    (aim.target = .congested ∨ aim.target = .severe) ∨
      (aim = ⟨.clear, atLeastOne recovery.clearSamples, false⟩ ∧ p.downward = .clear) := by
  obtain ⟨hu, hd, _⟩ := hw
  rcases Severity.declared_cases hu with hu | hu | hu | hu <;>
    rcases Severity.declared_cases hd with hd | hd | hd | hd <;>
    simp [ladder, hs, hu, hd, isAuthoritative, currentSeverity, severityOf, stateOf,
      Severity.lt_iff, Severity.toRaw] at hl <;>
    simp [← hl, hd]

theorem ladder_from_watch (hs : s.state = .watch) (hw : WellFormed p)
    (hl : ladder s p hysteresis recovery = some aim) :
    (aim.target = .congested ∨ aim.target = .severe) ∨
      (aim = ⟨.clear, atLeastOne hysteresis.deescalateSamples, false⟩ ∧
        p.downward = .clear) := by
  obtain ⟨hu, hd, _⟩ := hw
  rcases Severity.declared_cases hu with hu | hu | hu | hu <;>
    rcases Severity.declared_cases hd with hd | hd | hd | hd <;>
    simp [ladder, hs, hu, hd, isAuthoritative, currentSeverity, severityOf, stateOf,
      Severity.lt_iff, Severity.le_iff, Severity.toRaw] at hl <;>
    simp [← hl, hd]

theorem ladder_from_blind_watch (hs : isAuthoritative s.state = false)
    (hm : s.lastCommittedSeverity = .watch) (hw : WellFormed p)
    (hl : ladder s p hysteresis recovery = some aim) :
    (aim.target = .congested ∨ aim.target = .severe) ∨
      (aim.target = .watch ∧ p.upward = .watch) ∨
      (aim = ⟨.clear, 1, false⟩ ∧ p.upward = .clear) := by
  unfold ladder at hl
  rw [if_pos (by simp [hs])] at hl
  rcases Severity.declared_cases hw.1 with hu | hu | hu | hu <;>
    simp [hu, hm, stateOf, Severity.le_iff, Severity.toRaw] at hl <;>
    simp [← hl, hu]

end CongestionFabric.HysteresisEngine
