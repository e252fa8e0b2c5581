import CongestionFabric.Lib.Run
import CongestionFabric.Eval.Hysteresis

namespace CongestionFabric.HysteresisEngine

variable {s : DomainState} {proposal : SeverityProposal} {hysteresis : HysteresisPolicy}
  {recovery : RecoveryPolicy} {now : Tick}

def steadied (s : DomainState) (now : Tick) : DomainState :=
  { s with
    candidate := s.state
    candidateStreak := 0
    lastAuthoritativeTick := now
    lastCommittedSeverity := currentSeverity s }

def confirmed (s : DomainState) (now : Tick) : DomainState :=
  { s with candidate := s.state, candidateStreak := 0, lastAuthoritativeTick := now }

/-- Everything one step can do to the machine, with the guards it passed. -/
inductive StepCase (s : DomainState) (proposal : SeverityProposal)
    (hysteresis : HysteresisPolicy) (recovery : RecoveryPolicy) (now : Tick) :
    DomainState × HysteresisStep → Prop where
  | regressed (ht : tickRegressed s now = true) :
    StepCase s proposal hysteresis recovery now (s, ⟨s.state, false, .tickRegression⟩)
  | invalid (ht : tickRegressed s now = false) (hv : proposal.hasValue = false)
      (hi : isIndeterminate proposal.indeterminate = false) :
    StepCase s proposal hysteresis recovery now (s, ⟨s.state, false, .invalidProposal⟩)
  | indeterminate (ht : tickRegressed s now = false) (hv : proposal.hasValue = false)
      (hi : isIndeterminate proposal.indeterminate = true) :
    StepCase s proposal hysteresis recovery now
      (stepIndeterminate s (indeterminateTarget s proposal.indeterminate) now)
  | steady (ht : tickRegressed s now = false) (hv : proposal.hasValue = true)
      (hl : ladder s proposal hysteresis recovery = none) :
    StepCase s proposal hysteresis recovery now (steadied s now, ⟨s.state, false, .steady⟩)
  | confirms (aim : Aim) (ht : tickRegressed s now = false) (hv : proposal.hasValue = true)
      (hl : ladder s proposal hysteresis recovery = some aim) (ha : aim.target = s.state) :
    StepCase s proposal hysteresis recovery now (confirmed s now, ⟨s.state, false, .steady⟩)
  | pending (aim : Aim) (reason : StepReason) (ht : tickRegressed s now = false)
      (hv : proposal.hasValue = true)
      (hl : ladder s proposal hysteresis recovery = some aim) (ha : aim.target ≠ s.state)
      (hw : held s aim hysteresis recovery now ≠ none ∨
        (countSample s aim.target).candidateStreak < capRequired aim.required) :
    StepCase s proposal hysteresis recovery now
      (countSample s aim.target, ⟨s.state, false, reason⟩)
  | commits (aim : Aim) (ht : tickRegressed s now = false) (hv : proposal.hasValue = true)
      (hl : ladder s proposal hysteresis recovery = some aim) (ha : aim.target ≠ s.state)
      (hh : held s aim hysteresis recovery now = none)
      (hn : capRequired aim.required ≤ (countSample s aim.target).candidateStreak) :
    StepCase s proposal hysteresis recovery now
      (commit (countSample s aim.target) aim.target now,
        ⟨aim.target, true, commitReason aim⟩)

@[simp] theorem countSample_state (s : DomainState) (target : CongestionState) :
    (countSample s target).state = s.state := by
  unfold countSample
  split_ifs <;> rfl

@[simp] theorem countSample_lastChangeTick (s : DomainState) (target : CongestionState) :
    (countSample s target).lastChangeTick = s.lastChangeTick := by
  unfold countSample
  split_ifs <;> rfl

@[simp] theorem countSample_candidate (s : DomainState) (target : CongestionState) :
    (countSample s target).candidate = target := by
  unfold countSample
  split_ifs with h
  · exact h.1
  · exact h.1
  · rfl

/-- Counting a sample touches the candidate and its streak only. -/
theorem countSample_eq (s : DomainState) (target : CongestionState) :
    countSample s target =
      { s with
        candidate := target
        candidateStreak := (countSample s target).candidateStreak } := by
  unfold countSample
  split_ifs with h
  · obtain ⟨rfl, _⟩ := h
    rfl
  · obtain ⟨rfl, _⟩ := h
    rfl
  · rfl

theorem held_countSample (s : DomainState) (target : CongestionState) (aim : Aim) :
    held (countSample s target) aim hysteresis recovery now =
      held s aim hysteresis recovery now := by
  simp [held]

theorem step_cases (s : DomainState) (proposal : SeverityProposal)
    (hysteresis : HysteresisPolicy) (recovery : RecoveryPolicy) (now : Tick) :
    StepCase s proposal hysteresis recovery now (step s proposal hysteresis recovery now) := by
  unfold step
  split
  next ht => exact .regressed ht
  next ht =>
    have ht : tickRegressed s now = false := by simpa using ht
    split
    next hv =>
      have hv : proposal.hasValue = false := by simpa using hv
      split
      next hi => exact .invalid ht hv (by simpa using hi)
      next hi => exact .indeterminate ht hv (by simpa using hi)
    next hv =>
      have hv : proposal.hasValue = true := by simpa using hv
      split
      next hl => exact .steady ht hv hl
      next aim hl =>
        unfold stepToward
        split
        next ha => exact .confirms aim ht hv hl ha
        next ha =>
          dsimp only
          rw [held_countSample]
          split
          next reason hh =>
            simpa using StepCase.pending aim reason ht hv hl ha (.inl (by simp [hh]))
          next hh =>
            split
            next hn => simpa using StepCase.pending aim _ ht hv hl ha (.inr hn)
            next hn => exact .commits aim ht hv hl ha hh (UInt32.not_lt.mp hn)

/-- A tick passes when it is behind neither recorded tick. -/
theorem tickRegressed_eq_false : tickRegressed s now = false ↔
    s.lastChangeTick ≤ now ∧ s.lastEvaluatedTick ≤ now := by
  have hguard : ∀ t : Tick, (t ≠ kNoTick && now < t) = false ↔ t ≤ now := by
    intro t
    by_cases hnone : t = kNoTick
    · rw [hnone]
      exact iff_of_true rfl (UInt64.le_iff_toNat_le.mpr (Nat.zero_le _))
    · simp [hnone]
  unfold tickRegressed
  rw [Bool.or_eq_false_iff]
  exact and_congr (hguard _) (hguard _)

/-- No step touches the name of the domain or the count of its evaluations. -/
theorem step_carries (s : DomainState) (proposal : SeverityProposal) (now : Tick) :
    (step s proposal hysteresis recovery now).1.domain = s.domain ∧
      (step s proposal hysteresis recovery now).1.evaluationCount = s.evaluationCount := by
  have h := step_cases s proposal hysteresis recovery now
  generalize step s proposal hysteresis recovery now = result at h ⊢
  cases h with
  | regressed | invalid | steady | confirms => exact ⟨rfl, rfl⟩
  | indeterminate =>
    unfold stepIndeterminate
    dsimp only
    split <;> exact ⟨rfl, rfl⟩
  | pending aim =>
    rw [countSample_eq]
    exact ⟨rfl, rfl⟩
  | commits aim =>
    rw [countSample_eq]
    unfold commit
    split <;> exact ⟨rfl, rfl⟩

end CongestionFabric.HysteresisEngine
