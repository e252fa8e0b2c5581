import CongestionFabric.Eval.Recovery
import CongestionFabric.Eval.BlackoutRecovery

namespace CongestionFabric.HysteresisEngine

variable {hysteresis : HysteresisPolicy} {recovery : RecoveryPolicy} {s : DomainState}
  {p : SeverityProposal} {now : Tick} {aim : Aim}

/-- One call of the machine, with the policies it is given. -/
structure StepCall where
  proposal : SeverityProposal
  hysteresis : HysteresisPolicy
  recovery : RecoveryPolicy
  now : Tick

/-- The calls made of one machine, each under policies of its own. -/
abbrev StepRun :=
  Run fun (s : DomainState) (i : StepCall) s' =>
    (step s i.proposal i.hysteresis i.recovery i.now).1 = s'

/-- Declared severities, at a tick that is one. -/
def StepCall.InRange (i : StepCall) : Prop :=
  i.proposal.upward ≤ .severe ∧ i.proposal.downward ≤ .severe ∧ i.now ≠ kNoTick

instance (i : StepCall) : Decidable i.InRange :=
  inferInstanceAs (Decidable (_ ∧ _ ∧ _))

/-- The ladder aims at states the machine can commit. -/
theorem ladder_authoritative (hup : p.upward ≤ .severe) (hdown : p.downward ≤ .severe)
    (h : ladder s p hysteresis recovery = some aim) : isAuthoritative aim.target = true := by
  have hrise := stateOf_authoritative hup
  have hfall := stateOf_authoritative hdown
  have hrecovering : isAuthoritative .recovering = true := rfl
  have hclear : isAuthoritative .clear = true := rfl
  unfold ladder at h
  split_ifs at h <;> obtain rfl := Option.some.inj h <;> assumption

/-- How the fields of a machine state hang together. -/
structure Consistent (s : DomainState) : Prop where
  unknown : s.state = .unknown → s.lastAuthoritativeTick = kNoTick
  dated : Dated s
  memory : isAuthoritative s.state = true → severityOf s.state = some s.lastCommittedSeverity
  streak : s.candidateStreak ≤ limits.kMaxHysteresisSamples
  candidate : s.candidateStreak ≠ 0 → isAuthoritative s.candidate = true ∧ s.candidate ≠ s.state

theorem severityOf_currentSeverity (h : isAuthoritative s.state = true) :
    severityOf s.state = some (currentSeverity s) := by
  rw [← severityOf_isSome] at h
  unfold currentSeverity
  obtain ⟨severity, hseverity⟩ := Option.isSome_iff_exists.mp h
  rw [hseverity]
  rfl

theorem countSample_streak_le (target : CongestionState)
    (h : s.candidateStreak ≤ limits.kMaxHysteresisSamples) :
    (countSample s target).candidateStreak ≤ limits.kMaxHysteresisSamples := by
  unfold countSample
  split_ifs with hc hlt
  · rw [UInt32.lt_iff_toNat_lt] at hlt
    rw [UInt32.le_iff_toNat_le]
    dsimp only
    rw [UInt32.toNat_add]
    have hmod := Nat.mod_le (s.candidateStreak.toNat + (1 : UInt32).toNat) (2 ^ 32)
    have hone : (1 : UInt32).toNat = 1 := rfl
    omega
  · exact h
  · exact (by decide : (1 : UInt32) ≤ limits.kMaxHysteresisSamples)

theorem indeterminateTarget_unknown {c : CongestionState}
    (h : indeterminateTarget s c = .unknown) : s.lastAuthoritativeTick = kNoTick := by
  unfold indeterminateTarget at h
  by_contra hdated
  split at h
  next => cases h
  next hc => exact hc ⟨h, hdated⟩

theorem consistent_step (hs : Consistent s) (hup : p.upward ≤ .severe)
    (hdown : p.downward ≤ .severe) (hnow : now ≠ kNoTick) :
    Consistent (step s p hysteresis recovery now).1 := by
  have hdated : Dated (step s p hysteresis recovery now).1 := dated_step hnow hs.dated
  have h := step_cases s p hysteresis recovery now
  generalize step s p hysteresis recovery now = result at h hdated ⊢
  cases h with
  | regressed | invalid => exact hs
  | indeterminate _ _ hi =>
    have hnone := indeterminate_not_authoritative (indeterminateTarget_indeterminate s hi)
    refine ⟨?_, hdated, ?_, ?_, ?_⟩
    · intro hunknown
      unfold stepIndeterminate at hunknown ⊢
      dsimp only at hunknown ⊢
      split at hunknown
      next hne => rw [if_pos hne]; exact indeterminateTarget_unknown hunknown
      next heq => rw [if_neg heq]; exact hs.unknown hunknown
    · intro ha
      unfold stepIndeterminate at ha
      dsimp only at ha
      split at ha
      next => exact absurd (hnone.symm.trans ha) Bool.false_ne_true
      next heq =>
        rw [← not_not.mp heq] at hnone
        exact absurd (hnone.symm.trans ha) Bool.false_ne_true
    · unfold stepIndeterminate
      dsimp only
      split <;> exact (by decide : (0 : UInt32) ≤ limits.kMaxHysteresisSamples)
    · unfold stepIndeterminate
      dsimp only
      split <;> exact fun hz => absurd rfl hz
  | steady _ _ hl =>
    have ha := ladder_none hl
    exact ⟨fun hunknown => absurd (hunknown ▸ ha : isAuthoritative .unknown = true) (by decide),
      hdated, fun _ => severityOf_currentSeverity ha,
      (by decide : (0 : UInt32) ≤ limits.kMaxHysteresisSamples), fun hz => absurd rfl hz⟩
  | confirms aim _ _ hl ha =>
    have hauth : isAuthoritative s.state = true := ha ▸ ladder_authoritative hup hdown hl
    exact ⟨fun hunknown => absurd (hunknown ▸ hauth : isAuthoritative .unknown = true) (by decide),
      hdated, hs.memory,
      (by decide : (0 : UInt32) ≤ limits.kMaxHysteresisSamples), fun hz => absurd rfl hz⟩
  | pending aim _ _ _ hl ha =>
    have hauth := ladder_authoritative hup hdown hl
    have hstreak := countSample_streak_le aim.target hs.streak
    rw [countSample_eq] at hdated ⊢
    exact ⟨hs.unknown, hdated, hs.memory, hstreak, fun _ => ⟨hauth, ha⟩⟩
  | commits aim _ _ hl =>
    have hauth := ladder_authoritative hup hdown hl
    have hseverity : (commit (countSample s aim.target) aim.target now).lastCommittedSeverity =
        (severityOf aim.target).getD .clear := commit_memory _ _ hauth
    have hcounted : (commit (countSample s aim.target) aim.target now).candidateStreak = 0 := by
      unfold commit
      split <;> rfl
    refine ⟨?_, hdated, ?_, ?_, ?_⟩
    · intro hunknown
      rw [commit_state] at hunknown
      exact absurd (hunknown ▸ hauth : isAuthoritative .unknown = true) (by decide)
    · intro _
      rw [commit_state, hseverity]
      rw [← severityOf_isSome] at hauth
      obtain ⟨severity, hsome⟩ := Option.isSome_iff_exists.mp hauth
      rw [hsome]
      rfl
    · dsimp only
      rw [hcounted]
      exact (by decide : (0 : UInt32) ≤ limits.kMaxHysteresisSamples)
    · exact fun hz => absurd hcounted hz

/-- A recorded tick is never taken back. -/
theorem step_undated (hnow : now ≠ kNoTick)
    (h : (step s p hysteresis recovery now).1.lastAuthoritativeTick = kNoTick) :
    s.lastAuthoritativeTick = kNoTick := by
  have hcase := step_cases s p hysteresis recovery now
  generalize step s p hysteresis recovery now = result at h hcase
  cases hcase with
  | regressed | invalid => exact h
  | indeterminate =>
    unfold stepIndeterminate at h
    dsimp only at h
    split at h <;> exact h
  | steady | confirms => exact absurd h hnow
  | pending aim =>
    rw [countSample_eq] at h
    exact h
  | commits aim =>
    rw [countSample_eq] at h
    unfold commit at h
    dsimp only at h
    split at h
    · exact absurd h hnow
    · exact h

variable (hysteresis recovery) in
/-- A step that changes the state dates the change and counts it; any other leaves both. -/
theorem step_dated (s : DomainState) (p : SeverityProposal) (now : Tick) :
    let s' := (step s p hysteresis recovery now).1
    (s'.state = s.state ∧ s'.lastChangeTick = s.lastChangeTick ∧
        s'.transitionCount = s.transitionCount) ∨
      (s'.state ≠ s.state ∧ s'.lastChangeTick = now ∧
        s'.transitionCount = s.transitionCount + 1) := by
  have hcase := step_cases s p hysteresis recovery now
  generalize step s p hysteresis recovery now = result at hcase ⊢
  dsimp only
  cases hcase with
  | regressed | invalid | steady | confirms => exact .inl ⟨rfl, rfl, rfl⟩
  | indeterminate =>
    unfold stepIndeterminate
    dsimp only
    by_cases hsame : s.state ≠ indeterminateTarget s p.indeterminate
    · rw [if_pos hsame]
      exact .inr ⟨hsame.symm, rfl, rfl⟩
    · rw [if_neg hsame]
      exact .inl ⟨rfl, rfl, rfl⟩
  | pending aim =>
    rw [countSample_eq]
    exact .inl ⟨rfl, rfl, rfl⟩
  | commits aim _ _ _ ha =>
    refine .inr ⟨?_, ?_, ?_⟩
    · rwa [commit_state]
    · unfold commit
      split <;> rfl
    · rw [countSample_eq]
      unfold commit
      split <;> rfl

/-- The counter counts the steps that change the state. -/
theorem step_transitionCount (s : DomainState) (p : SeverityProposal)
    (hysteresis : HysteresisPolicy) (recovery : RecoveryPolicy) (now : Tick) :
    (step s p hysteresis recovery now).1.transitionCount =
      if (step s p hysteresis recovery now).1.state ≠ s.state then s.transitionCount + 1
      else s.transitionCount := by
  rcases step_dated hysteresis recovery s p now with ⟨hkept, _, hcount⟩ | ⟨hchanged, _, hcount⟩
  · rw [if_neg (not_not.mpr hkept), hcount]
  · rw [if_pos hchanged, hcount]

variable {es : List (Event DomainState StepCall)}

def Changes {ι : Type} (e : Event DomainState ι) : Prop := e.after.state ≠ e.before.state

instance {ι : Type} (e : Event DomainState ι) : Decidable (Changes e) :=
  inferInstanceAs (Decidable (_ ≠ _))

/-- What a state says of the run that reached it. -/
structure Coherent (es : List (Event DomainState StepCall)) (s : DomainState) : Prop where
  unknown : s.state = .unknown → s.lastAuthoritativeTick = kNoTick ∧
    ∀ e ∈ es, isAuthoritative e.after.state = false
  authoritative : isAuthoritative s.state = true → s.lastAuthoritativeTick ≠ kNoTick ∧
    severityOf s.state = some s.lastCommittedSeverity
  streak : s.candidateStreak ≤ limits.kMaxHysteresisSamples
  candidate : s.candidateStreak > 0 → isAuthoritative s.candidate = true ∧ s.candidate ≠ s.state
  transitions : (es.countP fun e => decide (Changes e)) < 2 ^ 64 →
    s.transitionCount.toNat = es.countP fun e => decide (Changes e)

theorem run_consistent (h : StepRun {} es s) (hrange : ∀ e ∈ es, e.input.InRange) :
    Consistent s := by
  induction h with
  | start =>
    exact ⟨fun _ => rfl, fun ha => absurd ha (by decide), fun ha => absurd ha (by decide),
      by decide, fun hz => absurd rfl hz⟩
  | @next es s s' i run hs ih =>
    have hconsistent := ih fun e he => hrange e (List.mem_append_left _ he)
    obtain ⟨hup, hdown, hnow⟩ := hrange _ (List.mem_append_right _ List.mem_cons_self)
    rw [← hs]
    exact consistent_step hconsistent hup hdown hnow

theorem run_undated (h : StepRun {} es s) (hrange : ∀ e ∈ es, e.input.InRange)
    (hnone : s.lastAuthoritativeTick = kNoTick) :
    ∀ e ∈ es, isAuthoritative e.after.state = false := by
  induction h with
  | start => exact fun e he => absurd he List.not_mem_nil
  | @next es s s' i run hs ih =>
    have hearlier : ∀ e ∈ es, e.input.InRange := fun e he => hrange e (List.mem_append_left _ he)
    have hlast : i.InRange := hrange ⟨s, i, s'⟩ (List.mem_append_right _ List.mem_cons_self)
    have hconsistent : Consistent s' := run_consistent (run.next hs) hrange
    intro e he
    rcases List.mem_append.mp he with he | he
    · rw [← hs] at hnone
      exact ih hearlier (step_undated hlast.2.2 hnone) e he
    · obtain rfl := List.mem_singleton.mp he
      exact Bool.eq_false_iff.mpr fun ha => hconsistent.dated ha hnone

theorem run_transitionCount (h : StepRun {} es s) :
    s.transitionCount = UInt64.ofNat (es.countP fun e => decide (Changes e)) := by
  induction h with
  | start => rfl
  | @next es s s' i run hs ih =>
    have hcount := step_transitionCount s i.proposal i.hysteresis i.recovery i.now
    rw [hs, ih] at hcount
    rw [hcount, List.countP_append, List.countP_singleton]
    by_cases hchange : Changes ⟨s, i, s'⟩
    · have hstate : s'.state ≠ s.state := hchange
      rw [if_pos hstate, if_pos (decide_eq_true hchange), UInt64.ofNat_add]
      rfl
    · have hstate : ¬s'.state ≠ s.state := hchange
      rw [if_neg hstate, if_neg (fun h => hchange (of_decide_eq_true h)), Nat.add_zero]

/-- The fields of a domain state hang together in every run. -/
theorem run_coherent (h : StepRun {} es s) (hrange : ∀ e ∈ es, e.input.InRange) :
    Coherent es s := by
  have hconsistent := run_consistent h hrange
  constructor
  case unknown =>
    intro hunknown
    have hnone := hconsistent.unknown hunknown
    exact ⟨hnone, run_undated h hrange hnone⟩
  case authoritative =>
    intro ha
    exact ⟨hconsistent.dated ha, hconsistent.memory ha⟩
  case streak => exact hconsistent.streak
  case candidate =>
    intro hpos
    exact hconsistent.candidate fun hz => absurd (hz ▸ hpos) (by decide)
  case transitions =>
    intro hbound
    rw [run_transitionCount h, UInt64.toNat_ofNat']
    exact Nat.mod_eq_of_lt hbound

/-- A rise and a blackout, under the default policy. -/
def riseAndBlackout : List StepCall :=
  let call (proposal : SeverityProposal) (now : Tick) : StepCall :=
    ⟨proposal, makeDefaultPolicy.hysteresis, makeDefaultPolicy.recovery, now⟩
  [call (proposes .severe .severe 1).1 1, call (proposes .severe .severe 2).1 2,
    call (refuses .unknown 3).1 3]

theorem run_coherent_blackout : ∃ s,
    StepRun {} (events (fun s i => (step s i.proposal i.hysteresis i.recovery i.now).1) {}
      riseAndBlackout) s ∧
    Coherent (events (fun s i => (step s i.proposal i.hysteresis i.recovery i.now).1) {}
      riseAndBlackout) s := by
  have hrange : ∀ e ∈ events (fun s i => (step s i.proposal i.hysteresis i.recovery i.now).1) {}
      riseAndBlackout, e.input.InRange := by
    decide
  exact ⟨_, Run.of_events _ _ _, run_coherent (Run.of_events _ _ _) hrange⟩

end CongestionFabric.HysteresisEngine
