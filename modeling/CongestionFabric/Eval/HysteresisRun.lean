import CongestionFabric.Eval.HysteresisStep

namespace CongestionFabric.HysteresisEngine

variable {hysteresis : HysteresisPolicy} {recovery : RecoveryPolicy}

/-- One input of the machine: a proposal and the tick it is folded at. -/
abbrev Sample := SeverityProposal × Tick

abbrev MachineRun (hysteresis : HysteresisPolicy) (recovery : RecoveryPolicy) :=
  Run fun (s : DomainState) (i : Sample) s' => (step s i.1 hysteresis recovery i.2).1 = s'

def proposes (upward downward : Severity) (now : Tick) : Sample :=
  ({ upward, downward, hasValue := true }, now)

def refuses (c : CongestionState) (now : Tick) : Sample := ({ indeterminate := c }, now)

/-- The proposals the evaluator can build: declared severities, and a refusal to decide that
names CONFLICT, STALE or UNKNOWN. -/
def WellFormed (p : SeverityProposal) : Prop :=
  p.upward ≤ .severe ∧ p.downward ≤ .severe ∧
    (p.hasValue = true ∨ isIndeterminate p.indeterminate = true)

def Advancing (es : List (Event DomainState Sample)) : Prop :=
  (∀ e ∈ es, e.input.2 ≠ kNoTick) ∧ es.Pairwise fun a b => a.input.2 < b.input.2

instance (p : SeverityProposal) : Decidable (WellFormed p) :=
  inferInstanceAs (Decidable (_ ∧ _ ∧ _))

instance (es : List (Event DomainState Sample)) : Decidable (Advancing es) :=
  inferInstanceAs (Decidable (_ ∧ _))

/-- The machine folding a list of samples. -/
def fold (hysteresis : HysteresisPolicy) (recovery : RecoveryPolicy) (s : DomainState)
    (i : Sample) : DomainState :=
  (step s i.1 hysteresis recovery i.2).1

/-- The event proposes this target with a value. -/
def Aims (hysteresis : HysteresisPolicy) (recovery : RecoveryPolicy) (target : CongestionState)
    (e : Event DomainState Sample) : Prop :=
  e.input.1.hasValue = true ∧
    ∃ aim, ladder e.before e.input.1 hysteresis recovery = some aim ∧ aim.target = target

def AimsFrom (hysteresis : HysteresisPolicy) (recovery : RecoveryPolicy)
    (state target : CongestionState) (e : Event DomainState Sample) : Prop :=
  Aims hysteresis recovery target e ∧ e.before.state = state

/-- The streak counts the latest events, all aiming from the held state at the candidate. -/
def StreakWindow (hysteresis : HysteresisPolicy) (recovery : RecoveryPolicy)
    (es : List (Event DomainState Sample)) (s : DomainState) : Prop :=
  Trailing (AimsFrom hysteresis recovery s.state s.candidate) s.candidateStreak.toNat es

variable (hysteresis recovery) in
theorem step_ticks (s : DomainState) (p : SeverityProposal) (now : Tick) :
    (step s p hysteresis recovery now).1.lastEvaluatedTick = s.lastEvaluatedTick ∧
    ((step s p hysteresis recovery now).1.lastChangeTick = s.lastChangeTick ∨
      (step s p hysteresis recovery now).1.lastChangeTick = now) := by
  have h := step_cases s p hysteresis recovery now
  generalize step s p hysteresis recovery now = result at h ⊢
  cases h with
  | regressed | invalid => simp
  | indeterminate =>
    unfold stepIndeterminate
    dsimp only
    split <;> simp
  | steady | confirms => simp [steadied, confirmed]
  | pending aim => rw [countSample_eq]; simp
  | commits aim =>
    rw [countSample_eq]
    unfold commit
    split <;> simp

theorem run_ticks {s : DomainState} {es : List (Event DomainState Sample)}
    (h : MachineRun hysteresis recovery {} es s) :
    s.lastEvaluatedTick = kNoTick ∧
      (s.lastChangeTick = kNoTick ∨ ∃ e ∈ es, e.input.2 = s.lastChangeTick) := by
  induction h with
  | start => exact ⟨rfl, .inl rfl⟩
  | @next es s s' i run hs ih =>
    obtain ⟨he, hc⟩ := step_ticks hysteresis recovery s i.1 i.2
    rw [hs] at he hc
    refine ⟨he.trans ih.1, ?_⟩
    rcases hc with hc | hc
    · rcases ih.2 with hz | ⟨e, hm, ht⟩
      · exact .inl (hc.trans hz)
      · exact .inr ⟨e, List.mem_append_left _ hm, ht.trans hc.symm⟩
    · exact .inr ⟨_, List.mem_append_right _ List.mem_cons_self, hc.symm⟩

theorem advancing_append {es es' : List (Event DomainState Sample)}
    (h : Advancing (es ++ es')) : Advancing es :=
  ⟨fun e he => h.1 e (List.mem_append_left _ he), (List.pairwise_append.mp h.2).1⟩

/-- At advancing ticks a run from the initial state refuses no tick. -/
theorem run_not_regressed {s : DomainState} {es : List (Event DomainState Sample)}
    {e : Event DomainState Sample} (h : MachineRun hysteresis recovery {} es s)
    (ha : Advancing (es ++ [e])) : tickRegressed s e.input.2 = false := by
  obtain ⟨he, hc⟩ := run_ticks h
  have hlater : s.lastChangeTick = kNoTick ∨ ¬ e.input.2 < s.lastChangeTick := by
    rcases hc with hz | ⟨e', hm, ht⟩
    · exact .inl hz
    · have hlt := (List.pairwise_append.mp ha.2).2.2 e' hm e List.mem_cons_self
      rw [← ht]
      exact .inr (UInt64.lt_asymm hlt)
  rcases hlater with hz | hn
  · simp [tickRegressed, he, hz]
  · simp [tickRegressed, he, hn]

theorem countSample_streak (s : DomainState) (target : CongestionState) :
    (s.candidate = target ∧
        (countSample s target).candidateStreak.toNat ≤ s.candidateStreak.toNat + 1) ∨
      (countSample s target).candidateStreak = 1 := by
  unfold countSample
  split_ifs with h hlt
  · refine .inl ⟨h.1, ?_⟩
    simp only [UInt32.toNat_add, UInt32.toNat_one]
    exact Nat.mod_le _ _
  · exact .inl ⟨h.1, by omega⟩
  · exact .inr rfl

/-- A counted sample extends the window of the streak it continues. -/
theorem streakWindow_count {es : List (Event DomainState Sample)} {s : DomainState}
    {e : Event DomainState Sample} {target : CongestionState}
    (h : StreakWindow hysteresis recovery es s)
    (he : AimsFrom hysteresis recovery s.state target e) :
    Trailing (AimsFrom hysteresis recovery s.state target)
      (countSample s target).candidateStreak.toNat (es ++ [e]) := by
  rcases countSample_streak s target with ⟨rfl, hn⟩ | hn
  · exact (h.snoc he).of_le hn
  · rw [hn]
    exact (Trailing.zero es).snoc he

theorem run_streakWindow {s : DomainState} {es : List (Event DomainState Sample)}
    (h : MachineRun hysteresis recovery {} es s) (ha : Advancing es)
    (hw : ∀ e ∈ es, WellFormed e.input.1) : StreakWindow hysteresis recovery es s := by
  induction h with
  | start => exact Trailing.zero []
  | @next es s s' i run hs ih =>
    have hwin := ih (advancing_append ha) fun e he => hw e (List.mem_append_left _ he)
    have hwf := (hw _ (List.mem_append_right _ List.mem_cons_self)).2.2
    have ht := run_not_regressed run ha
    have hcase := step_cases s i.1 hysteresis recovery i.2
    have hs' : (step s i.1 hysteresis recovery i.2).1 = s' := hs
    generalize step s i.1 hysteresis recovery i.2 = result at hcase hs'
    subst hs'
    cases hcase with
    | regressed hreg => simp [ht] at hreg
    | invalid _ hv hi => simp [hv, hi] at hwf
    | indeterminate =>
      have hz : (stepIndeterminate s (indeterminateTarget s i.1.indeterminate) i.2).1.candidateStreak
          = 0 := by
        unfold stepIndeterminate
        dsimp only
        split <;> rfl
      unfold StreakWindow
      rw [hz]
      exact Trailing.zero _
    | steady | confirms => exact Trailing.zero _
    | pending aim _ _ hv hl ha' =>
      unfold StreakWindow
      dsimp only
      rw [countSample_candidate, countSample_state]
      exact streakWindow_count hwin ⟨⟨hv, aim, hl, rfl⟩, rfl⟩
    | commits aim =>
      have hz : (commit (countSample s aim.target) aim.target i.2).candidateStreak = 0 := by
        unfold commit
        split <;> rfl
      unfold StreakWindow
      rw [hz]
      exact Trailing.zero _

end CongestionFabric.HysteresisEngine
