import CongestionFabric.Eval.HysteresisRun
import CongestionFabric.Eval.SingleMetric

namespace CongestionFabric

namespace HysteresisEngine

variable {hysteresis : HysteresisPolicy} {recovery : RecoveryPolicy} {s : DomainState}
  {p : SeverityProposal} {level u v : Severity} {now : Tick}

theorem severityOf_stateOf (h : u ≤ .severe) : severityOf (stateOf u) = some u := by
  cases u with
  | undeclared raw hraw =>
    have hle : raw.toNat ≤ 3 := h
    omega
  | _ => rfl

theorem stateOf_inj (hu : u ≤ .severe) (hv : v ≤ .severe) (h : stateOf u = stateOf v) : u = v := by
  have hsome := severityOf_stateOf hu
  rw [h, severityOf_stateOf hv] at hsome
  exact (Option.some.inj hsome).symm

theorem currentSeverity_stateOf (h : u ≤ .severe) (hs : s.state = stateOf u) :
    currentSeverity s = u := by
  rw [currentSeverity, hs, severityOf_stateOf h]
  rfl

theorem currentSeverity_le_severe (s : DomainState) : currentSeverity s ≤ .severe := by
  unfold currentSeverity
  cases s.state with
  | undeclared raw hraw => exact (by decide : Severity.clear ≤ .severe)
  | _ => decide

/-- A severity of CONGESTED or worse is one the machine committed and is not recovering from. -/
theorem committed_of_congested (h : .congested ≤ currentSeverity s) :
    isAuthoritative s.state = true ∧ s.state ≠ .recovering := by
  unfold currentSeverity at h
  revert h
  cases s.state with
  | undeclared raw hraw => exact fun h => absurd h (by decide : ¬Severity.congested ≤ .clear)
  | _ => decide

/-- A proposal that supports this severity; falling is never easier than rising. -/
structure Supports (level : Severity) (p : SeverityProposal) : Prop where
  value : p.hasValue = true
  level : level ≤ p.upward
  declared : p.upward ≤ .severe
  ordered : p.upward ≤ p.downward

/-- From below the level every supporting proposal is an escalation. -/
theorem ladder_below (hlevel : .congested ≤ level) (hbelow : currentSeverity s < level)
    (hp : Supports level p) : ladder s p hysteresis recovery =
      some ⟨stateOf p.upward, atLeastOne hysteresis.escalateSamples, true⟩ := by
  unfold ladder
  split
  · exact if_pos (hlevel.trans hp.level)
  · exact if_pos (hbelow.trans_le hp.level)

/-- From the level or above a supporting proposal aims no lower than the level. -/
theorem ladder_above {aim : Aim} (hlevel : .congested ≤ level) (habove : level ≤ currentSeverity s)
    (hp : Supports level p) (h : ladder s p hysteresis recovery = some aim) :
    ∃ severity, level ≤ severity ∧ severity ≤ .severe ∧ aim.target = stateOf severity := by
  obtain ⟨hauthoritative, hrecovering⟩ := committed_of_congested (hlevel.trans habove)
  have hdown : level ≤ p.downward := hp.level.trans hp.ordered
  have hclear : p.downward ≠ .clear := by
    intro hc
    rw [hc] at hdown
    exact absurd (hlevel.trans hdown) (by decide)
  unfold ladder at h
  rw [if_neg (by simp [hauthoritative])] at h
  split at h
  · obtain rfl := Option.some.inj h
    exact ⟨_, hp.level, hp.declared, rfl⟩
  · split at h
    next hlt =>
      rw [if_neg (fun hc => hclear hc.2.1)] at h
      obtain rfl := Option.some.inj h
      exact ⟨_, hdown, hlt.le.trans (currentSeverity_le_severe s), rfl⟩
    next => exact absurd h (by simp)

/-- At the level or above, supporting proposals keep the machine there. -/
theorem step_keeps_level (hlevel : .congested ≤ level) (habove : level ≤ currentSeverity s)
    (hp : Supports level p) :
    level ≤ currentSeverity (step s p hysteresis recovery now).1 := by
  have h := step_cases s p hysteresis recovery now
  generalize step s p hysteresis recovery now = result at h ⊢
  cases h with
  | regressed | steady | confirms => exact habove
  | invalid _ hv | indeterminate _ hv => exact absurd (hp.value.symm.trans hv) (by decide)
  | pending aim =>
    unfold currentSeverity
    rw [countSample_state]
    exact habove
  | commits aim _ _ hl =>
    obtain ⟨severity, hle, hdeclared, htarget⟩ := ladder_above hlevel habove hp hl
    have hstate : (commit (countSample s aim.target) aim.target now).state = stateOf severity := by
      unfold commit
      split <;> exact htarget
    rw [currentSeverity_stateOf hdeclared hstate]
    exact hle

/-- The samples a state already counts towards a severity. -/
def carried (s : DomainState) (severity : Severity) : Nat :=
  if s.candidate = stateOf severity then s.candidateStreak.toNat else 0

/-- The domain is RECOVERING and its hold has not elapsed. -/
def HoldsRecovering (s : DomainState) (recovery : RecoveryPolicy) (now : Tick) : Prop :=
  s.state = .recovering ∧ recovery.recoveringHoldTicks > 0 ∧ s.lastChangeTick ≠ kNoTick ∧
    elapsedSince now s.lastChangeTick < recovery.recoveringHoldTicks

theorem countSample_candidateStreak (s : DomainState) (target : CongestionState) :
    (countSample s target).candidateStreak =
      if s.candidate = target ∧ s.candidateStreak > 0 then
        if s.candidateStreak < limits.kMaxHysteresisSamples then s.candidateStreak + 1
        else s.candidateStreak
      else 1 := by
  unfold countSample
  split_ifs <;> rfl

/-- The streak counts up to the cap. -/
theorem carried_count (u : Severity) :
    carried (countSample s (stateOf u)) u ≤ carried s u + 1 ∧
      (carried s u + 1 ≤ carried (countSample s (stateOf u)) u ∨
        limits.kMaxHysteresisSamples.toNat ≤ carried (countSample s (stateOf u)) u) := by
  have hcarried : carried (countSample s (stateOf u)) u =
      (countSample s (stateOf u)).candidateStreak.toNat := if_pos (countSample_candidate s _)
  rw [hcarried]
  unfold countSample carried
  split_ifs with h hlt hc hc hc
  · have hcap : s.candidateStreak.toNat < limits.kMaxHysteresisSamples.toNat := hlt
    have hmax : limits.kMaxHysteresisSamples.toNat = 1048576 := rfl
    have hadd : (s.candidateStreak + 1).toNat = s.candidateStreak.toNat + 1 := by
      rw [UInt32.toNat_add]
      exact Nat.mod_eq_of_lt (by simp only [UInt32.toNat_one]; omega)
    dsimp only
    omega
  · exact absurd h.1 hc
  · exact ⟨by omega, .inr (UInt32.not_lt.mp hlt)⟩
  · exact absurd h.1 hc
  · have hzero : s.candidateStreak = 0 := by
      by_contra hne
      exact h ⟨hc, UInt32.pos_iff_ne_zero.mpr hne⟩
    simp [hzero]
  · simp

theorem carried_other (hu : u ≤ .severe) (hv : v ≤ .severe) (hne : u ≠ v) :
    carried (countSample s (stateOf u)) v = 0 := by
  unfold carried
  rw [countSample_candidate]
  exact if_neg fun h => hne (stateOf_inj hu hv h)

theorem held_escalation (hdwell : hysteresis.applyDwellOnEscalation = false)
    (target : CongestionState) (required : UInt32) :
    held s ⟨target, required, true⟩ hysteresis recovery now = none ↔
      ¬HoldsRecovering s recovery now := by
  unfold held HoldsRecovering
  simp [hdwell]

/-- What one supporting proposal does to a machine below the level: it escalates once the streak
is full and no hold is on, and is counted otherwise. -/
theorem step_below (hdwell : hysteresis.applyDwellOnEscalation = false)
    (hsamples : hysteresis.escalateSamples ≠ 0 ∧
      hysteresis.escalateSamples ≤ limits.kMaxHysteresisSamples)
    (hlevel : .congested ≤ level) (hbelow : currentSeverity s < level) (hp : Supports level p)
    (ht : tickRegressed s now = false) :
    (hysteresis.escalateSamples.toNat ≤ carried s p.upward + 1 ∧ ¬HoldsRecovering s recovery now →
      (step s p hysteresis recovery now).1.state = stateOf p.upward) ∧
    (¬(hysteresis.escalateSamples.toNat ≤ carried s p.upward + 1 ∧
        ¬HoldsRecovering s recovery now) →
      (step s p hysteresis recovery now).1 = countSample s (stateOf p.upward)) := by
  have hladder : ladder s p hysteresis recovery =
      some ⟨stateOf p.upward, atLeastOne hysteresis.escalateSamples, true⟩ :=
    ladder_below hlevel hbelow hp
  have hrequired : capRequired (atLeastOne hysteresis.escalateSamples) =
      hysteresis.escalateSamples := by
    rw [atLeastOne, if_neg hsamples.1, capRequired, if_neg (UInt32.not_lt.mpr hsamples.2)]
  have hne : stateOf p.upward ≠ s.state := by
    intro heq
    rw [currentSeverity_stateOf hp.declared heq.symm] at hbelow
    exact absurd hp.level (not_le_of_gt hbelow)
  have hcarried : carried (countSample s (stateOf p.upward)) p.upward =
      (countSample s (stateOf p.upward)).candidateStreak.toNat :=
    if_pos (countSample_candidate s _)
  have hfull : hysteresis.escalateSamples ≤ (countSample s (stateOf p.upward)).candidateStreak ↔
      hysteresis.escalateSamples.toNat ≤ carried s p.upward + 1 := by
    obtain ⟨hle, hge⟩ := carried_count (s := s) p.upward
    have hcap : hysteresis.escalateSamples.toNat ≤ limits.kMaxHysteresisSamples.toNat :=
      hsamples.2
    rw [UInt32.le_iff_toNat_le, ← hcarried]
    omega
  have h := step_cases s p hysteresis recovery now
  generalize step s p hysteresis recovery now = result at h ⊢
  cases h with
  | regressed hreg => exact absurd (ht.symm.trans hreg) (by decide)
  | invalid _ hv | indeterminate _ hv => exact absurd (hp.value.symm.trans hv) (by decide)
  | steady _ _ hl => exact absurd (hladder.symm.trans hl) (by simp)
  | confirms aim _ _ hl ha =>
    obtain rfl := Option.some.inj (hladder.symm.trans hl)
    exact absurd ha hne
  | pending aim reason _ _ hl _ hw =>
    obtain rfl := Option.some.inj (hladder.symm.trans hl)
    refine ⟨fun hgo => ?_, fun _ => rfl⟩
    rcases hw with hheld | hshort
    · exact absurd ((held_escalation hdwell _ _).mpr hgo.2) hheld
    · rw [hrequired] at hshort
      exact absurd (hfull.mpr hgo.1) (UInt32.not_le.mpr hshort)
  | commits aim _ _ hl _ hh hn =>
    obtain rfl := Option.some.inj (hladder.symm.trans hl)
    refine ⟨fun _ => ?_, fun hwait => ?_⟩
    · unfold commit
      split <;> rfl
    · rw [hrequired] at hn
      exact absurd ⟨hfull.mp hn, (held_escalation hdwell _ _).mp hh⟩ hwait

end HysteresisEngine

namespace CongestionEvaluator

open HysteresisEngine

/-- Consecutive evaluations under one policy, each from the state the last one left. -/
abbrev EvaluationRun (policy : CongestionPolicy) :=
  Run fun (s : DomainState) (i : Call) s' => i.context.policy = some policy ∧
    ∃ outcome, evaluate i.request s i.context = .ok outcome ∧ outcome.updated = s'

/-- The proposal of an evaluation is this. -/
def Proposed (policy : CongestionPolicy) (e : Event DomainState Call)
    (p : SeverityProposal) : Prop :=
  proposalOf e.input.request policy e.input.context e.before = .ok p

/-- The evaluation proposes an upward severity of at least this level. -/
def Rising (policy : CongestionPolicy) (level : Severity) (e : Event DomainState Call) :
    Prop :=
  ∃ p, Proposed policy e p ∧ p.hasValue = true ∧ level ≤ p.upward

/-- Ticks that do not decrease, none before those the state records. -/
def InTime (s : DomainState) (ticks : List Tick) : Prop :=
  (∀ now ∈ ticks, tickRegressed s now = false) ∧ ticks.Pairwise (· ≤ ·)

/-- Some evaluation and all before it propose one severity, with the samples the state already
counts towards it they are as many as an escalation needs, and no recovering hold is on there. -/
def Prompt (policy : CongestionPolicy) (s : DomainState) (es : List (Event DomainState Call)) :
    Prop :=
  ∃ lead e rest severity, es = lead ++ e :: rest ∧
    (∀ e' ∈ lead ++ [e], ∃ p, Proposed policy e' p ∧ p.upward = severity) ∧
    policy.hysteresis.escalateSamples.toNat ≤ carried s severity + lead.length + 1 ∧
    ¬HoldsRecovering s policy.recovery e.input.request.now

variable {policy : CongestionPolicy} {request : EvaluationRequest} {context : EvaluationContext}
  {prior s s' : DomainState} {level : Severity}

theorem aggregate_ordered {cs : List Classified} (h : ∀ c ∈ cs, Grounded c) :
    (aggregate cs).upward ≤ .severe ∧ (aggregate cs).upward ≤ (aggregate cs).downward := by
  obtain ⟨_, _, _, hup, hdown⟩ := aggregate_map cs (f := id)
    fun c => ⟨rfl, rfl, le_refl _, le_refl _⟩
  rw [List.map_id] at hup hdown
  rcases (hup _).mp (le_refl _) with hclear | ⟨c, hc, hcov, hle⟩
  · exact ⟨hclear.trans (by decide), (hdown _).mpr (.inl hclear)⟩
  · exact ⟨hle.trans (h c hc).declared,
      (hdown _).mpr (.inr ⟨c, hc, hcov, hle.trans (h c hc).ordered⟩)⟩

theorem propose_ordered {g : Aggregate} (hdeclared : g.upward ≤ .severe)
    (hordered : g.upward ≤ g.downward) :
    (propose policy prior g).upward ≤ .severe ∧
      (propose policy prior g).upward ≤ (propose policy prior g).downward := by
  have hclear : Severity.clear ≤ .severe := by decide
  unfold propose
  split
  · exact ⟨hclear, le_refl _⟩
  · split
    · exact ⟨hclear, le_refl _⟩
    · split
      · exact ⟨max_le hdeclared (by decide), max_le_max_right _ hordered⟩
      · exact ⟨hdeclared, hordered⟩

/-- Under an accepted policy a proposal is a declared severity, and falling is never easier than
rising. -/
theorem proposalOf_ordered (h : Accepted policy) {p : SeverityProposal}
    (hp : proposalOf request policy context prior = .ok p) :
    p.upward ≤ .severe ∧ p.upward ≤ p.downward := by
  unfold proposalOf at hp
  simp only [bind_ok] at hp
  obtain ⟨resources, _, a, hassess, hp⟩ := hp
  obtain rfl := Except.ok.inj hp
  have hgrounded : ∀ c ∈ (classifyScope request policy context resources).classified, Grounded c :=
    classifyScope_grounded request context
  obtain ⟨a', hspread, hneutral⟩ := spreadPressure_neutral h context.topology hgrounded
  obtain rfl : a' = a := Except.ok.inj (hspread.symm.trans hassess)
  obtain ⟨hdeclared, hordered⟩ := aggregate_ordered hgrounded
  rw [← hneutral.aggregate] at hdeclared hordered
  exact propose_ordered hdeclared hordered

/-- An evaluation folds its proposal into the prior state and records its tick. -/
theorem evaluate_updated {outcome : EvaluationOutcome} (hp : context.policy = some policy)
    (h : evaluate request prior context = .ok outcome) :
    ∃ p, proposalOf request policy context prior = .ok p ∧
      outcome.updated = { (step (prepare request policy context prior) p policy.hysteresis
        policy.recovery request.now).1 with lastEvaluatedTick := request.now } := by
  obtain ⟨_, resources, a, hp', _, _, hs, ha, rfl⟩ := evaluate_ok h
  obtain rfl := Option.some.inj (hp.symm.trans hp')
  exact ⟨_, bind_ok.mpr ⟨resources, hs, bind_ok.mpr ⟨a, ha, rfl⟩⟩, rfl⟩

theorem Rising.supports (h : Accepted policy) {e : Event DomainState Call}
    (hr : Rising policy level e) : ∃ p, Proposed policy e p ∧ Supports level p := by
  obtain ⟨p, hp, hv, hle⟩ := hr
  obtain ⟨hdeclared, hordered⟩ := proposalOf_ordered h hp
  exact ⟨p, hp, hv, hle, hdeclared, hordered⟩

/-- Once the level is committed, further evaluations at the level or above keep it. -/
theorem run_keeps_level (h : Accepted policy) (hlevel : .congested ≤ level)
    {es : List (Event DomainState Call)} (hrun : EvaluationRun policy s es s')
    (habove : level ≤ currentSeverity s) (hrising : ∀ e ∈ es, Rising policy level e) :
    level ≤ currentSeverity s' := by
  induction hrun with
  | start => exact habove
  | @next es s₁ s₂ i _ hstep ih =>
    have hbefore := ih fun e he => hrising e (List.mem_append_left _ he)
    obtain ⟨p, hp, hsupports⟩ := (hrising _ (List.mem_append_right _ List.mem_cons_self)).supports h
    obtain ⟨hpolicy, outcome, heval, rfl⟩ := hstep
    obtain ⟨p', hp', hupdated⟩ := evaluate_updated hpolicy heval
    obtain rfl : p = p' := Except.ok.inj (hp.symm.trans hp')
    rw [hupdated]
    exact step_keeps_level (s := prepare i.request policy i.context s₁) hlevel hbefore hsupports

theorem Prompt.cons_iff {e : Event DomainState Call} {es : List (Event DomainState Call)}
    {p : SeverityProposal} (hp : Proposed policy e p) : Prompt policy s (e :: es) ↔
      (policy.hysteresis.escalateSamples.toNat ≤ carried s p.upward + 1 ∧
        ¬HoldsRecovering s policy.recovery e.input.request.now) ∨
      ∃ lead e' rest, es = lead ++ e' :: rest ∧
        (∀ e'' ∈ lead ++ [e'], ∃ p', Proposed policy e'' p' ∧ p'.upward = p.upward) ∧
        policy.hysteresis.escalateSamples.toNat ≤ carried s p.upward + lead.length + 2 ∧
        ¬HoldsRecovering s policy.recovery e'.input.request.now := by
  have hunique : ∀ {p' : SeverityProposal}, Proposed policy e p' → p' = p := fun hp' =>
    Except.ok.inj (hp'.symm.trans hp)
  constructor
  · rintro ⟨lead, e', rest, severity, hes, hsame, hn, hhold⟩
    cases lead with
    | nil =>
      obtain ⟨rfl, rfl⟩ := List.cons.inj hes
      obtain ⟨p', hp', rfl⟩ := hsame e List.mem_cons_self
      rw [hunique hp'] at hn
      exact .inl ⟨hn, hhold⟩
    | cons first lead =>
      obtain ⟨rfl, rfl⟩ := List.cons.inj hes
      obtain ⟨p', hp', rfl⟩ := hsame e List.mem_cons_self
      rw [hunique hp'] at hn hsame
      refine .inr ⟨lead, e', rest, rfl, fun e'' he'' => hsame e'' (List.mem_cons_of_mem _ he''),
        ?_, hhold⟩
      rw [List.length_cons] at hn
      omega
  · rintro (⟨hn, hhold⟩ | ⟨lead, e', rest, rfl, hsame, hn, hhold⟩)
    · exact ⟨[], e, es, p.upward, rfl, fun e' he' => ⟨p, List.mem_singleton.mp he' ▸ hp, rfl⟩, hn,
        hhold⟩
    · refine ⟨e :: lead, e', rest, p.upward, rfl, fun e'' he'' => ?_, ?_, hhold⟩
      · rcases List.mem_cons.mp he'' with rfl | he''
        · exact ⟨p, hp, rfl⟩
        · exact hsame e'' he''
      · rw [List.length_cons]
        omega

theorem holdsRecovering_congr {s s' : DomainState} {recovery : RecoveryPolicy} {now : Tick}
    (hstate : s'.state = s.state) (hchange : s'.lastChangeTick = s.lastChangeTick) :
    HoldsRecovering s' recovery now ↔ HoldsRecovering s recovery now := by
  unfold HoldsRecovering
  rw [hstate, hchange]

theorem carried_congr {s s' : DomainState} {severity : Severity}
    (hcandidate : s'.candidate = s.candidate) (hstreak : s'.candidateStreak = s.candidateStreak) :
    carried s' severity = carried s severity := by
  unfold carried
  rw [hcandidate, hstreak]

theorem countSample_prepare (target : CongestionState) :
    (countSample (prepare request policy context prior) target).candidateStreak =
      (countSample prior target).candidateStreak := by
  rw [countSample_candidateStreak, countSample_candidateStreak]
  rfl

/-- After one more counted evaluation, the condition on the evaluations left is that on the whole
list, when they are fewer than an escalation needs. -/
theorem Prompt.counted_iff {s₁ : DomainState} {e : Event DomainState Call}
    {es : List (Event DomainState Call)} {p : SeverityProposal} (h : Accepted policy)
    (hp : Proposed policy e p)
    (hwait : ¬(policy.hysteresis.escalateSamples.toNat ≤ carried s p.upward + 1 ∧
      ¬HoldsRecovering s policy.recovery e.input.request.now))
    (hstate : s₁.state = s.state) (hchange : s₁.lastChangeTick = s.lastChangeTick)
    (hcarried : ∀ severity, carried s₁ severity = carried (countSample s (stateOf p.upward)) severity)
    (hfew : es.length < policy.hysteresis.escalateSamples.toNat) :
    Prompt policy s₁ es ↔ Prompt policy s (e :: es) := by
  obtain ⟨_, hcap⟩ := (validateHysteresis_samples h.hysteresis).1
  have hcap : policy.hysteresis.escalateSamples.toNat ≤ limits.kMaxHysteresisSamples.toNat := hcap
  obtain ⟨hle, hge⟩ := carried_count (s := s) p.upward
  rw [Prompt.cons_iff hp, or_iff_right hwait]
  constructor
  · rintro ⟨lead, e', rest, severity, rfl, hsame, hn, hhold⟩
    obtain ⟨p', hp', hseverity⟩ := hsame e' (List.mem_append_right _ List.mem_cons_self)
    by_cases hother : p.upward = severity
    · subst hother
      rw [hcarried] at hn
      exact ⟨lead, e', rest, rfl, hsame, by omega,
        fun hh => hhold ((holdsRecovering_congr hstate hchange).mpr hh)⟩
    · rw [hcarried, carried_other (proposalOf_ordered h hp).1
        (hseverity ▸ (proposalOf_ordered h hp').1) hother] at hn
      simp only [List.length_append, List.length_cons] at hfew
      omega
  · rintro ⟨lead, e', rest, rfl, hsame, hn, hhold⟩
    refine ⟨lead, e', rest, p.upward, rfl, hsame, ?_,
      fun hh => hhold ((holdsRecovering_congr hstate hchange).mp hh)⟩
    rw [hcarried]
    omega

/-- From below the level, at most as many rising evaluations as an escalation needs commit the
level exactly when they are prompt. -/
theorem run_rises_iff (h : Accepted policy)
    (hdwell : policy.hysteresis.applyDwellOnEscalation = false) (hlevel : .congested ≤ level)
    {es : List (Event DomainState Call)} (hbelow : currentSeverity s < level)
    (hrun : EvaluationRun policy s es s')
    (hlength : es.length ≤ policy.hysteresis.escalateSamples.toNat)
    (hrising : ∀ e ∈ es, Rising policy level e)
    (htime : InTime s (es.map (·.input.request.now))) :
    level ≤ currentSeverity s' ↔ Prompt policy s es := by
  induction es generalizing s with
  | nil =>
    obtain rfl := hrun.nil_eq
    refine iff_of_false (not_le_of_gt hbelow) ?_
    rintro ⟨lead, e, rest, severity, hes, _⟩
    exact absurd hes (by simp)
  | cons e es ih =>
    obtain ⟨rfl, ⟨hpolicy, outcome, heval, hafter⟩, hrest⟩ := hrun.cons_inv
    obtain ⟨hfirst, hlater⟩ := List.forall_mem_cons.mp hrising
    obtain ⟨hregressed, hticks⟩ := htime
    obtain ⟨hnow, hsorted⟩ := List.pairwise_cons.mp hticks
    obtain ⟨p, hp, hsupports⟩ := hfirst.supports h
    obtain ⟨p', hp', hupdated⟩ := evaluate_updated hpolicy heval
    obtain rfl : p = p' := Except.ok.inj (hp.symm.trans hp')
    obtain ⟨hcommits, hcounts⟩ :=
      @step_below _ policy.recovery (prepare e.input.request policy e.input.context e.before) _ _ _
        hdwell (validateHysteresis_samples h.hysteresis).1 hlevel hbelow hsupports
        (hregressed _ List.mem_cons_self)
    rw [hupdated] at hafter
    rw [List.length_cons] at hlength
    by_cases hgo : policy.hysteresis.escalateSamples.toNat ≤ carried e.before p.upward + 1 ∧
        ¬HoldsRecovering e.before policy.recovery e.input.request.now
    · have hstate : e.after.state = stateOf p.upward := hafter ▸ hcommits hgo
      have habove : level ≤ currentSeverity e.after := by
        rw [currentSeverity_stateOf hsupports.declared hstate]
        exact hsupports.level
      exact iff_of_true (run_keeps_level h hlevel hrest habove hlater)
        ((Prompt.cons_iff hp).mpr (.inl hgo))
    · rw [hcounts hgo, countSample_eq] at hafter
      have hstate : e.after.state = e.before.state := hafter ▸ rfl
      have hchange : e.after.lastChangeTick = e.before.lastChangeTick := hafter ▸ rfl
      have hevaluated : e.after.lastEvaluatedTick = e.input.request.now := hafter ▸ rfl
      have hcarried : ∀ severity, carried e.after severity =
          carried (countSample e.before (stateOf p.upward)) severity := by
        intro severity
        refine carried_congr ?_ ?_
        · rw [← hafter, countSample_candidate]
        · rw [← hafter]
          exact countSample_prepare _
      rw [← Prompt.counted_iff h hp hgo hstate hchange hcarried (by omega)]
      refine ih ?_ hrest (by omega) hlater ⟨?_, hsorted⟩
      · unfold currentSeverity
        rw [hstate]
        exact hbelow
      · intro now hmem
        have hbefore := hregressed now (List.mem_cons_of_mem _ hmem)
        have hle := hnow now hmem
        unfold tickRegressed at hbefore ⊢
        rw [hchange, hevaluated]
        simp only [Bool.or_eq_false_iff] at hbefore ⊢
        exact ⟨hbefore.1, by simp [UInt64.not_lt.mpr hle]⟩

/-- The next evaluations, as many as an escalation needs, all rise to a level above the committed
severity: it is committed after the last of them exactly when they are prompt. -/
theorem escalates_promptly_iff {requested accepted : CongestionPolicy}
    (haccepted : validatePolicy requested = .ok accepted)
    (hdwell : accepted.hysteresis.applyDwellOnEscalation = false) (hlevel : .congested ≤ level)
    {es : List (Event DomainState Call)} (hbelow : currentSeverity s < level)
    (hrun : EvaluationRun accepted s es s')
    (hlength : es.length = accepted.hysteresis.escalateSamples.toNat)
    (hrising : ∀ e ∈ es, Rising accepted level e)
    (htime : InTime s (es.map (·.input.request.now))) :
    level ≤ currentSeverity s' ↔ Prompt accepted s es :=
  run_rises_iff (validatePolicy_accepted haccepted).2 hdwell hlevel hbelow hrun hlength.le hrising
    htime

theorem EvaluationRun.of_inputs (inputs : List Call)
    (h : ∀ e ∈ events committed s inputs, e.input.context.policy = some policy ∧
      (evaluate e.input.request e.before e.input.context).isOk = true) :
    EvaluationRun policy s (events committed s inputs) (inputs.foldl committed s) := by
  refine ((Run.of_events committed s inputs).guarded (P := fun s i =>
    i.context.policy = some policy ∧ (evaluate i.request s i.context).isOk = true) h).mono ?_
  rintro s₁ i s₂ ⟨hafter, hpolicy, hok⟩
  obtain ⟨outcome, heval⟩ := Result.exists_of_isOk hok
  refine ⟨hpolicy, outcome, heval, ?_⟩
  rw [← hafter, committed, heval]

theorem rising_iff {e : Event DomainState Call} : Rising policy level e ↔
    (proposalOf e.input.request policy e.input.context e.before).toOption.any
      (fun p => p.hasValue && decide (level ≤ p.upward)) = true := by
  unfold Rising Proposed
  cases proposalOf e.input.request policy e.input.context e.before with
  | error => simp [Except.toOption]
  | ok p => simp [Except.toOption]

instance (e : Event DomainState Call) : Decidable (Rising policy level e) :=
  decidable_of_iff _ rising_iff.symm

/-- The default policy, with two samples to an escalation. -/
def patientPolicy : CongestionPolicy :=
  let policy := { makeDefaultPolicy with
    hysteresis := { makeDefaultPolicy.hysteresis with escalateSamples := 2 } }
  { policy with fingerprint := fingerprintPolicy policy }

theorem patientPolicy_accepted : validatePolicy patientPolicy = .ok patientPolicy := by
  decide +kernel

/-- One resource, saturated, at this queue occupancy. -/
def saturated (occupancy : UInt64) (now : Tick) : Call where
  request := {
    domain := ⟨1⟩, epoch := ⟨1⟩, now
    evidence := {
      id := ⟨1⟩, epoch := ⟨1⟩, submittedTick := now
      samples := [{
        resource := ⟨1⟩, publisher := ⟨1⟩, publisherBoot := ⟨1⟩, epoch := ⟨1⟩, generation := ⟨1⟩
        sequence := 1, observedTick := now
        metrics := ((∅ : MetricSet).insert .utilizationPpm 990000).insert .queueOccupancyPpm
          occupancy }] } }
  context := { pairContext with policy := some patientPolicy, now }

def clearState : DomainState where
  domain := ⟨1⟩
  state := .clear
  lastChangeTick := 9
  lastAuthoritativeTick := 9
  lastEvaluatedTick := 9

/-- Two SEVERE proposals in a row. -/
def steadyRise : List (Event DomainState Call) :=
  events committed clearState [saturated 990000 10, saturated 990000 11]

/-- A CONGESTED proposal, then a SEVERE one. -/
def waveringRise : List (Event DomainState Call) :=
  events committed clearState [saturated 600000 10, saturated 990000 11]

theorem rises_inTime : InTime clearState [10, 11] := by
  constructor
  · rw [List.forall_mem_cons, List.forall_mem_singleton]
    constructor
    · decide +kernel
    · decide +kernel
  · decide

theorem escalates_promptly_iff_steady : ∃ s', EvaluationRun patientPolicy clearState steadyRise s' ∧
    Severity.congested ≤ currentSeverity s' := by
  have hrun : EvaluationRun patientPolicy clearState steadyRise _ :=
    EvaluationRun.of_inputs [saturated 990000 10, saturated 990000 11] (by decide +kernel)
  obtain ⟨first, second, hes⟩ : ∃ first second, steadyRise = [first, second] := ⟨_, _, rfl⟩
  have hsevere : ∀ e ∈ steadyRise,
      proposalOf e.input.request patientPolicy e.input.context e.before =
        .ok { upward := .severe, downward := .severe, hasValue := true } := by
    decide +kernel
  have hprompt : Prompt patientPolicy clearState steadyRise := by
    refine ⟨[first], second, [], .severe, hes, fun e he => ?_, ?_, ?_⟩
    · exact ⟨_, hsevere e (hes ▸ he), rfl⟩
    · show 2 ≤ carried clearState .severe + 2
      decide
    · rintro ⟨hstate, _⟩
      exact absurd hstate (by decide)
  exact ⟨_, hrun, (escalates_promptly_iff patientPolicy_accepted (by decide) (by decide) (by decide)
    hrun (by decide) (by decide +kernel) rises_inTime).mpr hprompt⟩

/-- The two proposals support CONGESTED alike and name different targets: the streak starts again
and the domain stays CLEAR. -/
theorem wavering_rise_stays_clear : validatePolicy patientPolicy = .ok patientPolicy ∧
    patientPolicy.hysteresis.applyDwellOnEscalation = false ∧
    currentSeverity clearState < .congested ∧
    waveringRise.length = patientPolicy.hysteresis.escalateSamples.toNat ∧
    (∀ e ∈ waveringRise, Rising patientPolicy .congested e) ∧
    InTime clearState (waveringRise.map (·.input.request.now)) ∧
    ∃ s', EvaluationRun patientPolicy clearState waveringRise s' ∧ s'.state = .clear := by
  have hrun : EvaluationRun patientPolicy clearState waveringRise _ :=
    EvaluationRun.of_inputs [saturated 600000 10, saturated 990000 11] (by decide +kernel)
  have hrising : ∀ e ∈ waveringRise, Rising patientPolicy .congested e := by decide +kernel
  exact ⟨patientPolicy_accepted, by decide, by decide, by decide, hrising, rises_inTime, _,
    hrun, by decide +kernel⟩

end CongestionEvaluator

end CongestionFabric
