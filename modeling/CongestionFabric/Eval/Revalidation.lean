import CongestionFabric.Eval.Escalation
import CongestionFabric.Eval.Recovery

namespace CongestionFabric

namespace HysteresisEngine

variable {hysteresis : HysteresisPolicy} {recovery : RecoveryPolicy} {s s₁ : DomainState}
  {p : SeverityProposal} {now : Tick} {aim : Aim} {target : CongestionState}

/-- Where the ladder moves a state to, if it moves it. -/
def move (hysteresis : HysteresisPolicy) (recovery : RecoveryPolicy) (s : DomainState)
    (p : SeverityProposal) : Option Aim :=
  (ladder s p hysteresis recovery).filter fun aim => aim.target ≠ s.state

/-- The samples a state already counts towards a target. -/
def countedToward (s : DomainState) (target : CongestionState) : Nat :=
  if s.candidate = target then s.candidateStreak.toNat else 0

/-- From an authoritative state the ladder looks at the state and the proposal only. -/
theorem move_congr (hs : s₁.state = s.state) (ha : isAuthoritative s.state = true) :
    move hysteresis recovery s₁ p = move hysteresis recovery s p := by
  unfold move ladder currentSeverity
  rw [hs, ha]
  rfl

/-- From an authoritative state a declared proposal moves to authoritative states only. -/
theorem move_authoritative (ha : isAuthoritative s.state = true) (hp : p.upward ≤ .severe)
    (h : move hysteresis recovery s p = some aim) : isAuthoritative aim.target = true := by
  obtain ⟨hl, _⟩ := Option.filter_eq_some_iff.mp h
  unfold ladder at hl
  rw [if_neg (by simp [ha])] at hl
  have hfallen : p.downward < currentSeverity s → isAuthoritative (stateOf p.downward) = true :=
    fun hlt => stateOf_authoritative (hlt.le.trans (currentSeverity_le_severe s))
  split_ifs at hl with hrise hfall
  · obtain rfl := Option.some.inj hl
    exact stateOf_authoritative hp
  · obtain rfl := Option.some.inj hl
    rfl
  · obtain rfl := Option.some.inj hl
    exact hfallen hfall
  · obtain rfl := Option.some.inj hl
    rfl
  · obtain rfl := Option.some.inj hl
    exact hfallen hfall

/-- The streak counts every sample up to the cap. -/
theorem countedToward_countSample {n : Nat} (hn : n + 1 ≤ limits.kMaxHysteresisSamples.toNat) :
    n + 1 ≤ countedToward (countSample s target) target ↔ n ≤ countedToward s target := by
  unfold countedToward
  rw [countSample_candidate, if_pos rfl, countSample_candidateStreak]
  have hcap : limits.kMaxHysteresisSamples.toNat = 1048576 := rfl
  by_cases hcandidate : s.candidate = target
  · rw [if_pos hcandidate]
    by_cases hpositive : s.candidateStreak > 0
    · rw [if_pos ⟨hcandidate, hpositive⟩]
      by_cases hbelow : s.candidateStreak < limits.kMaxHysteresisSamples
      · have hlt := UInt32.lt_iff_toNat_lt.mp hbelow
        rw [if_pos hbelow, UInt32.toNat_add, UInt32.toNat_one, Nat.mod_eq_of_lt (by omega)]
        omega
      · have hle := UInt32.le_iff_toNat_le.mp (UInt32.not_lt.mp hbelow)
        rw [if_neg hbelow]
        omega
    · have hzero : s.candidateStreak.toNat = 0 := by
        have := UInt32.lt_iff_toNat_lt.not.mp hpositive
        rw [UInt32.toNat_zero] at this
        omega
      rw [if_neg fun hboth => hpositive hboth.2, UInt32.toNat_one]
      omega
  · rw [if_neg fun hboth => hcandidate hboth.1, if_neg hcandidate, UInt32.toNat_one]
    omega

/-- Without dwell and hold nothing holds a move back. -/
theorem held_unheld (hdwell : hysteresis.minDwellTicks = 0)
    (hhold : recovery.recoveringHoldTicks = 0) : held s aim hysteresis recovery now = none := by
  unfold held
  rw [hdwell, hhold]
  simp

/-- What a value-bearing step does to an authoritative state that nothing holds: it stays, it counts
a sample towards its move, or it moves. -/
inductive Moves (s : DomainState) (recovery : RecoveryPolicy) (hysteresis : HysteresisPolicy)
    (p : SeverityProposal) : DomainState → Prop where
  | stays {s' : DomainState} (hmove : move hysteresis recovery s p = none)
      (hstate : s'.state = s.state) (hflag : s'.requiresRevalidation = s.requiresRevalidation)
      (hstreak : s'.candidateStreak = 0) : Moves s recovery hysteresis p s'
  | counts {aim : Aim} (hmove : move hysteresis recovery s p = some aim)
      (hshort : (countSample s aim.target).candidateStreak < capRequired aim.required) :
      Moves s recovery hysteresis p (countSample s aim.target)
  | moves {aim : Aim} {s' : DomainState} (hmove : move hysteresis recovery s p = some aim)
      (hfull : capRequired aim.required ≤ (countSample s aim.target).candidateStreak)
      (hstate : s'.state = aim.target) (hflag : s'.requiresRevalidation = false) :
      Moves s recovery hysteresis p s'

theorem step_moves (hdwell : hysteresis.minDwellTicks = 0)
    (hhold : recovery.recoveringHoldTicks = 0) (ht : tickRegressed s now = false)
    (hv : p.hasValue = true) (hp : p.upward ≤ .severe) (ha : isAuthoritative s.state = true) :
    Moves s recovery hysteresis p (step s p hysteresis recovery now).1 := by
  have h := step_cases s p hysteresis recovery now
  generalize step s p hysteresis recovery now = result at h ⊢
  have hmoves : ∀ aim, ladder s p hysteresis recovery = some aim → aim.target ≠ s.state →
      move hysteresis recovery s p = some aim := by
    intro aim hl hne
    rw [move, hl, Option.filter_some, if_pos (decide_eq_true hne)]
  cases h with
  | regressed hreg => simp [ht] at hreg
  | invalid _ hv' | indeterminate _ hv' => simp [hv] at hv'
  | steady _ _ hl => exact .stays (by rw [move, hl]; rfl) rfl rfl rfl
  | confirms aim _ _ hl hsame =>
    refine .stays ?_ rfl rfl rfl
    rw [move, hl, Option.filter_some, if_neg (by simp [hsame])]
  | pending aim reason _ _ hl hne hwait =>
    refine .counts (hmoves aim hl hne) (hwait.resolve_left ?_)
    exact not_not.mpr (held_unheld hdwell hhold)
  | commits aim _ _ hl hne _ hfull =>
    have hmove := hmoves aim hl hne
    refine .moves hmove hfull (commit_state _ _ _) ?_
    unfold commit
    rw [if_pos (move_authoritative ha hp hmove)]

end HysteresisEngine

namespace CongestionEvaluator

open HysteresisEngine

variable {policy : CongestionPolicy} {s s' s₁ : DomainState} {call : Call} {calls : List Call}
  {es : List (Event DomainState Call)} {now : Tick}

/-- The evidence of a call leads to a severity, not to a refusal to decide. -/
def ValueBearing (policy : CongestionPolicy) (s : DomainState) (call : Call) : Prop :=
  ∃ p, proposalOf call.request policy call.context s = .ok p ∧ p.hasValue = true

instance (policy : CongestionPolicy) (s : DomainState) (call : Call) :
    Decidable (ValueBearing policy s call) :=
  match h : proposalOf call.request policy call.context s with
  | .error _ => .isFalse fun ⟨_, hp, _⟩ => by
      rw [h] at hp
      cases hp
  | .ok p =>
    if hv : p.hasValue = true then .isTrue ⟨p, h, hv⟩
    else .isFalse fun ⟨_, hp, hv'⟩ => by
      rw [h] at hp
      exact hv (Except.ok.inj hp ▸ hv')

/-- Where a call moves a domain from this state, if it moves it. -/
def moveOf (policy : CongestionPolicy) (s : DomainState) (call : Call) : Option Aim :=
  match proposalOf call.request policy call.context s with
  | .error _ => none
  | .ok p => move policy.hysteresis policy.recovery s p

def AimsTo (policy : CongestionPolicy) (s : DomainState) (target : CongestionState)
    (call : Call) : Prop := ∃ aim, moveOf policy s call = some aim ∧ aim.target = target

/-- A call moves the domain elsewhere and is the last of as many in a row as that move needs, with
those the domain already counts. -/
def Completes (policy : CongestionPolicy) (s : DomainState) (lead : List Call) (call : Call) :
    Prop :=
  ∃ aim, moveOf policy s call = some aim ∧
    Streak (AimsTo policy s aim.target) (countedToward s aim.target)
      (capRequired aim.required).toNat (lead ++ [call])

def Moved (policy : CongestionPolicy) (s : DomainState) (calls : List Call) : Prop :=
  ∃ lead call rest, calls = lead ++ call :: rest ∧ Completes policy s lead call

/-- A severity does not depend on the state it is proposed to. -/
theorem propose_valued {g : Aggregate} (hv : (propose policy s g).hasValue = true)
    (s₁ : DomainState) : propose policy s₁ g = propose policy s g := by
  unfold propose at hv ⊢
  by_cases hconflict : g.anyConflict = true
  · rw [if_pos hconflict] at hv
    cases hv
  · rw [if_neg hconflict] at hv ⊢
    rw [if_neg hconflict]
    by_cases hnone : (!g.anyEvidence) = true
    · rw [if_pos hnone] at hv
      cases hv
    · rw [if_neg hnone, if_neg hnone]

theorem proposalOf_valued {request : EvaluationRequest} {context : EvaluationContext}
    {p : SeverityProposal} (h : proposalOf request policy context s = .ok p)
    (hv : p.hasValue = true) (s₁ : DomainState) :
    proposalOf request policy context s₁ = .ok p := by
  unfold proposalOf at h ⊢
  obtain ⟨resources, hscope, h⟩ := bind_ok.mp h
  obtain ⟨assessed, hassess, h⟩ := bind_ok.mp h
  refine bind_ok.mpr ⟨resources, hscope, bind_ok.mpr ⟨assessed, hassess, ?_⟩⟩
  obtain rfl := Except.ok.inj h
  exact congrArg Except.ok (propose_valued hv s₁)

theorem moved_snoc : Moved policy s (calls ++ [call]) ↔
    Moved policy s calls ∨ Completes policy s calls call := by
  constructor
  · rintro ⟨lead, last, rest, heq, hcompletes⟩
    rcases List.eq_nil_or_concat rest with rfl | ⟨rest, last', rfl⟩
    · obtain ⟨rfl, rfl⟩ := List.append_singleton_inj.mp heq
      exact .inr hcompletes
    · rw [List.concat_eq_append, ← List.cons_append, ← List.append_assoc] at heq
      obtain ⟨rfl, rfl⟩ := List.append_singleton_inj.mp heq
      exact .inl ⟨lead, last, rest, rfl, hcompletes⟩
  · rintro (⟨lead, last, rest, rfl, hcompletes⟩ | hcompletes)
    · exact ⟨lead, last, rest ++ [call], by simp, hcompletes⟩
    · exact ⟨calls, call, [], rfl, hcompletes⟩

/-- The evaluations so far left the domain where it was, flag included, and its streak counts the
latest of them that aim to one state. -/
structure Waits (policy : CongestionPolicy) (s : DomainState) (calls : List Call)
    (s₁ : DomainState) : Prop where
  state : s₁.state = s.state
  flag : s₁.requiresRevalidation = s.requiresRevalidation
  streak : ∀ target n, n ≤ limits.kMaxHysteresisSamples.toNat →
    (n ≤ countedToward s₁ target ↔
      Streak (AimsTo policy s target) (countedToward s target) n calls)

theorem Waits.start : Waits policy s [] s :=
  ⟨rfl, rfl, fun _ _ _ => Streak.nil_iff.symm⟩

theorem Waits.streak_snoc (h : Waits policy s calls s₁) {aim : Aim} {n : Nat}
    (hmove : moveOf policy s call = some aim) (hn : n ≤ limits.kMaxHysteresisSamples.toNat) :
    n ≤ countedToward (countSample s₁ aim.target) aim.target ↔
      Streak (AimsTo policy s aim.target) (countedToward s aim.target) n (calls ++ [call]) := by
  cases n with
  | zero => exact ⟨fun _ => .zero _, fun _ => Nat.zero_le _⟩
  | succ n =>
    rw [countedToward_countSample hn, Streak.snoc_iff, h.streak _ n (by omega)]
    exact ⟨fun hstreak => ⟨⟨aim, hmove, rfl⟩, hstreak⟩, And.right⟩

/-- A streak that is not aimed at has been lost. -/
theorem streak_lost {target : CongestionState} {n : Nat} (hother : ¬AimsTo policy s target call)
    (hzero : countedToward s₁ target = 0) : n ≤ countedToward s₁ target ↔
      Streak (AimsTo policy s target) (countedToward s target) n (calls ++ [call]) := by
  rw [hzero]
  cases n with
  | zero => exact ⟨fun _ => .zero _, fun _ => Nat.zero_le _⟩
  | succ n =>
    rw [Streak.snoc_iff]
    exact ⟨fun h => absurd h (Nat.not_succ_le_zero n), fun h => absurd h.1 hother⟩

theorem capRequired_le (n : UInt32) :
    (capRequired n).toNat ≤ limits.kMaxHysteresisSamples.toNat := by
  unfold capRequired
  split
  next => exact le_refl _
  next hle => exact UInt32.le_iff_toNat_le.mp (UInt32.not_lt.mp hle)

/-- A call completes its move when the streak of a domain that waits is long enough with it. -/
theorem Waits.completes_iff (h : Waits policy s calls s₁) {aim : Aim}
    (hmove : moveOf policy s call = some aim) : Completes policy s calls call ↔
      capRequired aim.required ≤ (countSample s₁ aim.target).candidateStreak := by
  have hcounted : countedToward (countSample s₁ aim.target) aim.target =
      (countSample s₁ aim.target).candidateStreak.toNat := if_pos (countSample_candidate s₁ _)
  rw [UInt32.le_iff_toNat_le, ← hcounted, h.streak_snoc hmove (capRequired_le _)]
  constructor
  · rintro ⟨aim', hmove', hstreak⟩
    obtain rfl := Option.some.inj (hmove'.symm.trans hmove)
    exact hstreak
  · exact fun hstreak => ⟨aim, hmove, hstreak⟩

/-- What an evaluation that bears a value does to a domain that nothing holds. -/
theorem evaluation_moves (haccepted : Accepted policy)
    (hdwell : policy.hysteresis.minDwellTicks = 0)
    (hhold : policy.recovery.recoveringHoldTicks = 0) (hvalue : ValueBearing policy s call)
    (hstate : s₁.state = s.state) (ha : isAuthoritative s.state = true)
    (ht : tickRegressed s₁ call.request.now = false) (hp : call.context.policy = some policy)
    {outcome : EvaluationOutcome} (h : evaluate call.request s₁ call.context = .ok outcome) :
    ∃ p s', p.upward ≤ .severe ∧
      moveOf policy s call = move policy.hysteresis policy.recovery s p ∧
      Moves (prepare call.request policy call.context s₁) policy.recovery policy.hysteresis p s' ∧
      outcome.updated = { s' with lastEvaluatedTick := call.request.now } := by
  obtain ⟨p, hproposal, hv⟩ := hvalue
  obtain ⟨p', hproposal', hupdated⟩ := evaluate_updated hp h
  obtain rfl := Except.ok.inj (hproposal'.symm.trans (proposalOf_valued hproposal hv s₁))
  have hdeclared := (proposalOf_ordered haccepted hproposal).1
  refine ⟨p', _, hdeclared, ?_, ?_, hupdated⟩
  · unfold moveOf
    rw [hproposal]
  · have hprepared : isAuthoritative (prepare call.request policy call.context s₁).state = true := by
      show isAuthoritative s₁.state = true
      rw [hstate, ha]
    exact step_moves hdwell hhold ht hv hdeclared hprepared

/-- An evaluation of a domain that waits leaves it waiting, or moves it and clears its flag. -/
theorem Waits.evaluate (h : Waits policy s calls s₁) (haccepted : Accepted policy)
    (hdwell : policy.hysteresis.minDwellTicks = 0)
    (hhold : policy.recovery.recoveringHoldTicks = 0) (hvalue : ValueBearing policy s call)
    (ha : isAuthoritative s.state = true) (ht : tickRegressed s₁ call.request.now = false)
    (hp : call.context.policy = some policy) {outcome : EvaluationOutcome}
    (heval : evaluate call.request s₁ call.context = .ok outcome) :
    (Waits policy s (calls ++ [call]) outcome.updated ∧ ¬Completes policy s calls call) ∨
      (outcome.updated.authoritative = true ∧ Completes policy s calls call) := by
  obtain ⟨p, s', hdeclared, hmoveOf, hmoves, hupdated⟩ := evaluation_moves haccepted hdwell hhold
    hvalue h.state ha ht hp heval
  rw [hupdated]
  have hsame : move policy.hysteresis policy.recovery
      (prepare call.request policy call.context s₁) p = moveOf policy s call := by
    rw [hmoveOf]
    exact @move_congr _ _ s (prepare call.request policy call.context s₁) p h.state ha
  have htarget : ∀ aim, move policy.hysteresis policy.recovery
      (prepare call.request policy call.context s₁) p = some aim →
      isAuthoritative aim.target = true :=
    fun aim haim => move_authoritative ha hdeclared ((hmoveOf ▸ hsame).symm.trans haim)
  cases hmoves with
  | stays hmove hstate hflag hstreak =>
    have hnone : moveOf policy s call = none := hsame.symm.trans hmove
    have hother : ∀ target, ¬AimsTo policy s target call := by
      rintro target ⟨aim, haim, _⟩
      rw [hnone] at haim
      cases haim
    refine .inl ⟨⟨hstate.trans h.state, hflag.trans h.flag, fun target n _ => ?_⟩, ?_⟩
    · refine streak_lost (hother target) ?_
      unfold countedToward
      dsimp only
      rw [hstreak]
      split <;> rfl
    · rintro ⟨aim, haim, _⟩
      exact hother aim.target ⟨aim, haim, rfl⟩
  | @counts aim hmove hshort =>
    have haim : moveOf policy s call = some aim := hsame.symm.trans hmove
    rw [countSample_prepare] at hshort
    refine .inl ⟨⟨?_, ?_, fun target n hn => ?_⟩, ?_⟩
    · exact (countSample_state _ _).trans h.state
    · rw [countSample_eq]
      exact h.flag
    · by_cases htarget : target = aim.target
      · subst htarget
        rw [← h.streak_snoc haim hn]
        unfold countedToward
        dsimp only
        rw [countSample_candidate, countSample_candidate, countSample_prepare]
      · refine streak_lost ?_ ?_
        · rintro ⟨aim', haim', rfl⟩
          obtain rfl := Option.some.inj (haim'.symm.trans haim)
          exact htarget rfl
        · unfold countedToward
          dsimp only
          rw [countSample_candidate, if_neg (Ne.symm htarget)]
    · rw [h.completes_iff haim]
      exact UInt32.not_le.mpr hshort
  | @moves aim s' hmove hfull hstate hflag =>
    have haim : moveOf policy s call = some aim := hsame.symm.trans hmove
    rw [countSample_prepare] at hfull
    refine .inr ⟨?_, (h.completes_iff haim).mpr hfull⟩
    unfold DomainState.authoritative
    dsimp only
    rw [hstate, hflag, htarget aim hmove]
    rfl

/-- Evidence that bears a value takes no authority away. -/
theorem evaluation_keeps_authority (haccepted : Accepted policy)
    (hdwell : policy.hysteresis.minDwellTicks = 0)
    (hhold : policy.recovery.recoveringHoldTicks = 0) (hvalue : ValueBearing policy s call)
    (hs : s₁.authoritative = true) (ht : tickRegressed s₁ call.request.now = false)
    (hp : call.context.policy = some policy) {outcome : EvaluationOutcome}
    (heval : evaluate call.request s₁ call.context = .ok outcome) :
    outcome.updated.authoritative = true := by
  obtain ⟨p₀, hproposal, hv⟩ := hvalue
  have hvalue : ValueBearing policy s₁ call := ⟨p₀, proposalOf_valued hproposal hv s₁, hv⟩
  obtain ⟨ha, hflag⟩ := Bool.and_eq_true_iff.mp hs
  have hflag : s₁.requiresRevalidation = false := (Bool.not_eq_true' _).mp hflag
  obtain ⟨p, s', hdeclared, _, hmoves, hupdated⟩ := evaluation_moves haccepted hdwell hhold hvalue
    rfl ha ht hp heval
  have hauthoritative : isAuthoritative s'.state = true ∧ s'.requiresRevalidation = false := by
    cases hmoves with
    | stays _ hstate hkept => exact ⟨hstate ▸ ha, hkept.trans hflag⟩
    | @counts aim _ _ =>
      refine ⟨?_, ?_⟩
      · rw [countSample_state]
        exact ha
      · rw [countSample_eq]
        exact hflag
    | moves hmove _ hstate hcleared =>
      rw [hstate]
      exact ⟨move_authoritative ha hdeclared hmove, hcleared⟩
  rw [hupdated]
  unfold DomainState.authoritative
  dsimp only
  rw [hauthoritative.1, hauthoritative.2]
  rfl

/-- A run at ticks that are in time refuses none of them. -/
theorem run_inTime (run : EvaluationRun policy s es s')
    (hticks : InTime s ((es.map fun e => e.input.request.now) ++ [now])) :
    tickRegressed s' now = false := by
  have hrecorded : (s'.lastChangeTick = s.lastChangeTick ∨
        ∃ e ∈ es, s'.lastChangeTick = e.input.request.now) ∧
      (s'.lastEvaluatedTick = s.lastEvaluatedTick ∨
        ∃ e ∈ es, s'.lastEvaluatedTick = e.input.request.now) := by
    clear hticks
    induction run with
    | start => exact ⟨.inl rfl, .inl rfl⟩
    | @next es s₁ s₂ i _ hstep ih =>
      obtain ⟨hp, outcome, heval, rfl⟩ := hstep
      obtain ⟨p, _, hupdated⟩ := evaluate_updated hp heval
      rw [hupdated]
      have hlast : (⟨s₁, i, outcome.updated⟩ : Event DomainState Call) ∈
          es ++ [⟨s₁, i, outcome.updated⟩] := by simp
      refine ⟨?_, .inr ⟨_, hupdated ▸ hlast, rfl⟩⟩
      rcases (step_ticks policy.hysteresis policy.recovery
        (prepare i.request policy i.context s₁) p i.request.now).2 with hsame | hnow
      · rcases ih.1 with hstart | ⟨e, he, htick⟩
        · exact .inl (hsame.trans hstart)
        · exact .inr ⟨e, List.mem_append_left _ he, hsame.trans htick⟩
      · exact .inr ⟨_, hupdated ▸ hlast, hnow⟩
  obtain ⟨hregressed, hpairwise⟩ := hticks
  have hbefore : ∀ e ∈ es, ¬now < e.input.request.now := fun e he =>
    UInt64.not_lt.mpr ((List.pairwise_append.mp hpairwise).2.2 _ (List.mem_map_of_mem he) now
      (List.mem_singleton_self now))
  have hstart := hregressed now (List.mem_append_right _ (List.mem_singleton_self now))
  unfold tickRegressed at hstart ⊢
  rw [Bool.or_eq_false_iff] at hstart ⊢
  constructor
  · rcases hrecorded.1 with hsame | ⟨e, he, htick⟩
    · rw [hsame]
      exact hstart.1
    · rw [htick, decide_eq_false (hbefore e he), Bool.and_false]
  · rcases hrecorded.2 with hsame | ⟨e, he, htick⟩
    · rw [hsame]
      exact hstart.2
    · rw [htick, decide_eq_false (hbefore e he), Bool.and_false]

/-- A run on evidence that bears a value leaves a flagged domain waiting until a move is completed,
and authoritative from then on. -/
theorem run_revalidates (haccepted : Accepted policy)
    (hdwell : policy.hysteresis.minDwellTicks = 0)
    (hhold : policy.recovery.recoveringHoldTicks = 0) (ha : isAuthoritative s.state = true)
    (run : EvaluationRun policy s es s') (hvalues : ∀ e ∈ es, ValueBearing policy s e.input)
    (hticks : InTime s (es.map fun e => e.input.request.now)) :
    (Waits policy s (es.map (·.input)) s' ∧ ¬Moved policy s (es.map (·.input))) ∨
      (s'.authoritative = true ∧ Moved policy s (es.map (·.input))) := by
  induction run with
  | start =>
    refine .inl ⟨.start, ?_⟩
    rintro ⟨lead, call, rest, heq, _⟩
    simp at heq
  | @next es s₁ s₂ i run hstep ih =>
    have ht : tickRegressed s₁ i.request.now = false := by
      refine run_inTime run ?_
      simpa using hticks
    have hearlier : InTime s (es.map fun e => e.input.request.now) := by
      rw [List.map_append] at hticks
      exact ⟨fun now hnow => hticks.1 now (List.mem_append_left _ hnow),
        (List.pairwise_append.mp hticks.2).1⟩
    have hvalue := hvalues _ (List.mem_append_right _ List.mem_cons_self)
    obtain ⟨hp, outcome, heval, rfl⟩ := hstep
    rw [List.map_append, List.map_singleton, moved_snoc]
    rcases ih (fun e he => hvalues e (List.mem_append_left _ he)) hearlier with
      ⟨hwaits, hnot⟩ | ⟨hauthoritative, hmoved⟩
    · rcases hwaits.evaluate haccepted hdwell hhold hvalue ha ht hp heval with
        ⟨hwaits, hincomplete⟩ | ⟨hauthoritative, hcompletes⟩
      · exact .inl ⟨hwaits, fun h => h.elim hnot hincomplete⟩
      · exact .inr ⟨hauthoritative, .inr hcompletes⟩
    · exact .inr ⟨evaluation_keeps_authority haccepted hdwell hhold hvalue hauthoritative ht hp
        heval, .inl hmoved⟩

theorem run_revalidates_iff (haccepted : Accepted policy)
    (hdwell : policy.hysteresis.minDwellTicks = 0)
    (hhold : policy.recovery.recoveringHoldTicks = 0) (ha : isAuthoritative s.state = true)
    (hflag : s.requiresRevalidation = true)
    (run : EvaluationRun policy s es s') (hvalues : ∀ e ∈ es, ValueBearing policy s e.input)
    (hticks : InTime s (es.map fun e => e.input.request.now)) :
    s'.authoritative = true ↔ Moved policy s (es.map (·.input)) := by
  rcases run_revalidates haccepted hdwell hhold ha run hvalues hticks with
    ⟨hwaits, hnot⟩ | ⟨hauthoritative, hmoved⟩
  · have hstill : s'.authoritative = false := by
      unfold DomainState.authoritative
      rw [hwaits.flag, hflag]
      exact Bool.and_false _
    rw [hstill]
    exact ⟨fun h => absurd h Bool.false_ne_true, fun h => absurd h hnot⟩
  · exact ⟨fun _ => hmoved, fun _ => hauthoritative⟩

end CongestionEvaluator

end CongestionFabric
