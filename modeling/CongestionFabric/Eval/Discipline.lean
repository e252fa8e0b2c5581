import CongestionFabric.Eval.Coherence

namespace CongestionFabric.HysteresisEngine

variable {hysteresis : HysteresisPolicy} {recovery : RecoveryPolicy} {s : DomainState}
  {p : SeverityProposal} {now : Tick} {aim : Aim} {es : List (Event DomainState Sample)}
  {e : Event DomainState Sample} {target : CongestionState}

/-- The sample was refused: its tick ran backwards, or it named no value and no refusal. -/
def refused (e : Event DomainState Sample) : Bool :=
  tickRegressed e.before e.input.2 ||
    (!e.input.1.hasValue && !isIndeterminate e.input.1.indeterminate)

/-- The sample was taken and aims at this target. -/
def aimsAt (hysteresis : HysteresisPolicy) (recovery : RecoveryPolicy) (target : CongestionState)
    (e : Event DomainState Sample) : Bool :=
  !refused e && e.input.1.hasValue &&
    (ladder e.before e.input.1 hysteresis recovery).any fun aim => aim.target = target

/-- The latest samples aim at this target, refused ones aside, and there are this many. -/
def Consecutive (hysteresis : HysteresisPolicy) (recovery : RecoveryPolicy)
    (target : CongestionState) (n : Nat) (es : List (Event DomainState Sample)) : Prop :=
  ∃ pre window, es = pre ++ window ∧
    (∀ e ∈ window, refused e = true ∨ aimsAt hysteresis recovery target e = true) ∧
    n ≤ window.countP (aimsAt hysteresis recovery target)

/-- The last change of state happened at this event, and this is what came before it. -/
def LastChange (es : List (Event DomainState Sample)) (e : Event DomainState Sample) : Prop :=
  ∃ pre mid, es = pre ++ e :: mid ∧ Changes e ∧ ∀ later ∈ mid, ¬Changes later

/-- A rise above the current severity, or an exit from a refusal to CONGESTED or SEVERE. -/
def Escalates (e : Event DomainState Sample) : Prop :=
  if isAuthoritative e.before.state then currentSeverity e.before < currentSeverity e.after
  else e.after.state = .congested ∨ e.after.state = .severe

/-- The samples a policy asks of a change that is no escalation. -/
def samplesFor (hysteresis : HysteresisPolicy) (recovery : RecoveryPolicy)
    (state target : CongestionState) : UInt32 :=
  if target = .recovering then
    if recovery.allowSingleSample then 1 else max 2 recovery.minImprovedSamples
  else if !isAuthoritative state then 1
  else if state = .recovering ∧ target = .clear then recovery.clearSamples
  else hysteresis.deescalateSamples

/-! ### The streak -/

theorem Consecutive.zero (target : CongestionState) (es : List (Event DomainState Sample)) :
    Consecutive hysteresis recovery target 0 es :=
  ⟨es, [], by simp, fun e he => absurd he List.not_mem_nil, Nat.zero_le _⟩

theorem Consecutive.refuse {n : Nat} (h : Consecutive hysteresis recovery target n es)
    (he : refused e = true) : Consecutive hysteresis recovery target n (es ++ [e]) := by
  obtain ⟨pre, window, rfl, hall, hn⟩ := h
  refine ⟨pre, window ++ [e], by simp, ?_, ?_⟩
  · intro later hlater
    rcases List.mem_append.mp hlater with hlater | hlater
    · exact hall later hlater
    · exact .inl (List.mem_singleton.mp hlater ▸ he)
  · rw [List.countP_append]
    omega

theorem Consecutive.count {n : Nat} (h : Consecutive hysteresis recovery target n es)
    (he : aimsAt hysteresis recovery target e = true) :
    Consecutive hysteresis recovery target (n + 1) (es ++ [e]) := by
  obtain ⟨pre, window, rfl, hall, hn⟩ := h
  refine ⟨pre, window ++ [e], by simp, ?_, ?_⟩
  · intro later hlater
    rcases List.mem_append.mp hlater with hlater | hlater
    · exact hall later hlater
    · exact .inr (List.mem_singleton.mp hlater ▸ he)
  · rw [List.countP_append, List.countP_singleton, if_pos he]
    omega

theorem Consecutive.of_le {m n : Nat} (h : Consecutive hysteresis recovery target n es)
    (hm : m ≤ n) : Consecutive hysteresis recovery target m es := by
  obtain ⟨pre, window, hes, hall, hn⟩ := h
  exact ⟨pre, window, hes, hall, hm.trans hn⟩

theorem aimsAt_of_ladder (ht : tickRegressed e.before e.input.2 = false)
    (hv : e.input.1.hasValue = true)
    (hl : ladder e.before e.input.1 hysteresis recovery = some aim) :
    aimsAt hysteresis recovery aim.target e = true := by
  unfold aimsAt refused
  rw [ht, hv, hl]
  simp

/-- Counting a sample extends the window of the streak it continues. -/
theorem consecutive_count
    (h : Consecutive hysteresis recovery s.candidate s.candidateStreak.toNat es)
    (he : aimsAt hysteresis recovery target e = true) :
    Consecutive hysteresis recovery target (countSample s target).candidateStreak.toNat
      (es ++ [e]) := by
  rcases countSample_streak s target with ⟨rfl, hn⟩ | hn
  · exact (h.count he).of_le hn
  · rw [hn]
    exact (Consecutive.zero target es).count he

theorem run_consecutive (h : MachineRun hysteresis recovery {} es s) :
    Consecutive hysteresis recovery s.candidate s.candidateStreak.toNat es := by
  induction h with
  | start => exact Consecutive.zero _ []
  | @next es s s' i run hs ih =>
    have hcase := step_cases s i.1 hysteresis recovery i.2
    have hs' : (step s i.1 hysteresis recovery i.2).1 = s' := hs
    generalize hresult : step s i.1 hysteresis recovery i.2 = result at hcase hs'
    cases hcase with
    | regressed ht =>
      obtain rfl := hs'
      have hrefused : refused ⟨s, i, s⟩ = true := by
        unfold refused
        dsimp only
        rw [ht]
        rfl
      exact ih.refuse hrefused
    | invalid _ hv hi =>
      obtain rfl := hs'
      have hrefused : refused ⟨s, i, s⟩ = true := by
        unfold refused
        dsimp only
        rw [hv, hi]
        exact Bool.or_true _
      exact ih.refuse hrefused
    | indeterminate =>
      have hz : s'.candidateStreak = 0 := by
        rw [← hs']
        unfold stepIndeterminate
        dsimp only
        split <;> rfl
      rw [hz]
      exact Consecutive.zero _ _
    | steady | confirms =>
      obtain rfl := hs'
      exact Consecutive.zero _ _
    | pending aim _ ht hv hl =>
      obtain rfl := hs'
      dsimp only
      rw [countSample_candidate]
      exact consecutive_count ih (aimsAt_of_ladder ht hv hl)
    | commits aim =>
      have hz : s'.candidateStreak = 0 := by
        rw [← hs']
        unfold commit
        split <;> rfl
      rw [hz]
      exact Consecutive.zero _ _

/-! ### The hold timers -/

variable (hysteresis recovery) in
/-- The change tick is that of the step that changes the state. -/
theorem step_lastChangeTick (s : DomainState) (p : SeverityProposal) (now : Tick) :
    (step s p hysteresis recovery now).1.lastChangeTick =
      if (step s p hysteresis recovery now).1.state ≠ s.state then now else s.lastChangeTick := by
  rcases step_dated hysteresis recovery s p now with ⟨hkept, htick, _⟩ | ⟨hchanged, htick, _⟩
  · rw [if_neg (not_not.mpr hkept), htick]
  · rw [if_pos hchanged, htick]

/-- The last change is the last one: earlier ones do not count. -/
theorem LastChange.of_snoc {last : Event DomainState Sample} (h : LastChange (es ++ [e]) last) :
    (Changes e ∧ last = e) ∨ (¬Changes e ∧ LastChange es last) := by
  obtain ⟨pre, mid, hes, hchange, hmid⟩ := h
  induction mid using List.reverseRecOn with
  | nil =>
    obtain ⟨_, rfl⟩ := List.append_singleton_inj.mp hes
    exact .inl ⟨hchange, rfl⟩
  | append_singleton mid later _ =>
    have hes : es ++ [e] = (pre ++ last :: mid) ++ [later] := by
      rw [hes, List.append_assoc, List.cons_append]
    obtain ⟨rfl, rfl⟩ := List.append_singleton_inj.mp hes
    have hlater := hmid e (List.mem_append_right _ List.mem_cons_self)
    exact .inr ⟨hlater, pre, mid, rfl, hchange,
      fun x hx => hmid x (List.mem_append_left _ hx)⟩

theorem run_lastChange (h : MachineRun hysteresis recovery {} es s)
    {last : Event DomainState Sample} (hlast : LastChange es last) :
    s.lastChangeTick = last.input.2 := by
  induction h with
  | start =>
    obtain ⟨pre, mid, hnil, _⟩ := hlast
    exact absurd hnil (by simp)
  | @next es s s' i run hs ih =>
    have hstep := step_lastChangeTick hysteresis recovery s i.1 i.2
    have hs' : (step s i.1 hysteresis recovery i.2).1 = s' := hs
    rw [hs'] at hstep
    rcases hlast.of_snoc with ⟨hchange, rfl⟩ | ⟨hsame, hearlier⟩
    · have hstate : s'.state ≠ s.state := hchange
      rw [hstep, if_pos hstate]
    · have hstate : ¬s'.state ≠ s.state := hsame
      rw [hstep, if_neg hstate]
      exact ih hearlier

/-- A timer that has run out ran for its whole length. -/
theorem elapsed_le {since hold : Tick} (hle : ¬now < since) (h : ¬elapsedSince now since < hold) :
    since.toNat + hold.toNat ≤ now.toNat := by
  have hge : now ≥ since := UInt64.not_lt.mp hle
  unfold elapsedSince at h
  rw [if_pos hge, UInt64.lt_iff_toNat_lt, UInt64.toNat_sub_of_le _ _ hge] at h
  have hnat : since.toNat ≤ now.toNat := UInt64.le_iff_toNat_le.mp hge
  omega

theorem not_regressed_change (ht : tickRegressed s now = false) (hd : s.lastChangeTick ≠ kNoTick) :
    ¬now < s.lastChangeTick := by
  intro hlt
  unfold tickRegressed at ht
  simp [hd, hlt] at ht

/-- Neither timer holds the change back. -/
theorem held_free (h : held s aim hysteresis recovery now = none) :
    ¬((aim.escalation = true → hysteresis.applyDwellOnEscalation = true) ∧
        hysteresis.minDwellTicks > 0 ∧ s.lastChangeTick ≠ kNoTick ∧
        elapsedSince now s.lastChangeTick < hysteresis.minDwellTicks) ∧
      ¬(s.state = .recovering ∧ recovery.recoveringHoldTicks > 0 ∧ s.lastChangeTick ≠ kNoTick ∧
        elapsedSince now s.lastChangeTick < recovery.recoveringHoldTicks) := by
  have happlies : ((if aim.escalation then hysteresis.applyDwellOnEscalation else true) = true) ↔
      (aim.escalation = true → hysteresis.applyDwellOnEscalation = true) := by
    cases aim.escalation <;> simp
  unfold held at h
  dsimp only at h
  rw [← happlies]
  by_cases hdwell : (if aim.escalation then hysteresis.applyDwellOnEscalation else true) = true ∧
      hysteresis.minDwellTicks > 0 ∧ s.lastChangeTick ≠ kNoTick ∧
      elapsedSince now s.lastChangeTick < hysteresis.minDwellTicks
  · rw [if_pos hdwell] at h
    cases h
  · rw [if_neg hdwell] at h
    refine ⟨hdwell, fun hrecovering => ?_⟩
    rw [if_pos hrecovering] at h
    cases h

/-- A timer that does not hold the change back has run out. -/
theorem timer_out {hold : Tick} (ht : tickRegressed s now = false) (hd : s.lastChangeTick ≠ kNoTick)
    (h : hold > 0 → ¬elapsedSince now s.lastChangeTick < hold) :
    s.lastChangeTick.toNat + hold.toNat ≤ now.toNat := by
  have hle := not_regressed_change ht hd
  by_cases hzero : hold > 0
  · exact elapsed_le hle (h hzero)
  · have hhold : hold.toNat = 0 := by
      rw [gt_iff_lt, UInt64.lt_iff_toNat_lt] at hzero
      have hz : (0 : UInt64).toNat = 0 := rfl
      omega
    have hnat : s.lastChangeTick.toNat ≤ now.toNat :=
      UInt64.le_iff_toNat_le.mp (UInt64.not_lt.mp hle)
    omega

/-! ### The samples a change needs -/

/-- What the ladder calls an escalation is one. -/
theorem ladder_escalation (hl : ladder s p hysteresis recovery = some aim)
    (ha : aim.escalation = true) (htarget : isAuthoritative aim.target = true) :
    if isAuthoritative s.state then currentSeverity s < (severityOf aim.target).getD .clear
    else aim.target = .congested ∨ aim.target = .severe := by
  have hdeclared : ∀ v : Severity, isAuthoritative (stateOf v) = true →
      severityOf (stateOf v) = some v := by
    intro v hv
    cases v with
    | undeclared raw hraw => cases hv
    | _ => rfl
  unfold ladder at hl
  by_cases hauth : isAuthoritative s.state = true
  · rw [if_pos hauth]
    rw [if_neg (by simp [hauth])] at hl
    by_cases hrise : p.upward > currentSeverity s
    · rw [if_pos hrise] at hl
      obtain rfl := Option.some.inj hl
      dsimp only at htarget ⊢
      rw [hdeclared _ htarget]
      exact hrise
    · rw [if_neg hrise] at hl
      split_ifs at hl <;> obtain rfl := Option.some.inj hl <;> cases ha
  · rw [if_neg hauth]
    rw [if_pos (by simp [hauth])] at hl
    by_cases hrise : p.upward ≥ .congested
    · rw [if_pos hrise] at hl
      obtain rfl := Option.some.inj hl
      dsimp only at htarget ⊢
      have hsome := hdeclared _ htarget
      cases hup : p.upward with
      | clear => exact absurd (hup ▸ hrise : Severity.clear ≥ .congested) (by decide)
      | watch => exact absurd (hup ▸ hrise : Severity.watch ≥ .congested) (by decide)
      | congested => exact .inl rfl
      | severe => exact .inr rfl
      | undeclared raw hraw =>
        rw [hup] at hsome
        cases hsome
    · rw [if_neg hrise] at hl
      split_ifs at hl <;> obtain rfl := Option.some.inj hl <;> cases ha

/-- The sample counts of an accepted policy are neither zero nor capped. -/
structure Counted (hysteresis : HysteresisPolicy) (recovery : RecoveryPolicy) : Prop where
  recovers : capRequired (recoverySamples recovery) = recoverySamples recovery
  clears : capRequired (atLeastOne recovery.clearSamples) = recovery.clearSamples
  lowers : capRequired (atLeastOne hysteresis.deescalateSamples) = hysteresis.deescalateSamples

theorem accepted_counted {policy : CongestionPolicy} (h : Accepted policy) :
    Counted policy.hysteresis policy.recovery := by
  obtain ⟨_, hd⟩ := validateHysteresis_samples h.hysteresis
  obtain ⟨⟨_, hmax⟩, hc⟩ := validateRecovery_samples h.recovery
  have hmax' : max 2 policy.recovery.minImprovedSamples ≤ limits.kMaxHysteresisSamples := by
    rw [UInt32.max_def]
    split
    · exact hmax
    · decide
  refine ⟨capRequired_of_le ?_, ?_, ?_⟩
  · unfold recoverySamples
    split
    · decide
    · exact hmax'
  · rw [atLeastOne_eq hc.1, capRequired_of_le hc.2]
  · rw [atLeastOne_eq hd.1, capRequired_of_le hd.2]

/-- The ladder asks for the samples the policy names. -/
theorem ladder_samples (hc : Counted hysteresis recovery)
    (hl : ladder s p hysteresis recovery = some aim) (ha : aim.escalation = false) :
    capRequired aim.required = samplesFor hysteresis recovery s.state aim.target := by
  have hrecovers : samplesFor hysteresis recovery s.state .recovering =
      capRequired (recoverySamples recovery) := by
    rw [hc.recovers]
    exact if_pos rfl
  have hone : capRequired 1 = 1 := capRequired_of_le (by decide)
  unfold ladder at hl
  by_cases hauth : isAuthoritative s.state = true
  · rw [if_neg (by simp [hauth])] at hl
    have hlowers : ∀ v : Severity, ¬(s.state = .recovering ∧ stateOf v = .clear) →
        samplesFor hysteresis recovery s.state (stateOf v) =
          capRequired (atLeastOne hysteresis.deescalateSamples) := by
      intro v hv
      unfold samplesFor
      rw [if_neg (stateOf_ne_recovering v), if_neg (by simp [hauth]), if_neg hv, hc.lowers]
    have hstate : ∀ {v : Severity}, stateOf v = .clear → v = .clear := by
      intro v hv
      cases v <;> simp_all [stateOf]
    split_ifs at hl with hrise hfall hrecovering hclear hdetour
    · obtain rfl := Option.some.inj hl
      cases ha
    · obtain rfl := Option.some.inj hl
      unfold samplesFor
      dsimp only
      rw [if_neg (by decide), if_neg (by simp [hauth]), if_pos ⟨hrecovering, rfl⟩, hc.clears]
    · obtain rfl := Option.some.inj hl
      exact (hlowers _ fun h => hclear (hstate h.2)).symm
    · obtain rfl := Option.some.inj hl
      exact hrecovers.symm
    · obtain rfl := Option.some.inj hl
      exact (hlowers _ fun h => hrecovering h.1).symm
  · rw [if_pos (by simp [hauth])] at hl
    split_ifs at hl with hrise hmemory
    · obtain rfl := Option.some.inj hl
      cases ha
    · obtain rfl := Option.some.inj hl
      exact hrecovers.symm
    · obtain rfl := Option.some.inj hl
      unfold samplesFor
      dsimp only
      rw [if_neg (stateOf_ne_recovering _), if_pos (by simp [hauth]), hone]

/-! ### Runs -/

/-- What a change owes to the events before it. -/
structure Disciplined (hysteresis : HysteresisPolicy) (recovery : RecoveryPolicy)
    (earlier : List (Event DomainState Sample)) (e : Event DomainState Sample) : Prop where
  recovering : e.before.state = .recovering → ∀ entered, LastChange earlier entered →
    entered.input.2.toNat + recovery.recoveringHoldTicks.toNat ≤ e.input.2.toNat
  dwell : ¬Escalates e → ∀ last, LastChange earlier last →
    last.input.2.toNat + hysteresis.minDwellTicks.toNat ≤ e.input.2.toNat
  samples : ¬Escalates e → Consecutive hysteresis recovery e.after.state
    (samplesFor hysteresis recovery e.before.state e.after.state).toNat (earlier ++ [e])

/-- Every change to an authoritative state waits for its timers and its samples, unless it is an
escalation; RECOVERING is held even then. -/
theorem change_disciplined {requested accepted : CongestionPolicy}
    (haccepted : validatePolicy requested = .ok accepted)
    (hrun : MachineRun accepted.hysteresis accepted.recovery {} es s)
    (hticks : ∀ e ∈ es, e.input.2 ≠ kNoTick) {earlier later : List (Event DomainState Sample)}
    (hes : es = earlier ++ e :: later) (hchange : Changes e)
    (hafter : isAuthoritative e.after.state = true) :
    Disciplined accepted.hysteresis accepted.recovery earlier e := by
  have hcounted := accepted_counted (validatePolicy_accepted haccepted).2
  have hsplit : es = (earlier ++ [e]) ++ later := by rw [hes, List.append_assoc]; rfl
  rw [hsplit] at hrun
  obtain ⟨_, hprefix, _⟩ := hrun.split
  obtain ⟨hbefore, hstep, _⟩ := hprefix.snoc_inv
  have hdated : ∀ last, LastChange earlier last → e.before.lastChangeTick = last.input.2 ∧
      e.before.lastChangeTick ≠ kNoTick := by
    intro last hlast
    have htick := run_lastChange hbefore hlast
    obtain ⟨pre, mid, hearlier, _⟩ := hlast
    refine ⟨htick, htick ▸ hticks last ?_⟩
    rw [hsplit, hearlier]
    simp
  have hcase := step_cases e.before e.input.1 accepted.hysteresis accepted.recovery e.input.2
  have hstep : (step e.before e.input.1 accepted.hysteresis accepted.recovery e.input.2).1 =
      e.after := hstep
  generalize step e.before e.input.1 accepted.hysteresis accepted.recovery e.input.2 = result
    at hcase hstep
  cases hcase with
  | regressed | invalid | steady | confirms =>
    exact absurd (congrArg DomainState.state hstep.symm) hchange
  | pending aim =>
    refine absurd ?_ hchange
    rw [← hstep]
    exact countSample_state _ _
  | indeterminate _ _ hi =>
    have hnone := indeterminate_not_authoritative
      (indeterminateTarget_indeterminate e.before hi)
    refine absurd hafter (Bool.eq_false_iff.mp ?_)
    rw [← hstep]
    unfold stepIndeterminate
    dsimp only
    split
    · exact hnone
    next heq => exact not_not.mp heq ▸ hnone
  | commits aim ht hv hl ha hh hn =>
    have hstate : e.after.state = aim.target := by rw [← hstep]; exact commit_state _ _ _
    obtain ⟨hdwell, hrecovering⟩ := held_free hh
    have hmild : ¬Escalates e → aim.escalation = false := by
      intro hnot
      rw [Bool.eq_false_iff]
      intro hescalation
      refine hnot ?_
      have h := ladder_escalation hl hescalation (hstate ▸ hafter)
      unfold Escalates currentSeverity
      rw [hstate]
      exact h
    constructor
    case recovering =>
      intro hs entered hlast
      obtain ⟨htick, hne⟩ := hdated entered hlast
      rw [← htick]
      exact timer_out ht hne fun hpos hlt => hrecovering ⟨hs, hpos, hne, hlt⟩
    case dwell =>
      intro hnot last hlast
      obtain ⟨htick, hne⟩ := hdated last hlast
      rw [← htick]
      exact timer_out ht hne fun hpos hlt =>
        hdwell ⟨fun h => absurd (h.symm.trans (hmild hnot)) (by decide), hpos, hne, hlt⟩
    case samples =>
      intro hnot
      rw [hstate, ← ladder_samples hcounted hl (hmild hnot)]
      have haims := aimsAt_of_ladder ht hv hl
      exact (consecutive_count (run_consecutive hbefore) haims).of_le
        (UInt32.le_iff_toNat_le.mp hn)

theorem change_disciplined_recovering :
    let f := fold makeDefaultPolicy.hysteresis makeDefaultPolicy.recovery
    ∃ earlier e, events f {} [proposes .congested .congested 1, proposes .clear .clear 10,
        proposes .clear .clear 20] = earlier ++ [e] ∧ e.after.state = .recovering ∧
      Disciplined makeDefaultPolicy.hysteresis makeDefaultPolicy.recovery earlier e := by
  intro f
  obtain ⟨first, second, third, hes, hchange⟩ : ∃ first second third,
      events f {} [proposes .congested .congested 1, proposes .clear .clear 10,
        proposes .clear .clear 20] = [first, second, third] ∧
      third.before.state = .congested ∧ third.after.state = .recovering :=
    ⟨_, _, _, rfl, by decide +kernel, by decide +kernel⟩
  have hticks : ∀ e ∈ events f {} [proposes .congested .congested 1, proposes .clear .clear 10,
      proposes .clear .clear 20], e.input.2 ≠ kNoTick := by decide +kernel
  refine ⟨[first, second], third, hes, hchange.2, ?_⟩
  refine change_disciplined defaultPolicy_accepted (Run.of_events f {} _) hticks hes ?_ ?_
  · unfold Changes
    rw [hchange.1, hchange.2]
    decide
  · rw [hchange.2]
    rfl

end CongestionFabric.HysteresisEngine
