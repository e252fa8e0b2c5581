import CongestionFabric.Eval.Recovery

namespace CongestionFabric.HysteresisEngine

variable {hysteresis : HysteresisPolicy} {recovery : RecoveryPolicy} {s m : DomainState}
  {es pre post : List (Event DomainState Sample)} {e : Event DomainState Sample} {aim : Aim}

def Improving (e : Event DomainState Sample) : Prop :=
  e.input.1.hasValue = true ∧ (e.input.1.downward = .clear ∨ e.input.1.upward < .congested)

def ProposesClear (e : Event DomainState Sample) : Prop :=
  e.input.1.hasValue = true ∧ e.input.1.downward = .clear

def ProposesWatch (e : Event DomainState Sample) : Prop :=
  e.input.1.hasValue = true ∧ e.input.1.downward = .watch

/-- `enter` moved the machine to RECOVERING on enough improving samples. -/
def EntersRecovering (recovery : RecoveryPolicy) (earlier : List (Event DomainState Sample))
    (enter : Event DomainState Sample) : Prop :=
  CongestedMemory enter.before ∧ enter.after.state = .recovering ∧
    Trailing Improving (max 2 recovery.minImprovedSamples).toNat (earlier ++ [enter])

/-- `enter` lowered the machine one rung to WATCH on enough samples that name WATCH. -/
def EntersWatch (hysteresis : HysteresisPolicy) (earlier : List (Event DomainState Sample))
    (enter : Event DomainState Sample) : Prop :=
  (enter.before.state = .congested ∨ enter.before.state = .severe) ∧
    enter.after.state = .watch ∧
    Trailing ProposesWatch hysteresis.deescalateSamples.toNat (earlier ++ [enter])

/-- The machine recovered: RECOVERING was entered, and CLEAR reached from it on enough Clear
samples with no refusal to decide in between. -/
def RecoveredThrough (recovery : RecoveryPolicy) (pre post : List (Event DomainState Sample)) :
    Prop :=
  ∃ mid enter inside clear rest, post = mid ++ enter :: (inside ++ clear :: rest) ∧
    EntersRecovering recovery (pre ++ mid) enter ∧ clear.after.state = .clear ∧
    Trailing ProposesClear recovery.clearSamples.toNat (inside ++ [clear]) ∧
    ∀ e ∈ inside ++ [clear], e.before.state = .recovering ∧ e.input.1.hasValue = true

/-- The machine stepped down: WATCH was entered one rung at a time, and CLEAR reached from WATCH
on enough Clear samples, or established afresh after a blackout in WATCH. -/
def SteppedDown (hysteresis : HysteresisPolicy) (pre post : List (Event DomainState Sample)) :
    Prop :=
  ∃ mid enter inside clear rest, post = mid ++ enter :: (inside ++ clear :: rest) ∧
    EntersWatch hysteresis (pre ++ mid) enter ∧ clear.after.state = .clear ∧
    (Trailing ProposesClear hysteresis.deescalateSamples.toNat (inside ++ [clear]) ∨
      (isAuthoritative clear.before.state = false ∧ clear.input.1.hasValue = true ∧
        clear.input.1.upward = .clear)) ∧
    ∀ e ∈ inside ++ [clear], WatchMemory e.before

/-- Where a run that has been congested stands. -/
inductive Phase (hysteresis : HysteresisPolicy) (recovery : RecoveryPolicy)
    (pre post : List (Event DomainState Sample)) (s : DomainState) : Prop where
  | cleared (h : RecoveredThrough recovery pre post ∨ SteppedDown hysteresis pre post)
  | congested (h : CongestedMemory s)
  | recovering (hs : s.state = .recovering) (mid inside : List (Event DomainState Sample))
      (enter : Event DomainState Sample) (heq : post = mid ++ enter :: inside)
      (hin : EntersRecovering recovery (pre ++ mid) enter)
      (hall : ∀ e ∈ inside, e.before.state = .recovering ∧ e.input.1.hasValue = true)
  | lowered (hs : WatchMemory s) (mid inside : List (Event DomainState Sample))
      (enter : Event DomainState Sample) (heq : post = mid ++ enter :: inside)
      (hin : EntersWatch hysteresis (pre ++ mid) enter)
      (hall : ∀ e ∈ inside, WatchMemory e.before)

theorem stateOf_ne_recovering (v : Severity) : stateOf v ≠ .recovering := by
  cases v <;> simp [stateOf]

theorem aims_recovering (h : Aims hysteresis recovery .recovering e) : Improving e := by
  obtain ⟨hv, aim, hl, ht⟩ := h
  refine ⟨hv, ?_⟩
  unfold ladder at hl
  split_ifs at hl with _ hc _ _ _ _ _ hd <;> cases hl
  · exact absurd ht (stateOf_ne_recovering _)
  · exact .inr (not_le.mp hc)
  · exact absurd ht (stateOf_ne_recovering _)
  · exact absurd ht (stateOf_ne_recovering _)
  · simp at ht
  · exact absurd ht (stateOf_ne_recovering _)
  · exact .inl hd.2.1
  · exact absurd ht (stateOf_ne_recovering _)

theorem capRequired_of_le {n : UInt32} (h : n ≤ limits.kMaxHysteresisSamples) :
    capRequired n = n := if_neg (UInt32.not_lt.mpr h)

/-- A commit happens at the end of a full window of events that aim at its target. -/
theorem commit_window (hrun : MachineRun hysteresis recovery {} es e.before)
    (ha : Advancing es) (hw : ∀ e ∈ es, WellFormed e.input.1) (hv : e.input.1.hasValue = true)
    (hl : ladder e.before e.input.1 hysteresis recovery = some aim)
    (hn : capRequired aim.required ≤ (countSample e.before aim.target).candidateStreak) :
    Trailing (AimsFrom hysteresis recovery e.before.state aim.target)
      (capRequired aim.required).toNat (es ++ [e]) :=
  (streakWindow_count (run_streakWindow hrun ha hw) ⟨⟨hv, aim, hl, rfl⟩, rfl⟩).of_le hn

theorem recoveredThrough_snoc (h : RecoveredThrough recovery pre post) :
    RecoveredThrough recovery pre (post ++ [e]) := by
  obtain ⟨mid, enter, inside, clear, rest, rfl, h⟩ := h
  exact ⟨mid, enter, inside, clear, rest ++ [e], by simp, h⟩

theorem steppedDown_snoc (h : SteppedDown hysteresis pre post) :
    SteppedDown hysteresis pre (post ++ [e]) := by
  obtain ⟨mid, enter, inside, clear, rest, rfl, h⟩ := h
  exact ⟨mid, enter, inside, clear, rest ++ [e], by simp, h⟩

/-- The sample counts a recovery and a step down need, as an accepted policy bounds them. -/
structure Samples (hysteresis : HysteresisPolicy) (recovery : RecoveryPolicy) : Prop where
  enabled : recovery.enabled = true
  several : recovery.allowSingleSample = false
  recovers : capRequired (recoverySamples recovery) = max 2 recovery.minImprovedSamples
  clears : capRequired (atLeastOne recovery.clearSamples) = recovery.clearSamples
  lowers : capRequired (atLeastOne hysteresis.deescalateSamples) = hysteresis.deescalateSamples

theorem atLeastOne_eq {n : UInt32} (h : n ≠ 0) : atLeastOne n = n := if_neg h

theorem accepted_samples {policy : CongestionPolicy} (h : Accepted policy)
    (he : policy.recovery.enabled = true) (hs : policy.recovery.allowSingleSample = false) :
    Samples policy.hysteresis policy.recovery := by
  obtain ⟨_, hd⟩ := validateHysteresis_samples h.hysteresis
  obtain ⟨⟨_, hmax⟩, hc⟩ := validateRecovery_samples h.recovery
  have hmax' : max 2 policy.recovery.minImprovedSamples ≤ limits.kMaxHysteresisSamples := by
    rw [UInt32.max_def]
    split
    · exact hmax
    · decide
  refine ⟨he, hs, ?_, ?_, ?_⟩
  · simpa [recoverySamples, hs] using capRequired_of_le hmax'
  · rw [atLeastOne_eq hc.1, capRequired_of_le hc.2]
  · rw [atLeastOne_eq hd.1, capRequired_of_le hd.2]

theorem congestedMemory_severity (hm : MemoryKept s) (h : CongestedMemory s) :
    s.lastCommittedSeverity ≥ .congested := by
  rcases h with hs | hs | ⟨_, hc⟩
  · rw [hm (by rw [hs]; rfl), currentSeverity, hs]
    decide
  · rw [hm (by rw [hs]; rfl), currentSeverity, hs]
    decide
  · exact hc

theorem watchMemory_severity (hm : MemoryKept s) (h : WatchMemory s) :
    s.lastCommittedSeverity = .watch := by
  rcases h with hs | ⟨_, hc⟩
  · rw [hm (by rw [hs]; rfl), currentSeverity, hs]
    rfl
  · exact hc

theorem congested_of_commit {t : DomainState} {now : Tick}
    (h : aim.target = .congested ∨ aim.target = .severe) :
    CongestedMemory (commit t aim.target now) := by
  unfold CongestedMemory
  rw [commit_state]
  exact h.elim .inl fun h => .inr (.inl h)

section

variable (hrun : MachineRun hysteresis recovery {} (pre ++ post) e.before)
  (hstep : (step e.before e.input.1 hysteresis recovery e.input.2).1 = e.after)
  (ha : Advancing (pre ++ post ++ [e])) (hw : ∀ e' ∈ pre ++ post ++ [e], WellFormed e'.input.1)
  (hm : MemoryKept e.before) (hsam : Samples hysteresis recovery)

include hrun hstep ha hw hm hsam

theorem phase_congested (h : CongestedMemory e.before) :
    Phase hysteresis recovery pre (post ++ [e]) e.after := by
  have ht := run_not_regressed hrun ha
  have hwe := hw e (by simp)
  have hmem := congestedMemory_severity hm h
  cases hv : e.input.1.hasValue with
  | false =>
    obtain ⟨hblind, hkeep⟩ := blackout_step hysteresis recovery ht hv
      (hwe.2.2.resolve_left (by simp [hv]))
    rw [hstep] at hblind hkeep
    exact .congested (.inr (.inr ⟨hblind, hkeep ▸ hmem⟩))
  | true =>
    rcases value_step hysteresis recovery ht hv hm with
      ⟨hs, hc⟩ | ⟨aim, hl, _, hn, hc⟩
    · rw [hstep] at hs hc
      refine .congested ?_
      unfold CongestedMemory
      rw [hs, hc]
      exact h
    · have hwin := commit_window hrun (advancing_append ha)
        (fun e' he' => hw e' (List.mem_append_left _ he')) hv hl hn
      rw [hstep] at hc
      have hafter : e.after.state = aim.target := by rw [hc, commit_state]
      -- leaving CONGESTED or SEVERE, or a refusal to decide that remembers one of them
      have hleave : (aim.target = .congested ∨ aim.target = .severe) ∨
          aim = ⟨.recovering, recoverySamples recovery, false⟩ ∨
          (aim = ⟨.watch, atLeastOne hysteresis.deescalateSamples, false⟩ ∧
            (e.before.state = .congested ∨ e.before.state = .severe)) := by
        rcases or_assoc.mpr h with hs | ⟨hblind, hcs⟩
        · rcases ladder_from_congested hs hwe hsam.enabled hl with h | ⟨h, _⟩ | ⟨h, _⟩
          · exact .inl h
          · exact .inr (.inl h)
          · exact .inr (.inr ⟨h, hs⟩)
        · rcases ladder_from_blind_congested hblind hcs hwe hsam.enabled hl with h | ⟨h, _⟩
          · exact .inl h
          · exact .inr (.inl h)
      rcases hleave with hup | rfl | ⟨rfl, hs⟩
      · exact .congested (hc ▸ congested_of_commit hup)
      · rw [hsam.recovers] at hwin
        refine .recovering hafter post [] e (by simp) ⟨h, hafter, ?_⟩ (by simp)
        exact hwin.imp fun e' _ he' => aims_recovering he'.1
      · rw [hsam.lowers] at hwin
        refine .lowered (.inl hafter) post [] e (by simp) ⟨hs, hafter, ?_⟩ (by simp)
        refine hwin.imp fun e' he' hfrom => ⟨hfrom.1.1, ?_⟩
        obtain ⟨_, aim', hl', htarget⟩ := hfrom.1
        rcases ladder_from_congested (hfrom.2 ▸ hs) (hw e' he') hsam.enabled hl' with
          h | ⟨h, _⟩ | ⟨_, h⟩
        · simp [htarget] at h
        · simp [h] at htarget
        · exact h

theorem phase_recovering (hs : e.before.state = .recovering)
    (hnob : e.input.1.hasValue = true) {mid inside : List (Event DomainState Sample)}
    {enter : Event DomainState Sample} (heq : post = mid ++ enter :: inside)
    (hin : EntersRecovering recovery (pre ++ mid) enter)
    (hall : ∀ e' ∈ inside, e'.before.state = .recovering ∧ e'.input.1.hasValue = true) :
    Phase hysteresis recovery pre (post ++ [e]) e.after := by
  have ht := run_not_regressed hrun ha
  have hall' : ∀ e' ∈ inside ++ [e],
      e'.before.state = .recovering ∧ e'.input.1.hasValue = true := by
    intro e' he'
    rcases List.mem_append.mp he' with h | h
    · exact hall e' h
    · exact List.mem_singleton.mp h ▸ ⟨hs, hnob⟩
  rcases value_step hysteresis recovery ht hnob hm with
    ⟨hstay, _⟩ | ⟨aim, hl, _, hn, hc⟩
  · rw [hstep] at hstay
    exact .recovering (hstay.trans hs) mid (inside ++ [e]) enter (by simp [heq]) hin hall'
  · have hwin := commit_window hrun (advancing_append ha)
      (fun e' he' => hw e' (List.mem_append_left _ he')) hnob hl hn
    rw [hstep] at hc
    rcases ladder_from_recovering hs (hw e (by simp)) hl with hup | ⟨rfl, _⟩
    · exact .congested (hc ▸ congested_of_commit hup)
    · rw [hsam.clears, hs] at hwin
      -- the window cannot reach back over the event that entered RECOVERING
      have hout : ¬AimsFrom hysteresis recovery .recovering .clear enter := by
        rintro ⟨_, hb⟩
        rcases hin.1 with h | h | ⟨h, _⟩ <;> simp [hb, isAuthoritative] at h
      have hinside : Trailing (AimsFrom hysteresis recovery .recovering .clear)
          recovery.clearSamples.toNat (inside ++ [e]) :=
        Trailing.after (l := pre ++ mid) (x := enter) (by simpa [heq] using hwin) hout
      refine .cleared (.inl ⟨mid, enter, inside, e, [], by simp [heq], hin,
        by rw [hc, commit_state], ?_, hall'⟩)
      refine hinside.imp fun e' he' hfrom => ⟨hfrom.1.1, ?_⟩
      obtain ⟨_, aim', hl', htarget⟩ := hfrom.1
      have hw' : WellFormed e'.input.1 := hw e' (by
        rw [heq]
        rcases List.mem_append.mp he' with h | h <;> simp [h])
      rcases ladder_from_recovering hfrom.2 hw' hl' with h | ⟨_, h⟩
      · simp [htarget] at h
      · exact h

theorem phase_lowered (h : WatchMemory e.before) {mid inside : List (Event DomainState Sample)}
    {enter : Event DomainState Sample} (heq : post = mid ++ enter :: inside)
    (hin : EntersWatch hysteresis (pre ++ mid) enter)
    (hall : ∀ e' ∈ inside, WatchMemory e'.before) :
    Phase hysteresis recovery pre (post ++ [e]) e.after := by
  have ht := run_not_regressed hrun ha
  have hwe := hw e (by simp)
  have hmem := watchMemory_severity hm h
  have hall' : ∀ e' ∈ inside ++ [e], WatchMemory e'.before := by
    intro e' he'
    rcases List.mem_append.mp he' with h' | h'
    · exact hall e' h'
    · exact List.mem_singleton.mp h' ▸ h
  have stays : WatchMemory e.after → Phase hysteresis recovery pre (post ++ [e]) e.after :=
    fun hafter => .lowered hafter mid (inside ++ [e]) enter (by simp [heq]) hin hall'
  cases hv : e.input.1.hasValue with
  | false =>
    obtain ⟨hblind, hkeep⟩ := blackout_step hysteresis recovery ht hv
      (hwe.2.2.resolve_left (by simp [hv]))
    rw [hstep] at hblind hkeep
    exact stays (.inr ⟨hblind, hkeep.trans hmem⟩)
  | true =>
    rcases value_step hysteresis recovery ht hv hm with
      ⟨hs, hc⟩ | ⟨aim, hl, _, hn, hc⟩
    · rw [hstep] at hs hc
      refine stays ?_
      unfold WatchMemory
      rw [hs, hc]
      exact h
    · have hwin := commit_window hrun (advancing_append ha)
        (fun e' he' => hw e' (List.mem_append_left _ he')) hv hl hn
      rw [hstep] at hc
      have hafter : e.after.state = aim.target := by rw [hc, commit_state]
      have done : e.after.state = .clear →
          (Trailing ProposesClear hysteresis.deescalateSamples.toNat (inside ++ [e]) ∨
            (isAuthoritative e.before.state = false ∧ e.input.1.hasValue = true ∧
              e.input.1.upward = .clear)) →
          Phase hysteresis recovery pre (post ++ [e]) e.after := fun hclear hhow =>
        .cleared (.inr ⟨mid, enter, inside, e, [], by simp [heq], hin, hclear, hhow, hall'⟩)
      rcases h with hs | ⟨hblind, hcs⟩
      · rcases ladder_from_watch hs hwe hl with hup | ⟨rfl, _⟩
        · exact .congested (hc ▸ congested_of_commit hup)
        · rw [hsam.lowers, hs] at hwin
          have hout : ¬AimsFrom hysteresis recovery .watch .clear enter := by
            rintro ⟨_, hb⟩
            rcases hin.1 with h | h <;> simp [hb] at h
          have hinside : Trailing (AimsFrom hysteresis recovery .watch .clear)
              hysteresis.deescalateSamples.toNat (inside ++ [e]) :=
            Trailing.after (l := pre ++ mid) (x := enter) (by simpa [heq] using hwin) hout
          refine done hafter (.inl (hinside.imp fun e' he' hfrom => ⟨hfrom.1.1, ?_⟩))
          obtain ⟨_, aim', hl', htarget⟩ := hfrom.1
          have hw' : WellFormed e'.input.1 := hw e' (by
            rw [heq]
            rcases List.mem_append.mp he' with h | h <;> simp [h])
          rcases ladder_from_watch hfrom.2 hw' hl' with h | ⟨_, h⟩
          · simp [htarget] at h
          · exact h
      · rcases ladder_from_blind_watch hblind hcs hwe hl with hup | ⟨hwatch, _⟩ | ⟨rfl, hu⟩
        · exact .congested (hc ▸ congested_of_commit hup)
        · exact stays (.inl (hafter.trans hwatch))
        · exact done hafter (.inr ⟨hblind, hv, hu⟩)

end

theorem run_memoryKept (h : MachineRun hysteresis recovery {} es s) (ha : Advancing es)
    (hw : ∀ e ∈ es, WellFormed e.input.1) : MemoryKept s := by
  induction h with
  | start => intro h; simp [isAuthoritative] at h
  | @next es s s' i run hs ih =>
    have hm := ih (advancing_append ha) fun e he => hw e (List.mem_append_left _ he)
    have hwf := (hw _ (List.mem_append_right _ List.mem_cons_self)).2.2
    exact hs ▸ memoryKept_step (run_not_regressed run ha) hwf hm

theorem run_phase {r : List (Event DomainState Sample)} (hm : CongestedMemory m)
    (hpre : MachineRun hysteresis recovery {} pre m)
    (hpost : MachineRun hysteresis recovery m r s) (ha : Advancing (pre ++ r))
    (hw : ∀ e ∈ pre ++ r, WellFormed e.input.1)
    (hnob : ∀ e ∈ r, e.before.state = .recovering → e.input.1.hasValue = true)
    (hsam : Samples hysteresis recovery) : Phase hysteresis recovery pre r s := by
  induction hpost with
  | start => exact .congested hm
  | @next r t t' i run hs ih =>
    rw [← List.append_assoc] at ha hw
    have hw' : ∀ e ∈ pre ++ r, WellFormed e.input.1 := fun e he =>
      hw e (List.mem_append_left _ he)
    have hrun := hpre.append run
    have hmem := run_memoryKept hrun (advancing_append ha) hw'
    have hphase := ih (advancing_append ha) hw' fun e he => hnob e (List.mem_append_left _ he)
    cases hphase with
    | cleared h => exact .cleared (h.imp recoveredThrough_snoc steppedDown_snoc)
    | congested h => exact phase_congested (e := ⟨t, i, t'⟩) hrun hs ha hw hmem hsam h
    | recovering hrec mid inside enter heq hin hall =>
      exact phase_recovering (e := ⟨t, i, t'⟩) hrun hs ha hw hmem hsam hrec
        (hnob _ (List.mem_append_right _ List.mem_cons_self) hrec) heq hin hall
    | lowered h mid inside enter heq hin hall =>
      exact phase_lowered (e := ⟨t, i, t'⟩) hrun hs ha hw hmem hsam h heq hin hall

/-- After CONGESTED or SEVERE, CLEAR is reached through a full recovery or a full step down. -/
theorem clear_after_congestion {policy accepted : CongestionPolicy}
    (hp : validatePolicy policy = .ok accepted) (he : accepted.recovery.enabled = true)
    (hs : accepted.recovery.allowSingleSample = false)
    (hpre : MachineRun accepted.hysteresis accepted.recovery {} pre m)
    (hpost : MachineRun accepted.hysteresis accepted.recovery m post s)
    (ha : Advancing (pre ++ post)) (hw : ∀ e ∈ pre ++ post, WellFormed e.input.1)
    (hm : m.state = .congested ∨ m.state = .severe)
    (hnob : ∀ e ∈ post, e.before.state = .recovering → e.input.1.hasValue = true)
    (hclear : s.state = .clear) :
    RecoveredThrough accepted.recovery pre post ∨ SteppedDown accepted.hysteresis pre post := by
  have hsam := accepted_samples (validatePolicy_accepted hp).2 he hs
  have hcm : CongestedMemory m := hm.elim .inl fun h => .inr (.inl h)
  cases run_phase hcm hpre hpost ha hw hnob hsam with
  | cleared h => exact h
  | congested h => rcases h with h | h | ⟨h, _⟩ <;> simp [hclear, isAuthoritative] at h
  | recovering h => simp [hclear] at h
  | lowered h => rcases h with h | ⟨h, _⟩ <;> simp [hclear, isAuthoritative] at h

/-- One congested sample, then a blackout, two improving samples and two Clear ones. -/
theorem clear_after_congestion_default :
    let f := fold makeDefaultPolicy.hysteresis makeDefaultPolicy.recovery
    let rise := [proposes .congested .congested 1]
    let fall := [refuses .stale 2, proposes .watch .watch 3, proposes .clear .clear 4,
      proposes .clear .clear 5, proposes .clear .clear 6]
    let m := rise.foldl f {}
    RecoveredThrough makeDefaultPolicy.recovery (events f {} rise) (events f m fall) ∨
      SteppedDown makeDefaultPolicy.hysteresis (events f {} rise) (events f m fall) := by
  intro f rise fall m
  exact clear_after_congestion defaultPolicy_accepted (by decide) (by decide)
    (Run.of_events f {} rise) (Run.of_events f m fall) (by decide) (by decide)
    (by decide) (by decide) (by decide)

/-- Three WATCH samples and three Clear ones lower CONGESTED to CLEAR, RECOVERING never entered. -/
theorem step_down_skips_recovering :
    let f := fold makeDefaultPolicy.hysteresis makeDefaultPolicy.recovery
    let rise := [proposes .congested .congested 1]
    let fall := [proposes .watch .watch 2, proposes .watch .watch 3, proposes .watch .watch 4,
      proposes .clear .clear 5, proposes .clear .clear 6, proposes .clear .clear 7]
    let m := rise.foldl f {}
    let s := fall.foldl f m
    validatePolicy makeDefaultPolicy = .ok makeDefaultPolicy ∧
      makeDefaultPolicy.recovery.enabled = true ∧
      makeDefaultPolicy.recovery.allowSingleSample = false ∧
      MachineRun makeDefaultPolicy.hysteresis makeDefaultPolicy.recovery {}
        (events f {} rise ++ events f m fall) s ∧
      Advancing (events f {} rise ++ events f m fall) ∧
      (∀ e ∈ events f {} rise ++ events f m fall, WellFormed e.input.1) ∧
      m.state = .congested ∧ s.state = .clear ∧
      ∀ e ∈ events f {} rise ++ events f m fall, e.after.state ≠ .recovering := by
  intro f rise fall m s
  exact ⟨defaultPolicy_accepted, by decide, by decide,
    (Run.of_events f {} rise).append (Run.of_events f m fall), by decide, by decide, by decide,
    by decide, by decide⟩

end CongestionFabric.HysteresisEngine
