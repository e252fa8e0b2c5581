import CongestionFabric.Eval.Discipline
import CongestionFabric.Eval.Settling

namespace CongestionFabric

namespace HysteresisEngine

variable {policy : CongestionPolicy} {s : DomainState} {p : SeverityProposal} {now : Tick}
  {aim : Aim}

/-- Where a proposal of WATCH or worse takes a machine that remembers something worse still, and
the samples that takes. -/
inductive WayDown (policy : CongestionPolicy) (state : CongestionState) (memory : Severity)
    (p : SeverityProposal) : Aim → Prop where
  | downgrade (hstate : isAuthoritative state = true) (hrise : p.upward ≤ memory)
      (hfall : p.downward < memory) :
    WayDown policy state memory p
      ⟨stateOf p.downward, policy.hysteresis.deescalateSamples, false⟩
  | reescalation (hstate : isAuthoritative state = false) (hrise : .congested ≤ p.upward)
      (hfall : p.upward < memory) :
    WayDown policy state memory p ⟨stateOf p.upward, policy.hysteresis.escalateSamples, true⟩
  | recovery (hstate : isAuthoritative state = false) (hrise : p.upward < .congested)
      (hfall : .congested ≤ memory) (henabled : policy.recovery.enabled = true) :
    WayDown policy state memory p ⟨.recovering, recoverySamples policy.recovery, false⟩
  | restart (hstate : isAuthoritative state = false) (hrise : p.upward < .congested)
      (hfall : .congested ≤ memory) (henabled : policy.recovery.enabled = false) :
    WayDown policy state memory p ⟨stateOf p.upward, 1, false⟩

/-- The dwell that applies to the move is over. -/
def DwellOver (hysteresis : HysteresisPolicy) (s : DomainState) (aim : Aim) (now : Tick) : Prop :=
  (aim.escalation = true ∧ hysteresis.applyDwellOnEscalation = false) ∨
    hysteresis.minDwellTicks = 0 ∨ s.lastChangeTick = kNoTick ∨
    hysteresis.minDwellTicks ≤ elapsedSince now s.lastChangeTick

/-- An evaluation at this tick completes the samples of a way down. -/
def Slips (policy : CongestionPolicy) (s : DomainState) (p : SeverityProposal) (now : Tick) :
    Prop :=
  tickRegressed s now = false ∧ ∃ aim, WayDown policy s.state s.lastCommittedSeverity p aim ∧
    aim.required ≤ (countSample s aim.target).candidateStreak ∧
    DwellOver policy.hysteresis s aim now

/-- What is proposed where coverage is incomplete. -/
structure Floored (p : SeverityProposal) : Prop where
  value : p.hasValue = true
  floor : .watch ≤ p.upward
  ordered : p.upward ≤ p.downward
  declared : p.upward ≤ .severe

theorem watch_lt_of_congested {v : Severity} (h : .congested ≤ v) : Severity.watch < v :=
  lt_of_lt_of_le (by decide : Severity.watch < .congested) h

/-- Below CONGESTED and not below WATCH is WATCH. -/
theorem eq_watch_of_lt {v : Severity} (hfloor : .watch ≤ v) (hlt : v < .congested) :
    v = .watch := by
  have hdeclared : v ≤ .severe := (hlt.trans (by decide)).le
  rcases Severity.declared_cases hdeclared with rfl | rfl | rfl | rfl
  · exact absurd hfloor (by decide)
  · rfl
  · exact absurd hlt (by decide)
  · exact absurd hlt (by decide)

theorem congested_of_watch_lt {v : Severity} (h : .watch < v) : .congested ≤ v := by
  have hlt : 1 < v.toRaw.toNat := h
  exact hlt

/-- RECOVERING is at the floor: a floored proposal does not fall below it. -/
theorem not_recovering (hp : Floored p) (hfall : p.downward < currentSeverity s) :
    s.state ≠ .recovering := by
  intro hstate
  have hwatch : currentSeverity s = .watch := by
    unfold currentSeverity
    rw [hstate]
    rfl
  rw [hwatch] at hfall
  exact absurd (hp.floor.trans hp.ordered) (not_le_of_gt hfall)

/-- The ladder takes a floored proposal below the committed severity by the ways down only. -/
theorem ladder_wayDown_iff (h : Accepted policy) (hm : MemoryKept s) (hp : Floored p) :
    (ladder s p policy.hysteresis policy.recovery = some aim ∧
      severityIn aim.target < s.lastCommittedSeverity) ↔ WayDown policy s.state s.lastCommittedSeverity p aim := by
  obtain ⟨hescalate, hdeescalate⟩ := validateHysteresis_samples h.hysteresis
  have hup : atLeastOne policy.hysteresis.escalateSamples = policy.hysteresis.escalateSamples :=
    atLeastOne_eq hescalate.1
  have hdown : atLeastOne policy.hysteresis.deescalateSamples =
      policy.hysteresis.deescalateSamples := atLeastOne_eq hdeescalate.1
  have hin : severityIn (stateOf p.upward) = p.upward := severityIn_stateOf hp.declared
  have hclear : p.downward ≠ .clear := CongestionEvaluator.watch_ne_clear (hp.floor.trans hp.ordered)
  by_cases hauth : isAuthoritative s.state = true
  · have hmemory : s.lastCommittedSeverity = currentSeverity s := hm hauth
    constructor
    · rintro ⟨hl, hlower⟩
      unfold ladder at hl
      rw [if_neg (by simp [hauth])] at hl
      by_cases hrise : p.upward > currentSeverity s
      · rw [if_pos hrise] at hl
        obtain rfl := Option.some.inj hl
        rw [hin, hmemory] at hlower
        exact absurd hlower (not_lt_of_gt hrise)
      · rw [if_neg hrise] at hl
        by_cases hfall : p.downward < currentSeverity s
        · rw [if_pos hfall, if_neg (not_recovering hp hfall), if_neg (fun hd => hclear hd.2.1),
            hdown] at hl
          obtain rfl := Option.some.inj hl
          exact .downgrade hauth (hmemory ▸ not_lt.mp hrise) (hmemory ▸ hfall)
        · rw [if_neg hfall] at hl
          cases hl
    · intro hway
      cases hway with
      | downgrade _ hrise hfall =>
        have hlow : p.downward ≤ .severe :=
          (hmemory ▸ hfall).le.trans (currentSeverity_le_severe s)
        have hstate : s.state ≠ .recovering := not_recovering hp (hmemory ▸ hfall)
        refine ⟨?_, ?_⟩
        · unfold ladder
          rw [if_neg (by simp [hauth]), if_neg (not_lt.mpr (hmemory ▸ hrise)),
            if_pos (hmemory ▸ hfall), if_neg hstate, if_neg (fun hd => hclear hd.2.1), hdown]
        · rw [severityIn_stateOf hlow]
          exact hfall
      | reescalation hstate | recovery hstate | restart hstate =>
        exact absurd (hauth.symm.trans hstate) (by decide)
  · have hnone : isAuthoritative s.state = false := by simpa using hauth
    constructor
    · rintro ⟨hl, hlower⟩
      unfold ladder at hl
      rw [if_pos (by simp [hnone])] at hl
      by_cases hrise : .congested ≤ p.upward
      · rw [if_pos hrise] at hl
        obtain rfl := Option.some.inj hl
        rw [hin] at hlower
        rw [hup]
        exact .reescalation hnone hrise hlower
      · rw [if_neg hrise] at hl
        have hlt : p.upward < .congested := not_le.mp hrise
        by_cases hmemory : policy.recovery.enabled = true ∧ s.lastCommittedSeverity ≥ .congested
        · rw [if_pos hmemory] at hl
          obtain rfl := Option.some.inj hl
          exact .recovery hnone hlt hmemory.2 hmemory.1
        · rw [if_neg hmemory] at hl
          obtain rfl := Option.some.inj hl
          rw [hin, eq_watch_of_lt hp.floor hlt] at hlower
          have hcongested : .congested ≤ s.lastCommittedSeverity := congested_of_watch_lt hlower
          exact .restart hnone hlt hcongested
            (Bool.eq_false_iff.mpr fun he => hmemory ⟨he, hcongested⟩)
    · intro hway
      unfold ladder
      rw [if_pos (by simp [hnone])]
      cases hway with
      | downgrade hstate => exact absurd hstate hauth
      | reescalation _ hrise hfall =>
        rw [if_pos hrise, hup, hin]
        exact ⟨rfl, hfall⟩
      | recovery _ hrise hfall henabled =>
        rw [if_neg (not_le_of_gt hrise), if_pos ⟨henabled, hfall⟩]
        exact ⟨rfl, watch_lt_of_congested hfall⟩
      | restart _ hrise hfall henabled =>
        rw [if_neg (not_le_of_gt hrise), if_neg (fun hm => by simp [henabled] at hm)]
        refine ⟨rfl, ?_⟩
        rw [hin]
        exact hrise.trans_le hfall

theorem wayDown_required (h : Accepted policy) (hway : WayDown policy s.state s.lastCommittedSeverity p aim) :
    capRequired aim.required = aim.required := by
  obtain ⟨hescalate, hdeescalate⟩ := validateHysteresis_samples h.hysteresis
  cases hway with
  | downgrade => exact capRequired_of_le hdeescalate.2
  | reescalation => exact capRequired_of_le hescalate.2
  | recovery => exact (accepted_counted h).recovers
  | restart => exact capRequired_of_le (by decide : (1 : UInt32) ≤ limits.kMaxHysteresisSamples)

/-- Off RECOVERING nothing but the dwell holds a move. -/
theorem held_none_iff {hysteresis : HysteresisPolicy} {recovery : RecoveryPolicy}
    (hstate : s.state ≠ .recovering) :
    held s aim hysteresis recovery now = none ↔ DwellOver hysteresis s aim now := by
  have hpos : ∀ n : Tick, n > 0 ↔ n ≠ 0 := fun n => UInt64.pos_iff_ne_zero
  unfold held DwellOver
  rw [if_neg (fun hr : s.state = .recovering ∧ _ => hstate hr.1)]
  simp only [hpos, ← UInt64.not_lt]
  cases aim.escalation <;> cases hysteresis.applyDwellOnEscalation <;> simp <;>
    rw [or_iff_not_imp_left, or_iff_not_imp_left]

/-- A floored proposal lowers the committed severity exactly where the machine slips. -/
theorem step_lowers_iff (h : Accepted policy) (hm : MemoryKept s) (hp : Floored p) :
    (step s p policy.hysteresis policy.recovery now).1.lastCommittedSeverity <
      s.lastCommittedSeverity ↔ Slips policy s p now := by
  have hnot : ∀ {aim : Aim}, WayDown policy s.state s.lastCommittedSeverity p aim → s.state ≠ .recovering := by
    intro aim hway hstate
    cases hway with
    | downgrade hauth _ hfall => exact not_recovering hp (hm hauth ▸ hfall) hstate
    | reescalation hnone | recovery hnone | restart hnone =>
      exact absurd (hstate ▸ hnone : isAuthoritative .recovering = false) (by decide)
  have hcase := step_cases s p policy.hysteresis policy.recovery now
  generalize step s p policy.hysteresis policy.recovery now = result at hcase ⊢
  constructor
  · intro hlower
    cases hcase with
    | regressed | invalid | confirms => exact absurd hlower (lt_irrefl _)
    | indeterminate _ hv => exact absurd (hp.value.symm.trans hv) (by decide)
    | steady _ _ hl =>
      have hlower : currentSeverity s < s.lastCommittedSeverity := hlower
      rw [hm (ladder_none hl)] at hlower
      exact absurd hlower (lt_irrefl _)
    | pending aim =>
      rw [countSample_eq] at hlower
      exact absurd hlower (lt_irrefl _)
    | commits aim ht _ hl _ hh hn =>
      by_cases hauth : isAuthoritative aim.target = true
      · rw [commit_memory _ _ hauth] at hlower
        have hway : WayDown policy s.state s.lastCommittedSeverity p aim := (ladder_wayDown_iff h hm hp).mp ⟨hl, hlower⟩
        rw [wayDown_required h hway] at hn
        exact ⟨ht, aim, hway, hn, (held_none_iff (hnot hway)).mp hh⟩
      · rw [countSample_eq] at hlower
        unfold commit at hlower
        rw [if_neg hauth] at hlower
        exact absurd hlower (lt_irrefl _)
  · rintro ⟨ht, aim, hway, hfull, hdwell⟩
    obtain ⟨hladder, hlower⟩ := (ladder_wayDown_iff h hm hp).mpr hway
    have hheld : held s aim policy.hysteresis policy.recovery now = none :=
      (held_none_iff (hnot hway)).mpr hdwell
    have hmoves : aim.target ≠ s.state := by
      intro hsame
      by_cases hauth : isAuthoritative s.state = true
      · rw [hm hauth, hsame] at hlower
        exact absurd hlower (lt_irrefl _)
      · cases hway with
        | downgrade hdeterminate => exact hauth hdeterminate
        | reescalation | restart =>
          exact hauth (hsame ▸ stateOf_authoritative hp.declared)
        | recovery => exact hauth (hsame ▸ rfl)
    have hsame : ∀ {aim' : Aim}, ladder s p policy.hysteresis policy.recovery = some aim' →
        aim' = aim := fun hl => Option.some.inj (hl.symm.trans hladder)
    cases hcase with
    | regressed hreg => exact absurd (ht.symm.trans hreg) (by decide)
    | invalid _ hv | indeterminate _ hv => exact absurd (hp.value.symm.trans hv) (by decide)
    | steady _ _ hl => exact absurd (hl.symm.trans hladder) (by simp)
    | confirms aim' _ _ hl ha => exact absurd (hsame hl ▸ ha) hmoves
    | pending aim' reason _ _ hl _ hw =>
      obtain rfl := hsame hl
      rw [wayDown_required h hway] at hw
      rcases hw with hw | hw
      · exact absurd hheld hw
      · exact absurd hfull (UInt32.not_le.mpr hw)
    | commits aim' _ _ hl =>
      obtain rfl := hsame hl
      have hauth : isAuthoritative aim'.target = true := by
        cases hway with
        | downgrade hauth _ hfall =>
          exact stateOf_authoritative
            ((hm hauth ▸ hfall).le.trans (currentSeverity_le_severe s))
        | reescalation | restart => exact stateOf_authoritative hp.declared
        | recovery => rfl
      rw [commit_memory _ _ hauth]
      exact hlower

end HysteresisEngine

namespace CongestionEvaluator

open HysteresisEngine

variable {policy : CongestionPolicy} {s₀ s : DomainState} {es : List (Event DomainState Call)}

/-- Some resource of the scope reports, and lacks something required. -/
def Lacking (policy : CongestionPolicy) (resolution : Resolution) (resources : List ResourceId) :
    Prop :=
  ∃ r ∈ resources, (∃ rule ∈ policy.rules, reports resolution r rule.metric = true) ∧
    ∃ rule ∈ policy.rules, rule.required = true ∧ reports resolution r rule.metric = false

/-- The evaluation sees incomplete required coverage, and nobody is contradicted. -/
def PartlyCovered (policy : CongestionPolicy) (call : Call) : Prop :=
  ∃ resources, scope call.request policy call.context.topology = .ok resources ∧
    Lacking policy (resolve policy (admitSamples call.request policy call.context resources))
      resources ∧
    ∀ r ∈ resources, ∀ rule ∈ policy.rules, contradicted
      (resolve policy (admitSamples call.request policy call.context resources)) r rule.metric =
        false

instance (resolution : Resolution) (resources : List ResourceId) :
    Decidable (Lacking policy resolution resources) :=
  inferInstanceAs (Decidable (∃ r ∈ resources, _ ∧ _))

theorem partlyCovered_iff {call : Call} : PartlyCovered policy call ↔
    (scope call.request policy call.context.topology).toOption.any (fun resources => decide
      (Lacking policy (resolve policy (admitSamples call.request policy call.context resources))
          resources ∧
        ∀ r ∈ resources, ∀ rule ∈ policy.rules, contradicted
          (resolve policy (admitSamples call.request policy call.context resources)) r
          rule.metric = false)) = true := by
  unfold PartlyCovered
  cases scope call.request policy call.context.topology with
  | error => simp [Except.toOption]
  | ok resources => simp [Except.toOption]

instance (call : Call) : Decidable (PartlyCovered policy call) :=
  decidable_of_iff _ partlyCovered_iff.symm

/-- What a partly covered evaluation proposes. -/
theorem PartlyCovered.floored (h : Accepted policy) {call : Call} {p : SeverityProposal}
    (hcovered : PartlyCovered policy call)
    (hp : proposalOf call.request policy call.context s = .ok p) : Floored p := by
  obtain ⟨hdeclared, hordered⟩ := proposalOf_ordered h hp
  obtain ⟨resources, hscope, hlacking, hagreed⟩ := hcovered
  unfold proposalOf at hp
  simp only [bind_ok] at hp
  obtain ⟨resources', hscope', a, hassess, hp⟩ := hp
  obtain rfl := Except.ok.inj (hscope.symm.trans hscope')
  obtain rfl := Except.ok.inj hp
  obtain ⟨f, hf, hraised, _⟩ := assess_classified hassess
  generalize hres : resolve policy (admitSamples call.request policy call.context resources) =
    resolution at hlacking hagreed
  have hcs : (classifyScope call.request policy call.context resources).classified =
      resources.map fun r => classify policy (tallyResource policy resolution r) := by
    simp [classifyScope, hres]
  obtain ⟨hconflict, hevidence, hpartly, _, _⟩ := aggregate_map
    (resources.map fun r => classify policy (tallyResource policy resolution r)) hraised
  rw [hcs] at hf
  rw [← hf] at hconflict hevidence hpartly
  have hquiet : ∀ r ∈ resources,
      (tallyResource policy resolution r).assessment.contradictory = false := by
    intro r hr
    rw [← Bool.not_eq_true, tally_contradictory_iff]
    rintro ⟨rule, hrule, hc⟩
    exact absurd (hc.symm.trans (hagreed r hr rule hrule)) (by decide)
  obtain ⟨r, hr, hsome, rule, hrule, hrequired, hsilent⟩ := hlacking
  have hagree : (aggregate a.classified).anyConflict = false := by
    rw [hconflict, ← Bool.not_eq_true, anyConflict_iff]
    rintro ⟨r, hr, rule, hrule, hc⟩
    exact absurd (hc.symm.trans (hagreed r hr rule hrule)) (by decide)
  have hsees : (aggregate a.classified).anyEvidence = true := by
    rw [hevidence]
    exact (anyEvidence_iff hquiet).mpr ⟨r, hr, hsome⟩
  have hincomplete : hasRequiredRules policy = true ∧ (aggregate a.classified).anyPartial = true := by
    rw [hpartly]
    refine (anyPartial_iff hquiet).mpr ⟨r, hr, hsome, fun hall => ?_⟩
    exact absurd ((hall rule hrule hrequired).symm.trans hsilent) (by decide)
  have hpropose : propose policy s (aggregate a.classified) =
      { hasValue := true
        upward := floorAtWatch (aggregate a.classified).upward
        downward := floorAtWatch (aggregate a.classified).downward } := by
    unfold propose
    rw [if_neg (by simp [hagree]), if_neg (by simp [hsees]), if_pos (by simpa using hincomplete)]
  rw [hpropose] at hdeclared hordered ⊢
  exact ⟨rfl, le_max_right _ _, hordered, hdeclared⟩

/-- The committed severity does not fall. -/
def NotLowered (e : Event DomainState Call) : Prop :=
  e.before.lastCommittedSeverity ≤ e.after.lastCommittedSeverity

instance (e : Event DomainState Call) : Decidable (NotLowered e) :=
  inferInstanceAs (Decidable (_ ≤ _))

/-- Some proposal of the evaluation takes the machine down. -/
def SlipsAt (policy : CongestionPolicy) (e : Event DomainState Call) : Prop :=
  ∃ p, Proposed policy e p ∧ Slips policy e.before p e.input.request.now

theorem propose_decides (prior : DomainState) (g : Aggregate) :
    (propose policy prior g).hasValue = true ∨
      isIndeterminate (propose policy prior g).indeterminate = true := by
  unfold propose
  split_ifs <;> simp [isIndeterminate]

/-- The bookkeeping before the step does not touch what a slip depends on. -/
theorem slips_prepare {request : EvaluationRequest} {context : EvaluationContext}
    {p : SeverityProposal} {now : Tick} :
    Slips policy (prepare request policy context s) p now ↔ Slips policy s p now := by
  unfold Slips
  simp only [countSample_prepare]
  exact Iff.rfl

/-- The evaluations of one policy keep the memory of a determinate state. -/
theorem evaluationRun_memoryKept (hrun : EvaluationRun policy s₀ es s) (hm : MemoryKept s₀) :
    MemoryKept s ∧ ∀ e ∈ es, MemoryKept e.before := by
  have hstep : ∀ (s : DomainState) (i : Call) (s' : DomainState), MemoryKept s →
      (i.context.policy = some policy ∧
        ∃ outcome, evaluate i.request s i.context = .ok outcome ∧ outcome.updated = s') →
      MemoryKept s' := by
    rintro s i _ hs ⟨hpolicy, outcome, heval, rfl⟩
    obtain ⟨p, hp, hupdated⟩ := evaluate_updated hpolicy heval
    rw [hupdated]
    have hprepared : MemoryKept (prepare i.request policy i.context s) := hs
    by_cases ht : tickRegressed (prepare i.request policy i.context s) i.request.now = true
    · unfold step
      rw [if_pos ht]
      exact hprepared
    · have hdecides : p.hasValue = true ∨ isIndeterminate p.indeterminate = true := by
        unfold proposalOf at hp
        simp only [bind_ok] at hp
        obtain ⟨_, _, a, _, hp⟩ := hp
        obtain rfl := Except.ok.inj hp
        exact propose_decides s _
      exact memoryKept_step (Bool.eq_false_iff.mpr ht) hdecides hprepared
  exact ⟨hrun.invariant hm hstep, fun e he => (hrun.invariant_at hm hstep he).1⟩

/-- Over the evaluations of a run that see incomplete coverage, the committed severity falls where
the remaining evidence completes a way down, and nowhere else. -/
theorem partial_coverage_keeps_iff {requested accepted : CongestionPolicy}
    (haccepted : validatePolicy requested = .ok accepted) (hm : MemoryKept s₀)
    (hrun : EvaluationRun accepted s₀ es s) :
    ∀ e ∈ es, PartlyCovered accepted e.input → (NotLowered e ↔ ¬SlipsAt accepted e) := by
  obtain ⟨_, h⟩ := validatePolicy_accepted haccepted
  intro e he hcovered
  obtain ⟨hpolicy, outcome, heval, hafter⟩ := hrun.mem_step he
  obtain ⟨p, hp, hupdated⟩ := evaluate_updated hpolicy heval
  have hbefore : MemoryKept e.before := (evaluationRun_memoryKept hrun hm).2 e he
  have hlowers := @step_lowers_iff accepted
    (prepare e.input.request accepted e.input.context e.before) p e.input.request.now h hbefore
    (hcovered.floored h hp)
  have hslips : SlipsAt accepted e ↔
      Slips accepted (prepare e.input.request accepted e.input.context e.before) p
        e.input.request.now := by
    rw [slips_prepare]
    constructor
    · rintro ⟨p', hp', hslips⟩
      obtain rfl : p' = p := Except.ok.inj (hp'.symm.trans hp)
      exact hslips
    · exact fun hslips => ⟨p, hp, hslips⟩
  unfold NotLowered
  rw [hslips, ← hlowers, not_lt, ← hafter, hupdated]
  exact Iff.rfl

/-- One resource reports these metrics. -/
def reportCall (metrics : MetricSet) (now : Tick) : Call where
  request := {
    domain := ⟨1⟩, epoch := ⟨1⟩, now
    evidence := {
      id := ⟨1⟩, epoch := ⟨1⟩, submittedTick := now
      samples := [{
        resource := ⟨1⟩, publisher := ⟨1⟩, publisherBoot := ⟨1⟩, epoch := ⟨1⟩, generation := ⟨1⟩
        sequence := 1, observedTick := now, metrics }] } }
  context := { pairContext with now }

/-- Utilization and queue are saturated, then only the latency is heard of. -/
def fallsSilent : List (Event DomainState Call) :=
  events committed {} [
    reportCall (((∅ : MetricSet).insert .utilizationPpm 990000).insert .queueOccupancyPpm 990000) 10,
    reportCall ((∅ : MetricSet).insert .latencyMicros 10) 11,
    reportCall ((∅ : MetricSet).insert .latencyMicros 10) 12,
    reportCall ((∅ : MetricSet).insert .latencyMicros 10) 13]

/-- Two evaluations after utilization falls silent nothing is lowered yet. -/
theorem partial_coverage_keeps_iff_waiting : ∃ s,
    EvaluationRun makeDefaultPolicy {} (fallsSilent.take 3) s ∧
    ∃ e ∈ fallsSilent.take 3, PartlyCovered makeDefaultPolicy e.input ∧ NotLowered e ∧
      ¬SlipsAt makeDefaultPolicy e := by
  have hrun : EvaluationRun makeDefaultPolicy {} (fallsSilent.take 3) _ :=
    EvaluationRun.of_inputs [_, _, _] (by decide +kernel)
  obtain ⟨first, second, third, hes, hcovered, hkept⟩ : ∃ first second third,
      fallsSilent.take 3 = [first, second, third] ∧
      PartlyCovered makeDefaultPolicy third.input ∧ NotLowered third := by
    refine ⟨_, _, _, rfl, ?_⟩
    decide +kernel
  have hthird : third ∈ fallsSilent.take 3 := by
    rw [hes]
    simp
  have hstart : MemoryKept {} := fun ha => absurd ha (by decide)
  have hiff := partial_coverage_keeps_iff defaultPolicy_accepted hstart hrun third hthird hcovered
  exact ⟨_, hrun, third, hthird, hcovered, hkept, hiff.mp hkept⟩

/-- With its required utilization silent for three evaluations, the domain falls from SEVERE to
WATCH. -/
theorem silent_utilization_lowers :
    validatePolicy makeDefaultPolicy = .ok makeDefaultPolicy ∧
    hasRequiredRules makeDefaultPolicy = true ∧
    (fallsSilent.map (·.input.request.now)).Pairwise (· < ·) ∧
    ∃ s e, EvaluationRun makeDefaultPolicy {} fallsSilent s ∧ e ∈ fallsSilent ∧
      PartlyCovered makeDefaultPolicy e.input ∧ e.before.state = .severe ∧
      e.after.state = .watch ∧ ¬NotLowered e := by
  have hrun : EvaluationRun makeDefaultPolicy {} fallsSilent _ :=
    EvaluationRun.of_inputs [_, _, _, _] (by decide +kernel)
  obtain ⟨first, second, third, fourth, hes, hfall⟩ : ∃ first second third fourth,
      fallsSilent = [first, second, third, fourth] ∧
      PartlyCovered makeDefaultPolicy fourth.input ∧ fourth.before.state = .severe ∧
      fourth.after.state = .watch ∧ ¬NotLowered fourth := by
    refine ⟨_, _, _, _, rfl, ?_⟩
    decide +kernel
  have hfourth : fourth ∈ fallsSilent := by
    rw [hes]
    simp
  exact ⟨defaultPolicy_accepted, by decide, by decide, _, fourth, hrun, hfourth, hfall⟩

end CongestionEvaluator

end CongestionFabric
