import CongestionFabric.Eval.Induced

namespace CongestionFabric

namespace HysteresisEngine

variable {hysteresis : HysteresisPolicy} {recovery : RecoveryPolicy} {now : Tick}

/-! ### The machine does not read the fingerprint it carries -/

theorem countSample_fingerprint (s : DomainState) (target : CongestionState)
    (fingerprint : Hash64) :
    countSample { s with policyFingerprint := fingerprint } target =
      { countSample s target with policyFingerprint := fingerprint } := by
  unfold countSample
  dsimp only
  split
  · split <;> rfl
  · rfl

theorem commit_fingerprint (s : DomainState) (target : CongestionState) (fingerprint : Hash64) :
    commit { s with policyFingerprint := fingerprint } target now =
      { commit s target now with policyFingerprint := fingerprint } := by
  unfold commit
  dsimp only
  split <;> rfl

theorem stepIndeterminate_fingerprint (s : DomainState) (target : CongestionState)
    (fingerprint : Hash64) :
    stepIndeterminate { s with policyFingerprint := fingerprint } target now =
      ({ (stepIndeterminate s target now).1 with policyFingerprint := fingerprint },
        (stepIndeterminate s target now).2) := by
  unfold stepIndeterminate
  dsimp only
  split <;> rfl

theorem stepToward_fingerprint (s : DomainState) (aim : Aim) (fingerprint : Hash64) :
    stepToward { s with policyFingerprint := fingerprint } aim hysteresis recovery now =
      ({ (stepToward s aim hysteresis recovery now).1 with policyFingerprint := fingerprint },
        (stepToward s aim hysteresis recovery now).2) := by
  unfold stepToward
  dsimp only
  rw [countSample_fingerprint]
  generalize countSample s aim.target = counted
  have hheld : held { counted with policyFingerprint := fingerprint } aim hysteresis recovery now =
      held counted aim hysteresis recovery now := rfl
  split
  · rfl
  · rw [hheld]
    split
    · rfl
    · rw [commit_fingerprint]
      split <;> rfl

theorem step_fingerprint (s : DomainState) (proposal : SeverityProposal) (fingerprint : Hash64) :
    step { s with policyFingerprint := fingerprint } proposal hysteresis recovery now =
      ({ (step s proposal hysteresis recovery now).1 with policyFingerprint := fingerprint },
        (step s proposal hysteresis recovery now).2) := by
  have hladder : ladder { s with policyFingerprint := fingerprint } proposal hysteresis recovery =
      ladder s proposal hysteresis recovery := rfl
  have hregressed : tickRegressed { s with policyFingerprint := fingerprint } now =
      tickRegressed s now := rfl
  unfold step
  rw [hladder, hregressed]
  split
  · rfl
  · split
    · split
      · rfl
      · exact stepIndeterminate_fingerprint s _ fingerprint
    · split
      · rfl
      · exact stepToward_fingerprint s _ fingerprint

end HysteresisEngine

/-- The policy with propagation switched on or off; a validated one also carries the fingerprint of
that. -/
def CongestionPolicy.propagating (policy : CongestionPolicy) (enabled : Bool)
    (fingerprint : Hash64) : CongestionPolicy :=
  { policy with propagation := { policy.propagation with enabled }, fingerprint }

theorem propagating_fingerprint (policy : CongestionPolicy) (overwritten : Hash64)
    (enabled : Bool) (fingerprint : Hash64) :
    ({ policy with fingerprint := overwritten } : CongestionPolicy).propagating enabled
      fingerprint = policy.propagating enabled fingerprint := rfl

theorem Accepted.propagating {policy : CongestionPolicy} (h : Accepted policy) (enabled : Bool) (fingerprint : Hash64) :
    Accepted (policy.propagating enabled fingerprint) :=
  ⟨h.id, h.rules_ne, h.rules, h.hysteresis, h.recovery, h.evidence, h.interventions, h.limits,
    h.gates⟩

namespace CongestionEvaluator

variable {policy : CongestionPolicy} {resolution : Resolution} {resources : List ResourceId}
  {s : Severity}

theorem gateSeverity_le_severe (watch congested severe : Nat) :
    gateSeverity watch congested severe policy ≤ .severe := by
  unfold gateSeverity
  split_ifs <;> decide

theorem induceOne_le {c : Classified} {edge : PropagationEdge} (h : edge.induced ≤ s) :
    (induceOne c edge).upward ≤ max c.upward s ∧
      (induceOne c edge).downward ≤ max c.downward s := by
  unfold induceOne
  split
  · exact ⟨max_le_max_left _ h, max_le_max_left _ h⟩
  · exact ⟨le_max_left _ _, le_max_left _ _⟩

theorem induceOne_foldl_le {edges : List PropagationEdge} (h : ∀ edge ∈ edges, edge.induced ≤ s)
    (c : Classified) :
    (edges.foldl induceOne c).upward ≤ max c.upward s ∧
      (edges.foldl induceOne c).downward ≤ max c.downward s := by
  induction edges generalizing c with
  | nil => exact ⟨le_max_left _ _, le_max_left _ _⟩
  | cons edge edges ih =>
    obtain ⟨hedge, hrest⟩ := List.forall_mem_cons.mp h
    obtain ⟨hup, hdown⟩ := ih hrest (induceOne c edge)
    obtain ⟨hup', hdown'⟩ := induceOne_le (c := c) hedge
    exact ⟨hup.trans (max_le hup' (le_max_right _ _)),
      hdown.trans (max_le hdown' (le_max_right _ _))⟩

/-- What classification promises of every resource: a severity comes from a reading, and falling
is never easier than rising. -/
structure Grounded (c : Classified) : Prop where
  declared : c.upward ≤ .severe
  covered : c.upward ≠ .clear → c.assessment.coverage ≠ .none
  ordered : c.upward ≤ c.downward

theorem classify_grounded (resource : ResourceId) :
    Grounded (classify policy (tallyResource policy resolution resource)) where
  declared := gateSeverity_le_severe _ _ _
  covered := fun hup hnone => hup (upward_of_silent (tally_coverage_none.mp hnone).1)
  ordered := upward_le_downward _

/-- Raising resources no higher than the worst of them leaves the domain where it is. -/
theorem aggregate_raised {cs : List Classified} {f : Classified → Classified}
    (hraised : ∀ c, Raised c (f c))
    (hup : ∀ c ∈ cs, (f c).upward ≤ max c.upward (aggregate cs).upward)
    (hdown : ∀ c ∈ cs, (f c).downward ≤ max c.downward (aggregate cs).upward)
    (hordered : ∀ c ∈ cs, c.upward ≤ c.downward) : aggregate (cs.map f) = aggregate cs := by
  obtain ⟨h₁, h₂, h₃, h₄, h₅⟩ := aggregate_map cs hraised
  obtain ⟨i₁, i₂, i₃, i₄, i₅⟩ := aggregate_map cs (f := id)
    fun c => ⟨rfl, rfl, le_refl _, le_refl _⟩
  rw [List.map_id] at i₁ i₂ i₃ i₄ i₅
  have hbelow : (aggregate cs).upward ≤ (aggregate cs).downward := by
    rcases (i₄ (aggregate cs).upward).mp (le_refl _) with hclear | ⟨c, hc, hcov, hle⟩
    · exact (i₅ _).mpr (.inl hclear)
    · exact (i₅ _).mpr (.inr ⟨c, hc, hcov, hle.trans (hordered c hc)⟩)
  have hupward : (aggregate (cs.map f)).upward = (aggregate cs).upward := by
    apply le_antisymm
    · rcases (h₄ (aggregate (cs.map f)).upward).mp (le_refl _) with hclear | ⟨c, hc, hcov, hle⟩
      · exact (i₄ _).mpr (.inl hclear)
      · have hc' : c.upward ≤ (aggregate cs).upward :=
          (i₄ _).mpr (.inr ⟨c, hc, hcov, le_refl _⟩)
        exact (hle.trans (hup c hc)).trans (max_le hc' (le_refl _))
    · rcases (i₄ (aggregate cs).upward).mp (le_refl _) with hclear | ⟨c, hc, hcov, hle⟩
      · exact (h₄ _).mpr (.inl hclear)
      · exact (h₄ _).mpr (.inr ⟨c, hc, hcov, hle.trans (hraised c).2.2.1⟩)
  have hdownward : (aggregate (cs.map f)).downward = (aggregate cs).downward := by
    apply le_antisymm
    · rcases (h₅ (aggregate (cs.map f)).downward).mp (le_refl _) with hclear | ⟨c, hc, hcov, hle⟩
      · exact (i₅ _).mpr (.inl hclear)
      · have hc' : c.downward ≤ (aggregate cs).downward :=
          (i₅ _).mpr (.inr ⟨c, hc, hcov, le_refl _⟩)
        exact (hle.trans (hdown c hc)).trans (max_le hc' hbelow)
    · rcases (i₅ (aggregate cs).downward).mp (le_refl _) with hclear | ⟨c, hc, hcov, hle⟩
      · exact (h₅ _).mpr (.inl hclear)
      · exact (h₅ _).mpr (.inr ⟨c, hc, hcov, hle.trans (hraised c).2.2.2⟩)
  generalize aggregate (cs.map f) = g at h₁ h₂ h₃ hupward hdownward
  generalize aggregate cs = g' at i₁ i₂ i₃ hupward hdownward
  cases g
  cases g'
  simp_all

/-- The resources before propagation, and what is reported of them but the edges. -/
structure Neutral (a a' : Assessed) : Prop where
  aggregate : aggregate a'.classified = aggregate a.classified
  evidence : a'.evidence = { a.evidence with
    propagation := a'.evidence.propagation
    truncatedSections := a'.evidence.truncatedSections }
  length : a'.classified.length = a.classified.length

theorem Neutral.refl (a : Assessed) : Neutral a a := ⟨rfl, rfl, rfl⟩

theorem mem_sourcesOf {cs : List Classified} {source : PropagationEngine.Source}
    (h : source ∈ sourcesOf cs) : ∃ c ∈ cs, c.upward ≠ .clear ∧ source.severity = c.upward := by
  obtain ⟨c, hc, rfl⟩ := List.mem_map.mp h
  obtain ⟨hc, hup⟩ := List.mem_filter.mp hc
  exact ⟨c, hc, by simpa using hup, rfl⟩

/-- The edge bound of an accepted policy is in range. -/
theorem accepted_entries (h : Accepted policy) : policy.limits.maxExplanationEntries.toNat ≠ 0 ∧
    policy.limits.maxExplanationEntries.toNat ≤ limits.kMaxPropagationEdges := by
  have hlimits := h.limits
  simp only [validateLimits, bind_ok, refuseIf_ok, exists_const, not_or] at hlimits
  obtain ⟨_, _, _, _, ⟨hzero, hmax⟩, _⟩ := hlimits
  have hbound : limits.kMaxExplanationEntries ≤ limits.kMaxPropagationEdges := by decide
  exact ⟨fun hz => hzero (UInt64.toNat_inj.mp hz), by omega⟩

theorem accepted_decay (h : Accepted policy) : policy.propagation.decayPpm ≤ 1000000 := by
  have hevidence := h.evidence
  simp only [validateEvidencePolicies, bind_ok, refuseIf_ok, exists_const] at hevidence
  exact UInt32.not_lt.mp hevidence.1

/-- Propagation succeeds under an accepted policy and changes nothing but what it reports. -/
theorem spreadPressure_neutral (h : Accepted policy) (topology : Option TopologyIndex)
    {a : Assessed} (hgrounded : ∀ c ∈ a.classified, Grounded c) :
    ∃ a', spreadPressure policy topology a = .ok a' ∧ Neutral a a' := by
  obtain ⟨hzero, hmax⟩ := accepted_entries h
  unfold spreadPressure
  split
  · exact ⟨a, rfl, .refl a⟩
  · next topology =>
    split
    · exact ⟨a, rfl, .refl a⟩
    · obtain ⟨result, hresult⟩ : ∃ result, PropagationEngine.propagate topology
          (sourcesOf a.classified) policy.propagation
          policy.limits.maxExplanationEntries.toNat = .ok result := by
        unfold PropagationEngine.propagate
        split
        · exact ⟨_, rfl⟩
        · rw [if_neg (by omega)]
          exact ⟨_, rfl⟩
      refine ⟨_, by rw [hresult]; rfl, ?_, ?_, ?_⟩
      · obtain ⟨_, _, _, hup, _⟩ := aggregate_map a.classified (f := id)
          fun c => ⟨rfl, rfl, le_refl _, le_refl _⟩
        rw [List.map_id] at hup
        have hdeclared : (aggregate a.classified).upward ≤ .severe := by
          rcases (hup _).mp (le_refl _) with hclear | ⟨c, hc, _, hle⟩
          · exact hclear.trans (by decide)
          · exact hle.trans (hgrounded c hc).declared
        have hsources : ∀ source ∈ sourcesOf a.classified,
            source.severity ≤ (aggregate a.classified).upward := by
          intro source hsource
          obtain ⟨c, hc, hne, hseverity⟩ := mem_sourcesOf hsource
          rw [hseverity]
          exact (hup _).mpr (.inr ⟨c, hc, (hgrounded c hc).covered hne, le_refl _⟩)
        have hedges := PropagationEngine.propagate_bounded (accepted_decay h) hdeclared hsources
          hresult
        dsimp only
        rw [induce_foldl]
        exact aggregate_raised (fun c => induceOne_foldl_raised _ c)
          (fun c _ => (induceOne_foldl_le hedges c).1)
          (fun c _ => (induceOne_foldl_le hedges c).2) fun c hc => (hgrounded c hc).ordered
      · dsimp only
        split <;> rfl
      · dsimp only
        rw [induce_foldl, List.length_map]

theorem classifyScope_grounded (request : EvaluationRequest) (context : EvaluationContext) :
    ∀ c ∈ (classifyScope request policy context resources).classified, Grounded c := by
  intro c hc
  unfold classifyScope at hc
  dsimp only at hc
  rw [List.map_map] at hc
  obtain ⟨resource, _, rfl⟩ := List.mem_map.mp hc
  exact classify_grounded resource

theorem reportResources_evidence {a a' : Assessed} (h : Neutral a a') :
    reportResources policy a' = { reportResources policy a with
      propagation := (reportResources policy a').propagation
      resources := (reportResources policy a').resources
      truncatedSections := (reportResources policy a').truncatedSections } := by
  unfold reportResources
  dsimp only
  rw [List.length_map, List.length_map, h.length, h.evidence]
  split <;> rfl

/-- What two evaluations that differ in propagation agree on: everything but the edges, the resource
reports, the count of truncated sections, and the fingerprint of the policy where it is carried or
hashed. -/
def SameDecision (fingerprint : Hash64) (outcome outcome' : EvaluationOutcome) : Prop :=
  outcome' = { outcome with
    id := outcome'.id
    policyFingerprint := fingerprint
    updated := { outcome.updated with policyFingerprint := fingerprint }
    evidence := { outcome.evidence with
      propagation := outcome'.evidence.propagation
      resources := outcome'.evidence.resources
      truncatedSections := outcome'.evidence.truncatedSections } }

theorem SameDecision.state {fingerprint : Hash64} {outcome outcome' : EvaluationOutcome}
    (h : SameDecision fingerprint outcome outcome') : outcome'.state = outcome.state := by
  unfold SameDecision at h
  rw [h]

theorem conclude_neutral {request : EvaluationRequest} {context : EvaluationContext}
    {prior : DomainState} {a a' b : Assessed} (h : Neutral b a) (h' : Neutral b a')
    (enabled enabled' : Bool) (fingerprint fingerprint' : Hash64) :
    SameDecision fingerprint'
      (conclude request (policy.propagating enabled fingerprint) context prior a)
      (conclude request (policy.propagating enabled' fingerprint') context prior a') := by
  have haggregate : aggregate a'.classified = aggregate a.classified :=
    h'.aggregate.trans h.aggregate.symm
  have hneutral : Neutral a a' := by
    refine ⟨haggregate, ?_, h'.length.trans h.length.symm⟩
    rw [h'.evidence, h.evidence]
  have hprepare : prepare request (policy.propagating enabled' fingerprint') context prior =
      { prepare request (policy.propagating enabled fingerprint) context prior with
        policyFingerprint := fingerprint' } := rfl
  have hpropose : ∀ g, propose (policy.propagating enabled' fingerprint') prior g =
      propose (policy.propagating enabled fingerprint) prior g := fun _ => rfl
  have hfold : ∀ proposal,
      foldState request (policy.propagating enabled' fingerprint') context prior proposal =
        ({ (foldState request (policy.propagating enabled fingerprint) context prior proposal).1 with
            policyFingerprint := fingerprint' },
          (foldState request (policy.propagating enabled fingerprint) context prior
            proposal).2) := by
    intro proposal
    unfold foldState
    rw [hprepare, HysteresisEngine.step_fingerprint]
    rfl
  have hreport : reportResources (policy.propagating enabled' fingerprint') a' =
      { reportResources (policy.propagating enabled fingerprint) a with
        propagation := (reportResources (policy.propagating enabled' fingerprint') a').propagation
        resources := (reportResources (policy.propagating enabled' fingerprint') a').resources
        truncatedSections :=
          (reportResources (policy.propagating enabled' fingerprint') a').truncatedSections } :=
    reportResources_evidence hneutral
  unfold SameDecision conclude
  dsimp only
  rw [haggregate, hpropose, hfold]
  dsimp only
  rw [← hreport]
  rfl

/-- Whether propagation is on or off, an evaluation under an accepted policy succeeds alike and
decides the same. -/
theorem evaluate_propagating {requested accepted : CongestionPolicy}
    (haccepted : validatePolicy requested = .ok accepted) (enabled enabled' : Bool)
    (fingerprint fingerprint' : Hash64) {request : EvaluationRequest} {prior : DomainState}
    {context : EvaluationContext} {outcome : EvaluationOutcome}
    (h : evaluate request prior
      { context with policy := some (accepted.propagating enabled fingerprint) } = .ok outcome) :
    ∃ outcome', evaluate request prior
        { context with policy := some (accepted.propagating enabled' fingerprint') } =
          .ok outcome' ∧
      SameDecision fingerprint' outcome outcome' ∧
      (fingerprint' = fingerprint → outcome'.id = outcome.id) := by
  obtain ⟨_, haccept⟩ := validatePolicy_accepted haccepted
  have hsamples : ¬request.evidence.samples.length > context.maxSamplesPerBatch := by
    unfold evaluate at h
    simp only [bind_ok, refuseIf_ok, exists_const] at h
    exact h.2.2.1
  obtain ⟨policy, resources, assessed, hpolicy, hdomain, hnow, hscope, hassess, rfl⟩ :=
    evaluate_ok h
  obtain rfl := Option.some.inj hpolicy
  have hgrounded : ∀ c ∈ (classifyScope request accepted context resources).classified,
      Grounded c := classifyScope_grounded request context
  obtain ⟨a, hspread, hneutral⟩ := spreadPressure_neutral
    (haccept.propagating enabled fingerprint) context.topology hgrounded
  obtain ⟨a', hspread', hneutral'⟩ := spreadPressure_neutral
    (haccept.propagating enabled' fingerprint') context.topology hgrounded
  obtain rfl : a = assessed := Except.ok.inj (hspread.symm.trans hassess)
  have hdecision : SameDecision fingerprint'
      (conclude request (accepted.propagating enabled fingerprint) context prior a)
      (conclude request (accepted.propagating enabled' fingerprint') context prior a') :=
    conclude_neutral hneutral hneutral' enabled enabled' fingerprint fingerprint'
  refine ⟨conclude request (accepted.propagating enabled' fingerprint') context prior a', ?_,
    hdecision, ?_⟩
  · unfold evaluate
    simp only [bind_ok, refuseIf_ok, exists_const]
    exact ⟨not_not.mpr hdomain, hnow, hsamples, resources, hscope, a', hspread', rfl⟩
  · rintro rfl
    have hstate :
        (conclude request (accepted.propagating enabled' fingerprint') context prior a').state =
          (conclude request (accepted.propagating enabled fingerprint') context prior a).state :=
      hdecision.state
    exact congrArg (evaluationId request (accepted.propagating enabled fingerprint') context prior)
      hstate

/-- One resource with two neighbours, all in one domain. -/
def fanSnapshot : TopologySnapshot where
  id := ⟨1⟩
  generation := ⟨1⟩
  epoch := ⟨1⟩
  observedTick := 1
  resources := [{ id := ⟨1⟩, domain := ⟨1⟩ }, { id := ⟨2⟩, domain := ⟨1⟩ },
    { id := ⟨3⟩, domain := ⟨1⟩ }]
  links := [{ id := ⟨1⟩, fromId := ⟨1⟩, toId := ⟨2⟩, capacityBps := 1 },
    { id := ⟨2⟩, fromId := ⟨1⟩, toId := ⟨3⟩, capacityBps := 1 }]

/-- No decay, and room for one entry of each kind in an explanation. -/
def fanPolicy : CongestionPolicy :=
  { makeDefaultPolicy with
    propagation := { makeDefaultPolicy.propagation with decayPpm := 1000000 }
    limits := { makeDefaultPolicy.limits with maxExplanationEntries := 1 } }

def fanContext : EvaluationContext where
  topology := (TopologyIndex.build fanSnapshot).toOption
  epoch := ⟨1⟩
  now := 10

theorem fanPolicy_accepted : validatePolicy fanPolicy =
    .ok { fanPolicy with fingerprint := fingerprintPolicy fanPolicy } := by
  decide +kernel

theorem evaluate_propagating_fan : ∃ outcome outcome',
    evaluate (pairRequest 900000) {}
      { fanContext with policy := some (fanPolicy.propagating true ⟨1⟩) } = .ok outcome ∧
    evaluate (pairRequest 900000) {}
      { fanContext with policy := some (fanPolicy.propagating false ⟨1⟩) } = .ok outcome' ∧
    SameDecision ⟨1⟩ outcome outcome' ∧ outcome'.id = outcome.id := by
  obtain ⟨outcome, h⟩ : ∃ outcome, evaluate (pairRequest 900000) {}
      { fanContext with policy := some (fanPolicy.propagating true ⟨1⟩) } = .ok outcome :=
    Result.exists_of_isOk (by decide +kernel)
  have hpolicy := propagating_fingerprint fanPolicy (fingerprintPolicy fanPolicy)
  rw [← hpolicy] at h
  obtain ⟨outcome', h', hsame, hid⟩ :=
    evaluate_propagating fanPolicy_accepted true false ⟨1⟩ ⟨1⟩ h
  rw [hpolicy] at h h'
  exact ⟨outcome, outcome', h, h', hsame, hid rfl⟩

/-- The second edge does not fit: with propagation one more section of the report is truncated. -/
theorem propagation_counts_truncation :
    validatePolicy fanPolicy = .ok { fanPolicy with fingerprint := fingerprintPolicy fanPolicy } ∧
      (evaluate (pairRequest 900000) {}
        { fanContext with policy := some (fanPolicy.propagating true ⟨1⟩) }).toOption.map
          (·.evidence.truncatedSections) = some 2 ∧
      (evaluate (pairRequest 900000) {}
        { fanContext with policy := some (fanPolicy.propagating false ⟨1⟩) }).toOption.map
          (·.evidence.truncatedSections) = some 1 := by
  refine ⟨fanPolicy_accepted, ?_, ?_⟩
  · decide +kernel
  · decide +kernel

end CongestionEvaluator

end CongestionFabric
