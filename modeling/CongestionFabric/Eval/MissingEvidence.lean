import CongestionFabric.Eval.Coverage
import CongestionFabric.Eval.Recovery

namespace CongestionFabric.CongestionEvaluator

open HysteresisEngine

/-- The proposal decides nothing, or is at least WATCH both ways. -/
def Watched (proposal : SeverityProposal) : Prop :=
  proposal.hasValue = false ∨ (.watch ≤ proposal.upward ∧ .watch ≤ proposal.downward)

theorem stateOf_clear {v : Severity} (h : stateOf v = .clear) : v = .clear := by
  cases v <;> simp_all [stateOf]

theorem watch_ne_clear {v : Severity} (h : .watch ≤ v) : v ≠ .clear := by
  rintro rfl
  exact absurd h (by decide)

theorem ladder_clear {s : DomainState} {p : SeverityProposal} {hysteresis : HysteresisPolicy}
    {recovery : RecoveryPolicy} {aim : Aim} (hl : ladder s p hysteresis recovery = some aim)
    (hc : aim.target = .clear) : p.upward = .clear ∨ p.downward = .clear := by
  unfold ladder at hl
  split_ifs at hl with _ _ _ _ _ _ hd <;> cases hl <;>
    first
      | exact .inl (stateOf_clear hc)
      | exact .inr (stateOf_clear hc)
      | exact .inr hd
      | exact CongestionState.noConfusion hc

/-- No step on a watched proposal enters CLEAR. -/
theorem step_watched {s : DomainState} {p : SeverityProposal} {hysteresis : HysteresisPolicy}
    {recovery : RecoveryPolicy} {now : Tick} (hp : Watched p)
    (hc : (step s p hysteresis recovery now).1.state = .clear) : s.state = .clear := by
  have h := step_cases s p hysteresis recovery now
  generalize step s p hysteresis recovery now = result at h hc
  cases h with
  | regressed | invalid | steady | confirms => exact hc
  | pending aim => rwa [countSample_state] at hc
  | indeterminate _ _ hi =>
    have ht := indeterminateTarget_indeterminate s hi
    unfold stepIndeterminate at hc
    dsimp only at hc
    split at hc
    next =>
      have hc : indeterminateTarget s p.indeterminate = .clear := hc
      simp [hc, isIndeterminate] at ht
    next => exact hc
  | commits aim _ hv hl =>
    rw [commit_state] at hc
    have hw := hp.resolve_left (by simp [hv])
    rcases ladder_clear hl hc with h | h
    · exact absurd h (watch_ne_clear hw.1)
    · exact absurd h (watch_ne_clear hw.2)

/-- Someone reports, no one is contradicted, whoever reports anything reports everything required,
and no resource reaches WATCH: silent resources are not noticed. -/
structure QuietReporters (policy : CongestionPolicy) (resolution : Resolution)
    (resources : List ResourceId) : Prop where
  someone : ∃ r ∈ resources, ∃ rule ∈ policy.rules, reports resolution r rule.metric = true
  agreed : ∀ r ∈ resources, ∀ rule ∈ policy.rules, contradicted resolution r rule.metric = false
  complete : ∀ r ∈ resources, (∃ rule ∈ policy.rules, reports resolution r rule.metric = true) →
    ∀ rule ∈ policy.rules, rule.required = true → reports resolution r rule.metric = true
  quiet : ∀ r ∈ resources, (tallyResource policy resolution r).upward policy = .clear

section

variable {policy : CongestionPolicy} {resolution : Resolution} {resource : ResourceId}

theorem tally_coverage_none :
    (tallyResource policy resolution resource).coverage = .none ↔
      (tallyResource policy resolution resource).anyPresent = false ∧
        (tallyResource policy resolution resource).assessment.contradictory = false := by
  unfold Tally.coverage
  split_ifs with hp hc hr <;> simp_all

theorem tally_coverage_partially
    (hc : (tallyResource policy resolution resource).assessment.contradictory = false) :
    (tallyResource policy resolution resource).coverage = .partially ↔
      (tallyResource policy resolution resource).anyPresent = true ∧
        ¬(tallyResource policy resolution resource).requiredPresent =
          (tallyResource policy resolution resource).requiredTotal := by
  unfold Tally.coverage
  split_ifs with hp hr <;> simp_all

end

theorem propose_watched_iff (policy : CongestionPolicy) (prior : DomainState) (g : Aggregate) :
    Watched (propose policy prior g) ↔
      g.anyConflict = true ∨ g.anyEvidence = false ∨
        (hasRequiredRules policy = true ∧ g.anyPartial = true) ∨
        (.watch ≤ g.upward ∧ .watch ≤ g.downward) := by
  unfold propose Watched
  by_cases hc : g.anyConflict = true
  · simp [hc]
  · by_cases he : g.anyEvidence = true
    · by_cases hr : hasRequiredRules policy = true ∧ g.anyPartial = true
      · simp [hc, he, hr, floorAtWatch]
      · simp only [hc, he, Bool.and_eq_true]
        rw [if_neg hr]
        simp [hr]
    · simp [hc, he]

/-- Propagation maps the resources one by one, and only moves them when one was not CLEAR. -/
theorem assess_classified {request : EvaluationRequest} {policy : CongestionPolicy}
    {context : EvaluationContext} {resources : List ResourceId} {a : Assessed}
    (h : assess request policy context resources = .ok a) :
    ∃ f : Classified → Classified,
      a.classified = (classifyScope request policy context resources).classified.map f ∧
      (∀ c, Raised c (f c)) ∧
      ((∀ c ∈ (classifyScope request policy context resources).classified, c.upward = .clear) →
        f = id) := by
  have hid : ∀ c : Classified, Raised c (id c) := fun c => ⟨rfl, rfl, le_refl _, le_refl _⟩
  unfold assess spreadPressure at h
  split at h
  next => cases h; exact ⟨id, by simp, hid, fun _ => rfl⟩
  next topology _ =>
    split at h
    next => cases h; exact ⟨id, by simp, hid, fun _ => rfl⟩
    next hs =>
      obtain ⟨result, _, h⟩ := bind_ok.mp h
      cases h
      refine ⟨fun c => result.edges.foldl induceOne c, induce_foldl _ _,
        induceOne_foldl_raised result.edges, fun hclear => absurd ?_ (not_or.mp hs).2⟩
      unfold sourcesOf
      rw [List.map_eq_nil_iff, List.filter_eq_nil_iff]
      exact fun c hc => by simp [hclear c hc]

/-- The aggregate of resources raised by propagation. -/
theorem aggregate_map (cs : List Classified) {f : Classified → Classified}
    (hf : ∀ c, Raised c (f c)) :
    (aggregate (cs.map f)).anyConflict = cs.any (·.assessment.contradictory) ∧
      (aggregate (cs.map f)).anyEvidence = cs.any (·.assessment.coverage ≠ .none) ∧
      (aggregate (cs.map f)).anyPartial = cs.any (·.assessment.coverage = .partially) ∧
      (∀ v : Severity, v ≤ (aggregate (cs.map f)).upward ↔
        v ≤ .clear ∨ ∃ c ∈ cs, c.assessment.coverage ≠ .none ∧ v ≤ (f c).upward) ∧
      (∀ v : Severity, v ≤ (aggregate (cs.map f)).downward ↔
        v ≤ .clear ∨ ∃ c ∈ cs, c.assessment.coverage ≠ .none ∧ v ≤ (f c).downward) := by
  obtain ⟨h₁, h₂, h₃, h₄, h₅⟩ := aggregate_fold (cs.map f) {}
  have hcov : ∀ c, (f c).assessment.coverage = c.assessment.coverage := fun c => (hf c).1
  have hcon : ∀ c, (f c).assessment.contradictory = c.assessment.contradictory :=
    fun c => (hf c).2.1
  simp only [List.any_map, Function.comp_def, Bool.false_or, List.mem_map,
    exists_exists_and_eq_and, hcov, hcon] at h₁ h₂ h₃ h₄ h₅
  exact ⟨h₁, h₂, h₃, h₄, h₅⟩

section

variable {policy : CongestionPolicy} {resolution : Resolution} {resources : List ResourceId}

theorem anyConflict_iff :
    (resources.map fun r => classify policy (tallyResource policy resolution r)).any
        (·.assessment.contradictory) = true ↔
      ∃ r ∈ resources, ∃ rule ∈ policy.rules, contradicted resolution r rule.metric = true := by
  simp [classify, tally_contradictory_iff]

/-- The aggregate reaches WATCH exactly when some resource did before propagation. -/
theorem aggregate_watch_iff {f : Classified → Classified} (hf : ∀ c, Raised c (f c))
    (hquiet : (∀ c ∈ resources.map fun r => classify policy (tallyResource policy resolution r),
      c.upward = .clear) → f = id) :
    (.watch ≤ (aggregate ((resources.map fun r =>
        classify policy (tallyResource policy resolution r)).map f)).upward ∧
      .watch ≤ (aggregate ((resources.map fun r =>
        classify policy (tallyResource policy resolution r)).map f)).downward) ↔
      ¬∀ r ∈ resources, (tallyResource policy resolution r).upward policy = .clear := by
  obtain ⟨_, _, _, hu, hd⟩ := aggregate_map
    (resources.map fun r => classify policy (tallyResource policy resolution r)) hf
  have hnot : ¬ Severity.watch ≤ .clear := by decide
  simp only [hu, hd, hnot, false_or]
  constructor
  · rintro ⟨⟨c, hc, _, hw⟩, _⟩ hall
    have hclear : ∀ c ∈ resources.map fun r =>
        classify policy (tallyResource policy resolution r), c.upward = .clear := by
      intro c hc
      obtain ⟨r, hr, rfl⟩ := List.mem_map.mp hc
      exact hall r hr
    rw [hquiet hclear, id, hclear c hc] at hw
    exact hnot hw
  · intro hall
    obtain ⟨r, hr, hup⟩ : ∃ r ∈ resources,
        (tallyResource policy resolution r).upward policy ≠ .clear := by
      simpa using hall
    have hmem : classify policy (tallyResource policy resolution r) ∈
        resources.map fun r => classify policy (tallyResource policy resolution r) :=
      List.mem_map_of_mem hr
    have hcov : (tallyResource policy resolution r).coverage ≠ .none := by
      rw [Ne, tally_coverage_none]
      exact fun h => hup (upward_of_silent h.1)
    have hw : .watch ≤ (tallyResource policy resolution r).upward policy :=
      gateSeverity_ge_watch hup
    obtain ⟨_, _, hle, hle'⟩ := hf (classify policy (tallyResource policy resolution r))
    exact ⟨⟨_, hmem, hcov, hw.trans hle⟩,
      ⟨_, hmem, hcov, (hw.trans (upward_le_downward _)).trans hle'⟩⟩

variable (hagreed : ∀ r ∈ resources,
  (tallyResource policy resolution r).assessment.contradictory = false)

include hagreed

theorem anyEvidence_iff :
    (resources.map fun r => classify policy (tallyResource policy resolution r)).any
        (·.assessment.coverage ≠ .none) = true ↔
      ∃ r ∈ resources, ∃ rule ∈ policy.rules, reports resolution r rule.metric = true := by
  simp only [List.any_map, List.any_eq_true, Function.comp_apply, classify, decide_eq_true_eq]
  refine exists_congr fun r => and_congr_right fun hr => ?_
  rw [← tally_anyPresent_iff policy, Ne, tally_coverage_none]
  simp [hagreed r hr]

/-- With no contradiction a resource is partial when it reports something and lacks something
required. -/
theorem anyPartial_iff :
    (hasRequiredRules policy = true ∧
      (resources.map fun r => classify policy (tallyResource policy resolution r)).any
        (·.assessment.coverage = .partially) = true) ↔
      ∃ r ∈ resources, (∃ rule ∈ policy.rules, reports resolution r rule.metric = true) ∧
        ¬∀ rule ∈ policy.rules, rule.required = true →
          reports resolution r rule.metric = true := by
  have hpart : ∀ r ∈ resources, (tallyResource policy resolution r).coverage = .partially ↔
      (∃ rule ∈ policy.rules, reports resolution r rule.metric = true) ∧
        ¬∀ rule ∈ policy.rules, rule.required = true →
          reports resolution r rule.metric = true := fun r hr => by
    rw [tally_coverage_partially (hagreed r hr), tally_anyPresent_iff policy, tally_required_iff]
  simp only [List.any_map, List.any_eq_true, Function.comp_apply, classify, decide_eq_true_eq]
  constructor
  · rintro ⟨_, r, hr, hp⟩
    exact ⟨r, hr, (hpart r hr).mp hp⟩
  · rintro ⟨r, hr, hp⟩
    refine ⟨?_, r, hr, (hpart r hr).mpr hp⟩
    by_contra hnone
    refine hp.2 fun rule hrule hreq => absurd ?_ hnone
    exact List.any_eq_true.mpr ⟨rule, hrule, hreq⟩

end

/-- The proposal of an evaluation is watched exactly when the reporters are not quiet. -/
theorem proposal_watched_iff {request : EvaluationRequest} {policy : CongestionPolicy}
    {context : EvaluationContext} (prior : DomainState) {resources : List ResourceId}
    {a : Assessed} (h : assess request policy context resources = .ok a) :
    Watched (propose policy prior (aggregate a.classified)) ↔
      ¬QuietReporters policy (resolve policy (admitSamples request policy context resources))
        resources := by
  obtain ⟨f, hf, hraised, hquiet⟩ := assess_classified h
  generalize hres : resolve policy (admitSamples request policy context resources) = resolution
  have hcs : (classifyScope request policy context resources).classified =
      resources.map fun r => classify policy (tallyResource policy resolution r) := by
    simp [classifyScope, hres]
  rw [hcs] at hf hquiet
  obtain ⟨h₁, h₂, h₃, _, _⟩ := aggregate_map
    (resources.map fun r => classify policy (tallyResource policy resolution r)) hraised
  rw [propose_watched_iff, hf, h₁, h₂, h₃, anyConflict_iff]
  by_cases hconf : ∃ r ∈ resources, ∃ rule ∈ policy.rules,
      contradicted resolution r rule.metric = true
  · obtain ⟨r, hr, rule, hrule, hc⟩ := hconf
    exact iff_of_true (.inl ⟨r, hr, rule, hrule, hc⟩) fun hq => by
      simp [hq.agreed r hr rule hrule] at hc
  · have hagreed : ∀ r ∈ resources,
        (tallyResource policy resolution r).assessment.contradictory = false := fun r hr =>
      Bool.eq_false_iff.mpr fun h => hconf ⟨r, hr, tally_contradictory_iff.mp h⟩
    rw [← Bool.not_eq_true, anyEvidence_iff hagreed, anyPartial_iff hagreed,
      aggregate_watch_iff hraised hquiet]
    constructor
    · rintro (h | h | ⟨r, hr, hsome, hlacks⟩ | h) hq
      · exact hconf h
      · exact h hq.someone
      · exact hlacks (hq.complete r hr hsome)
      · exact h hq.quiet
    · intro hq
      by_contra hnone
      simp only [not_or, not_not] at hnone
      refine hq ⟨hnone.2.1, fun r hr rule hrule => ?_, fun r hr hsome => ?_, hnone.2.2.2⟩
      · exact Bool.eq_false_iff.mpr fun h => hconf ⟨r, hr, rule, hrule, h⟩
      · exact not_not.mp fun hlacks => hnone.2.2.1 ⟨r, hr, hsome, hlacks⟩

theorem scope_domain {request : EvaluationRequest} {policy : CongestionPolicy}
    {topology : TopologyIndex} {resources : List ResourceId}
    (h : scope request policy (some topology) = .ok resources)
    (hone : request.onlyResource.valid = false) :
    resources = topology.domainResources request.domain := by
  simp only [scope, hone, bind_ok, refuseIf_ok, exists_const] at h
  obtain ⟨_, _, members, hm, h⟩ := h
  cases hm
  rw [if_neg Bool.false_ne_true] at h
  obtain ⟨_, hc, h⟩ := bind_ok.mp h
  cases hc
  obtain ⟨_, _, h⟩ := bind_ok.mp h
  exact (Except.ok.inj h).symm

/-- The proposal an evaluation hands to the hysteresis machine. -/
def proposalOf (request : EvaluationRequest) (policy : CongestionPolicy)
    (context : EvaluationContext) (prior : DomainState) : Result SeverityProposal := do
  let resources ← scope request policy context.topology
  let assessed ← assess request policy context resources
  return propose policy prior (aggregate assessed.classified)

/-- With a required reading missing, an evaluation is kept off CLEAR exactly when the resources
that do report are not quiet; quiet reporters hide a domain member that says nothing at all. -/
theorem missing_evidence_watched_iff {request : EvaluationRequest} {policy : CongestionPolicy}
    {context : EvaluationContext} {prior : DomainState} {topology : TopologyIndex}
    {resources : List ResourceId} {r : ResourceId} {rule : ThresholdRule}
    {outcome : EvaluationOutcome} (hp : context.policy = some policy)
    (ht : context.topology = some topology) (hr : r ∈ topology.domainResources request.domain)
    (hs : scope request policy context.topology = .ok resources)
    (hrule : rule ∈ policy.rules) (hreq : rule.required = true)
    (hmissing : reports (resolve policy (admitSamples request policy context resources)) r
      rule.metric = false)
    (h : evaluate request prior context = .ok outcome) :
    ∃ proposal, proposalOf request policy context prior = .ok proposal ∧
      outcome.updated = { (step (prepare request policy context prior) proposal policy.hysteresis
        policy.recovery request.now).1 with lastEvaluatedTick := request.now } ∧
      ((Watched proposal ∧ (outcome.state = .clear → prior.state = .clear)) ↔
        ¬QuietReporters policy (resolve policy (admitSamples request policy context resources))
          resources) ∧
      (QuietReporters policy (resolve policy (admitSamples request policy context resources))
          resources → request.onlyResource.valid = false → ∀ rule' ∈ policy.rules,
        reports (resolve policy (admitSamples request policy context resources)) r
          rule'.metric = false) := by
  obtain ⟨_, _, a, hp', _, _, hs', ha, rfl⟩ := evaluate_ok h
  cases hp.symm.trans hp'
  cases hs.symm.trans hs'
  have hprop : proposalOf request policy context prior =
      .ok (propose policy prior (aggregate a.classified)) :=
    bind_ok.mpr ⟨resources, hs, bind_ok.mpr ⟨a, ha, rfl⟩⟩
  refine ⟨_, hprop, rfl, ?_, fun hq hone => ?_⟩
  · rw [← proposal_watched_iff prior ha]
    refine and_iff_left_of_imp fun hw hc => ?_
    rw [conclude_state] at hc
    exact step_watched (s := prepare request policy context prior) hw hc
  · have hmem : r ∈ resources := by
      rw [ht] at hs
      rwa [scope_domain hs hone]
    intro rule' hrule'
    by_contra hrep
    have hall := hq.complete r hmem ⟨rule', hrule', Bool.not_eq_false _ ▸ hrep⟩ rule hrule hreq
    simp [hmissing] at hall

/-- Two resources of one domain. -/
def pairSnapshot : TopologySnapshot where
  id := ⟨1⟩
  generation := ⟨1⟩
  epoch := ⟨1⟩
  observedTick := 1
  resources := [{ id := ⟨1⟩, domain := ⟨1⟩ }, { id := ⟨2⟩, domain := ⟨1⟩ }]

def pairContext : EvaluationContext where
  policy := some makeDefaultPolicy
  topology := (TopologyIndex.build pairSnapshot).toOption
  epoch := ⟨1⟩
  now := 10

/-- The first resource reports its utilization, the second reports nothing. -/
def pairRequest (utilization : UInt64) : EvaluationRequest where
  domain := ⟨1⟩
  epoch := ⟨1⟩
  now := 10
  evidence := {
    id := ⟨1⟩, epoch := ⟨1⟩, submittedTick := 10
    samples := [{
      resource := ⟨1⟩, publisher := ⟨1⟩, publisherBoot := ⟨1⟩, epoch := ⟨1⟩, generation := ⟨1⟩
      sequence := 1, observedTick := 10
      metrics := (∅ : MetricSet).insert .utilizationPpm utilization }] }

theorem missing_evidence_watched_iff_congested :
    ∃ topology outcome proposal, pairContext.topology = some topology ∧
      evaluate (pairRequest 900000) {} pairContext = .ok outcome ∧
      proposalOf (pairRequest 900000) makeDefaultPolicy pairContext {} = .ok proposal ∧
      ((Watched proposal ∧ (outcome.state = .clear → CongestionState.unknown = .clear)) ↔
        ¬QuietReporters makeDefaultPolicy (resolve makeDefaultPolicy
          (admitSamples (pairRequest 900000) makeDefaultPolicy pairContext [⟨1⟩, ⟨2⟩])) [⟨1⟩, ⟨2⟩]) := by
  obtain ⟨outcome, h⟩ : ∃ outcome, evaluate (pairRequest 900000) {} pairContext = .ok outcome :=
    Result.exists_of_isOk (by decide +kernel)
  obtain ⟨topology, ht⟩ : ∃ topology, pairContext.topology = some topology :=
    Option.isSome_iff_exists.mp (by decide +kernel)
  have hmem : pairContext.topology.any
      (fun t => decide ((⟨2⟩ : ResourceId) ∈ t.domainResources ⟨1⟩)) = true := by decide +kernel
  rw [ht, Option.any_some, decide_eq_true_eq] at hmem
  have hscope : scope (pairRequest 900000) makeDefaultPolicy pairContext.topology =
      .ok [⟨1⟩, ⟨2⟩] := by decide +kernel
  have hsilent : reports (resolve makeDefaultPolicy
      (admitSamples (pairRequest 900000) makeDefaultPolicy pairContext [⟨1⟩, ⟨2⟩])) ⟨2⟩
      (makeDefaultPolicy.rules.head (by decide)).metric = false := by decide +kernel
  obtain ⟨proposal, hp, _, hiff, _⟩ := missing_evidence_watched_iff rfl ht
    hmem hscope (List.head_mem (by decide)) (by decide) hsilent h
  exact ⟨topology, outcome, proposal, ht, h, hp, hiff⟩

/-- The silent neighbour is skipped and the domain becomes CLEAR. -/
theorem silent_neighbour_reported_clear :
    validatePolicy makeDefaultPolicy = .ok makeDefaultPolicy ∧
      (∃ rule ∈ makeDefaultPolicy.rules, rule.required = true ∧
        reports (resolve makeDefaultPolicy
          (admitSamples (pairRequest 100000) makeDefaultPolicy pairContext [⟨1⟩, ⟨2⟩])) ⟨2⟩
          rule.metric = false) ∧
      pairContext.topology.map (·.domainResources ⟨1⟩) = some [⟨1⟩, ⟨2⟩] ∧
      proposalOf (pairRequest 100000) makeDefaultPolicy pairContext {} =
        .ok { upward := .clear, downward := .clear, hasValue := true } ∧
      (evaluate (pairRequest 100000) {} pairContext).toOption.map
        (fun outcome => (outcome.previousState, outcome.state, outcome.authoritative)) =
        some (.unknown, .clear, true) := by
  refine ⟨defaultPolicy_accepted, ?_, ?_, ?_, ?_⟩
  · exact ⟨makeDefaultPolicy.rules.head (by decide), List.head_mem _, by decide,
      by decide +kernel⟩
  · decide +kernel
  · decide +kernel
  · decide +kernel

end CongestionFabric.CongestionEvaluator
