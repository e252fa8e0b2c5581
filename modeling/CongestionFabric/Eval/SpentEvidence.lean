import CongestionFabric.Eval.Escalation
import CongestionFabric.Eval.WorseReadings

namespace CongestionFabric.CongestionEvaluator

open HysteresisEngine

/-- Every reading the sample has for a rule is too old. -/
def Spent (policy : CongestionPolicy) (now : Tick) (sample : EvidenceSample) : Prop :=
  ∀ metric ∈ ruleMetrics policy, (sample.metrics.get metric).isSome = true →
    sample.observedTick.toNat + (policy.maxAgeFor metric).toNat < now.toNat

instance (policy : CongestionPolicy) (now : Tick) (sample : EvidenceSample) :
    Decidable (Spent policy now sample) :=
  inferInstanceAs (Decidable (∀ metric ∈ ruleMetrics policy, _ → _))

variable {policy : CongestionPolicy} {context : EvaluationContext} {now now' : Tick}
  {resources : List ResourceId} {sample : EvidenceSample} {request : EvaluationRequest}
  {prior : DomainState}

/-- What is too old stays too old. -/
theorem Spent.later (h : Spent policy now sample) (hle : now ≤ now') : Spent policy now' sample :=
  fun metric hmetric hsome =>
    (h metric hmetric hsome).trans_le (UInt64.le_iff_toNat_le.mp hle)

theorem Spent.not_fresh (h : Spent policy now sample) {metric : MetricKind}
    (hmetric : metric ∈ ruleMetrics policy) (hsome : (sample.metrics.get metric).isSome = true) :
    (ageOf policy now sample.observedTick metric).fresh = false := by
  have hold := h metric hmetric hsome
  have hpast : ¬sample.observedTick > now := by
    intro hahead
    have hlt : now.toNat < sample.observedTick.toNat := UInt64.lt_iff_toNat_lt.mp hahead
    omega
  have hle : sample.observedTick ≤ now := UInt64.not_lt.mp hpast
  have hage : policy.maxAgeFor metric < now - sample.observedTick := by
    rw [UInt64.lt_iff_toNat_lt, UInt64.toNat_sub_of_le _ _ hle]
    omega
  unfold ageOf Age.fresh tickAge
  simp [hpast, hage]

theorem Spent.unread (h : Spent policy now sample) {key : ReadingKey}
    (hmetric : key.metric ∈ ruleMetrics policy) : freshReading policy now key sample = none := by
  unfold freshReading
  split_ifs
  · cases hvalue : sample.metrics.get key.metric with
    | none => rfl
    | some value =>
      have hfresh := h.not_fresh hmetric (by rw [hvalue]; rfl)
      simp [hfresh]
  · rfl

/-- Samples that are all spent leave nothing to read. -/
theorem admitSamples_spent
    (hspent : ∀ sample ∈ request.evidence.samples, Spent policy request.now sample) :
    (admitSamples request policy context resources).readings = ∅ := by
  have hbucket : ∀ key, (admitSamples request policy context resources).readings.findD key [] =
      [] := by
    intro key
    by_cases hmetric : key.metric ∈ ruleMetrics policy
    · rw [admitSamples_bucket request hmetric]
      have hnone : readingsOn policy request.now key
          (firstsOf [] (request.evidence.samples.filter (eligible context resources))) = [] := by
        unfold readingsOn
        rw [List.filterMap_eq_nil_iff]
        intro sample hsample
        exact (hspent sample (List.mem_of_mem_filter (mem_firstsOf hsample))).unread hmetric
      rw [hnone, List.take_nil]
    · exact admitSamples_unruled request hmetric
  ext key : 1
  have hfind := hbucket key
  unfold SortedMap.findD at hfind
  cases hsome : (admitSamples request policy context resources).readings.find? key with
  | none => exact (SortedMap.find?_empty key).symm
  | some bucket =>
    rw [hsome] at hfind
    exact absurd hfind (admitSamples_stocked request key bucket hsome)

/-- An evaluation of spent samples has nothing to go by. -/
theorem proposalOf_spent {p : SeverityProposal}
    (hspent : ∀ sample ∈ request.evidence.samples, Spent policy request.now sample)
    (h : proposalOf request policy context prior = .ok p) : p.hasValue = false ∧
      (p.indeterminate = .stale ∨ p.indeterminate = .unknown) := by
  obtain ⟨resources, _, h⟩ := bind_ok.mp h
  obtain ⟨a, hassess, h⟩ := bind_ok.mp h
  obtain rfl := Except.ok.inj h
  obtain ⟨f, hclassified, hraised, _⟩ := assess_classified hassess
  have hnone : (admitSamples request policy context resources).readings = ∅ :=
    admitSamples_spent hspent
  have hresolution : resolve policy (admitSamples request policy context resources) =
      { evidence := (admitSamples request policy context resources).evidence } := by
    unfold resolve
    rw [hnone]
    rfl
  obtain ⟨hconflict, hevidence, _⟩ :=
    aggregate_map (classifyScope request policy context resources).classified hraised
  have hscope : (classifyScope request policy context resources).classified =
      resources.map fun resource => classify policy (tallyResource policy
        (resolve policy (admitSamples request policy context resources)) resource) :=
    List.map_map
  have hunresolved : (resolve policy (admitSamples request policy context resources)).unresolved =
      [] := by
    rw [hresolution]
  have hchosen : (resolve policy (admitSamples request policy context resources)).chosen = ∅ := by
    rw [hresolution]
  have hagreed : ∀ resource ∈ resources, (tallyResource policy (resolve policy
      (admitSamples request policy context resources)) resource).assessment.contradictory =
        false := by
    intro resource _
    rw [← Bool.not_eq_true, tally_contradictory_iff]
    rintro ⟨rule, _, hcontradicted⟩
    unfold contradicted at hcontradicted
    rw [hunresolved] at hcontradicted
    simp at hcontradicted
  have hquiet : (aggregate a.classified).anyConflict = false := by
    rw [hclassified, hconflict, hscope, ← Bool.not_eq_true, anyConflict_iff]
    rintro ⟨resource, _, rule, _, hcontradicted⟩
    unfold contradicted at hcontradicted
    rw [hunresolved] at hcontradicted
    simp at hcontradicted
  have hsilent : (aggregate a.classified).anyEvidence = false := by
    rw [hclassified, hevidence, hscope, ← Bool.not_eq_true, anyEvidence_iff hagreed]
    rintro ⟨resource, _, rule, _, hreports⟩
    have hentries : (∅ : SortedMap ReadingKey Reading).entries = [] := rfl
    unfold reports readingsFor at hreports
    rw [hchosen, hentries] at hreports
    simp at hreports
  unfold propose
  rw [hquiet, hsilent]
  simp only [Bool.false_eq_true, if_false, Bool.not_false, if_true]
  refine ⟨trivial, ?_⟩
  split_ifs
  · exact .inl rfl
  · exact .inr rfl

/-- An evaluation of spent samples in time leaves the domain STALE or UNKNOWN, and is not
authoritative. -/
theorem evaluate_spent {outcome : EvaluationOutcome} (hpolicy : context.policy = some policy)
    (h : evaluate request prior context = .ok outcome)
    (hspent : ∀ sample ∈ request.evidence.samples, Spent policy request.now sample)
    (htick : tickRegressed prior request.now = false) :
    (outcome.updated.state = .stale ∨ outcome.updated.state = .unknown) ∧
      outcome.authoritative = false := by
  obtain ⟨p, hp, hupdated⟩ := evaluate_updated hpolicy h
  obtain ⟨hvalue, htarget⟩ := proposalOf_spent hspent hp
  have hstate : outcome.updated.state = .stale ∨ outcome.updated.state = .unknown := by
    rw [hupdated]
    have hprepared : tickRegressed (prepare request policy context prior) request.now = false := htick
    unfold step
    rw [hprepared, hvalue]
    have hindeterminate : isIndeterminate p.indeterminate = true := by
      rcases htarget with htarget | htarget
      · rw [htarget]
        rfl
      · rw [htarget]
        rfl
    simp only [Bool.false_eq_true, if_false, Bool.not_false, if_true, hindeterminate, Bool.not_true]
    have hend : indeterminateTarget (prepare request policy context prior) p.indeterminate = .stale ∨
        indeterminateTarget (prepare request policy context prior) p.indeterminate = .unknown := by
      unfold indeterminateTarget
      split_ifs
      · exact .inl rfl
      · exact htarget
    unfold stepIndeterminate
    dsimp only
    split_ifs with hmoves
    · exact hend
    · rw [not_not.mp hmoves]
      exact hend
  refine ⟨hstate, ?_⟩
  have hnot : outcome.updated.authoritative = false := by
    unfold DomainState.authoritative
    rcases hstate with hstate | hstate
    · rw [hstate]
      rfl
    · rw [hstate]
      rfl
  obtain ⟨policy', resources, a, _, _, _, _, _, rfl⟩ := evaluate_ok h
  change (conclude request policy' context prior a).updated.authoritative = false at hnot
  unfold conclude at hnot ⊢
  dsimp only at hnot ⊢
  rw [hnot]
  rfl

end CongestionFabric.CongestionEvaluator
