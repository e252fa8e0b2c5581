import CongestionFabric.Eval.Buckets
import CongestionFabric.Eval.Contradiction

namespace CongestionFabric.CongestionEvaluator

open HysteresisEngine

/-- Every fresh reading of a key in the batch, from the samples the evaluation covers. -/
def admissible (request : EvaluationRequest) (policy : CongestionPolicy)
    (context : EvaluationContext) (resources : List ResourceId) (key : ReadingKey) : List Reading :=
  readingsOn policy request.now key (request.evidence.samples.filter (eligible context resources))

/-- The readings left of a key when samples that repeat a snapshot identity are skipped and the
bucket is full at the bound. -/
def counted (request : EvaluationRequest) (policy : CongestionPolicy) (context : EvaluationContext)
    (resources : List ResourceId) (key : ReadingKey) : List Reading :=
  (readingsOn policy request.now key
    (firstsOf [] (request.evidence.samples.filter (eligible context resources)))).take
    limits.kMaxContradictionPeers

/-- Some resource, queue and rule metric have contradictory readings. -/
def ContradictedBy (policy : CongestionPolicy) (resources : List ResourceId)
    (readings : ReadingKey → List Reading) : Prop :=
  ∃ resource ∈ resources, ∃ rule ∈ policy.rules, ∃ queue,
    Contradictory policy.contradiction (readings ⟨resource, queue, rule.metric⟩)

def ProposesConflict (request : EvaluationRequest) (policy : CongestionPolicy)
    (context : EvaluationContext) (prior : DomainState) : Prop :=
  ∃ p, proposalOf request policy context prior = .ok p ∧ p.hasValue = false ∧
    p.indeterminate = .conflict

variable {policy : CongestionPolicy} {request : EvaluationRequest} {context : EvaluationContext}
  {prior : DomainState} {resources : List ResourceId}

theorem validateEvidencePolicies_tolerance (h : Accepted policy) :
    policy.contradiction.relativeTolerancePpm ≤ 1000000 := by
  have hevidence := h.evidence
  simp only [validateEvidencePolicies, bind_ok, refuseIf_ok, exists_const] at hevidence
  obtain ⟨_, _, _, _, _, _, htolerance, _⟩ := hevidence
  exact UInt32.not_lt.mp htolerance

theorem propose_conflict_iff (g : Aggregate) : (propose policy prior g).hasValue = false ∧
    (propose policy prior g).indeterminate = .conflict ↔ g.anyConflict = true := by
  unfold propose
  split
  next h => simp [h]
  next h =>
    split
    · split <;> simp [h]
    · split <;> simp [h]

/-- An evaluation proposes CONFLICT exactly when the readings it counted contradict. -/
theorem proposesConflict_iff (haccepted : Accepted policy)
    (hmode : policy.contradiction.mode = .reject) (hp : context.policy = some policy)
    (hscope : scope request policy context.topology = .ok resources)
    {outcome : EvaluationOutcome} (h : evaluate request prior context = .ok outcome) :
    ProposesConflict request policy context prior ↔
      ContradictedBy policy resources (counted request policy context resources) := by
  obtain ⟨_, _, a, hp', _, _, hs', ha, _⟩ := evaluate_ok h
  obtain rfl := Option.some.inj (hp.symm.trans hp')
  obtain rfl := Except.ok.inj (hscope.symm.trans hs')
  obtain ⟨f, hf, hraised, _⟩ := assess_classified ha
  generalize hres : resolve policy (admitSamples request policy context resources) = resolution
  have hcs : (classifyScope request policy context resources).classified =
      resources.map fun r => classify policy (tallyResource policy resolution r) := by
    simp [classifyScope, hres]
  have hprop : proposalOf request policy context prior =
      .ok (propose policy prior (aggregate a.classified)) :=
    bind_ok.mpr ⟨resources, hscope, bind_ok.mpr ⟨a, ha, rfl⟩⟩
  have hiff : ProposesConflict request policy context prior ↔
      (aggregate a.classified).anyConflict = true := by
    unfold ProposesConflict
    rw [hprop, ← @propose_conflict_iff policy prior]
    simp
  rw [hiff, hf, (aggregate_map _ hraised).1, hcs, anyConflict_iff]
  unfold ContradictedBy contradicted
  simp only [decide_eq_true_eq]
  refine exists_congr fun r => and_congr_right fun _ => exists_congr fun rule =>
    and_congr_right fun hrule => ?_
  rw [← hres, resolve_unresolved hmode (validateEvidencePolicies_tolerance haccepted)]
  refine exists_congr fun queue => ?_
  have hkey : (⟨r, queue, rule.metric⟩ : ReadingKey).metric ∈ ruleMetrics policy :=
    mem_ruleMetrics.mpr ⟨rule, hrule, rfl⟩
  rw [admitSamples_bucket request hkey]
  rfl

/-- CONFLICT is proposed exactly when the admissible readings contradict, and what is proposed is
committed at once. -/
structure ConflictCaught (request : EvaluationRequest) (policy : CongestionPolicy)
    (context : EvaluationContext) (prior : DomainState) (resources : List ResourceId)
    (outcome : EvaluationOutcome) : Prop where
  proposed : ProposesConflict request policy context prior ↔
    ContradictedBy policy resources (admissible request policy context resources)
  committed : ProposesConflict request policy context prior →
    outcome.state = .conflict ∧ outcome.authoritative = false

/-- A proposed CONFLICT is committed by the evaluation that proposes it. -/
theorem proposesConflict_committed (hp : context.policy = some policy)
    (htick : tickRegressed prior request.now = false) {outcome : EvaluationOutcome}
    (h : evaluate request prior context = .ok outcome)
    (hproposes : ProposesConflict request policy context prior) :
    outcome.state = .conflict ∧ outcome.authoritative = false := by
  obtain ⟨_, resources, a, hp', _, _, hs, ha, rfl⟩ := evaluate_ok h
  obtain rfl := Option.some.inj (hp.symm.trans hp')
  obtain ⟨p, hproposal, hvalue, hconflict⟩ := hproposes
  have hprop : proposalOf request policy context prior =
      .ok (propose policy prior (aggregate a.classified)) :=
    bind_ok.mpr ⟨resources, hs, bind_ok.mpr ⟨a, ha, rfl⟩⟩
  obtain rfl := Except.ok.inj (hprop.symm.trans hproposal)
  constructor
  · rw [conclude_state]
    have hcase := step_cases (prepare request policy context prior)
      (propose policy prior (aggregate a.classified)) policy.hysteresis policy.recovery request.now
    generalize step (prepare request policy context prior)
      (propose policy prior (aggregate a.classified)) policy.hysteresis policy.recovery request.now =
      result at hcase ⊢
    cases hcase with
    | regressed hreg => exact absurd (htick.symm.trans hreg) (by decide)
    | invalid _ _ hi =>
      rw [hconflict] at hi
      exact absurd hi (by decide)
    | indeterminate =>
      rw [hconflict]
      have htarget : indeterminateTarget (prepare request policy context prior) .conflict =
          .conflict := if_neg (by simp)
      rw [htarget]
      unfold stepIndeterminate
      dsimp only
      split
      · rfl
      next hsame => exact not_not.mp hsame
    | steady _ hv | confirms _ _ hv | pending _ _ _ hv | commits _ _ hv =>
      exact absurd (hv.symm.trans hvalue) (by decide)
  · unfold conclude
    dsimp only
    rw [hvalue, Bool.and_false, Bool.false_and]

/-- Contradictions are caught exactly when the readings that were counted tell as much about them
as all the admissible ones. -/
theorem conflict_caught_iff {requested : CongestionPolicy}
    (haccepted : validatePolicy requested = .ok policy)
    (hmode : policy.contradiction.mode = .reject) (hp : context.policy = some policy)
    (htick : tickRegressed prior request.now = false)
    (hscope : scope request policy context.topology = .ok resources)
    {outcome : EvaluationOutcome} (h : evaluate request prior context = .ok outcome) :
    ConflictCaught request policy context prior resources outcome ↔
      (ContradictedBy policy resources (counted request policy context resources) ↔
        ContradictedBy policy resources (admissible request policy context resources)) := by
  have hproposes := proposesConflict_iff (validatePolicy_accepted haccepted).2 hmode hp hscope h
  constructor
  · exact fun hcaught => hproposes.symm.trans hcaught.proposed
  · exact fun hsame => ⟨hproposes.trans hsame, proposesConflict_committed hp htick h⟩

theorem firstsOf_eq_self {samples : List EvidenceSample} {seen : List EvidenceSnapshotId}
    (hnodup : (samples.map snapshotOf).Nodup) (hnew : ∀ sample ∈ samples, snapshotOf sample ∉ seen) :
    firstsOf seen samples = samples := by
  induction samples generalizing seen with
  | nil => rfl
  | cons sample rest ih =>
    rw [List.map_cons, List.nodup_cons] at hnodup
    obtain ⟨hsample, hrest⟩ := List.forall_mem_cons.mp hnew
    rw [firstsOf, if_neg hsample, ih hnodup.2]
    intro other hother hseen
    rcases List.mem_cons.mp hseen with heq | hseen
    · exact hnodup.1 (heq ▸ List.mem_map_of_mem hother)
    · exact hrest other hother hseen

/-- Nothing is lost of a key with at most as many readings as a bucket holds, in a batch that
repeats no snapshot identity. -/
theorem counted_eq_admissible {key : ReadingKey}
    (hdistinct : (request.evidence.samples.map snapshotOf).Nodup)
    (hroom : (admissible request policy context resources key).length ≤
      limits.kMaxContradictionPeers) :
    counted request policy context resources key =
      admissible request policy context resources key := by
  have hfiltered : ((request.evidence.samples.filter (eligible context resources)).map
      snapshotOf).Nodup := hdistinct.sublist (List.filter_sublist.map _)
  unfold counted
  rw [firstsOf_eq_self hfiltered fun _ _ => List.not_mem_nil]
  exact List.take_of_length_le hroom

/-- A batch of utilization samples of one resource: their publishers and values, in order. -/
def utilizationRequest (samples : List (PublisherId × UInt64)) : EvaluationRequest where
  domain := ⟨1⟩
  epoch := ⟨1⟩
  now := 10
  evidence := {
    id := ⟨1⟩, epoch := ⟨1⟩, submittedTick := 10
    samples := samples.zipIdx.map fun ((publisher, utilization), i) => {
      resource := ⟨1⟩, publisher, publisherBoot := ⟨1⟩, epoch := ⟨1⟩
      generation := ⟨UInt64.ofNat (i + 1)⟩, sequence := UInt64.ofNat (i + 1), observedTick := 10
      snapshot := ⟨UInt64.ofNat (i + 1)⟩
      metrics := (∅ : MetricSet).insert .utilizationPpm utilization } }

/-- Two publishers disagree. -/
def disputedRequest : EvaluationRequest :=
  utilizationRequest [(⟨1⟩, 100000), (⟨2⟩, 990000)]

/-- The first publisher fills the bucket before the second one is heard. -/
def crowdedRequest : EvaluationRequest :=
  utilizationRequest (List.replicate 64 (⟨1⟩, 100000) ++ [(⟨2⟩, 990000)])

theorem conflict_caught_iff_disputed : ∃ outcome,
    evaluate disputedRequest {} pairContext = .ok outcome ∧ outcome.state = .conflict ∧
    ConflictCaught disputedRequest makeDefaultPolicy pairContext {} [⟨1⟩, ⟨2⟩] outcome := by
  obtain ⟨outcome, h⟩ : ∃ outcome, evaluate disputedRequest {} pairContext = .ok outcome :=
    Result.exists_of_isOk (by decide +kernel)
  have hstate : (evaluate disputedRequest {} pairContext).toOption.map (·.state) =
      some .conflict := by decide +kernel
  rw [h] at hstate
  have hsame : counted disputedRequest makeDefaultPolicy pairContext [⟨1⟩, ⟨2⟩] =
      admissible disputedRequest makeDefaultPolicy pairContext [⟨1⟩, ⟨2⟩] := by
    funext key
    apply counted_eq_admissible
    · decide +kernel
    · have hlength := (List.length_filterMap_le
        (freshReading makeDefaultPolicy disputedRequest.now key)
        (disputedRequest.evidence.samples.filter (eligible pairContext [⟨1⟩, ⟨2⟩]))).trans
        (List.length_filter_le _ _)
      exact hlength.trans (by decide)
  have hscope : scope disputedRequest makeDefaultPolicy pairContext.topology = .ok [⟨1⟩, ⟨2⟩] := by
    decide +kernel
  exact ⟨outcome, h, Option.some.inj hstate,
    (conflict_caught_iff defaultPolicy_accepted (by decide) rfl (by decide) hscope h).mpr
      (by rw [hsame])⟩

/-- The second publisher's reading, the sixty-fifth of the key, is dropped: the domain is reported
CLEAR though the two disagree. -/
theorem crowded_conflict_missed :
    validatePolicy makeDefaultPolicy = .ok makeDefaultPolicy ∧
    makeDefaultPolicy.contradiction.mode = .reject ∧
    scope crowdedRequest makeDefaultPolicy pairContext.topology = .ok [⟨1⟩, ⟨2⟩] ∧
    ContradictedBy makeDefaultPolicy [⟨1⟩, ⟨2⟩]
      (admissible crowdedRequest makeDefaultPolicy pairContext [⟨1⟩, ⟨2⟩]) ∧
    ¬ProposesConflict crowdedRequest makeDefaultPolicy pairContext {} ∧
    (evaluate crowdedRequest {} pairContext).toOption.map
      (fun outcome => (outcome.state, outcome.authoritative)) = some (.clear, true) := by
  refine ⟨defaultPolicy_accepted, by decide, by decide +kernel, ?_, ?_, by decide +kernel⟩
  · refine ⟨⟨1⟩, List.mem_cons_self, makeDefaultPolicy.rules.head (by decide),
      List.head_mem _, ⟨0⟩, ?_⟩
    rw [← disagree_iff (by decide)]
    decide +kernel
  · rintro ⟨p, hp, hvalue, _⟩
    have hproposal : (proposalOf crowdedRequest makeDefaultPolicy pairContext {}).toOption.map
        (·.hasValue) = some true := by decide +kernel
    rw [hp] at hproposal
    exact absurd (hvalue.symm.trans (Option.some.inj hproposal)) (by decide)

end CongestionFabric.CongestionEvaluator
