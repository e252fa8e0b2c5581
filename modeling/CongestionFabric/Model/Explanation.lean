import CongestionFabric.Lib.BudgetedText
import CongestionFabric.Model.Evaluation

namespace CongestionFabric

open BudgetedText

/-! ### Names in the text -/

def Severity.name : Severity → String
  | clear => "clear"
  | watch => "watch"
  | congested => "congested"
  | severe => "severe"
  | undeclared _ _ => "unknown"

def CongestionState.name : CongestionState → String
  | unknown | undeclared _ _ => "unknown"
  | clear => "clear"
  | watch => "watch"
  | congested => "congested"
  | severe => "severe"
  | recovering => "recovering"
  | stale => "stale"
  | conflict => "conflict"

/-- A kind past the end of the descriptor table has the name of its first row. -/
def MetricKind.name : MetricKind → String
  | unknown | undeclared _ _ => "unknown"
  | queueOccupancyPpm => "queue-occupancy-ppm"
  | bufferUtilizationPpm => "buffer-utilization-ppm"
  | utilizationPpm => "utilization-ppm"
  | lossRatePpm => "loss-rate-ppm"
  | markedFractionPpm => "marked-fraction-ppm"
  | deliveryRatioPpm => "delivery-ratio-ppm"
  | queueDepthPackets => "queue-depth-packets"
  | discardCount => "discard-count"
  | ingressRateBps => "ingress-rate-bps"
  | egressRateBps => "egress-rate-bps"
  | admissibleRateBps => "admissible-rate-bps"
  | residualCapacityBps => "residual-capacity-bps"
  | linkCapacityBps => "link-capacity-bps"
  | pathCapacityBps => "path-capacity-bps"
  | latencyMicros => "latency-micros"
  | jitterMicros => "jitter-micros"
  | queueDelayMicros => "queue-delay-micros"
  | topologyVersion => "topology-version"
  | capacityVersion => "capacity-version"
  | count => "count"

def ResourceCoverage.name : ResourceCoverage → String
  | none => "none"
  | partially => "partial"
  | full => "full"

def SuppressionReason.name : SuppressionReason → String
  | none => "none"
  | nonAuthoritativeState => "non-authoritative-state"
  | staleEvidence => "stale-evidence"
  | missingEvidence => "missing-evidence"
  | futureEvidence => "future-evidence"
  | authorityDenied => "authority-denied"
  | authorityExpired => "authority-expired"
  | generationInvalidated => "generation-invalidated"
  | epochFenced => "epoch-fenced"
  | policyDisabled => "policy-disabled"
  | conflictPresent => "conflict-present"
  | parameterOutOfBounds => "parameter-out-of-bounds"
  | targetNotPresent => "target-not-present"
  | limitExceeded => "limit-exceeded"
  | alreadyActive => "already-active"
  | cancelled => "cancelled"

def kAuthorityNames : List (Authority × String) :=
  [(.observe, "observe"), (.evaluate, "evaluate"), (.planInterventions, "plan-interventions"),
    (.reduceAdmissibleBudget, "reduce-admissible-budget"),
    (.requestRateReduction, "request-rate-reduction"), (.requestPacing, "request-pacing"),
    (.requestReroute, "request-reroute"), (.requestRebalance, "request-rebalance"),
    (.requestBackpressure, "request-backpressure"),
    (.protectCriticalClasses, "protect-critical-classes"),
    (.enterDegradedMode, "enter-degraded-mode"),
    (.makeRecoveryPlanEligible, "make-recovery-plan-eligible"),
    (.durabilityWrite, "durability-write"), (.fence, "fence"), (.advanceEpoch, "advance-epoch"),
    (.mutatePolicy, "mutate-policy")]

def AuthoritySet.describe (set : AuthoritySet) : String :=
  let names := (kAuthorityNames.filter fun entry => set.grants entry.1).map Prod.snd
  if names = [] then "none" else ",".intercalate names

def thresholdOpText (op : ThresholdOp) : String := if op = .atLeast then "at-least" else "at-most"

def number (value : Nat) : String := toString value

def yesNo (flag : Bool) : String := if flag then "yes" else "no"

/-! ### Lines -/

/-- A binding with the two marks that only the report shows. -/
structure ReportedBinding extends ThresholdBinding where
  stale : Bool := false
  future : Bool := false

/-- A suppressed intervention as it is reported, its detail any text. -/
structure ReportedSuppression where
  kind : InterventionKind := .none
  resource : ResourceId := {}
  reason : SuppressionReason := .none
  detail : Bytes := []

def ResourceAssessment.line (assessment : ResourceAssessment) : Bytes := text <|
  "resource=" ++ assessment.resource.toText ++ " raw=" ++ assessment.rawSeverity.name ++
    " coverage=" ++ assessment.coverage.name ++ " stale=" ++ yesNo assessment.stale ++
    " contradictory=" ++ yesNo assessment.contradictory ++
    " samples=" ++ number assessment.samplesConsidered ++
    " stale_samples=" ++ number assessment.staleSamples ++
    " future_samples=" ++ number assessment.futureSamples ++
    " newest_tick=" ++ number assessment.newestObservedTick.toNat

def ReportedBinding.line (binding : ReportedBinding) : Bytes := text <|
  "binding resource=" ++ binding.resource.toText ++
    (if binding.queue.valid then " queue=" ++ binding.queue.toText else "") ++
    " metric=" ++ binding.metric.name ++ " value=" ++ number binding.value.toNat ++
    " op=" ++ thresholdOpText binding.op ++ " watch=" ++ number binding.watch.toNat ++
    " congested=" ++ number binding.congested.toNat ++
    " severe=" ++ number binding.severe.toNat ++ " level=" ++ binding.level.name ++
    " required=" ++ yesNo binding.required ++ " stale=" ++ yesNo binding.stale ++
    " future=" ++ yesNo binding.future ++ " publisher=" ++ binding.publisher.toText ++
    " observed_tick=" ++ number binding.observedTick.toNat

def PropagationEdge.line (edge : PropagationEdge) : Bytes := text <|
  "propagation from=" ++ edge.source.toText ++ " to=" ++ edge.target.toText ++
    " hops=" ++ number edge.hops.toNat ++ " pressure_ppm=" ++ number edge.pressurePpm.toNat ++
    " induced=" ++ edge.induced.name ++ " applied=" ++ yesNo edge.applied ++
    (if edge.viaPath.valid then " via=" ++ edge.viaPath.toText else "")

def ConflictReport.line (conflict : ConflictReport) : Bytes := text <|
  "conflict resource=" ++ conflict.resource.toText ++ " metric=" ++ conflict.metric.name ++
    " low=" ++ number conflict.lowValue.toNat ++ " high=" ++ number conflict.highValue.toNat ++
    " spread=" ++ number conflict.spread.toNat ++
    " low_publisher=" ++ conflict.lowPublisher.toText ++
    " high_publisher=" ++ conflict.highPublisher.toText ++
    " resolved=" ++ yesNo conflict.resolved

def StaleReport.line (report : StaleReport) : Bytes := text <|
  "stale resource=" ++ report.resource.toText ++ " metric=" ++ report.metric.name ++
    " publisher=" ++ report.publisher.toText ++
    " observed_tick=" ++ number report.observedTick.toNat ++
    " age=" ++ number report.ageTicks.toNat ++
    " allowed_age=" ++ number report.allowedAgeTicks.toNat ++
    " from_future=" ++ yesNo report.fromFuture ++
    " beyond_skew=" ++ yesNo report.beyondFutureSkew

def InterventionIntent.line (intent : InterventionIntent) : Bytes := text <|
  "authorized kind=" ++ intent.kind.name ++ " domain=" ++ intent.domain.toText ++
    (if intent.resource.valid then " resource=" ++ intent.resource.toText else "") ++
    " basis=" ++ intent.basisState.name ++ " parameter=" ++ number intent.parameter.toNat ++
    " clamped=" ++ yesNo intent.parameterClamped ++ " evidence=" ++ intent.evidence.toText ++
    " expires_tick=" ++ number intent.expiresTick.toNat

def ReportedSuppression.line (entry : ReportedSuppression) : Bytes :=
  text ("suppressed kind=" ++ entry.kind.name ++
    (if entry.resource.valid then " resource=" ++ entry.resource.toText else "") ++
    " reason=" ++ entry.reason.name) ++
    if entry.detail = [] then [] else text " detail=" ++ entry.detail

/-! ### The explanation -/

/-- An explanation with the texts and marks that only its rendering reads. -/
structure FullExplanation where
  domain : DomainId := {}
  state : CongestionState := .unknown
  previousState : CongestionState := .unknown
  severity : Severity := .clear
  transitioned : Bool := false
  authoritative : Bool := false
  requiresRevalidation : Bool := false
  evaluation : EvaluationId := {}
  epoch : EpochId := {}
  policy : PolicyId := {}
  policyFingerprint : Hash64 := {}
  authority : AuthoritySet := {}
  authorityGeneration : AuthorityGeneration := {}
  topologyGeneration : TopologyGeneration := {}
  capacityGeneration : CapacityGeneration := {}
  evaluatedTick : Tick := kNoTick
  reasonCode : Bytes := []
  reasonDetail : List Bytes := []
  samplesSeen : Nat := 0
  samplesAccepted : Nat := 0
  samplesRejected : Nat := 0
  samplesDuplicate : Nat := 0
  resources : List ResourceAssessment := []
  bindings : List ReportedBinding := []
  conflicts : List ConflictReport := []
  stale : List StaleReport := []
  propagation : List PropagationEdge := []
  authorized : List InterventionIntent := []
  suppressed : List ReportedSuppression := []
  truncatedSections : UInt64 := 0

def kExplanationFormat : Nat := 1

def kNewline : UInt8 := 10

namespace FullExplanation

/-- The lines at the top; whether one of them fits is not looked at. -/
def header (e : FullExplanation) : List Bytes :=
  [text ("ncf-explanation format=" ++ number kExplanationFormat),
    text ("domain=" ++ e.domain.toText),
    text ("state=" ++ e.state.name ++ " previous=" ++ e.previousState.name ++
      " transitioned=" ++ yesNo e.transitioned ++ " authoritative=" ++ yesNo e.authoritative ++
      " requires_revalidation=" ++ yesNo e.requiresRevalidation),
    text ("severity=" ++ e.severity.name),
    text ("evaluation=" ++ e.evaluation.toText ++ " epoch=" ++ e.epoch.toText ++
      " tick=" ++ number e.evaluatedTick.toNat),
    text ("authority_generation=" ++ e.authorityGeneration.toText ++
      " authority=" ++ e.authority.describe),
    text ("policy=" ++ e.policy.toText ++ " fingerprint=" ++ toHex e.policyFingerprint.value),
    text ("topology_generation=" ++ e.topologyGeneration.toText ++
      " capacity_generation=" ++ e.capacityGeneration.toText),
    text "reason=" ++ if e.reasonCode = [] then text "unspecified" else e.reasonCode]

def evidenceLine (e : FullExplanation) : Bytes := text <|
  "evidence seen=" ++ number e.samplesSeen ++ " accepted=" ++ number e.samplesAccepted ++
    " rejected=" ++ number e.samplesRejected ++ " duplicate=" ++ number e.samplesDuplicate

/-- All that is put, in the order in which it is put. -/
def parts (e : FullExplanation) : List (Passage UInt8) :=
  e.header.map .line ++
    [.block (e.reasonDetail.map fun detail => text "reason-detail=" ++ detail),
      .line e.evidenceLine, .block [text "scope begin"],
      .block (e.resources.map ResourceAssessment.line),
      .block (e.bindings.map ReportedBinding.line),
      .block (e.propagation.map PropagationEdge.line),
      .block (e.conflicts.map ConflictReport.line), .block (e.stale.map StaleReport.line),
      .block (e.authorized.map InterventionIntent.line),
      .block (e.suppressed.map ReportedSuppression.line)]

def draft (e : FullExplanation) (maxBytes : Nat) : Draft UInt8 :=
  e.parts.foldl (write kNewline maxBytes) {}

def notice (e : FullExplanation) (maxBytes : Nat) : Bytes :=
  let count := UInt64.ofNat (e.draft maxBytes).truncated + e.truncatedSections
  text ("truncated-sections=" ++ number count.toNat) ++ [kNewline]

/-- The text in its two pieces: what is kept of the lines, and the notice if one is appended. -/
def rendering (e : FullExplanation) (maxBytes : Nat) : Bytes × Option Bytes :=
  let out := (e.draft maxBytes).out
  if (e.draft maxBytes).truncated > 0 ∨ e.truncatedSections > 0 then
    match makeRoom kNewline maxBytes (e.notice maxBytes) out with
    | some kept => (kept, some (e.notice maxBytes))
    | none => (out, none)
  else (out, none)

def render (e : FullExplanation) (maxBytes : Nat) : Bytes :=
  let (kept, notice) := e.rendering maxBytes
  kept ++ notice.getD []

/-! ### What is left out and what is said of it -/

variable {e : FullExplanation} {maxBytes : Nat}

/-- Some line has not been put. -/
def LeavesOut (e : FullExplanation) (maxBytes : Nat) : Prop :=
  (e.draft maxBytes).out ≠ whole kNewline e.parts

/-- The text keeps to its bound, and one that is incomplete ends with the notice. A line that only
reads like a notice is none. -/
structure Candid (e : FullExplanation) (maxBytes : Nat) : Prop where
  bounded : (e.render maxBytes).length ≤ maxBytes
  noticed : LeavesOut e maxBytes ∨ 0 < e.truncatedSections →
    ∃ kept, e.rendering maxBytes = (kept, some (e.notice maxBytes)) ∧
      e.render maxBytes = kept ++ e.notice maxBytes

/-- Sections were cut before, or all lines fit, or the blocks together with the single lines that fit
in their turn need more room than there is. -/
def Announced (e : FullExplanation) (maxBytes : Nat) : Prop :=
  0 < e.truncatedSections ∨ (whole kNewline e.parts).length ≤ maxBytes ∨
    maxBytes < e.parts.foldl (charge maxBytes) 0

theorem draft_length (e : FullExplanation) (maxBytes : Nat) :
    (e.draft maxBytes).out.length ≤ maxBytes :=
  draft_bounded (Nat.zero_le _)

theorem cut_iff : 0 < (e.draft maxBytes).truncated ↔
    maxBytes < e.parts.foldl (charge maxBytes) 0 := by
  have h := @truncated_draft UInt8 kNewline maxBytes e.parts {} (Nat.zero_le _)
  rw [Nat.pos_iff_ne_zero, ← Nat.not_le]
  exact not_congr h

/-- The notice is appended whenever anything was counted. -/
theorem rendering_noticed (h : (e.notice maxBytes).length < maxBytes)
    (hcounted : (e.draft maxBytes).truncated > 0 ∨ e.truncatedSections > 0) :
    ∃ kept, e.rendering maxBytes = (kept, some (e.notice maxBytes)) ∧
      kept.length + (e.notice maxBytes).length ≤ maxBytes := by
  obtain ⟨kept, hroom⟩ := @makeRoom_exists UInt8 kNewline maxBytes _ _ h (e.draft maxBytes).out
  refine ⟨kept, ?_, makeRoom_length hroom⟩
  unfold rendering
  rw [if_pos hcounted, hroom]

theorem rendering_plain
    (hcounted : ¬((e.draft maxBytes).truncated > 0 ∨ e.truncatedSections > 0)) :
    e.rendering maxBytes = ((e.draft maxBytes).out, none) :=
  if_neg hcounted

theorem render_length (h : (e.notice maxBytes).length < maxBytes) :
    (e.render maxBytes).length ≤ maxBytes := by
  unfold render
  by_cases hcounted : (e.draft maxBytes).truncated > 0 ∨ e.truncatedSections > 0
  · obtain ⟨kept, hrendering, hlength⟩ := rendering_noticed h hcounted
    rw [hrendering]
    simpa using hlength
  · rw [rendering_plain hcounted]
    simpa using draft_length e maxBytes

/-- An incomplete text says so exactly when sections were cut before, nothing is left out, or not
only single lines are. -/
theorem render_candid_iff (e : FullExplanation) (maxBytes : Nat)
    (h : (e.notice maxBytes).length < maxBytes) : Candid e maxBytes ↔ Announced e maxBytes := by
  have hleft : LeavesOut e maxBytes ↔ maxBytes < (whole kNewline e.parts).length :=
    draft_incomplete e.parts
  constructor
  · intro hcandid
    by_contra hsilent
    unfold Announced at hsilent
    rw [not_or, not_or] at hsilent
    obtain ⟨hsections, hlong, hfits⟩ := hsilent
    obtain ⟨kept, hrendering, _⟩ := hcandid.noticed (.inl (hleft.mpr (not_le.mp hlong)))
    have hplain := @rendering_plain e maxBytes
      (not_or.mpr ⟨fun hcut => hfits (cut_iff.mp hcut), hsections⟩)
    rw [hplain] at hrendering
    cases hrendering
  · intro hannounced
    refine ⟨render_length h, fun hincomplete => ?_⟩
    have hcounted : (e.draft maxBytes).truncated > 0 ∨ e.truncatedSections > 0 := by
      rcases hannounced with hsections | hwhole | hblocks
      · exact .inr hsections
      · rcases hincomplete with hout | hsections
        · exact absurd (hleft.mp hout) (not_lt.mpr hwhole)
        · exact .inr hsections
      · exact .inl (cut_iff.mpr hblocks)
    obtain ⟨kept, hrendering, _⟩ := rendering_noticed h hcounted
    refine ⟨kept, hrendering, ?_⟩
    unfold render
    rw [hrendering]
    rfl

/-- Nine resources, of which some do not fit. -/
def nineResources : FullExplanation := { resources := List.replicate 9 {} }

set_option maxRecDepth 100000 in
theorem render_candid_nineResources : Candid nineResources 600 := by
  have hnotice : (nineResources.notice 600).length < 600 := by decide +kernel
  have hblocks : 600 < nineResources.parts.foldl (charge 600) 0 := by decide +kernel
  exact (render_candid_iff nineResources 600 hnotice).mpr (.inr (.inr hblocks))

/-- An explanation whose reason alone is longer than the budget. -/
def longReason : FullExplanation := { reasonCode := List.replicate 600 120 }

set_option maxRecDepth 100000 in
theorem longReason_silent : (longReason.notice 600).length < 600 ∧ ¬Candid longReason 600 := by
  have hlong : 600 < (whole kNewline longReason.parts).length := by decide +kernel
  have hfits : longReason.parts.foldl (charge 600) 0 ≤ 600 := by decide +kernel
  refine ⟨by decide +kernel, fun hcandid => ?_⟩
  obtain ⟨kept, hrendering, _⟩ := hcandid.noticed (.inl ((draft_incomplete _).mpr hlong))
  have hplain := @rendering_plain longReason 600
    (not_or.mpr ⟨fun hcut => absurd (cut_iff.mp hcut) (not_lt.mpr hfits), by decide⟩)
  rw [hplain] at hrendering
  cases hrendering

end FullExplanation

end CongestionFabric
