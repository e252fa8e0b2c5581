import CongestionFabric.Model.Policy
import CongestionFabric.Model.State

namespace CongestionFabric

/-- Rising uses the raw severity, falling the one that clears the downgrade margin. -/
structure SeverityProposal where
  upward : Severity := .clear
  downward : Severity := .clear
  hasValue : Bool := false
  indeterminate : CongestionState := .unknown
  deriving DecidableEq

inductive StepReason where
  | tickRegression | invalidProposal | indeterminate | steady | holdDwell | holdRecovering
  | escalatePending | downgradePending | recoveryStarted | escalated | recoveryComplete
  | downgraded
  deriving DecidableEq

structure HysteresisStep where
  committed : CongestionState := .unknown
  transitioned : Bool := false
  reason : StepReason
  deriving DecidableEq

namespace HysteresisEngine

def atLeastOne (value : UInt32) : UInt32 := if value = 0 then 1 else value

def elapsedSince (now since : Tick) : Tick := if now ≥ since then now - since else 0

def recoverySamples (recovery : RecoveryPolicy) : UInt32 :=
  if recovery.allowSingleSample then 1 else max 2 recovery.minImprovedSamples

/-- Where the ladder points a value-bearing proposal, and how many samples the move needs. -/
structure Aim where
  target : CongestionState
  required : UInt32
  escalation : Bool
  deriving DecidableEq

def currentSeverity (s : DomainState) : Severity := (severityOf s.state).getD .clear

/-- The authoritative ladder; `none` is the steady branch that names no target. -/
def ladder (s : DomainState) (proposal : SeverityProposal) (hysteresis : HysteresisPolicy)
    (recovery : RecoveryPolicy) : Option Aim :=
  if !isAuthoritative s.state then
    if proposal.upward ≥ .congested then
      some ⟨stateOf proposal.upward, atLeastOne hysteresis.escalateSamples, true⟩
    else if recovery.enabled ∧ s.lastCommittedSeverity ≥ .congested then
      some ⟨.recovering, recoverySamples recovery, false⟩
    else some ⟨stateOf proposal.upward, 1, false⟩
  else if proposal.upward > currentSeverity s then
    some ⟨stateOf proposal.upward, atLeastOne hysteresis.escalateSamples, true⟩
  else if proposal.downward < currentSeverity s then
    if s.state = .recovering then
      if proposal.downward = .clear then
        some ⟨.clear, atLeastOne recovery.clearSamples, false⟩
      else some ⟨stateOf proposal.downward, atLeastOne hysteresis.deescalateSamples, false⟩
    else if recovery.enabled ∧ proposal.downward = .clear ∧ currentSeverity s ≥ .congested then
      some ⟨.recovering, recoverySamples recovery, false⟩
    else some ⟨stateOf proposal.downward, atLeastOne hysteresis.deescalateSamples, false⟩
  else none

def tickRegressed (s : DomainState) (now : Tick) : Bool :=
  (s.lastChangeTick ≠ kNoTick && now < s.lastChangeTick) ||
    (s.lastEvaluatedTick ≠ kNoTick && now < s.lastEvaluatedTick)

/-- Losing freshness after something authoritative was known is STALE, not UNKNOWN. -/
def indeterminateTarget (s : DomainState) (target : CongestionState) : CongestionState :=
  if target = .unknown ∧ s.lastAuthoritativeTick ≠ kNoTick then .stale else target

def stepIndeterminate (s : DomainState) (target : CongestionState) (now : Tick) :
    DomainState × HysteresisStep :=
  let s := { s with candidate := .unknown, candidateStreak := 0 }
  if s.state ≠ target then
    ({ s with state := target, lastChangeTick := now, transitionCount := s.transitionCount + 1 },
      ⟨target, true, .indeterminate⟩)
  else (s, ⟨s.state, false, .indeterminate⟩)

def capRequired (required : UInt32) : UInt32 :=
  if required > limits.kMaxHysteresisSamples then limits.kMaxHysteresisSamples else required

def countSample (s : DomainState) (target : CongestionState) : DomainState :=
  if s.candidate = target ∧ s.candidateStreak > 0 then
    if s.candidateStreak < limits.kMaxHysteresisSamples then
      { s with candidateStreak := s.candidateStreak + 1 }
    else s
  else { s with candidate := target, candidateStreak := 1 }

def held (s : DomainState) (aim : Aim) (hysteresis : HysteresisPolicy)
    (recovery : RecoveryPolicy) (now : Tick) : Option StepReason :=
  let dwellApplies := if aim.escalation then hysteresis.applyDwellOnEscalation else true
  if dwellApplies ∧ hysteresis.minDwellTicks > 0 ∧ s.lastChangeTick ≠ kNoTick ∧
      elapsedSince now s.lastChangeTick < hysteresis.minDwellTicks then
    some .holdDwell
  else if s.state = .recovering ∧ recovery.recoveringHoldTicks > 0 ∧
      s.lastChangeTick ≠ kNoTick ∧
      elapsedSince now s.lastChangeTick < recovery.recoveringHoldTicks then
    some .holdRecovering
  else none

def commit (s : DomainState) (target : CongestionState) (now : Tick) : DomainState :=
  let s := { s with
    state := target
    candidate := .unknown
    candidateStreak := 0
    lastChangeTick := now
    transitionCount := s.transitionCount + 1 }
  if isAuthoritative target then
    { s with
      lastAuthoritativeTick := now
      lastCommittedSeverity := (severityOf target).getD .clear
      requiresRevalidation := false }
  else s

def commitReason (aim : Aim) : StepReason :=
  if aim.target = .recovering then .recoveryStarted
  else if aim.escalation then .escalated
  else if aim.target = .clear then .recoveryComplete
  else .downgraded

def stepToward (s : DomainState) (aim : Aim) (hysteresis : HysteresisPolicy)
    (recovery : RecoveryPolicy) (now : Tick) : DomainState × HysteresisStep :=
  if aim.target = s.state then
    ({ s with candidate := s.state, candidateStreak := 0, lastAuthoritativeTick := now },
      ⟨s.state, false, .steady⟩)
  else
    let s := countSample s aim.target
    match held s aim hysteresis recovery now with
    | some reason => (s, ⟨s.state, false, reason⟩)
    | none =>
      if s.candidateStreak < capRequired aim.required then
        (s, ⟨s.state, false, if aim.escalation then .escalatePending else .downgradePending⟩)
      else (commit s aim.target now, ⟨aim.target, true, commitReason aim⟩)

def step (s : DomainState) (proposal : SeverityProposal) (hysteresis : HysteresisPolicy)
    (recovery : RecoveryPolicy) (now : Tick) : DomainState × HysteresisStep :=
  if tickRegressed s now then (s, ⟨s.state, false, .tickRegression⟩)
  else if !proposal.hasValue then
    if !isIndeterminate proposal.indeterminate then (s, ⟨s.state, false, .invalidProposal⟩)
    else stepIndeterminate s (indeterminateTarget s proposal.indeterminate) now
  else match ladder s proposal hysteresis recovery with
    | none =>
      ({ s with
          candidate := s.state
          candidateStreak := 0
          lastAuthoritativeTick := now
          lastCommittedSeverity := currentSeverity s },
        ⟨s.state, false, .steady⟩)
    | some aim => stepToward s aim hysteresis recovery now

end HysteresisEngine

end CongestionFabric
