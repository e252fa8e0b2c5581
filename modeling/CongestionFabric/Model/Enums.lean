import Mathlib.Order.Lattice
import CongestionFabric.Core.Checked

namespace CongestionFabric

/-! Every enumeration is a fixed-width integer that a decoder may fill with any value: the
constructor `undeclared` keeps the values that name no enumerator. -/

inductive Severity where
  | clear | watch | congested | severe
  | undeclared (raw : UInt8) (h : 4 ≤ raw.toNat)
  deriving DecidableEq

namespace Severity

def toRaw : Severity → UInt8
  | clear => 0
  | watch => 1
  | congested => 2
  | severe => 3
  | undeclared raw _ => raw

def ofRaw (raw : UInt8) : Severity :=
  if h : raw.toNat < 4 then [clear, watch, congested, severe][raw.toNat]
  else undeclared raw (Nat.le_of_not_lt h)

@[simp] theorem ofRaw_toRaw (s : Severity) : ofRaw s.toRaw = s := by
  cases s with
  | undeclared raw h => simp [toRaw, ofRaw, Nat.not_lt.mpr h]
  | _ => rfl

theorem toRaw_injective {a b : Severity} (h : a.toRaw = b.toRaw) : a = b := by
  rw [← ofRaw_toRaw a, h, ofRaw_toRaw]

instance : LE Severity := ⟨fun a b => a.toRaw.toNat ≤ b.toRaw.toNat⟩
instance : LT Severity := ⟨fun a b => a.toRaw.toNat < b.toRaw.toNat⟩

theorem le_iff {a b : Severity} : a ≤ b ↔ a.toRaw.toNat ≤ b.toRaw.toNat := Iff.rfl
theorem lt_iff {a b : Severity} : a < b ↔ a.toRaw.toNat < b.toRaw.toNat := Iff.rfl

instance : LinearOrder Severity where
  le_refl a := Nat.le_refl _
  le_trans a b c hab hbc := Nat.le_trans hab hbc
  le_antisymm a b hab hba := toRaw_injective (UInt8.toNat_inj.mp (Nat.le_antisymm hab hba))
  le_total a b := Nat.le_total _ _
  lt_iff_le_not_ge a b := Nat.lt_iff_le_and_not_ge
  toDecidableLE a b := inferInstanceAs (Decidable (a.toRaw.toNat ≤ b.toRaw.toNat))
  toDecidableLT a b := inferInstanceAs (Decidable (a.toRaw.toNat < b.toRaw.toNat))
  toDecidableEq := inferInstance

theorem declared_cases {s : Severity} (h : s ≤ .severe) :
    s = .clear ∨ s = .watch ∨ s = .congested ∨ s = .severe := by
  cases s with
  | undeclared raw hraw =>
    have hle : raw.toNat ≤ 3 := h
    omega
  | _ => simp

end Severity

inductive CongestionState where
  | unknown | clear | watch | congested | severe | recovering | stale | conflict
  | undeclared (raw : UInt8) (h : 8 ≤ raw.toNat)
  deriving DecidableEq

namespace CongestionState

def toRaw : CongestionState → UInt8
  | undeclared raw _ => raw
  | s => UInt8.ofNat s.ctorIdx

def ofRaw (raw : UInt8) : CongestionState :=
  if h : raw.toNat < 8 then
    [unknown, clear, watch, congested, severe, recovering, stale, conflict][raw.toNat]
  else undeclared raw (Nat.le_of_not_lt h)

@[simp] theorem ofRaw_toRaw (s : CongestionState) : ofRaw s.toRaw = s := by
  cases s with
  | undeclared raw h => simp [toRaw, ofRaw, Nat.not_lt.mpr h]
  | _ => rfl

end CongestionState

def isAuthoritative : CongestionState → Bool
  | .clear | .watch | .congested | .severe | .recovering => true
  | _ => false

def isIndeterminate : CongestionState → Bool
  | .unknown | .stale | .conflict => true
  | _ => false

def severityOf : CongestionState → Option Severity
  | .clear => some .clear
  | .watch => some .watch
  | .congested => some .congested
  | .severe => some .severe
  | .recovering => some .watch
  | _ => none

def stateOf : Severity → CongestionState
  | .clear => .clear
  | .watch => .watch
  | .congested => .congested
  | .severe => .severe
  | .undeclared _ _ => .unknown

theorem severityOf_isSome (s : CongestionState) : (severityOf s).isSome = isAuthoritative s := by
  cases s <;> rfl

inductive MetricKind where
  | unknown | queueOccupancyPpm | bufferUtilizationPpm | utilizationPpm | lossRatePpm
  | markedFractionPpm | deliveryRatioPpm | queueDepthPackets | discardCount | ingressRateBps
  | egressRateBps | admissibleRateBps | residualCapacityBps | linkCapacityBps | pathCapacityBps
  | latencyMicros | jitterMicros | queueDelayMicros | topologyVersion | capacityVersion | count
  | undeclared (raw : UInt16) (h : 21 ≤ raw.toNat)
  deriving DecidableEq

namespace MetricKind

def toRaw : MetricKind → UInt16
  | undeclared raw _ => raw
  | e => UInt16.ofNat e.ctorIdx

def ofRaw (raw : UInt16) : MetricKind :=
  if h : raw.toNat < 21 then
    [unknown, queueOccupancyPpm, bufferUtilizationPpm, utilizationPpm, lossRatePpm,
     markedFractionPpm, deliveryRatioPpm, queueDepthPackets, discardCount, ingressRateBps,
     egressRateBps, admissibleRateBps, residualCapacityBps, linkCapacityBps, pathCapacityBps,
     latencyMicros, jitterMicros, queueDelayMicros, topologyVersion, capacityVersion, count][raw.toNat]
  else undeclared raw (Nat.le_of_not_lt h)

@[simp] theorem ofRaw_toRaw (e : MetricKind) : ofRaw e.toRaw = e := by
  cases e with
  | undeclared raw h => simp [toRaw, ofRaw, Nat.not_lt.mpr h]
  | _ => rfl

theorem toRaw_injective {a b : MetricKind} (h : a.toRaw = b.toRaw) : a = b := by
  rw [← ofRaw_toRaw a, h, ofRaw_toRaw]

instance : LE MetricKind := ⟨fun a b => a.toRaw.toNat ≤ b.toRaw.toNat⟩
instance : LT MetricKind := ⟨fun a b => a.toRaw.toNat < b.toRaw.toNat⟩

instance : LinearOrder MetricKind where
  le_refl a := Nat.le_refl _
  le_trans a b c hab hbc := Nat.le_trans hab hbc
  le_antisymm a b hab hba := toRaw_injective (UInt16.toNat_inj.mp (Nat.le_antisymm hab hba))
  le_total a b := Nat.le_total _ _
  lt_iff_le_not_ge a b := Nat.lt_iff_le_and_not_ge
  toDecidableLE a b := inferInstanceAs (Decidable (a.toRaw.toNat ≤ b.toRaw.toNat))
  toDecidableLT a b := inferInstanceAs (Decidable (a.toRaw.toNat < b.toRaw.toNat))
  toDecidableEq := inferInstance

end MetricKind

def kMaxRatioPpm : UInt64 := 1500000
def kMaxRateBps : UInt64 := 1000000000000000
def kMaxLatencyMicros : UInt64 := 3600000000
def kMaxCount : UInt64 := 1000000000000000

/-- A kind past the end of the descriptor table is described by its first row. -/
def metricPlausibleMax : MetricKind → UInt64
  | .queueOccupancyPpm | .bufferUtilizationPpm | .utilizationPpm | .lossRatePpm
  | .markedFractionPpm | .deliveryRatioPpm => kMaxRatioPpm
  | .queueDepthPackets | .discardCount | .topologyVersion | .capacityVersion => kMaxCount
  | .ingressRateBps | .egressRateBps | .admissibleRateBps | .residualCapacityBps
  | .linkCapacityBps | .pathCapacityBps => kMaxRateBps
  | .latencyMicros | .jitterMicros | .queueDelayMicros => kMaxLatencyMicros
  | .unknown | .count | .undeclared _ _ => 0

def validateMetricValue (kind : MetricKind) (value : UInt64) : VoidResult := do
  refuseIf (kind = .unknown ∨ kind = .count) .invalidArgument "unknown metric kind"
  refuseIf (value > metricPlausibleMax kind) .invalidArgument
    "metric value outside its plausible range"

inductive ResourceKind where
  | unknown | fabric | node | port | linkEndpoint | queueGroup | classLane | pathGroup | count
  | undeclared (raw : UInt8) (h : 9 ≤ raw.toNat)
  deriving DecidableEq

namespace ResourceKind

def toRaw : ResourceKind → UInt8
  | undeclared raw _ => raw
  | e => UInt8.ofNat e.ctorIdx

def ofRaw (raw : UInt8) : ResourceKind :=
  if h : raw.toNat < 9 then
    [unknown, fabric, node, port, linkEndpoint, queueGroup, classLane, pathGroup, count][raw.toNat]
  else undeclared raw (Nat.le_of_not_lt h)

@[simp] theorem ofRaw_toRaw (e : ResourceKind) : ofRaw e.toRaw = e := by
  cases e with
  | undeclared raw h => simp [toRaw, ofRaw, Nat.not_lt.mpr h]
  | _ => rfl

end ResourceKind

inductive InterventionKind where
  | none | reduceAdmissibleBudget | requestRateReduction | requestPacing | requestReroute
  | requestRebalance | requestBackpressure | protectCriticalClasses | enterDegradedMode
  | makeRecoveryPlanEligible | count
  | undeclared (raw : UInt8) (h : 11 ≤ raw.toNat)
  deriving DecidableEq

namespace InterventionKind

def toRaw : InterventionKind → UInt8
  | undeclared raw _ => raw
  | e => UInt8.ofNat e.ctorIdx

def ofRaw (raw : UInt8) : InterventionKind :=
  if h : raw.toNat < 11 then
    [none, reduceAdmissibleBudget, requestRateReduction, requestPacing, requestReroute,
     requestRebalance, requestBackpressure, protectCriticalClasses, enterDegradedMode,
     makeRecoveryPlanEligible, count][raw.toNat]
  else undeclared raw (Nat.le_of_not_lt h)

@[simp] theorem ofRaw_toRaw (e : InterventionKind) : ofRaw e.toRaw = e := by
  cases e with
  | undeclared raw h => simp [toRaw, ofRaw, Nat.not_lt.mpr h]
  | _ => rfl

def name : InterventionKind → String
  | none | undeclared _ _ => "none"
  | reduceAdmissibleBudget => "reduce-admissible-budget"
  | requestRateReduction => "request-rate-reduction"
  | requestPacing => "request-pacing"
  | requestReroute => "request-reroute"
  | requestRebalance => "request-rebalance"
  | requestBackpressure => "request-backpressure"
  | protectCriticalClasses => "protect-critical-classes"
  | enterDegradedMode => "enter-degraded-mode"
  | makeRecoveryPlanEligible => "make-recovery-plan-eligible"
  | count => "count"

end InterventionKind

inductive FenceReason where
  | none | coordinatorRestart | epochAdvance | authorityChange | policyChange | topologyChange
  | publisherDeath | integrityFailure | revalidationTimeout | manual | count
  | undeclared (raw : UInt8) (h : 11 ≤ raw.toNat)
  deriving DecidableEq

namespace FenceReason

def toRaw : FenceReason → UInt8
  | undeclared raw _ => raw
  | e => UInt8.ofNat e.ctorIdx

def ofRaw (raw : UInt8) : FenceReason :=
  if h : raw.toNat < 11 then
    [none, coordinatorRestart, epochAdvance, authorityChange, policyChange, topologyChange,
     publisherDeath, integrityFailure, revalidationTimeout, manual, count][raw.toNat]
  else undeclared raw (Nat.le_of_not_lt h)

@[simp] theorem ofRaw_toRaw (e : FenceReason) : ofRaw e.toRaw = e := by
  cases e with
  | undeclared raw h => simp [toRaw, ofRaw, Nat.not_lt.mpr h]
  | _ => rfl

end FenceReason

inductive ProvenanceKind where
  | unknown | localIngest | localEvaluation | localPolicy | remotePublisher | durableReplay
  | recovery | fence | coordinatorBoot | epochAdvance | count
  | undeclared (raw : UInt8) (h : 11 ≤ raw.toNat)
  deriving DecidableEq

namespace ProvenanceKind

def toRaw : ProvenanceKind → UInt8
  | undeclared raw _ => raw
  | e => UInt8.ofNat e.ctorIdx

def ofRaw (raw : UInt8) : ProvenanceKind :=
  if h : raw.toNat < 11 then
    [unknown, localIngest, localEvaluation, localPolicy, remotePublisher, durableReplay,
     recovery, fence, coordinatorBoot, epochAdvance, count][raw.toNat]
  else undeclared raw (Nat.le_of_not_lt h)

@[simp] theorem ofRaw_toRaw (e : ProvenanceKind) : ofRaw e.toRaw = e := by
  cases e with
  | undeclared raw h => simp [toRaw, ofRaw, Nat.not_lt.mpr h]
  | _ => rfl

end ProvenanceKind

inductive AttemptState where
  | unknown | planned | reserved | journaled | performed | verified | committed | aborted
  | ambiguous | count
  | undeclared (raw : UInt8) (h : 10 ≤ raw.toNat)
  deriving DecidableEq

namespace AttemptState

def toRaw : AttemptState → UInt8
  | undeclared raw _ => raw
  | e => UInt8.ofNat e.ctorIdx

def ofRaw (raw : UInt8) : AttemptState :=
  if h : raw.toNat < 10 then
    [unknown, planned, reserved, journaled, performed, verified, committed, aborted, ambiguous,
     count][raw.toNat]
  else undeclared raw (Nat.le_of_not_lt h)

@[simp] theorem ofRaw_toRaw (e : AttemptState) : ofRaw e.toRaw = e := by
  cases e with
  | undeclared raw h => simp [toRaw, ofRaw, Nat.not_lt.mpr h]
  | _ => rfl

end AttemptState

inductive ThresholdOp where
  | atLeast | atMost
  | undeclared (raw : UInt8) (h : 2 ≤ raw.toNat)
  deriving DecidableEq

namespace ThresholdOp

def toRaw : ThresholdOp → UInt8
  | undeclared raw _ => raw
  | e => UInt8.ofNat e.ctorIdx

def ofRaw (raw : UInt8) : ThresholdOp :=
  if h : raw.toNat < 2 then
    [atLeast, atMost][raw.toNat]
  else undeclared raw (Nat.le_of_not_lt h)

@[simp] theorem ofRaw_toRaw (e : ThresholdOp) : ofRaw e.toRaw = e := by
  cases e with
  | undeclared raw h => simp [toRaw, ofRaw, Nat.not_lt.mpr h]
  | _ => rfl

end ThresholdOp

inductive ContradictionMode where
  | reject | preferHighestPriority | preferNewest
  | undeclared (raw : UInt8) (h : 3 ≤ raw.toNat)
  deriving DecidableEq

namespace ContradictionMode

def toRaw : ContradictionMode → UInt8
  | undeclared raw _ => raw
  | e => UInt8.ofNat e.ctorIdx

def ofRaw (raw : UInt8) : ContradictionMode :=
  if h : raw.toNat < 3 then
    [reject, preferHighestPriority, preferNewest][raw.toNat]
  else undeclared raw (Nat.le_of_not_lt h)

@[simp] theorem ofRaw_toRaw (e : ContradictionMode) : ofRaw e.toRaw = e := by
  cases e with
  | undeclared raw h => simp [toRaw, ofRaw, Nat.not_lt.mpr h]
  | _ => rfl

end ContradictionMode

inductive SuppressionReason where
  | none | nonAuthoritativeState | staleEvidence | missingEvidence | futureEvidence
  | authorityDenied | authorityExpired | generationInvalidated | epochFenced | policyDisabled
  | conflictPresent | parameterOutOfBounds | targetNotPresent | limitExceeded | alreadyActive
  | cancelled
  deriving DecidableEq

/-- The capability bits, by position. -/
inductive Authority where
  | observe | evaluate | planInterventions | reduceAdmissibleBudget | requestRateReduction
  | requestPacing | requestReroute | requestRebalance | requestBackpressure
  | protectCriticalClasses | enterDegradedMode | makeRecoveryPlanEligible | durabilityWrite
  | fence | advanceEpoch | mutatePolicy
  deriving DecidableEq

def authorityBit (a : Authority) : UInt32 := 1 <<< UInt32.ofNat a.ctorIdx

def kAuthorityAllBits : UInt32 := 0x0000FFFF

/-- The capability an intervention needs; `Authority::None` is `none` here. -/
def requiredAuthority : InterventionKind → Option Authority
  | .reduceAdmissibleBudget => some .reduceAdmissibleBudget
  | .requestRateReduction => some .requestRateReduction
  | .requestPacing => some .requestPacing
  | .requestReroute => some .requestReroute
  | .requestRebalance => some .requestRebalance
  | .requestBackpressure => some .requestBackpressure
  | .protectCriticalClasses => some .protectCriticalClasses
  | .enterDegradedMode => some .enterDegradedMode
  | .makeRecoveryPlanEligible => some .makeRecoveryPlanEligible
  | .none | .count | .undeclared _ _ => none

end CongestionFabric
