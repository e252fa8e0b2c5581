import CongestionFabric.Core.Result

namespace CongestionFabric

abbrev Bytes := List UInt8

namespace limits

def kMaxU64 : UInt64 := 0xFFFFFFFFFFFFFFFF

def kMaxDomains : Nat := 65536
def kMaxResourcesPerFabric : Nat := 4194304
def kMaxResourcesPerDomain : Nat := 1048576
def kMaxResourceDepth : UInt32 := 64
def kMaxLinksPerTopology : Nat := 4194304
def kMaxPathsPerTopology : Nat := 1048576
def kMaxResourcesPerPath : Nat := 4096

def kMaxMetricReadings : Nat := 64
def kMaxEvidencePerBatch : Nat := 65536
def kMaxPublishers : Nat := 4096
def kMaxContradictionPeers : Nat := 64

def kMaxThresholdRules : Nat := 128
def kMaxInterventionRules : Nat := 64
def kMaxHysteresisSamples : UInt32 := 1048576
def kMaxDwellTicks : UInt64 := 1099511627776

def kMaxExplanationEntries : Nat := 4096
def kMaxPropagationEdges : Nat := 1048576
def kMaxInterventionsPerPlan : Nat := 1024
def kMaxInterventionHistory : Nat := 65536

def kMaxJournalRecordBytes : Nat := 4194304
def kMaxJournalBytes : Nat := 17179869184
def kMaxSnapshotBytes : Nat := 2147483648
def kMaxDurableHistoryEntries : Nat := 16777216

end limits

def saturatingAdd (a b : UInt64) : UInt64 :=
  if a > limits.kMaxU64 - b then limits.kMaxU64 else a + b

def saturatingMul (a b : UInt64) : UInt64 :=
  if a = 0 ∨ b = 0 then 0
  else if a > limits.kMaxU64 / b then limits.kMaxU64
  else a * b

def applyPpm (magnitude : UInt64) (ppm : UInt32) : UInt64 :=
  let whole := magnitude / 1000000
  let rem := magnitude % 1000000
  saturatingAdd (saturatingMul whole ppm.toUInt64) ((rem * ppm.toUInt64) / 1000000)

abbrev Tick := UInt64

def kNoTick : Tick := 0

structure TickAge where
  age : Tick := kNoTick
  fromFuture : Bool := false
  deriving DecidableEq

def tickAge (now observed : Tick) : TickAge :=
  if observed > now then ⟨observed - now, true⟩ else ⟨now - observed, false⟩

end CongestionFabric
