import CongestionFabric.Lib.SortedMap
import CongestionFabric.Core.Hash
import CongestionFabric.Core.StrongId
import CongestionFabric.Model.Enums

namespace CongestionFabric

open limits

/-- The readings of one sample, in strictly increasing order of kind. -/
abbrev MetricSet := SortedMap MetricKind UInt64

namespace MetricSet

def get (m : MetricSet) (kind : MetricKind) : Option UInt64 := m.find? kind

def set (m : MetricSet) (kind : MetricKind) (value : UInt64) : Result MetricSet := do
  validateMetricValue kind value
  refuseIf (m.size ≥ kMaxMetricReadings) .limitExceeded "metric set exceeds the hard reading bound"
  refuseIf (m.contains kind) .duplicate "duplicate metric kind within one sample"
  return m.insert kind value

def fingerprint (m : MetricSet) : Hash64 :=
  (m.entries.foldl (fun h e => (h.updateU16 e.1.toRaw).updateU64 e.2)
    (({} : Hasher).updateSize m.size)).finish

end MetricSet

def kEvidenceFlagHeartbeat : UInt32 := 2
def kEvidenceFlagDegraded : UInt32 := 8

structure EvidenceSample where
  resource : ResourceId := {}
  queue : QueueId := {}
  metrics : MetricSet := ∅
  publisher : PublisherId := {}
  publisherBoot : BootId := {}
  epoch : EpochId := {}
  generation : EvidenceGeneration := {}
  sequence : UInt64 := 0
  observedTick : Tick := kNoTick
  receivedTick : Tick := kNoTick
  provenance : ProvenanceId := {}
  snapshot : EvidenceSnapshotId := {}
  flags : UInt32 := 0
  deriving DecidableEq

namespace EvidenceSample

def isHeartbeat (sample : EvidenceSample) : Bool := sample.flags &&& kEvidenceFlagHeartbeat ≠ 0
def isDegraded (sample : EvidenceSample) : Bool := sample.flags &&& kEvidenceFlagDegraded ≠ 0

end EvidenceSample

def computeSnapshotId (sample : EvidenceSample) : EvidenceSnapshotId := Id.run do
  let mut h : Hasher := {}
  h := h.updateU64 sample.resource.value
  h := h.updateU64 sample.queue.value
  h := h.updateU64 sample.publisher.value
  h := h.updateU64 sample.publisherBoot.value
  h := h.updateU64 sample.epoch.value
  h := h.updateU64 sample.generation.value
  h := h.updateU64 sample.sequence
  h := h.updateU64 sample.observedTick
  h := h.updateU32 sample.flags
  h := h.updateU64 sample.metrics.fingerprint.value
  return ⟨h.finish.value⟩

structure EvidenceBatch where
  id : EvidenceBatchId := {}
  epoch : EpochId := {}
  provenance : ProvenanceId := {}
  submittedTick : Tick := kNoTick
  samples : List EvidenceSample := []
  deriving DecidableEq

def computeBatchId (batch : EvidenceBatch) : EvidenceBatchId :=
  let h := ((({} : Hasher).updateU64 batch.epoch.value).updateU64 batch.provenance.value).updateU64
    batch.submittedTick
  let h := batch.samples.foldl (fun h sample => h.updateU64 sample.snapshot.value)
    (h.updateSize batch.samples.length)
  ⟨h.finish.value⟩

structure Provenance where
  id : ProvenanceId := {}
  kind : ProvenanceKind := .unknown
  publisher : PublisherId := {}
  boot : BootId := {}
  epoch : EpochId := {}
  attempt : AttemptId := {}
  recordedTick : Tick := kNoTick
  wall : Int64 := 0
  note : Bytes := []
  deriving DecidableEq

def computeProvenanceId (kind : ProvenanceKind) (publisher : PublisherId) (boot : BootId)
    (epoch : EpochId) (recordedTick : Tick) : ProvenanceId :=
  let h := (((({} : Hasher).updateU16 kind.toRaw.toUInt16).updateU64 publisher.value).updateU64
    boot.value).updateU64 epoch.value
  ⟨(h.updateU64 recordedTick).finish.value⟩

/-! ### Authority -/

structure AuthoritySet where
  bits : UInt32 := 0
  deriving DecidableEq

namespace AuthoritySet

def none : AuthoritySet := ⟨0⟩
def all : AuthoritySet := ⟨kAuthorityAllBits⟩
def grants (set : AuthoritySet) (value : Authority) : Bool := set.bits &&& authorityBit value ≠ 0

end AuthoritySet

structure AuthorityVector where
  epoch : EpochId := {}
  generation : AuthorityGeneration := {}
  policy : PolicyId := {}
  policyFingerprint : Hash64 := {}
  coordinatorBoot : BootId := {}
  granted : AuthoritySet := {}
  denied : AuthoritySet := {}
  issuedTick : Tick := kNoTick
  expiresTick : Tick := 0
  provenance : ProvenanceId := {}
  deriving DecidableEq

namespace AuthorityVector

def expiredAt (v : AuthorityVector) (now : Tick) : Bool := v.expiresTick ≠ 0 && now > v.expiresTick

end AuthorityVector

structure AuthorityDecision where
  allowed : Bool := false
  reason : SuppressionReason := .none
  detail : String := ""
  deriving DecidableEq

def checkAuthority (vector : AuthorityVector) (now : Tick) (required : Option Authority) :
    AuthorityDecision :=
  match required with
  | none => { reason := .authorityDenied, detail := "intervention class maps to no authority bit" }
  | some required =>
    if !vector.epoch.valid then
      { reason := .epochFenced, detail := "authority vector is not bound to an epoch" }
    else if vector.expiredAt now then
      { reason := .authorityExpired
        detail := "authority vector expired before the decision tick" }
    else if vector.denied.grants required then
      { reason := .authorityDenied, detail := "capability is explicitly withheld" }
    else if !vector.granted.grants required then
      { reason := .authorityDenied, detail := "capability was never granted" }
    else { allowed := true }

end CongestionFabric
