import CongestionFabric.Model.Evidence
import CongestionFabric.Model.State

namespace CongestionFabric

/-- Liveness recorded here is process liveness, not evidence freshness. -/
structure PublisherRegistration where
  publisher : PublisherId := {}
  boot : BootId := {}
  epoch : EpochId := {}
  registeredTick : Tick := kNoTick
  lastSeenTick : Tick := kNoTick
  lastGeneration : EvidenceGeneration := {}
  lastSequence : UInt64 := 0
  granted : AuthoritySet := {}
  alive : Bool := false
  provenance : ProvenanceId := {}
  deriving DecidableEq

structure FenceRecord where
  id : FenceId := {}
  epoch : EpochId := {}
  publisher : PublisherId := {}
  boot : BootId := {}
  lastGeneration : EvidenceGeneration := {}
  reason : FenceReason := .none
  issuedTick : Tick := kNoTick
  provenance : ProvenanceId := {}
  detail : Bytes := []
  deriving DecidableEq

def computeFenceId (record : FenceRecord) : FenceId := Id.run do
  let mut h : Hasher := {}
  h := h.updateU64 record.epoch.value
  h := h.updateU64 record.publisher.value
  h := h.updateU64 record.boot.value
  h := h.updateU8 record.reason.toRaw
  h := h.updateU64 record.issuedTick
  return ⟨h.finish.value⟩

structure RevalidationRecord where
  domain : DomainId := {}
  previousEpoch : EpochId := {}
  epoch : EpochId := {}
  restoredState : CongestionState := .unknown
  effectiveState : CongestionState := .unknown
  stateRestored : Bool := false
  authorityRestored : Bool := false
  freshnessRestored : Bool := false
  recordedTick : Tick := kNoTick
  provenance : ProvenanceId := {}
  detail : Bytes := []
  deriving DecidableEq

end CongestionFabric
