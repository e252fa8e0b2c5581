import CongestionFabric.Core.Hash
import CongestionFabric.Core.StrongId
import CongestionFabric.Model.Enums

namespace CongestionFabric

inductive ResourceCoverage where
  | none | partially | full
  deriving DecidableEq

structure ResourceAssessment where
  resource : ResourceId := {}
  rawSeverity : Severity := .clear
  coverage : ResourceCoverage := .none
  stale : Bool := false
  contradictory : Bool := false
  degradedSource : Bool := false
  samplesConsidered : Nat := 0
  staleSamples : Nat := 0
  futureSamples : Nat := 0
  conflictSamples : Nat := 0
  newestSnapshot : EvidenceSnapshotId := {}
  newestObservedTick : Tick := kNoTick
  deriving DecidableEq

structure DomainState where
  domain : DomainId := {}
  state : CongestionState := .unknown
  candidate : CongestionState := .unknown
  candidateStreak : UInt32 := 0
  lastChangeTick : Tick := kNoTick
  lastAuthoritativeTick : Tick := kNoTick
  lastEvaluatedTick : Tick := kNoTick
  lastEvaluation : EvaluationId := {}
  lastEvidence : EvidenceSnapshotId := {}
  epoch : EpochId := {}
  topologyGeneration : TopologyGeneration := {}
  capacityGeneration : CapacityGeneration := {}
  policy : PolicyId := {}
  policyFingerprint : Hash64 := {}
  authorityGeneration : AuthorityGeneration := {}
  lastCommittedSeverity : Severity := .clear
  transitionCount : UInt64 := 0
  evaluationCount : UInt64 := 0
  requiresRevalidation : Bool := false
  deriving DecidableEq

def DomainState.authoritative (s : DomainState) : Bool :=
  isAuthoritative s.state && !s.requiresRevalidation

end CongestionFabric
