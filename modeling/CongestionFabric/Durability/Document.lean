import CongestionFabric.Model.Evaluation
import CongestionFabric.Model.Fence
import CongestionFabric.Model.PolicyValidation
import CongestionFabric.Model.Topology

namespace CongestionFabric

inductive MutationKind where
  | unknown | policySet | domainState | intervention | fence | epochAdvance | revalidation
  | topologySet | capacitySet | historyAppend | attemptRecord | provenanceAppend | count
  | undeclared (raw : UInt16) (h : 13 ≤ raw.toNat)
  deriving DecidableEq

namespace MutationKind

def toRaw : MutationKind → UInt16
  | undeclared raw _ => raw
  | e => UInt16.ofNat e.ctorIdx

def ofRaw (raw : UInt16) : MutationKind :=
  if h : raw.toNat < 13 then
    [unknown, policySet, domainState, intervention, fence, epochAdvance, revalidation,
     topologySet, capacitySet, historyAppend, attemptRecord, provenanceAppend, count][raw.toNat]
  else undeclared raw (Nat.le_of_not_lt h)

@[simp] theorem ofRaw_toRaw (e : MutationKind) : ofRaw e.toRaw = e := by
  cases e with
  | undeclared raw h => simp [toRaw, ofRaw, Nat.not_lt.mpr h]
  | _ => rfl

/-- A kind a payload may name. -/
def named (kind : MutationKind) : Bool := kind ≠ .unknown && kind ≠ .count

end MutationKind

/-- The authority context a durable mutation is committed under. -/
structure MutationStamp where
  epoch : EpochId := {}
  generation : AuthorityGeneration := {}
  attempt : AttemptId := {}
  provenance : ProvenanceId := {}
  tick : Tick := kNoTick
  deriving DecidableEq

structure HistoryEntry where
  domain : DomainId := {}
  fromState : CongestionState := .unknown
  toState : CongestionState := .unknown
  tick : Tick := kNoTick
  evaluation : EvaluationId := {}
  epoch : EpochId := {}
  reason : Bytes := []
  deriving DecidableEq

structure AttemptRecord where
  attempt : AttemptId := {}
  transaction : TransactionId := {}
  kind : MutationKind := .unknown
  state : AttemptState := .unknown
  epoch : EpochId := {}
  generation : AuthorityGeneration := {}
  recordedTick : Tick := kNoTick
  provenance : ProvenanceId := {}
  detail : Bytes := []
  deriving DecidableEq

/-- The durable document. The vector of domain states, kept in domain order, is a map here. -/
structure DurableDocument where
  epoch : EpochId := {}
  coordinatorBoot : BootId := {}
  coordinatorBootCounter : UInt64 := 0
  authorityGeneration : AuthorityGeneration := {}
  policy : Option CongestionPolicy := none
  topology : Option TopologySnapshot := none
  capacity : Option CapacitySnapshot := none
  domains : SortedMap DomainId DomainState := ∅
  history : List HistoryEntry := []
  interventions : List InterventionRecord := []
  fences : List FenceRecord := []
  attempts : List AttemptRecord := []
  provenance : List Provenance := []
  revalidations : List RevalidationRecord := []
  lastSequence : UInt64 := 0
  mutationCount : UInt64 := 0
  deriving DecidableEq

end CongestionFabric
