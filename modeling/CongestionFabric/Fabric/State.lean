import CongestionFabric.Durability.StoreCall
import CongestionFabric.Eval.Planner

namespace CongestionFabric

/-- The published account of one domain decision. -/
structure Explanation where
  domain : DomainId := {}
  state : CongestionState := .unknown
  previousState : CongestionState := .unknown
  severity : Severity := .clear
  transitioned : Bool := false
  authoritative : Bool := false
  requiresRevalidation : Bool := false
  evaluation : EvaluationId := {}
  epoch : EpochId := {}
  policy : PolicyId := {}
  policyFingerprint : Hash64 := {}
  authority : AuthoritySet := {}
  authorityGeneration : AuthorityGeneration := {}
  topologyGeneration : TopologyGeneration := {}
  capacityGeneration : CapacityGeneration := {}
  evaluatedTick : Tick := kNoTick
  reasonCode : ReasonCode := .steady
  samplesSeen : Nat := 0
  samplesAccepted : Nat := 0
  samplesRejected : Nat := 0
  samplesDuplicate : Nat := 0
  resources : List ResourceAssessment := []
  bindings : List ThresholdBinding := []
  conflicts : List ConflictReport := []
  stale : List StaleReport := []
  propagation : List PropagationEdge := []
  authorized : List InterventionIntent := []
  suppressed : List SuppressedIntervention := []
  truncatedSections : Nat := 0

structure FabricOpenReport where
  store : StoreReplay := {}
  epoch : EpochId := {}
  boot : BootId := {}
  bootCounter : UInt64 := 0
  domainsRestored : Nat := 0
  domainsDemoted : Nat := 0
  fencesRestored : Nat := 0
  policyRestored : Bool := false
  topologyRestored : Bool := false
  capacityRestored : Bool := false
  historyEntries : Nat := 0
  interventionsRestored : Nat := 0
  durable : Bool := false

/-- Configuration of one coordinator; `durable` stands for `persist` with a state directory. -/
structure FabricOptions where
  durable : Bool := false
  store : StoreOptions := {}
  maxPublishers : Nat := limits.kMaxPublishers
  maxEvidenceEntries : Nat := limits.kMaxEvidencePerBatch
  maxActiveInterventions : Nat := limits.kMaxInterventionHistory
  maxExplanations : Nat := 1024
  localAuthority : AuthoritySet := AuthoritySet.all
  localDenied : AuthoritySet := AuthoritySet.none

/-- The key of the current-evidence window. -/
structure WindowKey where
  resource : ResourceId := {}
  queue : QueueId := {}
  publisher : PublisherId := {}
  deriving DecidableEq

namespace WindowKey

def toTriple (k : WindowKey) : ResourceId ×ₗ QueueId ×ₗ PublisherId :=
  toLex (k.resource, toLex (k.queue, k.publisher))

theorem toTriple_injective : Function.Injective toTriple := by
  intro a b h
  cases a; cases b
  simpa [toTriple] using h

instance : LinearOrder WindowKey := LinearOrder.lift' toTriple toTriple_injective

end WindowKey

/-- The coordinator. Operations hold its mutex, so each critical section is one function of this
record; `clock` is what the clock reads inside the section, and a store is there exactly when
the fabric is durable. -/
structure Fabric where
  options : FabricOptions := {}
  clock : Tick := kNoTick
  store : Option Store := none
  topology : Option TopologyIndex := none
  capacity : Option CapacitySnapshot := none
  policy : CongestionPolicy := {}
  hasPolicy : Bool := false
  epoch : EpochId := {}
  boot : BootId := {}
  authorityGeneration : AuthorityGeneration := {}
  domains : SortedMap DomainId DomainState := ∅
  intents : SortedMap DomainId (List InterventionIntent) := ∅
  publishers : SortedMap PublisherId PublisherRegistration := ∅
  fences : SortedMap PublisherId (SortedMap BootId FenceRecord) := ∅
  evidence : SortedMap WindowKey EvidenceSample := ∅
  explanations : SortedMap DomainId Explanation := ∅
  lastOutcomes : SortedMap DomainId EvaluationOutcome := ∅
  openReport : FabricOpenReport := {}
  closed : Bool := false

namespace Fabric

def ensureOpen (f : Fabric) : VoidResult := refuseIf (f.closed = true) .closed "fabric is closed"

def makeStamp (f : Fabric) (kind : ProvenanceKind) : MutationStamp :=
  let provenance := computeProvenanceId kind {} f.boot f.epoch f.clock
  { epoch := f.epoch, generation := f.authorityGeneration, tick := f.clock, provenance
    attempt := ⟨provenance.value⟩ }

def authorityVector (f : Fabric) : AuthorityVector where
  epoch := f.epoch
  generation := f.authorityGeneration
  policy := f.policy.id
  policyFingerprint := f.policy.fingerprint
  coordinatorBoot := f.boot
  granted := f.options.localAuthority
  denied := f.options.localDenied
  issuedTick := f.clock
  provenance := computeProvenanceId .localEvaluation {} f.boot f.epoch f.clock

def isFenced (f : Fabric) (publisher : PublisherId) (boot : BootId) : Bool :=
  (f.fences.findD publisher ∅).contains boot

def noteFence (f : Fabric) (record : FenceRecord) : Fabric :=
  { f with
    fences := f.fences.insert record.publisher
      ((f.fences.findD record.publisher ∅).insert record.boot record) }

/-- The durable half of an operation: nothing without a store, else the calls in order. -/
def persist (f : Fabric) (stamp : MutationStamp) (calls : List StoreCall) : Fabric × VoidResult :=
  match f.store with
  | none => (f, succeed)
  | some store =>
    let (store, result) := store.callAll stamp calls
    ({ f with store := some store }, result)

/-- Go on with what the checks of an operation return, or refuse and leave everything. -/
def checked {α β : Type} (f : Fabric) (check : Result α) (next : α → Fabric × Result β) :
    Fabric × Result β :=
  match check with
  | .error status => (f, .error status)
  | .ok a => next a

/-- Persist, then go on with the fabric that has been persisted. -/
def durably {α : Type} (f : Fabric) (stamp : MutationStamp) (calls : List StoreCall)
    (next : Fabric → Fabric × Result α) : Fabric × Result α :=
  match f.persist stamp calls with
  | (f, .error status) => (f, .error status)
  | (f, .ok _) => next f

end Fabric

end CongestionFabric
