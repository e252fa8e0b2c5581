import CongestionFabric.Fabric.State

namespace CongestionFabric

namespace Fabric

/-! ### Configuration -/

/-- An authoritative domain has to be revalidated after an authority change. -/
def flagDomain (s : DomainState) : DomainState :=
  if isAuthoritative s.state then { s with requiresRevalidation := true } else s

def invalidateGenerations (f : Fabric) : Fabric :=
  { f with
    authorityGeneration := ⟨f.authorityGeneration.value + 1⟩
    intents := ∅
    domains := f.domains.mapVal fun _ s => flagDomain s }

/-- A fabric in memory, and the calls that make it durable. -/
structure Staged where
  fabric : Fabric
  calls : List StoreCall

/-- The staged change is made first and persisted after. -/
def enact (f : Fabric) (staged : Result Staged) (kind : ProvenanceKind) : Fabric × VoidResult :=
  f.checked staged fun s =>
    s.fabric.durably (s.fabric.makeStamp kind) s.calls fun f => (f, succeed)

def stagePolicy (f : Fabric) (policy : CongestionPolicy) : Result Staged := do
  let policy ← validatePolicy policy
  f.ensureOpen
  refuseIf (policy.version < f.policy.version) .policyRejected
    "policy version would move backwards"
  return ⟨{ f with policy, hasPolicy := true }.invalidateGenerations, [.setPolicy policy]⟩

def setPolicy (f : Fabric) (policy : CongestionPolicy) : Fabric × VoidResult :=
  f.enact (f.stagePolicy policy) .localPolicy

def stageTopology (f : Fabric) (topology : TopologySnapshot) : Result Staged := do
  let index ← TopologyIndex.build topology
  f.ensureOpen
  return ⟨{ f with topology := some index }.invalidateGenerations, [.setTopology index.snapshot]⟩

def setTopology (f : Fabric) (topology : TopologySnapshot) : Fabric × VoidResult :=
  f.enact (f.stageTopology topology) .localPolicy

def stageCapacity (f : Fabric) (capacity : CapacitySnapshot) : Result Staged := do
  validateCapacity capacity
  f.ensureOpen
  return ⟨{ f with capacity := some capacity }, [.setCapacity capacity]⟩

def setCapacity (f : Fabric) (capacity : CapacitySnapshot) : Fabric × VoidResult :=
  f.enact (f.stageCapacity capacity) .localPolicy

/-! ### Publishers -/

def registrationOf (f : Fabric) (publisher : PublisherId) (boot : BootId)
    (requested : AuthoritySet) : PublisherRegistration where
  publisher
  boot
  epoch := f.epoch
  registeredTick := f.clock
  lastSeenTick := f.clock
  granted := ⟨requested.bits &&& kAuthorityAllBits &&& ~~~f.options.localDenied.bits⟩
  alive := true
  provenance := computeProvenanceId .remotePublisher publisher boot f.epoch f.clock

def admitPublisher (f : Fabric) (publisher : PublisherId) (boot : BootId) : VoidResult := do
  refuseIf (¬publisher.valid ∨ ¬boot.valid) .invalidArgument
    "publisher registration needs both identities"
  f.ensureOpen
  refuseIf (f.isFenced publisher boot) .fenced
    "publisher incarnation is fenced and cannot re-register"
  refuseIf (f.publishers.size ≥ f.options.maxPublishers ∧ ¬f.publishers.contains publisher)
    .limitExceeded "publisher count is at its bound"

def registerPublisher (f : Fabric) (publisher : PublisherId) (boot : BootId)
    (requested : AuthoritySet) : Fabric × Result PublisherRegistration :=
  f.checked (f.admitPublisher publisher boot) fun _ =>
    let registration := f.registrationOf publisher boot requested
    ({ f with publishers := f.publishers.insert publisher registration }, .ok registration)

/-- The registration of exactly this incarnation. -/
def registered (f : Fabric) (publisher : PublisherId) (boot : BootId) :
    Option PublisherRegistration :=
  (f.publishers.find? publisher).filter (·.boot = boot)

def lookupPublisher (f : Fabric) (publisher : PublisherId) (boot : BootId) :
    Result PublisherRegistration :=
  match f.registered publisher boot with
  | none => fail .notFound "publisher incarnation is not registered"
  | some registration => .ok registration

def heartbeat (f : Fabric) (publisher : PublisherId) (boot : BootId) : Fabric × VoidResult :=
  f.checked (do f.ensureOpen; f.lookupPublisher publisher boot) fun registration =>
    ({ f with
        publishers := f.publishers.insert publisher
          { registration with lastSeenTick := f.clock, alive := true } }, succeed)

def forgetPublisher (f : Fabric) (publisher : PublisherId) (boot : BootId) : Fabric :=
  if (f.registered publisher boot).isSome then
    { f with publishers := f.publishers.erase publisher }
  else f

/-- Drop what a fenced incarnation has in the window. -/
def dropEvidence (f : Fabric) (publisher : PublisherId) (boot : BootId) : Fabric :=
  { f with
    evidence := f.evidence.filter fun _ sample =>
      !(sample.publisher = publisher && sample.publisherBoot = boot) }

def sealFence (record : FenceRecord) : FenceRecord := { record with id := computeFenceId record }

def fenceRecordOf (f : Fabric) (publisher : PublisherId) (boot : BootId) (reason : FenceReason)
    (detail : Bytes) : FenceRecord :=
  sealFence {
    epoch := f.epoch, publisher, boot, reason, detail
    lastGeneration := ((f.registered publisher boot).map (·.lastGeneration)).getD {}
    issuedTick := f.clock
    provenance := computeProvenanceId .fence publisher boot f.epoch f.clock }

/-- The memory half of fencing. -/
def fenced (f : Fabric) (record : FenceRecord) : Fabric :=
  ((f.forgetPublisher record.publisher record.boot).noteFence record).dropEvidence
    record.publisher record.boot

def stageFence (f : Fabric) (publisher : PublisherId) (boot : BootId) (reason : FenceReason)
    (detail : Bytes) : Result Staged := do
  refuseIf (¬publisher.valid ∨ ¬boot.valid) .invalidArgument
    "fencing needs both publisher and boot identities"
  let record := f.fenceRecordOf publisher boot reason detail
  return ⟨f.fenced record, [.appendFence record]⟩

def fencePublisher (f : Fabric) (publisher : PublisherId) (boot : BootId) (reason : FenceReason)
    (detail : Bytes) : Fabric × Result FenceRecord :=
  let (f', result) := f.enact (do f.ensureOpen; f.stageFence publisher boot reason detail) .fence
  (f', result.map fun _ => f.fenceRecordOf publisher boot reason detail)

def unregisterPublisher (f : Fabric) (publisher : PublisherId) (boot : BootId)
    (reason : FenceReason) (detail : Bytes) : Fabric × VoidResult :=
  f.checked (do
    f.ensureOpen
    refuseIf (reason = .coordinatorRestart) .invalidArgument
      "coordinator restart is not a publisher unregister reason") fun _ =>
    if reason = .none then (f.forgetPublisher publisher boot, succeed)
    else
      let (f, result) := f.fencePublisher publisher boot reason detail
      (f, result.map fun _ => ())

/-! ### Epoch -/

/-- The fence an epoch advance puts on a registered incarnation, under the epoch that ends. -/
def epochFence (f : Fabric) (reason : FenceReason)
    (entry : PublisherId × PublisherRegistration) : FenceRecord :=
  sealFence {
    epoch := f.epoch, publisher := entry.1, boot := entry.2.boot, reason
    lastGeneration := entry.2.lastGeneration
    issuedTick := f.clock
    provenance := computeProvenanceId .epochAdvance entry.1 entry.2.boot f.epoch f.clock
    detail := text "epoch advanced; the incarnation must re-register" }

def demoteDomain (epoch : EpochId) (generation : AuthorityGeneration) (s : DomainState) :
    DomainState :=
  { s with
    state := if isAuthoritative s.state then .stale else s.state
    requiresRevalidation := true
    candidate := .unknown
    candidateStreak := 0
    epoch
    authorityGeneration := generation }

/-- The memory half of an epoch advance. -/
def nextEpoch (f : Fabric) (reason : FenceReason) : Fabric :=
  let epoch : EpochId := ⟨f.epoch.value + 1⟩
  let generation : AuthorityGeneration := ⟨f.authorityGeneration.value + 1⟩
  let records := f.publishers.entries.map (f.epochFence reason)
  records.foldl noteFence { f with
    epoch
    authorityGeneration := generation
    publishers := ∅
    evidence := ∅
    intents := ∅
    domains := f.domains.mapVal fun _ s => demoteDomain epoch generation s }

def epochCalls (f : Fabric) (next : Fabric) (reason : FenceReason) : List StoreCall :=
  .advanceEpoch next.epoch next.boot next.openReport.bootCounter ::
    ((f.publishers.entries.map fun e => .appendFence (f.epochFence reason e)) ++
      next.domains.values.map .putDomainState)

def stageEpoch (f : Fabric) (reason : FenceReason) : Result Staged := do
  f.ensureOpen
  return ⟨f.nextEpoch reason, f.epochCalls (f.nextEpoch reason) reason⟩

def advanceEpoch (f : Fabric) (reason : FenceReason) : Fabric × Result EpochId :=
  let (f', result) := f.enact (f.stageEpoch reason) .epochAdvance
  (f', result.map fun _ => f'.epoch)

end Fabric

end CongestionFabric
