import CongestionFabric.Fabric.Evaluate

namespace CongestionFabric

def deriveBoot (epoch : EpochId) (tick : Tick) (counter : UInt64) : BootId :=
  ⟨(((({} : Hasher).updateU64 epoch.value).updateU64 tick).updateU64 counter).finish.value⟩

namespace Fabric

/-- The epoch and the boot counter that follow those of a document. -/
def nextIncarnation (document : DurableDocument) : EpochId × UInt64 :=
  if document.epoch.valid then
    (⟨document.epoch.value + 1⟩, document.coordinatorBootCounter + 1)
  else (⟨1⟩, 1)

def restoreTopology (document : DurableDocument) : Option TopologyIndex :=
  document.topology.bind fun snapshot => (TopologyIndex.build snapshot).toOption

/-- A fabric over a store, with the policy, topology, capacity and fences of its document. -/
def incarnate (options : FabricOptions) (clock : Tick) (store : Option Store) : Result Fabric :=
  let document := (store.map (·.document)).getD {}
  let (epoch, bootCounter) := nextIncarnation document
  let incarnation := deriveBoot epoch clock bootCounter
  let restored : Fabric := document.fences.foldl noteFence {
    options, clock, store, epoch
    topology := restoreTopology document
    capacity := document.capacity
    boot := incarnation
    authorityGeneration := ⟨epoch.value⟩
    openReport := {
      store := (store.map (·.report)).getD {}
      epoch, boot := incarnation, bootCounter
      fencesRestored := document.fences.length
      policyRestored := document.policy.isSome
      topologyRestored := (restoreTopology document).isSome
      capacityRestored := document.capacity.isSome
      historyEntries := document.history.length
      interventionsRestored := document.interventions.length
      durable := store.isSome } }
  match document.policy with
  | some policy => .ok { restored with policy, hasPolicy := true }
  | none =>
    match validatePolicy makeDefaultPolicy with
    | .error _ => fail .internal "the built-in default policy failed validation"
    | .ok policy => .ok { restored with policy, hasPolicy := true }

/-- The first writes of an incarnation: its policy, unless restored, and its epoch. -/
def bootCalls (f : Fabric) : List StoreCall :=
  (if f.openReport.policyRestored then [] else [.setPolicy f.policy]) ++
    [.advanceEpoch f.epoch f.boot f.openReport.bootCounter]

/-- A restored domain loses its authority and keeps its ticks. -/
def restoreDomain (f : Fabric) (s : DomainState) : DomainState :=
  { s with
    state := demoteAfterRecovery s.state s.lastAuthoritativeTick
    candidate := .unknown
    candidateStreak := 0
    requiresRevalidation := true
    epoch := f.epoch
    authorityGeneration := f.authorityGeneration
    policy := f.policy.id
    policyFingerprint := f.policy.fingerprint }

def revalidationOf (f : Fabric) (stamp : MutationStamp) (s : DomainState) :
    RevalidationRecord where
  domain := s.domain
  previousEpoch := s.epoch
  epoch := f.epoch
  restoredState := s.state
  effectiveState := demoteAfterRecovery s.state s.lastAuthoritativeTick
  stateRestored := true
  recordedTick := f.clock
  provenance := stamp.provenance
  detail := text "restart demotion: telemetry freshness is never restored as current"

def restoreCalls (f : Fabric) (stamp : MutationStamp) (restored : List DomainState) :
    List StoreCall :=
  restored.flatMap fun s =>
    [.putDomainState (f.restoreDomain s), .writeRevalidation (f.revalidationOf stamp s)]

def restoreDomains (f : Fabric) (restored : List DomainState) : Fabric :=
  { f with
    domains := restored.foldl (fun m s => m.insert s.domain (f.restoreDomain s)) f.domains
    openReport := { f.openReport with
      domainsRestored := restored.length
      domainsDemoted := (restored.filter fun s =>
        demoteAfterRecovery s.state s.lastAuthoritativeTick ≠ s.state).length } }

/-- Restore the domains of the document and make the incarnation durable. -/
def restore (f : Fabric) : Result Fabric :=
  match f.store with
  | none => .ok f
  | some store =>
    let stamp := f.makeStamp .coordinatorBoot
    let restored := store.document.domains.values
    match f.persist stamp (f.bootCalls ++ f.restoreCalls stamp restored) with
    | (_, .error status) => .error status
    | (f, .ok _) => .ok (f.restoreDomains restored)

/-- Open a fabric at a tick of its clock, over a directory when it is durable. -/
def openOn (options : FabricOptions) (clock : Tick) (disk : Disk) : Result Fabric := do
  let store ←
    if options.durable then some <$> Store.openDisk disk options.store else pure none
  let f ← incarnate options clock store
  f.restore

end Fabric

end CongestionFabric
