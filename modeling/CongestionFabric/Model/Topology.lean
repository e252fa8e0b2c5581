import CongestionFabric.Lib.SortedMap
import CongestionFabric.Core.Hash
import CongestionFabric.Core.StrongId
import CongestionFabric.Model.Enums

namespace CongestionFabric

open limits

structure ResourceRecord where
  id : ResourceId := {}
  domain : DomainId := {}
  parent : ResourceId := {}
  servingClass : ClassId := {}
  kind : ResourceKind := .unknown
  depth : UInt32 := 0
  nominalCapacityBps : UInt64 := 0
  flags : UInt32 := 0
  deriving DecidableEq

structure LinkRecord where
  id : LinkId := {}
  fromId : ResourceId := {}
  toId : ResourceId := {}
  capacityBps : UInt64 := 0
  latencyMicros : UInt64 := 0
  weight : UInt32 := 1
  deriving DecidableEq

structure PathRecord where
  id : PathId := {}
  hops : List ResourceId := []
  capacityBps : UInt64 := 0
  flags : UInt32 := 0
  deriving DecidableEq

structure TopologySnapshot where
  id : TopologyId := {}
  generation : TopologyGeneration := {}
  epoch : EpochId := {}
  observedTick : Tick := kNoTick
  resources : List ResourceRecord := []
  links : List LinkRecord := []
  paths : List PathRecord := []
  fingerprint : Hash64 := {}
  deriving DecidableEq

structure CapacityEntry where
  resource : ResourceId := {}
  capacityBps : UInt64 := 0
  residualBps : UInt64 := 0
  admissibleBps : UInt64 := 0
  deriving DecidableEq

structure CapacitySnapshot where
  id : CapacitySnapshotId := {}
  generation : CapacityGeneration := {}
  epoch : EpochId := {}
  observedTick : Tick := kNoTick
  entries : List CapacityEntry := []
  fingerprint : Hash64 := {}
  deriving DecidableEq

def hashIds {tag : IdTag} (h : Hasher) (ids : List (StrongId tag)) : Hasher :=
  ids.foldl (fun h id => h.updateU64 id.value) h

def hashResource (h : Hasher) (record : ResourceRecord) : Hasher :=
  (((((((h.updateU64 record.id.value).updateU64 record.domain.value).updateU64
    record.parent.value).updateU64 record.servingClass.value).updateU16
    record.kind.toRaw.toUInt16).updateU32 record.depth).updateU64
    record.nominalCapacityBps).updateU32 record.flags

def hashLink (h : Hasher) (link : LinkRecord) : Hasher :=
  (((((h.updateU64 link.id.value).updateU64 link.fromId.value).updateU64
    link.toId.value).updateU64 link.capacityBps).updateU64 link.latencyMicros).updateU32 link.weight

def hashPath (h : Hasher) (path : PathRecord) : Hasher :=
  hashIds ((((h.updateU64 path.id.value).updateU64 path.capacityBps).updateU32
    path.flags).updateSize path.hops.length) path.hops

def fingerprintTopology (snapshot : TopologySnapshot) : Hash64 := Id.run do
  let mut h : Hasher := {}
  h := h.updateU64 snapshot.id.value
  h := h.updateU64 snapshot.generation.value
  h := h.updateU64 snapshot.epoch.value
  h := snapshot.resources.foldl hashResource (h.updateSize snapshot.resources.length)
  h := snapshot.links.foldl hashLink (h.updateSize snapshot.links.length)
  h := snapshot.paths.foldl hashPath (h.updateSize snapshot.paths.length)
  return h.finish

def idText (label : String) (value : UInt64) : String := label ++ " " ++ toHex value

def validateResources (seen : List ResourceId) : List ResourceRecord → VoidResult
  | [] => succeed
  | record :: rest => do
    refuseIf (¬record.id.valid) .invalidArgument "resource id is the null identity"
    refuseIf (¬record.domain.valid) .invalidArgument "resource has no congestion domain"
    refuseIf (record.depth > kMaxResourceDepth) .limitExceeded
      "resource depth exceeds the hard bound"
    refuseIf (record.nominalCapacityBps > metricPlausibleMax .linkCapacityBps) .outOfRange
      "resource nominal capacity is outside the plausible range"
    refuseIf (record.id ∈ seen) .duplicate (idText "duplicate resource id" record.id.value)
    validateResources (record.id :: seen) rest

/-- Climb the containment parents of `self`; `remaining` parents may still be passed. -/
def containmentWalk (byId : SortedMap ResourceId ResourceRecord) (self : ResourceId) :
    Nat → ResourceId → VoidResult
  | remaining, cursor =>
    if ¬cursor.valid then succeed
    else match byId.find? cursor with
      | none => fail .notFound (idText "containment parent is not a known resource" cursor.value)
      | some found =>
        if found.id = self then fail .invalidArgument "containment forest contains a cycle"
        else match remaining with
          | 0 => fail .limitExceeded "containment forest is deeper than the hard bound"
          | remaining + 1 => containmentWalk byId self remaining found.parent

def validateContainment (byId : SortedMap ResourceId ResourceRecord) :
    List ResourceRecord → VoidResult
  | [] => succeed
  | record :: rest => do
    refuseIf (record.parent.valid ∧ record.parent = record.id) .invalidArgument
      "resource is its own containment parent"
    containmentWalk byId record.id kMaxResourceDepth.toNat record.parent
    validateContainment byId rest

def validateLinks (known : ResourceId → Bool) (seen : List LinkId) : List LinkRecord → VoidResult
  | [] => succeed
  | link :: rest => do
    refuseIf (¬link.fromId.valid ∨ ¬link.toId.valid) .invalidArgument
      "link endpoint is the null identity"
    refuseIf (¬known link.fromId) .notFound
      (idText "link source is not a known resource" link.fromId.value)
    refuseIf (¬known link.toId) .notFound
      (idText "link destination is not a known resource" link.toId.value)
    refuseIf (link.capacityBps > metricPlausibleMax .linkCapacityBps) .outOfRange
      "link capacity is outside the plausible range"
    refuseIf (link.latencyMicros > metricPlausibleMax .latencyMicros) .outOfRange
      "link latency is outside the plausible range"
    refuseIf (link.id.valid ∧ link.id ∈ seen) .duplicate
      (idText "duplicate link id" link.id.value)
    validateLinks known (if link.id.valid then link.id :: seen else seen) rest

def validateHops (known : ResourceId → Bool) : List ResourceId → VoidResult
  | [] => succeed
  | hop :: rest => do
    refuseIf (¬known hop) .notFound (idText "path hop is not a known resource" hop.value)
    validateHops known rest

def validatePaths (known : ResourceId → Bool) (seen : List PathId) : List PathRecord → VoidResult
  | [] => succeed
  | path :: rest => do
    refuseIf (¬path.id.valid) .invalidArgument "path id is the null identity"
    refuseIf (path.id ∈ seen) .duplicate (idText "duplicate path id" path.id.value)
    refuseIf (path.hops = []) .invalidArgument "path carries no hops"
    refuseIf (path.hops.length > kMaxResourcesPerPath) .limitExceeded
      "path exceeds the hop bound"
    refuseIf (path.capacityBps > metricPlausibleMax .pathCapacityBps) .outOfRange
      "path capacity is outside the plausible range"
    validateHops known path.hops
    validatePaths known (path.id :: seen) rest

def recordsById (resources : List ResourceRecord) : SortedMap ResourceId ResourceRecord :=
  resources.foldl (fun m record => m.insert record.id record) ∅

def validateTopology (snapshot : TopologySnapshot) : VoidResult := do
  refuseIf (snapshot.resources.length > kMaxResourcesPerFabric) .limitExceeded
    "topology exceeds the resource bound"
  refuseIf (snapshot.links.length > kMaxLinksPerTopology) .limitExceeded
    "topology exceeds the link bound"
  refuseIf (snapshot.paths.length > kMaxPathsPerTopology) .limitExceeded
    "topology exceeds the path bound"
  refuseIf (snapshot.resources = []) .invalidArgument "topology has no resources"
  validateResources [] snapshot.resources
  let byId := recordsById snapshot.resources
  validateContainment byId snapshot.resources
  validateLinks byId.contains [] snapshot.links
  validatePaths byId.contains [] snapshot.paths

theorem fingerprintTopology_with (topology : TopologySnapshot) (fingerprint : Hash64) :
    fingerprintTopology { topology with fingerprint } = fingerprintTopology topology := rfl

theorem validatePaths_valid {known : ResourceId → Bool} {seen : List PathId}
    {paths : List PathRecord} (h : validatePaths known seen paths = .ok ()) :
    ∀ path ∈ paths, path.id.valid = true := by
  induction paths generalizing seen with
  | nil => simp
  | cons path rest ih =>
    simp only [validatePaths, bind_ok, refuseIf_ok, exists_const] at h
    obtain ⟨hvalid, _, _, _, _, _, _, hrest⟩ := h
    intro p hp
    rcases List.mem_cons.mp hp with rfl | hp
    · simpa using hvalid
    · exact ih hrest p hp

theorem validateTopology_with (topology : TopologySnapshot) (fingerprint : Hash64) :
    validateTopology { topology with fingerprint } = validateTopology topology := rfl

def validateEntries : List CapacityEntry → VoidResult
  | [] => succeed
  | entry :: rest => do
    refuseIf (¬entry.resource.valid) .invalidArgument
      "capacity entry has the null resource identity"
    refuseIf (entry.capacityBps > metricPlausibleMax .linkCapacityBps) .outOfRange
      "capacity entry capacity is outside the plausible range"
    refuseIf (entry.residualBps > entry.capacityBps) .outOfRange
      "residual capacity exceeds link capacity"
    refuseIf (entry.admissibleBps > entry.capacityBps) .outOfRange
      "admissible rate exceeds link capacity"
    validateEntries rest

def validateCapacity (snapshot : CapacitySnapshot) : VoidResult := do
  refuseIf (snapshot.entries.length > kMaxResourcesPerFabric) .limitExceeded
    "capacity snapshot exceeds the entry bound"
  refuseIf (¬(snapshot.entries.map (·.resource)).IsChain (· < ·)) .invalidArgument
    "capacity entries must be strictly ordered by resource"
  validateEntries snapshot.entries

end CongestionFabric
