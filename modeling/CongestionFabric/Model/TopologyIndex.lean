import CongestionFabric.Model.Topology

namespace CongestionFabric

/-- The validated snapshot with its adjacency; a slot table and the vector it points into are one
map here. -/
structure TopologyIndex where
  snapshot : TopologySnapshot
  resourceSlot : SortedMap ResourceId ResourceRecord
  pathSlot : SortedMap PathId PathRecord
  outEdges : SortedMap ResourceId (List ResourceId)
  inEdges : SortedMap ResourceId (List ResourceId)
  resourcePathLists : SortedMap ResourceId (List PathId)
  domainResourceLists : SortedMap DomainId (List ResourceId)
  deriving DecidableEq

namespace TopologyIndex

def resource (index : TopologyIndex) (id : ResourceId) : Option ResourceRecord :=
  index.resourceSlot.find? id

def path (index : TopologyIndex) (id : PathId) : Option PathRecord := index.pathSlot.find? id

def contains (index : TopologyIndex) (id : ResourceId) : Bool := (index.resource id).isSome

def successors (index : TopologyIndex) (id : ResourceId) : List ResourceId :=
  index.outEdges.findD id []

def predecessors (index : TopologyIndex) (id : ResourceId) : List ResourceId :=
  index.inEdges.findD id []

def resourcePaths (index : TopologyIndex) (id : ResourceId) : List PathId :=
  index.resourcePathLists.findD id []

def domainResources (index : TopologyIndex) (domain : DomainId) : List ResourceId :=
  index.domainResourceLists.findD domain []

def pushHops (known : ResourceId → Bool) (m : SortedMap ResourceId (List PathId))
    (record : PathRecord) : SortedMap ResourceId (List PathId) :=
  record.hops.foldl (fun m hop => if known hop then m.push hop record.id else m) m

def build (snapshot : TopologySnapshot) : Result TopologyIndex := do
  validateTopology snapshot
  let records := recordsById snapshot.resources
  let paths := snapshot.paths.filter (·.id.valid)
  let outEdges : SortedMap ResourceId (List ResourceId) :=
    snapshot.links.foldl (fun m link => m.push link.fromId link.toId) ∅
  let inEdges : SortedMap ResourceId (List ResourceId) :=
    snapshot.links.foldl (fun m link => m.push link.toId link.fromId) ∅
  let members : SortedMap DomainId (List ResourceId) :=
    snapshot.resources.foldl (fun m record => m.push record.domain record.id) ∅
  return {
    snapshot := { snapshot with paths, fingerprint := fingerprintTopology snapshot }
    resourceSlot := records
    pathSlot := paths.foldl (fun m record => m.insert record.id record) ∅
    outEdges := outEdges.mapVal fun _ => SortedMap.sortedSet
    inEdges := inEdges.mapVal fun _ => SortedMap.sortedSet
    resourcePathLists :=
      (paths.foldl (pushHops records.contains) ∅).mapVal fun _ => SortedMap.sortedSet
    domainResourceLists := members.mapVal fun _ => SortedMap.sortedSet }

/-- The snapshot of an index builds that index. -/
theorem build_again {topology : TopologySnapshot} {index : TopologyIndex}
    (h : build topology = .ok index) : build index.snapshot = .ok index := by
  have hbuilt := h
  obtain ⟨_, hvalid, hindex⟩ := bind_ok.mp h
  have hpaths : topology.paths.filter (·.id.valid) = topology.paths := by
    rw [List.filter_eq_self]
    simp only [validateTopology, bind_ok, refuseIf_ok, exists_const] at hvalid
    obtain ⟨_, _, _, _, _, _, _, _, _, _, hvalid⟩ := hvalid
    exact validatePaths_valid hvalid
  have hsnapshot : index.snapshot =
      { topology with fingerprint := fingerprintTopology topology } := by
    rw [← Except.ok.inj hindex]
    dsimp only
    rw [hpaths]
  rw [hsnapshot, ← hbuilt]
  generalize hprint : fingerprintTopology topology = fingerprint
  unfold build
  rw [validateTopology_with, fingerprintTopology_with, hprint]
end TopologyIndex

end CongestionFabric
