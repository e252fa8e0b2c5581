import CongestionFabric.Lib.SlotTable
import CongestionFabric.Model.Adjacency
import CongestionFabric.Model.Containment

namespace CongestionFabric

open SlotTable

/-- The index as it is kept: every record has a slot, and each table has one list for each slot. -/
structure SlotIndex where
  snapshot : TopologySnapshot := {}
  resourceSlot : SortedMap ResourceId Nat := ∅
  pathSlot : SortedMap PathId Nat := ∅
  domainSlot : SortedMap DomainId Nat := ∅
  outEdges : List (List ResourceId) := []
  inEdges : List (List ResourceId) := []
  resourcePathLists : List (List PathId) := []
  domains : List DomainId := []
  domainResourceLists : List (List ResourceId) := []

namespace SlotIndex

def resource (index : SlotIndex) (id : ResourceId) : Option ResourceRecord :=
  recordAt index.resourceSlot index.snapshot.resources id

def path (index : SlotIndex) (id : PathId) : Option PathRecord :=
  recordAt index.pathSlot index.snapshot.paths id

def successors (index : SlotIndex) (id : ResourceId) : List ResourceId :=
  listAt index.resourceSlot index.outEdges id

def predecessors (index : SlotIndex) (id : ResourceId) : List ResourceId :=
  listAt index.resourceSlot index.inEdges id

def resourcePaths (index : SlotIndex) (id : ResourceId) : List PathId :=
  listAt index.resourceSlot index.resourcePathLists id

def domainResources (index : SlotIndex) (domain : DomainId) : List ResourceId :=
  listAt index.domainSlot index.domainResourceLists domain

/-- The two tables after the links; nothing where a link leads to a resource without a slot, which
the lookup would throw on. -/
def pushLinks (slots : SortedMap ResourceId Nat) :
    List LinkRecord → List (List ResourceId) × List (List ResourceId) →
      Option (List (List ResourceId) × List (List ResourceId))
  | [], tables => some tables
  | link :: rest, (outEdges, inEdges) => do
    let fromSlot ← slots.find? link.fromId
    let toSlot ← slots.find? link.toId
    pushLinks slots rest (pushAt outEdges fromSlot link.toId, pushAt inEdges toSlot link.fromId)

def pushHops (slots : SortedMap ResourceId Nat) (table : List (List PathId))
    (record : PathRecord) : List (List PathId) :=
  record.hops.foldl (fun table hop => pushKnown slots table hop record.id) table

/-- The index of a snapshot, or why it is refused; nothing where an exception leaves the call. -/
def build (snapshot : TopologySnapshot) : Option (Result SlotIndex) :=
  match validateTopology snapshot with
  | .error status => some (.error status)
  | .ok () => do
    let resourceSlot := slotsFrom 0 ∅ (snapshot.resources.map (·.id))
    let table := List.replicate snapshot.resources.length []
    let (outEdges, inEdges) ← pushLinks resourceSlot snapshot.links (table, table)
    let paths := snapshot.paths.filter (·.id.valid)
    let hops := paths.foldl (pushHops resourceSlot)
      (List.replicate snapshot.resources.length ([] : List PathId))
    let groups := snapshot.resources.foldl (fun (g : Groups DomainId ResourceId) record =>
      g.add record.domain record.id) {}
    return .ok {
      snapshot := { snapshot with paths, fingerprint := fingerprintTopology snapshot }
      resourceSlot
      pathSlot := slotsFrom 0 ∅ (paths.map (·.id))
      domainSlot := groups.slots
      outEdges := outEdges.map fun edges => unique (sort edges)
      inEdges := inEdges.map fun edges => unique (sort edges)
      resourcePathLists := hops.map fun paths => unique (sort paths)
      domains := groups.keys
      domainResourceLists := groups.members.map sort }

theorem pushLinks_known {slots : SortedMap ResourceId Nat} {links : List LinkRecord}
    {outEdges inEdges : List (List ResourceId)}
    (hknown : ∀ link ∈ links, (slots.find? link.fromId).isSome ∧ (slots.find? link.toId).isSome) :
    pushLinks slots links (outEdges, inEdges) = some
      (links.foldl (fun table link => pushKnown slots table link.fromId link.toId) outEdges,
        links.foldl (fun table link => pushKnown slots table link.toId link.fromId) inEdges) := by
  induction links generalizing outEdges inEdges with
  | nil => rfl
  | cons link rest ih =>
    obtain ⟨hfrom, hto⟩ := hknown link List.mem_cons_self
    obtain ⟨fromSlot, hfromSlot⟩ := Option.isSome_iff_exists.mp hfrom
    obtain ⟨toSlot, htoSlot⟩ := Option.isSome_iff_exists.mp hto
    have hout : pushKnown slots outEdges link.fromId link.toId =
        pushAt outEdges fromSlot link.toId := by
      unfold pushKnown
      rw [hfromSlot]
    have hin : pushKnown slots inEdges link.toId link.fromId =
        pushAt inEdges toSlot link.fromId := by
      unfold pushKnown
      rw [htoSlot]
    rw [List.foldl_cons, List.foldl_cons, hout, hin,
      ← ih fun link hlink => hknown link (List.mem_cons_of_mem _ hlink)]
    conv_lhs => unfold pushLinks
    rw [hfromSlot, htoSlot]
    rfl

/-- Every hop of every path, with the path. -/
def hopsOf (paths : List PathRecord) : List (ResourceId × PathId) :=
  paths.flatMap fun record => record.hops.map fun hop => (hop, record.id)

theorem mem_hopsOf {paths : List PathRecord} {hop : ResourceId} {id : PathId} :
    (hop, id) ∈ hopsOf paths ↔ ∃ path ∈ paths, path.id = id ∧ hop ∈ path.hops := by
  unfold hopsOf
  simp only [List.mem_flatMap, List.mem_map, Prod.mk.injEq]
  constructor
  · rintro ⟨path, hpath, hop', hhop, rfl, rfl⟩
    exact ⟨path, hpath, rfl, hhop⟩
  · rintro ⟨path, hpath, rfl, hhop⟩
    exact ⟨path, hpath, hop, hhop, rfl, rfl⟩

theorem foldl_pushHops (slots : SortedMap ResourceId Nat) (paths : List PathRecord)
    (table : List (List PathId)) :
    paths.foldl (pushHops slots) table =
      (hopsOf paths).foldl (fun table hop => pushKnown slots table hop.1 hop.2) table := by
  unfold hopsOf
  induction paths generalizing table with
  | nil => rfl
  | cons path rest ih =>
    rw [List.foldl_cons, ih, List.flatMap_cons, List.foldl_append, List.foldl_map]
    rfl

theorem validatePaths_distinct {known : ResourceId → Bool} {seen : List PathId}
    {paths : List PathRecord} (h : validatePaths known seen paths = .ok ()) :
    (paths.map (·.id)).Nodup := by
  induction paths generalizing seen with
  | nil => exact .nil
  | cons path rest ih =>
    simp only [validatePaths, bind_ok, refuseIf_ok, exists_const] at h
    obtain ⟨_, _, _, _, _, _, _, hrest⟩ := h
    rw [List.map_cons, List.nodup_cons]
    refine ⟨?_, ih hrest⟩
    intro hmem
    obtain ⟨other, hother, heq⟩ := List.mem_map.mp hmem
    exact ((validatePaths_known hrest).1 other hother).1 (heq ▸ List.mem_cons_self)

/-- What the validation of a snapshot promises the tables. -/
structure Indexable (snapshot : TopologySnapshot) : Prop where
  resources : (snapshot.resources.map (·.id)).Nodup
  links : ∀ link ∈ snapshot.links, link.fromId ∈ snapshot.resources.map (·.id) ∧
    link.toId ∈ snapshot.resources.map (·.id)
  paths : (snapshot.paths.map (·.id)).Nodup
  valid : snapshot.paths.filter (·.id.valid) = snapshot.paths
  hops : ∀ path ∈ snapshot.paths, ∀ hop ∈ path.hops, hop ∈ snapshot.resources.map (·.id)

variable {snapshot : TopologySnapshot}

theorem validateTopology_indexable (h : validateTopology snapshot = .ok ()) :
    Indexable snapshot := by
  simp only [validateTopology, bind_ok, refuseIf_ok, exists_const] at h
  obtain ⟨_, _, _, _, _, hresources, _, _, _, hlinks, hpaths⟩ := h
  have hdistinct := (validateResources_distinct hresources).1
  have hknown : ∀ id, (recordsById snapshot.resources).contains id = true →
      id ∈ snapshot.resources.map (·.id) := by
    intro id hcontains
    obtain ⟨record, hfind⟩ := Option.isSome_iff_exists.mp hcontains
    obtain ⟨hrecord, rfl⟩ := (find?_recordsById hdistinct).mp hfind
    exact List.mem_map_of_mem hrecord
  constructor
  · exact hdistinct
  · intro link hlink
    obtain ⟨hfrom, hto⟩ := validateLinks_known hlinks link hlink
    exact ⟨hknown _ hfrom, hknown _ hto⟩
  · exact validatePaths_distinct hpaths
  · exact List.filter_eq_self.mpr (validatePaths_valid hpaths)
  · intro path hpath hop hhop
    exact hknown hop (((validatePaths_known hpaths).1 path hpath).2 hop hhop)

/-- What each lookup of an index returns, in terms of the snapshot. -/
structure Reads (snapshot : TopologySnapshot) (index : SlotIndex) : Prop where
  resource : ∀ id record, index.resource id = some record ↔
    record ∈ snapshot.resources ∧ record.id = id
  path : ∀ id path, index.path id = some path ↔ path ∈ snapshot.paths ∧ path.id = id
  successors : ∀ id, index.successors id =
    unique (sort ((snapshot.links.filter fun link => link.fromId = id).map (·.toId)))
  predecessors : ∀ id, index.predecessors id =
    unique (sort ((snapshot.links.filter fun link => link.toId = id).map (·.fromId)))
  resourcePaths : ∀ id, index.resourcePaths id =
    unique (sort (((hopsOf snapshot.paths).filter fun hop => hop.1 = id).map (·.2)))
  domainResources : ∀ domain, index.domainResources domain =
    sort ((snapshot.resources.filter fun record => record.domain = domain).map (·.id))
  domains : index.domains.Nodup ∧
    ∀ domain, domain ∈ index.domains ↔ ∃ record ∈ snapshot.resources, record.domain = domain

/-- The tables of a snapshot whose links and hops all have slots. -/
def filled (snapshot : TopologySnapshot) (fingerprint : Hash64) : SlotIndex :=
  let resourceSlot := slotsFrom 0 ∅ (snapshot.resources.map (·.id))
  let table := List.replicate (snapshot.resources.map (·.id)).length []
  let groups := snapshot.resources.foldl (fun (g : Groups DomainId ResourceId) record =>
    g.add record.domain record.id) {}
  { snapshot := { snapshot with fingerprint }
    resourceSlot
    pathSlot := slotsFrom 0 ∅ (snapshot.paths.map (·.id))
    domainSlot := groups.slots
    outEdges := (snapshot.links.foldl (fun table link =>
      pushKnown resourceSlot table link.fromId link.toId) table).map fun l => unique (sort l)
    inEdges := (snapshot.links.foldl (fun table link =>
      pushKnown resourceSlot table link.toId link.fromId) table).map fun l => unique (sort l)
    resourcePathLists := ((hopsOf snapshot.paths).foldl (fun table hop =>
      pushKnown resourceSlot table hop.1 hop.2)
      (List.replicate (snapshot.resources.map (·.id)).length [])).map fun l => unique (sort l)
    domains := groups.keys
    domainResourceLists := groups.members.map sort }

theorem build_filled (h : validateTopology snapshot = .ok ()) :
    build snapshot = some (.ok (filled snapshot (fingerprintTopology snapshot))) := by
  have hvalid := validateTopology_indexable h
  have hsome : ∀ id ∈ snapshot.resources.map (·.id),
      ((slotsFrom 0 ∅ (snapshot.resources.map (·.id))).find? id).isSome := by
    intro id hid
    obtain ⟨i, hi⟩ := List.mem_iff_getElem?.mp hid
    rw [(find?_slots hvalid.resources).mpr hi]
    rfl
  have hlinks := fun edges => @pushLinks_known _ snapshot.links edges edges fun link hlink =>
    ⟨hsome _ (hvalid.links link hlink).1, hsome _ (hvalid.links link hlink).2⟩
  unfold build filled
  rw [h]
  simp only [hlinks, hvalid.valid, Option.bind_eq_bind, Option.bind_some, foldl_pushHops,
    List.length_map]
  rfl

theorem filled_reads (hvalid : Indexable snapshot) (fingerprint : Hash64) :
    Reads snapshot (filled snapshot fingerprint) := by
  have hslots : ∀ (k : ResourceId) (i : Nat),
      (slotsFrom 0 ∅ (snapshot.resources.map (·.id))).find? k = some i ↔
        (snapshot.resources.map (·.id))[i]? = some k := fun k i => find?_slots hvalid.resources
  have hgroups := Groups.of_foldl (fun record : ResourceRecord => record.domain)
    (fun record => record.id) snapshot.resources
  constructor
  · intro id record
    unfold resource filled
    dsimp only
    exact recordAt_slots (fun record : ResourceRecord => record.id) hvalid.resources
  · intro id path
    unfold SlotIndex.path filled
    dsimp only
    exact recordAt_slots (fun path : PathRecord => path.id) hvalid.paths
  · intro id
    unfold successors filled
    dsimp only
    exact listAt_pushed hslots (fun link : LinkRecord => link.fromId) (fun link => link.toId)
      (fun link hlink => (hvalid.links link hlink).1) unique_sort_nil id
  · intro id
    unfold predecessors filled
    dsimp only
    exact listAt_pushed hslots (fun link : LinkRecord => link.toId) (fun link => link.fromId)
      (fun link hlink => (hvalid.links link hlink).2) unique_sort_nil id
  · intro id
    unfold resourcePaths filled
    dsimp only
    apply listAt_pushed hslots (fun hop : ResourceId × PathId => hop.1) (fun hop => hop.2) _ unique_sort_nil id
    rintro ⟨hop, path⟩ hmem
    obtain ⟨record, hrecord, _, hhop⟩ := mem_hopsOf.mp hmem
    exact hvalid.hops record hrecord hop hhop
  · intro domain
    unfold domainResources filled
    dsimp only
    rw [hgroups.listAt_finished sort_nil, List.filter_map, List.map_map]
    rfl
  · refine ⟨hgroups.distinct, ?_⟩
    intro domain
    refine (hgroups.keys domain).trans ?_
    simp only [List.mem_map, Prod.mk.injEq]
    constructor
    · rintro ⟨_, record, hrecord, hdomain, _⟩
      exact ⟨record, hrecord, hdomain⟩
    · rintro ⟨record, hrecord, hdomain⟩
      exact ⟨record.id, record, hrecord, hdomain, rfl⟩

/-- The index says of every resource, path and domain what the snapshot says. -/
structure Mirrors (snapshot : TopologySnapshot) (index : SlotIndex) : Prop where
  resource : ∀ id record, index.resource id = some record ↔
    record ∈ snapshot.resources ∧ record.id = id
  path : ∀ id path, index.path id = some path ↔ path ∈ snapshot.paths ∧ path.id = id
  successors_sorted : ∀ id, (index.successors id).Pairwise (· < ·)
  successors : ∀ id next, next ∈ index.successors id ↔
    ∃ link ∈ snapshot.links, link.fromId = id ∧ link.toId = next
  predecessors_sorted : ∀ id, (index.predecessors id).Pairwise (· < ·)
  predecessors : ∀ id previous, previous ∈ index.predecessors id ↔
    ∃ link ∈ snapshot.links, link.toId = id ∧ link.fromId = previous
  paths_sorted : ∀ id, (index.resourcePaths id).Pairwise (· < ·)
  paths : ∀ id path, path ∈ index.resourcePaths id ↔
    ∃ record ∈ snapshot.paths, record.id = path ∧ id ∈ record.hops
  domains_sorted : ∀ domain, (index.domainResources domain).Pairwise (· < ·)
  domains : ∀ domain id, id ∈ index.domainResources domain ↔
    ∃ record ∈ snapshot.resources, record.id = id ∧ record.domain = domain
  disjoint : ∀ domain domain', domain ≠ domain' →
    List.Disjoint (index.domainResources domain) (index.domainResources domain')
  covered : (index.domains.flatMap index.domainResources).Perm (snapshot.resources.map (·.id))

variable {index : SlotIndex}

theorem Reads.domains_mem (h : Reads snapshot index) (domain : DomainId) (id : ResourceId) :
    id ∈ index.domainResources domain ↔
      ∃ record ∈ snapshot.resources, record.id = id ∧ record.domain = domain := by
  rw [h.domainResources, mem_sort, List.mem_map]
  constructor
  · rintro ⟨record, hrecord, rfl⟩
    obtain ⟨hmem, hdomain⟩ := List.mem_filter.mp hrecord
    exact ⟨record, hmem, rfl, of_decide_eq_true hdomain⟩
  · rintro ⟨record, hmem, rfl, hdomain⟩
    exact ⟨record, List.mem_filter.mpr ⟨hmem, decide_eq_true hdomain⟩, rfl⟩

theorem Reads.domains_disjoint (h : Reads snapshot index) (hvalid : Indexable snapshot)
    {domain domain' : DomainId} (hne : domain ≠ domain') :
    List.Disjoint (index.domainResources domain) (index.domainResources domain') := by
  intro id hid hid'
  obtain ⟨record, hrecord, rfl, hdomain⟩ := (h.domains_mem domain id).mp hid
  obtain ⟨other, hother, hsame, hdomain'⟩ := (h.domains_mem domain' _).mp hid'
  obtain rfl := List.inj_on_of_nodup_map hvalid.resources hother hrecord hsame
  exact hne (hdomain.symm.trans hdomain')

theorem Reads.domains_strict (h : Reads snapshot index) (hvalid : Indexable snapshot)
    (domain : DomainId) : (index.domainResources domain).Pairwise (· < ·) := by
  rw [h.domainResources]
  apply sort_strict
  exact hvalid.resources.sublist (List.filter_sublist.map _)

/-- The domains share out the resources. -/
theorem Reads.domains_cover (h : Reads snapshot index) (hvalid : Indexable snapshot) :
    (index.domains.flatMap index.domainResources).Perm (snapshot.resources.map (·.id)) := by
  have hnodup : (index.domains.flatMap index.domainResources).Nodup := by
    rw [List.nodup_flatMap]
    refine ⟨fun domain _ => (h.domains_strict hvalid domain).imp ne_of_lt, ?_⟩
    exact h.domains.1.imp fun hne => h.domains_disjoint hvalid hne
  refine (List.perm_ext_iff_of_nodup hnodup hvalid.resources).mpr fun id => ?_
  rw [List.mem_flatMap, List.mem_map]
  constructor
  · rintro ⟨domain, _, hid⟩
    obtain ⟨record, hrecord, hid, _⟩ := (h.domains_mem domain id).mp hid
    exact ⟨record, hrecord, hid⟩
  · rintro ⟨record, hrecord, hid⟩
    have hdomain := (h.domains.2 record.domain).mpr ⟨record, hrecord, rfl⟩
    exact ⟨record.domain, hdomain, (h.domains_mem _ id).mpr ⟨record, hrecord, hid, rfl⟩⟩

theorem Reads.mirrors (h : Reads snapshot index) (hvalid : Indexable snapshot) :
    Mirrors snapshot index := by
  constructor
  · exact h.resource
  · exact h.path
  · intro id
    rw [h.successors]
    exact unique_sort_strict _
  · intro id next
    rw [h.successors, mem_unique_sort]
    simp [and_assoc]
  · intro id
    rw [h.predecessors]
    exact unique_sort_strict _
  · intro id previous
    rw [h.predecessors, mem_unique_sort]
    simp [and_assoc]
  · intro id
    rw [h.resourcePaths]
    exact unique_sort_strict _
  · intro id path
    rw [h.resourcePaths, mem_unique_sort, List.mem_map, ← mem_hopsOf]
    constructor
    · rintro ⟨⟨hop, _⟩, hmem, rfl⟩
      obtain ⟨hmem, hhop⟩ := List.mem_filter.mp hmem
      rwa [← of_decide_eq_true hhop]
    · intro hmem
      exact ⟨(id, path), List.mem_filter.mpr ⟨hmem, decide_eq_true rfl⟩, rfl⟩
  · exact h.domains_strict hvalid
  · exact h.domains_mem
  · exact fun domain domain' hne => h.domains_disjoint hvalid hne
  · exact h.domains_cover hvalid

/-- A snapshot that is accepted is indexed, and its index is the snapshot. -/
theorem build_mirrors (h : validateTopology snapshot = .ok ()) :
    ∃ index, build snapshot = some (.ok index) ∧ Mirrors snapshot index := by
  have hvalid := validateTopology_indexable h
  exact ⟨_, build_filled h, (filled_reads hvalid _).mirrors hvalid⟩

/-- Two resources of two domains, two links in parallel and a path that turns back. -/
def parallelLinks : TopologySnapshot :=
  { id := ⟨1⟩, generation := ⟨1⟩, epoch := ⟨1⟩
    resources := [{ id := ⟨2⟩, domain := ⟨1⟩ }, { id := ⟨1⟩, domain := ⟨2⟩ }]
    links := [{ id := ⟨1⟩, fromId := ⟨2⟩, toId := ⟨1⟩ }, { id := ⟨2⟩, fromId := ⟨2⟩, toId := ⟨1⟩ }]
    paths := [{ id := ⟨1⟩, hops := [⟨2⟩, ⟨1⟩, ⟨2⟩] }] }

theorem build_mirrors_parallel :
    ∃ index, build parallelLinks = some (.ok index) ∧ Mirrors parallelLinks index :=
  build_mirrors (by decide +kernel)

/-- Sorting each list of a map leaves every lookup in order. -/
theorem findD_sortedSet_strict {κ α : Type} [LinearOrder κ] [LinearOrder α]
    (m : SortedMap κ (List α)) (k : κ) :
    ((m.mapVal fun _ => SortedMap.sortedSet).findD k []).Pairwise (· < ·) := by
  unfold SortedMap.findD
  rw [SortedMap.find?_mapVal]
  cases m.find? k with
  | none => exact .nil
  | some l =>
    show (SortedMap.sortedSet l).Pairwise (· < ·)
    rw [sortedSet_eq]
    exact unique_sort_strict l

/-- Lists kept in order under their keys hold what was pushed there. -/
theorem mem_findD_pushed {κ α β : Type} [LinearOrder κ] [LinearOrder α] (key : β → κ)
    (value : β → α) (l : List β) {k : κ} {a : α} :
    a ∈ ((l.foldl (fun m b => m.push (key b) (value b)) (∅ : SortedMap κ (List α))).mapVal
      fun _ => SortedMap.sortedSet).findD k [] ↔ ∃ b ∈ l, key b = k ∧ value b = a := by
  rw [SortedMap.mem_findD_sortedSet, SortedMap.findD_foldl_push key value]
  show a ∈ [] ++ _ ↔ _
  simp [and_assoc]

/-- The index with maps for its tables answers as the one with slots. -/
theorem build_agrees {merged : TopologyIndex} (h : TopologyIndex.build snapshot = .ok merged) :
    ∃ index, build snapshot = some (.ok index) ∧ merged.snapshot = index.snapshot ∧
      merged.resource = index.resource ∧ merged.path = index.path ∧
      merged.successors = index.successors ∧ merged.predecessors = index.predecessors ∧
      merged.resourcePaths = index.resourcePaths ∧
      merged.domainResources = index.domainResources := by
  have hadjacent := TopologyIndex.build_adjacent h
  obtain ⟨_, haccepted, hmerged⟩ := bind_ok.mp h
  have hvalid := validateTopology_indexable haccepted
  have hmirrors := (filled_reads hvalid (fingerprintTopology snapshot)).mirrors hvalid
  have hmerged := (Except.ok.inj hmerged).symm
  rw [hvalid.valid] at hmerged
  refine ⟨_, build_filled haccepted, ?_, ?_, ?_, ?_, ?_, ?_, ?_⟩
  · rw [hmerged]
    rfl
  · funext id
    apply Option.ext
    intro record
    rw [hmirrors.resource, hmerged]
    exact find?_recordsById hvalid.resources
  · funext id
    apply Option.ext
    intro path
    rw [hmirrors.path]
    exact hadjacent.path id path
  · funext id
    refine strict_ext ?_ (hmirrors.successors_sorted id) fun next => ?_
    · rw [hmerged]
      exact findD_sortedSet_strict _ id
    · rw [hmirrors.successors]
      exact hadjacent.successors id next
  · funext id
    refine strict_ext ?_ (hmirrors.predecessors_sorted id) fun previous => ?_
    · rw [hmerged]
      exact findD_sortedSet_strict _ id
    · rw [hmirrors.predecessors, hmerged]
      exact mem_findD_pushed (fun link : LinkRecord => link.toId) (fun link => link.fromId) _
  · funext id
    refine strict_ext ?_ (hmirrors.paths_sorted id) fun path => ?_
    · rw [hmerged]
      exact findD_sortedSet_strict _ id
    · rw [hmirrors.paths]
      exact hadjacent.resourcePaths id path
  · funext domain
    refine strict_ext ?_ (hmirrors.domains_sorted domain) fun id => ?_
    · rw [hmerged]
      exact findD_sortedSet_strict _ domain
    · rw [hmirrors.domains, hmerged]
      refine (mem_findD_pushed (fun record : ResourceRecord => record.domain)
        (fun record => record.id) _).trans ?_
      simp only [and_comm]

end SlotIndex

end CongestionFabric
