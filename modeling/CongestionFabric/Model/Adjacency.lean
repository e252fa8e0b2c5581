import CongestionFabric.Model.TopologyIndex

namespace SortedMap

variable {κ α β : Type} [LinearOrder κ]

/-- What values pushed under their own keys leave in one list. -/
theorem findD_foldl_push (key : β → κ) (value : β → α) (l : List β) (m : SortedMap κ (List α))
    (k : κ) :
    (l.foldl (fun m b => m.push (key b) (value b)) m).findD k [] =
      m.findD k [] ++ (l.filter fun b => key b = k).map value := by
  induction l generalizing m with
  | nil => simp
  | cons b rest ih =>
    rw [List.foldl_cons, ih, findD_push]
    by_cases hk : key b = k
    · rw [if_pos hk.symm, List.filter_cons_of_pos (by simpa using hk), List.map_cons, hk,
        List.append_assoc, List.singleton_append]
    · rw [if_neg (Ne.symm hk), List.filter_cons_of_neg (by simpa using hk)]

/-- Sorting each list of a map keeps its members. -/
theorem mem_findD_sortedSet [LinearOrder α] {m : SortedMap κ (List α)} {k : κ} {a : α} :
    a ∈ (m.mapVal fun _ => sortedSet).findD k [] ↔ a ∈ m.findD k [] := by
  unfold findD
  rw [find?_mapVal]
  cases m.find? k with
  | none => exact Iff.rfl
  | some l => exact mem_sortedSet

end SortedMap

namespace CongestionFabric

theorem validateLinks_known {known : ResourceId → Bool} {seen : List LinkId}
    {links : List LinkRecord} (h : validateLinks known seen links = .ok ()) :
    ∀ link ∈ links, known link.fromId = true ∧ known link.toId = true := by
  induction links generalizing seen with
  | nil => simp
  | cons link rest ih =>
    simp only [validateLinks, bind_ok, refuseIf_ok, exists_const, not_not] at h
    obtain ⟨_, hfrom, hto, _, _, _, hrest⟩ := h
    intro other hother
    rcases List.mem_cons.mp hother with rfl | hother
    · exact ⟨hfrom, hto⟩
    · exact ih hrest other hother

theorem validateHops_known {known : ResourceId → Bool} {hops : List ResourceId}
    (h : validateHops known hops = .ok ()) : ∀ hop ∈ hops, known hop = true := by
  induction hops with
  | nil => simp
  | cons hop rest ih =>
    simp only [validateHops, bind_ok, refuseIf_ok, exists_const, not_not] at h
    obtain ⟨hhop, hrest⟩ := h
    intro other hother
    rcases List.mem_cons.mp hother with rfl | hother
    · exact hhop
    · exact ih hrest other hother

/-- Accepted paths have identities of their own and hops that are known. -/
theorem validatePaths_known {known : ResourceId → Bool} {seen : List PathId}
    {paths : List PathRecord} (h : validatePaths known seen paths = .ok ()) :
    (∀ path ∈ paths, path.id ∉ seen ∧ ∀ hop ∈ path.hops, known hop = true) ∧
      ∀ path ∈ paths, ∀ path' ∈ paths, path'.id = path.id → path' = path := by
  induction paths generalizing seen with
  | nil => simp
  | cons path rest ih =>
    simp only [validatePaths, bind_ok, refuseIf_ok, exists_const] at h
    obtain ⟨_, hnew, _, _, _, _, hhops, hrest⟩ := h
    obtain ⟨hall, honly⟩ := ih hrest
    refine ⟨fun other hother => ?_, fun other hother other' hother' heq => ?_⟩
    · rcases List.mem_cons.mp hother with rfl | hother
      · exact ⟨hnew, validateHops_known hhops⟩
      · obtain ⟨hseen, hknown⟩ := hall other hother
        exact ⟨fun hmem => hseen (List.mem_cons_of_mem _ hmem), hknown⟩
    · rcases List.mem_cons.mp hother with hfirst | hlater
      · rcases List.mem_cons.mp hother' with hfirst' | hlater'
        · rw [hfirst, hfirst']
        · rw [hfirst] at heq
          exact absurd (heq ▸ List.mem_cons_self) (hall other' hlater').1
      · rcases List.mem_cons.mp hother' with hfirst' | hlater'
        · rw [hfirst'] at heq
          exact absurd (heq ▸ List.mem_cons_self) (hall other hlater).1
        · exact honly other hlater other' hlater' heq

namespace TopologyIndex

variable {snapshot : TopologySnapshot} {index : TopologyIndex}

/-- The adjacency of a built index, in terms of the snapshot it was built from. -/
structure Adjacent (snapshot : TopologySnapshot) (index : TopologyIndex) : Prop where
  successors : ∀ node next, next ∈ index.successors node ↔
    ∃ link ∈ snapshot.links, link.fromId = node ∧ link.toId = next
  resourcePaths : ∀ node id, id ∈ index.resourcePaths node ↔
    ∃ path ∈ snapshot.paths, path.id = id ∧ node ∈ path.hops
  path : ∀ id path, index.path id = some path ↔ path ∈ snapshot.paths ∧ path.id = id
  links : ∀ link ∈ snapshot.links, index.contains link.fromId = true
  hops : ∀ path ∈ snapshot.paths, ∀ hop ∈ path.hops, index.contains hop = true

theorem pushHops_spec {known : ResourceId → Bool} (m : SortedMap ResourceId (List PathId))
    (record : PathRecord) (node : ResourceId) (id : PathId) :
    id ∈ (pushHops known m record).findD node [] ↔
      id ∈ m.findD node [] ∨ (record.id = id ∧ node ∈ record.hops ∧ known node = true) := by
  unfold pushHops
  have hfold : ∀ (hops : List ResourceId) (m : SortedMap ResourceId (List PathId)),
      id ∈ (hops.foldl (fun m hop => if known hop then m.push hop record.id else m) m).findD node []
        ↔ id ∈ m.findD node [] ∨ (record.id = id ∧ node ∈ hops ∧ known node = true) := by
    intro hops
    induction hops with
    | nil => intro m; simp
    | cons hop rest ih =>
      intro m
      rw [List.foldl_cons, ih]
      by_cases hknown : known hop = true
      · rw [if_pos hknown, SortedMap.findD_push]
        by_cases hnode : node = hop
        · subst hnode
          rw [if_pos rfl]
          simp only [List.mem_append, List.mem_cons, hknown, true_or, and_true]
          tauto
        · rw [if_neg hnode]
          simp only [List.mem_cons, hnode, false_or]
      · rw [if_neg hknown]
        by_cases hnode : node = hop
        · subst hnode
          simp only [hknown, and_false, or_false, Bool.false_eq_true]
        · simp only [List.mem_cons, hnode, false_or]
  exact hfold record.hops m

theorem foldl_pushHops_spec {known : ResourceId → Bool} (paths : List PathRecord)
    (m : SortedMap ResourceId (List PathId)) (node : ResourceId) (id : PathId) :
    id ∈ (paths.foldl (pushHops known) m).findD node [] ↔ id ∈ m.findD node [] ∨
      ∃ path ∈ paths, path.id = id ∧ node ∈ path.hops ∧ known node = true := by
  induction paths generalizing m with
  | nil => simp
  | cons path rest ih =>
    rw [List.foldl_cons, ih, pushHops_spec, or_assoc, List.exists_mem_cons_iff]

theorem build_adjacent (h : build snapshot = .ok index) : Adjacent snapshot index := by
  obtain ⟨_, hvalid, hindex⟩ := bind_ok.mp h
  simp only [validateTopology, bind_ok, refuseIf_ok, exists_const] at hvalid
  obtain ⟨_, _, _, _, _, _, _, _, _, hlinks, hpaths⟩ := hvalid
  have hids : snapshot.paths.filter (·.id.valid) = snapshot.paths :=
    List.filter_eq_self.mpr (validatePaths_valid hpaths)
  obtain ⟨hknown, honly⟩ := validatePaths_known hpaths
  have hindex := (Except.ok.inj hindex).symm
  rw [hids] at hindex
  have hcontains : ∀ id, index.contains id = (recordsById snapshot.resources).contains id := by
    intro id
    rw [hindex]
    rfl
  constructor
  · intro node next
    rw [hindex]
    refine SortedMap.mem_findD_sortedSet.trans ?_
    rw [SortedMap.findD_foldl_push (fun link : LinkRecord => link.fromId) (fun link => link.toId)]
    show next ∈ [] ++ _ ↔ _
    simp [and_assoc]
  · intro node id
    rw [hindex]
    refine SortedMap.mem_findD_sortedSet.trans ?_
    rw [foldl_pushHops_spec]
    constructor
    · rintro (hnone | ⟨path, hpath, hid, hnode, _⟩)
      · cases hnone
      · exact ⟨path, hpath, hid, hnode⟩
    · rintro ⟨path, hpath, hid, hnode⟩
      exact .inr ⟨path, hpath, hid, hnode, (hknown path hpath).2 node hnode⟩
  · intro id path
    rw [hindex]
    show (snapshot.paths.foldl (fun (m : SortedMap PathId PathRecord) record =>
      m.insert record.id record) ∅).find? id = some path ↔ _
    have hmem : ∀ found ∈ snapshot.paths,
        (snapshot.paths.foldl (fun (m : SortedMap PathId PathRecord) record =>
          m.insert record.id record) ∅).find? found.id = some found := fun found hfound =>
      SortedMap.find?_foldl_insert_mem (fun record : PathRecord => record.id)
        (fun record => record) hfound (honly found hfound)
    constructor
    · intro hfind
      by_cases hex : ∃ found ∈ snapshot.paths, found.id = id
      · obtain ⟨found, hfound, rfl⟩ := hex
        rw [hmem found hfound] at hfind
        obtain rfl := Option.some.inj hfind
        exact ⟨hfound, rfl⟩
      · have hnone : (snapshot.paths.foldl (fun (m : SortedMap PathId PathRecord) record =>
            m.insert record.id record) ∅).find? id = none :=
          SortedMap.find?_foldl_insert_ne (fun record : PathRecord => record.id)
            (fun record => record) (fun found hfound hid => hex ⟨found, hfound, hid⟩)
        rw [hnone] at hfind
        cases hfind
    · rintro ⟨hpath, rfl⟩
      exact hmem path hpath
  · intro link hlink
    rw [hcontains]
    exact (validateLinks_known hlinks link hlink).1
  · intro path hpath hop hhop
    rw [hcontains]
    exact (hknown path hpath).2 hop hhop

/-- The index before any snapshot was built into it. -/
def empty : TopologyIndex := ⟨{}, ∅, ∅, ∅, ∅, ∅, ∅⟩

/-- The indexes there are, each with its snapshot. -/
inductive Indexed : TopologySnapshot → TopologyIndex → Prop where
  | empty : Indexed {} empty
  | built {snapshot : TopologySnapshot} {index : TopologyIndex}
      (h : build snapshot = .ok index) : Indexed snapshot index

theorem Indexed.adjacent (h : Indexed snapshot index) : Adjacent snapshot index := by
  cases h with
  | empty =>
    constructor
    · intro node next
      refine iff_of_false List.not_mem_nil ?_
      rintro ⟨link, hlink, _⟩
      exact List.not_mem_nil hlink
    · intro node id
      refine iff_of_false List.not_mem_nil ?_
      rintro ⟨path, hpath, _⟩
      exact List.not_mem_nil hpath
    · intro id path
      refine iff_of_false ?_ fun h => List.not_mem_nil h.1
      intro hfind
      cases hfind
    · exact fun link hlink => absurd hlink List.not_mem_nil
    · exact fun path hpath => absurd hpath List.not_mem_nil
  | built h => exact build_adjacent h

end TopologyIndex

end CongestionFabric
