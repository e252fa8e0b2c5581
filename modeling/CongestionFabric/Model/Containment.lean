import CongestionFabric.Lib.ParentChain
import CongestionFabric.Model.Topology

namespace CongestionFabric

open limits

/-! ### The loop -/

/-- Where the loop stands: the next parent and the parents passed. -/
structure ContainmentCursor where
  cursor : ResourceId
  steps : Nat := 0

/-- One turn of the loop: how it ends, or where it goes on. -/
def containmentTurn (byId : SortedMap ResourceId ResourceRecord) (self : ResourceId)
    (here : ContainmentCursor) : VoidResult ⊕ ContainmentCursor :=
  if ¬here.cursor.valid then .inl succeed
  else match byId.find? here.cursor with
    | none =>
      .inl (fail .notFound (idText "containment parent is not a known resource" here.cursor.value))
    | some found =>
      if found.id = self then .inl (fail .invalidArgument "containment forest contains a cycle")
      else if here.steps + 1 > kMaxResourceDepth.toNat then
        .inl (fail .limitExceeded "containment forest is deeper than the hard bound")
      else .inr ⟨found.parent, here.steps + 1⟩

/-- The loop comes to an end with this outcome. -/
inductive ContainmentLoop (byId : SortedMap ResourceId ResourceRecord) (self : ResourceId) :
    ContainmentCursor → VoidResult → Prop where
  | ends {here : ContainmentCursor} {outcome : VoidResult}
      (h : containmentTurn byId self here = .inl outcome) : ContainmentLoop byId self here outcome
  | turns {here next : ContainmentCursor} {outcome : VoidResult}
      (h : containmentTurn byId self here = .inr next)
      (rest : ContainmentLoop byId self next outcome) : ContainmentLoop byId self here outcome

section Walk

variable {byId : SortedMap ResourceId ResourceRecord} {self cursor : ResourceId}

theorem ContainmentLoop.unique {here : ContainmentCursor} {outcome outcome' : VoidResult}
    (h : ContainmentLoop byId self here outcome) (h' : ContainmentLoop byId self here outcome') :
    outcome' = outcome := by
  induction h with
  | ends hturn =>
    cases h' with
    | ends hturn' => exact Sum.inl.inj (hturn'.symm.trans hturn)
    | turns hturn' _ =>
      rw [hturn] at hturn'
      cases hturn'
  | turns hturn _ ih =>
    cases h' with
    | ends hturn' =>
      rw [hturn] at hturn'
      cases hturn'
    | turns hturn' hrest' =>
      rw [hturn] at hturn'
      obtain rfl := Sum.inr.inj hturn'
      exact ih hrest'

/-- The walk is the loop, which the bound on the steps brings to an end. -/
theorem containmentLoop_walk {remaining steps : Nat}
    (h : steps + remaining = kMaxResourceDepth.toNat) :
    ContainmentLoop byId self ⟨cursor, steps⟩ (containmentWalk byId self remaining cursor) := by
  induction remaining generalizing cursor steps with
  | zero =>
    apply ContainmentLoop.ends
    unfold containmentTurn containmentWalk
    split
    · rfl
    · cases byId.find? cursor with
      | none => rfl
      | some found =>
        dsimp only
        split
        · rfl
        · rw [if_pos (by omega)]
  | succ remaining ih =>
    unfold containmentWalk
    by_cases hvalid : ¬cursor.valid = true
    · rw [if_pos hvalid]
      exact .ends (if_pos hvalid)
    · rw [if_neg hvalid]
      cases hfind : byId.find? cursor with
      | none =>
        apply ContainmentLoop.ends
        unfold containmentTurn
        rw [if_neg hvalid, hfind]
      | some found =>
        dsimp only
        by_cases hself : found.id = self
        · rw [if_pos hself]
          apply ContainmentLoop.ends
          unfold containmentTurn
          rw [if_neg hvalid, hfind]
          exact if_pos hself
        · rw [if_neg hself]
          have hturn : containmentTurn byId self ⟨cursor, steps⟩ =
              .inr ⟨found.parent, steps + 1⟩ := by
            unfold containmentTurn
            rw [if_neg hvalid, hfind]
            dsimp only
            rw [if_neg hself, if_neg (by omega)]
          exact .turns hturn (ih (by omega))

theorem containmentWalk_ok {remaining : Nat} (hvalid : cursor.valid = true) :
    containmentWalk byId self remaining cursor = .ok () ↔
      ∃ found, byId.find? cursor = some found ∧ found.id ≠ self ∧
        ∃ n, remaining = n + 1 ∧ containmentWalk byId self n found.parent = .ok () := by
  conv_lhs => unfold containmentWalk
  rw [if_neg (not_not.mpr hvalid)]
  cases hfind : byId.find? cursor with
  | none =>
    refine iff_of_false nofun ?_
    rintro ⟨_, hsome, _⟩
    cases hsome
  | some found =>
    simp only [Option.some.injEq, exists_eq_left']
    by_cases hself : found.id = self
    · rw [if_pos hself]
      exact iff_of_false nofun fun h => h.1 hself
    · rw [if_neg hself, and_iff_right hself]
      cases remaining with
      | zero =>
        refine iff_of_false nofun ?_
        rintro ⟨n, hn, _⟩
        omega
      | succ remaining =>
        constructor
        · exact fun hwalk => ⟨remaining, rfl, hwalk⟩
        · rintro ⟨n, hn, hwalk⟩
          obtain rfl : remaining = n := by omega
          exact hwalk

theorem containmentWalk_invalid {remaining : Nat} (hinvalid : ¬cursor.valid = true) :
    containmentWalk byId self remaining cursor = .ok () := by
  unfold containmentWalk
  exact if_pos hinvalid

theorem validateContainment_ok {resources : List ResourceRecord} :
    validateContainment byId resources = .ok () ↔ ∀ record ∈ resources,
      ¬(record.parent.valid = true ∧ record.parent = record.id) ∧
        containmentWalk byId record.id kMaxResourceDepth.toNat record.parent = .ok () := by
  induction resources with
  | nil => simp [validateContainment, succeed]
  | cons record rest ih =>
    rw [List.forall_mem_cons, ← ih]
    simp only [validateContainment, bind_ok, refuseIf_ok, exists_const, and_assoc]
    constructor
    · rintro ⟨hself, _, hwalk, hrest⟩
      exact ⟨hself, hwalk, hrest⟩
    · rintro ⟨hself, hwalk, hrest⟩
      exact ⟨hself, (), hwalk, hrest⟩

end Walk

/-! ### The containment forest -/

section Forest

variable {resources : List ResourceRecord}

/-- A record names this parent for this resource. -/
def NamesParent (resources : List ResourceRecord) (child parent : ResourceId) : Prop :=
  parent.valid = true ∧ ∃ record ∈ resources, record.id = child ∧ record.parent = parent

/-- Every named parent exists, nobody is above itself, and nobody has too many above it. -/
structure ContainmentForest (resources : List ResourceRecord) : Prop where
  known : ∀ child parent, NamesParent resources child parent →
    ∃ record ∈ resources, record.id = parent
  acyclic : ∀ id, ¬Relation.TransGen (NamesParent resources) id id
  depth : ∀ record ∈ resources,
    {ancestor | Relation.TransGen (NamesParent resources) record.id ancestor}.encard ≤
      kMaxResourceDepth.toNat

/-- The parent that the lookup of a resource leads to. -/
def parentOf (byId : SortedMap ResourceId ResourceRecord) (id : ResourceId) : Option ResourceId :=
  (byId.find? id).bind fun record => if record.parent.valid then some record.parent else none

theorem parentOf_found {byId : SortedMap ResourceId ResourceRecord} {id : ResourceId}
    {found : ResourceRecord} (h : byId.find? id = some found) :
    parentOf byId id = if found.parent.valid then some found.parent else none := by
  unfold parentOf
  rw [h]
  rfl

/-- Among distinct identities a lookup finds exactly the record. -/
theorem find?_recordsById (hids : (resources.map (·.id)).Nodup) {id : ResourceId}
    {record : ResourceRecord} :
    (recordsById resources).find? id = some record ↔ record ∈ resources ∧ record.id = id := by
  have hmem : ∀ found ∈ resources, (recordsById resources).find? found.id = some found := by
    intro found hfound
    apply SortedMap.find?_foldl_insert_mem (fun record : ResourceRecord => record.id)
      (fun record => record) hfound
    exact fun other hother heq => List.inj_on_of_nodup_map hids hother hfound heq
  constructor
  · intro hfind
    by_cases hex : ∃ found ∈ resources, found.id = id
    · obtain ⟨found, hfound, rfl⟩ := hex
      rw [hmem found hfound] at hfind
      obtain rfl := Option.some.inj hfind
      exact ⟨hfound, rfl⟩
    · have hnone : (recordsById resources).find? id = none :=
        SortedMap.find?_foldl_insert_ne (fun record : ResourceRecord => record.id)
          (fun record => record) (fun found hfound hid => hex ⟨found, hfound, hid⟩)
      rw [hnone] at hfind
      cases hfind
  · rintro ⟨hrecord, rfl⟩
    exact hmem record hrecord

theorem above_parentOf (hids : (resources.map (·.id)).Nodup) :
    ParentChain.Above (parentOf (recordsById resources)) = NamesParent resources := by
  funext child parent
  apply propext
  unfold ParentChain.Above parentOf NamesParent
  rw [Option.bind_eq_some_iff]
  constructor
  · rintro ⟨record, hfind, hparent⟩
    obtain ⟨hrecord, hid⟩ := (find?_recordsById hids).mp hfind
    split at hparent
    next hvalid =>
      obtain rfl := Option.some.inj hparent
      exact ⟨hvalid, record, hrecord, hid, rfl⟩
    next => cases hparent
  · rintro ⟨hvalid, record, hrecord, hid, rfl⟩
    exact ⟨record, (find?_recordsById hids).mpr ⟨hrecord, hid⟩, if_pos hvalid⟩

/-- A walk that ends well has left the forest at the top. -/
theorem containmentWalk_climb {byId : SortedMap ResourceId ResourceRecord}
    {self cursor : ResourceId} {remaining : Nat}
    (h : containmentWalk byId self remaining cursor = .ok ()) (hvalid : cursor.valid = true) :
    ParentChain.climb (parentOf byId) remaining cursor = none := by
  induction remaining generalizing cursor with
  | zero =>
    obtain ⟨_, _, _, n, hn, _⟩ := (containmentWalk_ok hvalid).mp h
    omega
  | succ remaining ih =>
    obtain ⟨found, hfind, _, n, hn, hrest⟩ := (containmentWalk_ok hvalid).mp h
    obtain rfl : remaining = n := by omega
    rw [ParentChain.climb_succ, parentOf_found hfind]
    by_cases hparent : found.parent.valid = true
    · rw [if_pos hparent]
      exact ih hrest hparent
    · rw [if_neg hparent]
      rfl

theorem ContainmentForest.climb (hids : (resources.map (·.id)).Nodup)
    (h : ContainmentForest resources) (id : ResourceId) :
    ParentChain.climb (parentOf (recordsById resources)) (kMaxResourceDepth.toNat + 1) id =
      none := by
  revert id
  rw [ParentChain.climb_none_iff]
  unfold ParentChain.Acyclic ParentChain.ancestors
  rw [above_parentOf hids]
  refine ⟨h.acyclic, fun id => ?_⟩
  by_cases hex : ∃ record ∈ resources, record.id = id
  · obtain ⟨record, hrecord, rfl⟩ := hex
    exact h.depth record hrecord
  · have hnone : {ancestor | Relation.TransGen (NamesParent resources) id ancestor} = ∅ := by
      apply Set.eq_empty_of_forall_notMem
      intro ancestor hancestor
      obtain ⟨parent, ⟨_, record, hrecord, hid, _⟩, _⟩ := Relation.TransGen.head'_iff.mp hancestor
      exact hex ⟨record, hrecord, hid⟩
    rw [hnone, Set.encard_empty]
    exact bot_le

/-- In a forest the walk from any ancestor ends well, whatever bound is left of the whole. -/
theorem ContainmentForest.walk (hids : (resources.map (·.id)).Nodup)
    (h : ContainmentForest resources) {self cursor : ResourceId} {remaining passed : Nat}
    (hbound : passed + remaining = kMaxResourceDepth.toNat)
    (hcursor : cursor.valid = true →
      ParentChain.climb (parentOf (recordsById resources)) (passed + 1) self = some cursor) :
    containmentWalk (recordsById resources) self remaining cursor = .ok () := by
  induction remaining generalizing cursor passed with
  | zero =>
    by_cases hvalid : cursor.valid = true
    · have hclimb := hcursor hvalid
      have hnone := h.climb hids self
      rw [← hbound, Nat.add_zero, hclimb] at hnone
      cases hnone
    · exact containmentWalk_invalid hvalid
  | succ remaining ih =>
    by_cases hvalid : cursor.valid = true
    · have hclimb := hcursor hvalid
      have habove : Relation.TransGen (NamesParent resources) self cursor := by
        rw [← above_parentOf hids]
        exact ParentChain.transGen_iff_climb.mpr ⟨passed, hclimb⟩
      obtain ⟨child, _, hchild⟩ := Relation.TransGen.tail'_iff.mp habove
      obtain ⟨found, hfound, hid⟩ := h.known child cursor hchild
      have hfind := (find?_recordsById hids).mpr ⟨hfound, hid⟩
      refine (containmentWalk_ok hvalid).mpr ⟨found, hfind, ?_, remaining, rfl, ?_⟩
      · intro hself
        rw [← hid, hself] at habove
        exact h.acyclic self habove
      · apply @ih found.parent (passed + 1) (by omega)
        intro hparent
        rw [ParentChain.climb_add, hclimb, Option.bind_some, ParentChain.climb_succ,
          parentOf_found hfind, if_pos hparent]
        rfl
    · exact containmentWalk_invalid hvalid

theorem validateContainment_forest (hids : (resources.map (·.id)).Nodup) :
    validateContainment (recordsById resources) resources = .ok () ↔
      ContainmentForest resources := by
  rw [validateContainment_ok]
  constructor
  · intro hwalks
    have hclimb : ∀ id, ParentChain.climb (parentOf (recordsById resources))
        (kMaxResourceDepth.toNat + 1) id = none := by
      intro id
      rw [ParentChain.climb_succ]
      cases hparent : parentOf (recordsById resources) id with
      | none => rfl
      | some parent =>
        have hnames : NamesParent resources id parent := by
          rw [← above_parentOf hids]
          exact hparent
        obtain ⟨hvalid, record, hrecord, rfl, rfl⟩ := hnames
        rw [Option.bind_some]
        exact containmentWalk_climb (hwalks record hrecord).2 hvalid
    obtain ⟨hacyclic, hdepth⟩ := ParentChain.climb_none_iff.mp hclimb
    unfold ParentChain.Acyclic at hacyclic
    unfold ParentChain.ancestors at hdepth
    rw [above_parentOf hids] at hacyclic hdepth
    refine ⟨?_, hacyclic, fun record _ => hdepth record.id⟩
    rintro child parent ⟨hvalid, record, hrecord, rfl, rfl⟩
    obtain ⟨found, hfind, _⟩ := (containmentWalk_ok hvalid).mp (hwalks record hrecord).2
    exact ⟨found, (find?_recordsById hids).mp hfind⟩
  · intro hforest record hrecord
    have hnames : record.parent.valid = true → NamesParent resources record.id record.parent :=
      fun hvalid => ⟨hvalid, record, hrecord, rfl, rfl⟩
    constructor
    · rintro ⟨hvalid, hself⟩
      have hown := hnames hvalid
      rw [hself] at hown
      exact hforest.acyclic record.id (.single hown)
    · have hstart : 0 + kMaxResourceDepth.toNat = kMaxResourceDepth.toNat := Nat.zero_add _
      apply hforest.walk hids hstart
      intro hvalid
      have habove := hnames hvalid
      rw [← above_parentOf hids] at habove
      rw [ParentChain.climb_succ, habove]
      rfl

/-- Distinct identities are what the check of the records promises. -/
theorem validateResources_distinct {seen : List ResourceId} {resources : List ResourceRecord}
    (h : validateResources seen resources = .ok ()) :
    (resources.map (·.id)).Nodup ∧ ∀ record ∈ resources, record.id ∉ seen := by
  induction resources generalizing seen with
  | nil => simp
  | cons record rest ih =>
    simp only [validateResources, bind_ok, refuseIf_ok, exists_const] at h
    obtain ⟨_, _, _, _, hnew, hrest⟩ := h
    obtain ⟨hdistinct, hunseen⟩ := ih hrest
    refine ⟨?_, ?_⟩
    · rw [List.map_cons, List.nodup_cons]
      refine ⟨?_, hdistinct⟩
      intro hmem
      obtain ⟨other, hother, heq⟩ := List.mem_map.mp hmem
      exact hunseen other hother (heq ▸ List.mem_cons_self)
    · intro other hother
      rcases List.mem_cons.mp hother with rfl | hother
      · exact hnew
      · exact fun hseen => hunseen other hother (List.mem_cons_of_mem _ hseen)

/-- Every loop ends, in what its walk returns, and the records are accepted exactly when they form a
forest no deeper than the bound. -/
theorem containment_exact (hids : (resources.map (·.id)).Nodup) :
    (∀ record ∈ resources, ∀ outcome,
      ContainmentLoop (recordsById resources) record.id ⟨record.parent, 0⟩ outcome ↔
        outcome = containmentWalk (recordsById resources) record.id kMaxResourceDepth.toNat
          record.parent) ∧
      (validateContainment (recordsById resources) resources = .ok () ↔
        ContainmentForest resources) := by
  refine ⟨fun record _ outcome => ?_, validateContainment_forest hids⟩
  have hstart : 0 + kMaxResourceDepth.toNat = kMaxResourceDepth.toNat := Nat.zero_add _
  have hloop := @containmentLoop_walk (recordsById resources) record.id record.parent _ 0 hstart
  constructor
  · exact fun h => hloop.unique h
  · rintro rfl
    exact hloop

/-- A cycle of two, entered from a third. -/
def roundTrip : List ResourceRecord :=
  [{ id := ⟨1⟩, domain := ⟨1⟩, parent := ⟨2⟩ }, { id := ⟨2⟩, domain := ⟨1⟩, parent := ⟨3⟩ },
    { id := ⟨3⟩, domain := ⟨1⟩, parent := ⟨2⟩ }]

theorem containment_exact_roundTrip :
    validateContainment (recordsById roundTrip) roundTrip = .ok () ↔
      ContainmentForest roundTrip :=
  (containment_exact (by decide)).2

end Forest

end CongestionFabric
