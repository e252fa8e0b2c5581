import CongestionFabric.Eval.PropagationSearch

namespace CongestionFabric

namespace PropagationEngine

open BreadthFirst

variable {snapshot : TopologySnapshot} {topology : TopologyIndex} {policy : PropagationPolicy}
  {sources : List Source}

theorem find?_firstSources (sources : List Source) (resource : ResourceId)
    (m : SortedMap ResourceId Source) :
    (sources.foldl (fun (m : SortedMap ResourceId Source) source =>
        if m.contains source.resource then m else m.insert source.resource source) m).find?
        resource = (m.find? resource).or (sources.find? (·.resource = resource)) := by
  induction sources generalizing m with
  | nil => simp
  | cons source rest ih =>
    rw [List.foldl_cons, ih, List.find?_cons]
    by_cases hsame : source.resource = resource
    · subst hsame
      rw [decide_eq_true rfl]
      unfold SortedMap.contains
      cases hfind : m.find? source.resource with
      | none => simp
      | some found => simp [hfind]
    · rw [decide_eq_false hsame]
      split
      · rfl
      · rw [SortedMap.find?_insert_ne m source (Ne.symm hsame)]

theorem find?_source (hnodup : (sources.map (·.resource)).Nodup) {resource : ResourceId}
    {source : Source} : sources.find? (·.resource = resource) = some source ↔
      source ∈ sources ∧ source.resource = resource := by
  constructor
  · intro hfind
    exact ⟨List.mem_of_find?_eq_some hfind, by simpa using List.find?_some hfind⟩
  · rintro ⟨hsource, rfl⟩
    cases hfind : sources.find? (·.resource = source.resource) with
    | none =>
      have hnot := List.find?_eq_none.mp hfind source hsource
      simp at hnot
    | some found =>
      have hmem := List.mem_of_find?_eq_some hfind
      have hsame : found.resource = source.resource := by simpa using List.find?_some hfind
      rw [List.inj_on_of_nodup_map hnodup hmem hsource hsame]

/-- Sources of resources of their own are all kept. -/
theorem mem_orderSources (hnodup : (sources.map (·.resource)).Nodup) {source : Source} :
    source ∈ orderSources sources ↔ source ∈ sources := by
  unfold orderSources
  rw [SortedMap.mem_values_iff]
  simp only [find?_firstSources, SortedMap.find?_empty, Option.none_or, find?_source hnodup,
    exists_eq_right']

/-- The order the sources come in does not matter. -/
theorem orderSources_perm {sources' : List Source} (hperm : sources.Perm sources')
    (hnodup : (sources.map (·.resource)).Nodup) : orderSources sources = orderSources sources' := by
  have hnodup' : (sources'.map (·.resource)).Nodup := (hperm.map _).nodup_iff.mp hnodup
  unfold orderSources
  congr 1
  ext resource source
  rw [find?_firstSources, find?_firstSources, SortedMap.find?_empty, Option.none_or,
    Option.none_or, find?_source hnodup, find?_source hnodup', hperm.mem_iff]

theorem propagate_perm {sources' : List Source} {maxEdges : Nat} (hperm : sources.Perm sources')
    (hnodup : (sources.map (·.resource)).Nodup) :
    propagate topology sources policy maxEdges = propagate topology sources' policy maxEdges := by
  have hnil : sources = [] ↔ sources' = [] := by
    constructor
    · rintro rfl
      exact hperm.nil_eq.symm
    · rintro rfl
      exact hperm.eq_nil
  unfold propagate
  rw [orderSources_perm hperm hnodup]
  simp only [hnil]

theorem inducedSeverity_min (target : Target) : inducedSeverity policy target =
    min (pressureToSeverity target.pressurePpm) policy.maxInducedSeverity := by
  unfold inducedSeverity
  dsimp only
  split
  next h => exact (min_eq_right (le_of_lt h)).symm
  next h => exact (min_eq_left (not_lt.mp h)).symm

theorem clear_lt_iff {s : Severity} : .clear < s ↔ s ≠ .clear := by
  have hle : Severity.clear ≤ s := Nat.zero_le _
  rw [lt_iff_le_and_ne, and_iff_right hle, ne_comm]

/-- What induces something is under some pressure, and the policy lets something through. -/
theorem inducedSeverity_ne_clear {target : Target} : inducedSeverity policy target ≠ .clear ↔
    .clear < policy.maxInducedSeverity ∧ 333333 ≤ target.pressurePpm := by
  rw [← clear_lt_iff, inducedSeverity_min, lt_min_iff, and_comm,
    clear_lt_iff (s := pressureToSeverity target.pressurePpm), Ne, pressureToSeverity_clear_iff,
    UInt32.not_lt]

/-- The entries that induce something, each with what it induces. -/
theorem emit_induced (maxEdges : Nat) (entries : List (ResourceId × Target))
    (out : PropagationResult) :
    (entries.foldl (emit policy maxEdges) out).induced = out.induced ++
      (entries.filter fun entry => inducedSeverity policy entry.2 ≠ .clear).map fun entry =>
        (entry.1, inducedSeverity policy entry.2) := by
  induction entries generalizing out with
  | nil => simp
  | cons entry rest ih =>
    rw [List.foldl_cons, ih]
    by_cases hclear : inducedSeverity policy entry.2 = .clear
    · have hsame : emit policy maxEdges out entry = out := if_pos hclear
      rw [hsame, List.filter_cons_of_neg (by simpa using hclear)]
    · have hadded : (emit policy maxEdges out entry).induced =
          out.induced ++ [(entry.1, inducedSeverity policy entry.2)] := by
        unfold emit
        dsimp only
        rw [if_neg hclear]
        split <;> rfl
      rw [hadded, List.filter_cons_of_pos (by simpa using hclear), List.map_cons,
        List.append_assoc, List.singleton_append]

theorem emit_edges (maxEdges : Nat) (entries : List (ResourceId × Target))
    (out : PropagationResult) :
    ∀ edge ∈ (entries.foldl (emit policy maxEdges) out).edges, edge ∈ out.edges ∨
      ∃ entry ∈ entries, inducedSeverity policy entry.2 ≠ .clear ∧
        edge = { source := entry.2.source, target := entry.1, viaPath := entry.2.viaPath
                 hops := entry.2.hops, pressurePpm := entry.2.pressurePpm
                 induced := inducedSeverity policy entry.2 } := by
  induction entries generalizing out with
  | nil => exact fun edge hedge => .inl hedge
  | cons entry rest ih =>
    intro edge hedge
    rcases ih _ edge hedge with hedge | ⟨other, hother, hrest⟩
    · unfold emit at hedge
      dsimp only at hedge
      split at hedge
      next => exact .inl hedge
      next hclear =>
        split at hedge
        next => exact .inl hedge
        next =>
          rcases List.mem_append.mp hedge with hedge | hedge
          · exact .inl hedge
          · exact .inr ⟨entry, List.mem_cons_self, hclear, List.mem_singleton.mp hedge⟩
    · exact .inr ⟨other, List.mem_cons_of_mem _ hother, hrest⟩

/-- A source that presses a resource from so many steps away. -/
structure PressedBy (snapshot : TopologySnapshot) (policy : PropagationPolicy) (source : Source)
    (resource : ResourceId) (k : Nat) (pressure : UInt32) : Prop where
  other : source.resource ≠ resource
  distance : Distance (Neighbour snapshot policy) source.resource k resource
  near : 1 ≤ k ∧ k ≤ policy.maxDepth.toNat
  decayed : pressure.toNat =
    decayedPpm policy.decayPpm.toNat (severityPressurePpm source.severity).toNat k
  presses : policy.minPressurePpm ≤ pressure ∧ severityPressurePpm .watch ≤ pressure

/-- The most any of the sources presses a resource. -/
structure MostPressed (snapshot : TopologySnapshot) (policy : PropagationPolicy)
    (sources : List Source) (source : Source) (resource : ResourceId) (k : Nat)
    (pressure : UInt32) : Prop where
  mem : source ∈ sources
  pressed : PressedBy snapshot policy source resource k pressure
  most : ∀ source' ∈ sources, ∀ k' pressure',
    PressedBy snapshot policy source' resource k' pressure' → pressure' ≤ pressure

/-- What a propagation says of the snapshot is the best decayed pressure on each resource. -/
structure BestPressure (snapshot : TopologySnapshot) (policy : PropagationPolicy)
    (sources : List Source) (result : PropagationResult) : Prop where
  once : (result.induced.map Prod.fst).Nodup
  induced : ∀ resource, (∃ severity, (resource, severity) ∈ result.induced) ↔
    .clear < policy.maxInducedSeverity ∧ ∃ source ∈ sources, ∃ k pressure,
      PressedBy snapshot policy source resource k pressure
  severity : ∀ resource severity, (resource, severity) ∈ result.induced →
    ∃ source k pressure, MostPressed snapshot policy sources source resource k pressure ∧
      severity = min (pressureToSeverity pressure) policy.maxInducedSeverity
  edge : ∀ edge ∈ result.edges, (edge.target, edge.induced) ∈ result.induced ∧
    NeighbourVia snapshot policy edge.source edge.target edge.viaPath ∧
    edge.hops ≤ policy.maxDepth ∧
    ∃ source, Distance (Neighbour snapshot policy) source.resource (edge.hops.toNat - 1)
        edge.source ∧
      MostPressed snapshot policy sources source edge.target edge.hops.toNat edge.pressurePpm

theorem Offered.pressedBy (h : topology.Adjacent snapshot) (hdecay : policy.decayPpm ≤ 1000000)
    {source : Source} {k : Nat} {entry : ResourceId × Target} (hk : k < policy.maxDepth.toNat)
    (hoffered : Offered topology policy source.resource (severityPressurePpm source.severity) k
      entry) : PressedBy snapshot policy source entry.1 (k + 1) entry.2.pressurePpm := by
  have hdistance := hoffered.target
  rw [steps_edgesOf h] at hdistance
  constructor
  · intro heq
    have hzero := hdistance.unique (distance_zero.mpr heq.symm)
    omega
  · exact hdistance
  · omega
  · rw [hoffered.pressing, toNat_decayed hdecay]
  · exact hoffered.presses

theorem PressedBy.offered (h : topology.Adjacent snapshot) (hdecay : policy.decayPpm ≤ 1000000)
    {source : Source} {resource : ResourceId} {k : Nat} {pressure : UInt32}
    {own : List (ResourceId × Target)}
    (hown : Offers topology policy source.resource (severityPressurePpm source.severity) 0
      policy.maxDepth.toNat own) (hpressed : PressedBy snapshot policy source resource k pressure) :
    ∃ entry ∈ own, entry.1 = resource ∧ entry.2.pressurePpm = pressure := by
  obtain ⟨_, hdistance, ⟨hpos, hnear⟩, hpressure, hpresses⟩ := hpressed
  obtain ⟨m, rfl⟩ : ∃ m, k = m + 1 := ⟨k - 1, by omega⟩
  have hsame : pressure = PropagationEngine.decayed policy
      (severityPressurePpm source.severity) (m + 1) := by
    rw [← UInt32.toNat_inj, toNat_decayed hdecay, hpressure]
  rw [← steps_edgesOf h] at hdistance
  rw [hsame] at hpresses ⊢
  exact hown.complete m resource (Nat.zero_le m) (by omega) hdistance hpresses

/-- An entry of the best is the most any source presses its resource, by its last step. -/
theorem best_mostPressed (h : topology.Adjacent snapshot) (hdecay : policy.decayPpm ≤ 1000000)
    {resource : ResourceId} {target : Target}
    (hfind : (sources.foldl (spreadSource topology policy) ∅).find? resource = some target) :
    333333 ≤ target.pressurePpm ∧ NeighbourVia snapshot policy target.source resource
        target.viaPath ∧
      ∃ source, Distance (Neighbour snapshot policy) source.resource (target.hops.toNat - 1)
          target.source ∧
        MostPressed snapshot policy sources source resource target.hops.toNat
          target.pressurePpm := by
  obtain ⟨offers, hfold, hsound, hcomplete⟩ := spreadSources_offers h hdecay sources ∅
  rw [hfold] at hfind
  obtain ⟨hmem, hmost⟩ := best_offer hfind
  obtain ⟨source, hsource, own, hentry, hown⟩ := hsound _ hmem
  obtain ⟨k, _, hk, hoffered⟩ := hown.sound _ hentry
  have hhops : target.hops.toNat = k + 1 := hoffered.hops
  have hparent := hoffered.parent
  rw [steps_edgesOf h] at hparent
  refine ⟨hoffered.presses.2, (mem_edgesOf h).mp hoffered.edge, source, ?_, hsource, ?_, ?_⟩
  · rw [hhops, Nat.add_sub_cancel]
    exact hparent
  · rw [hhops]
    exact hoffered.pressedBy h hdecay hk
  · intro source' hsource' k' pressure' hpressed
    obtain ⟨own', hsub, hown'⟩ := hcomplete source' hsource'
    obtain ⟨entry, hentry', hsame, rfl⟩ := hpressed.offered h hdecay hown'
    exact hmost entry (hsub hentry') hsame

theorem best_of_pressed (h : topology.Adjacent snapshot) (hdecay : policy.decayPpm ≤ 1000000)
    {source : Source} (hsource : source ∈ sources) {resource : ResourceId} {k : Nat}
    {pressure : UInt32} (hpressed : PressedBy snapshot policy source resource k pressure) :
    ∃ target, (sources.foldl (spreadSource topology policy) ∅).find? resource = some target := by
  obtain ⟨offers, hfold, _, hcomplete⟩ := spreadSources_offers h hdecay sources ∅
  obtain ⟨own, hsub, hown⟩ := hcomplete source hsource
  obtain ⟨entry, hentry, rfl, _⟩ := hpressed.offered h hdecay hown
  rw [hfold]
  exact best_of_offer (hsub hentry)

theorem MostPressed.of_mem {sources' : List Source} {source : Source} {resource : ResourceId}
    {k : Nat} {pressure : UInt32} (hmem : ∀ s, s ∈ sources ↔ s ∈ sources')
    (h : MostPressed snapshot policy sources source resource k pressure) :
    MostPressed snapshot policy sources' source resource k pressure :=
  ⟨(hmem source).mp h.mem, h.pressed, fun s hs => h.most s ((hmem s).mpr hs)⟩

/-- What the best of the sources emits is the best pressure on each resource. -/
theorem emit_best (h : topology.Adjacent snapshot) (hdecay : policy.decayPpm ≤ 1000000)
    (maxEdges : Nat) : BestPressure snapshot policy sources
      ((sources.foldl (spreadSource topology policy) ∅).entries.foldl (emit policy maxEdges)
        {}) := by
  generalize hbest : sources.foldl (spreadSource topology policy) ∅ = best
  have hmost := fun (resource : ResourceId) (target : Target) =>
    @best_mostPressed snapshot topology policy sources h hdecay resource target
  rw [hbest] at hmost
  have hinduced : ∀ resource severity, (resource, severity) ∈
      (best.entries.foldl (emit policy maxEdges) {}).induced ↔ ∃ target,
        best.find? resource = some target ∧ inducedSeverity policy target ≠ .clear ∧
          severity = inducedSeverity policy target := by
    intro resource severity
    rw [emit_induced, List.nil_append, List.mem_map]
    constructor
    · rintro ⟨⟨r, target⟩, hentry, heq⟩
      obtain ⟨rfl, rfl⟩ := Prod.mk.inj heq
      obtain ⟨hentry, hclear⟩ := List.mem_filter.mp hentry
      exact ⟨target, SortedMap.mem_entries_iff.mp hentry, by simpa using hclear, rfl⟩
    · rintro ⟨target, hfind, hclear, rfl⟩
      exact ⟨(resource, target), List.mem_filter.mpr
        ⟨SortedMap.mem_entries_iff.mpr hfind, by simpa using hclear⟩, rfl⟩
  constructor
  · rw [emit_induced, List.nil_append, List.map_map]
    have hkeys : (best.entries.map Prod.fst).Nodup :=
      best.sorted.imp fun hlt heq => (heq ▸ hlt).false
    exact hkeys.sublist (List.filter_sublist.map _)
  · intro resource
    simp only [hinduced]
    constructor
    · rintro ⟨severity, target, hfind, hclear, _⟩
      obtain ⟨_, _, source, _, hpressed⟩ := hmost resource target hfind
      exact ⟨(inducedSeverity_ne_clear.mp hclear).1, source, hpressed.mem, _, _, hpressed.pressed⟩
    · rintro ⟨hceiling, source, hsource, k, pressure, hpressed⟩
      obtain ⟨target, hfind⟩ := best_of_pressed h hdecay hsource hpressed
      rw [hbest] at hfind
      obtain ⟨hpressure, _⟩ := hmost resource target hfind
      exact ⟨_, target, hfind, inducedSeverity_ne_clear.mpr ⟨hceiling, hpressure⟩, rfl⟩
  · intro resource severity hmem
    obtain ⟨target, hfind, _, rfl⟩ := (hinduced resource severity).mp hmem
    obtain ⟨_, _, source, _, hpressed⟩ := hmost resource target hfind
    exact ⟨source, _, _, hpressed, inducedSeverity_min target⟩
  · intro edge hedge
    rcases emit_edges maxEdges best.entries {} edge hedge with hnone | ⟨entry, hentry, hclear, rfl⟩
    · exact absurd hnone List.not_mem_nil
    · have hfind := SortedMap.mem_entries_iff.mp hentry
      obtain ⟨_, hvia, source, hparent, hpressed⟩ := hmost entry.1 entry.2 hfind
      exact ⟨(hinduced _ _).mpr ⟨entry.2, hfind, hclear, rfl⟩, hvia,
        UInt32.le_iff_toNat_le.mpr hpressed.pressed.near.2, source, hparent, hpressed⟩

theorem propagate_best {maxEdges : Nat} (h : topology.Indexed snapshot)
    (henabled : policy.enabled = true) (hdepth : 1 ≤ policy.maxDepth)
    (hdecay : policy.decayPpm ≤ 1000000) (hnodup : (sources.map (·.resource)).Nodup)
    (hedges : 1 ≤ maxEdges ∧ maxEdges ≤ limits.kMaxPropagationEdges) :
    ∃ result, propagate topology sources policy maxEdges = .ok result ∧
      BestPressure snapshot policy sources result ∧
      ∀ sources', sources.Perm sources' →
        propagate topology sources' policy maxEdges = .ok result := by
  have hordered : ∀ source, source ∈ orderSources sources ↔ source ∈ sources := fun source =>
    mem_orderSources hnodup
  have hresult : propagate topology sources policy maxEdges = .ok
      (((orderSources sources).foldl (spreadSource topology policy) ∅).entries.foldl
        (emit policy maxEdges) {}) := by
    unfold propagate
    by_cases hnil : sources = []
    · rw [if_pos (.inr (.inr hnil)), hnil]
      rfl
    · have hrun : ¬(!policy.enabled ∨ policy.maxDepth = 0 ∨ sources = []) := by
        rintro (hoff | hzero | hnone)
        · rw [henabled] at hoff
          cases hoff
        · rw [hzero] at hdepth
          exact absurd hdepth (by decide)
        · exact hnil hnone
      rw [if_neg hrun, if_neg (by omega)]
  have hbest := @emit_best snapshot topology policy (orderSources sources) h.adjacent hdecay maxEdges
  refine ⟨_, hresult, ⟨hbest.once, fun resource => ?_, fun resource severity hmem => ?_,
    fun edge hedge => ?_⟩, fun sources' hperm => ?_⟩
  · rw [hbest.induced]
    simp only [hordered]
  · obtain ⟨source, k, pressure, hmost, hsame⟩ := hbest.severity resource severity hmem
    exact ⟨source, k, pressure, hmost.of_mem hordered, hsame⟩
  · obtain ⟨hinduced, hvia, hhops, source, hparent, hmost⟩ := hbest.edge edge hedge
    exact ⟨hinduced, hvia, hhops, source, hparent, hmost.of_mem hordered⟩
  · rw [← propagate_perm hperm hnodup]
    exact hresult

/-- A ring of three, and a path across it along which one of the links runs as well. -/
def ringSnapshot : TopologySnapshot where
  id := ⟨1⟩
  generation := ⟨1⟩
  epoch := ⟨1⟩
  observedTick := 1
  resources := [{ id := ⟨1⟩, domain := ⟨1⟩ }, { id := ⟨2⟩, domain := ⟨1⟩ },
    { id := ⟨3⟩, domain := ⟨1⟩ }]
  links := [{ id := ⟨1⟩, fromId := ⟨1⟩, toId := ⟨2⟩, capacityBps := 1 },
    { id := ⟨2⟩, fromId := ⟨2⟩, toId := ⟨3⟩, capacityBps := 1 },
    { id := ⟨3⟩, fromId := ⟨3⟩, toId := ⟨1⟩, capacityBps := 1 }]
  paths := [{ id := ⟨1⟩, hops := [⟨2⟩, ⟨3⟩] }]

def ringPolicy : PropagationPolicy :=
  { maxDepth := 2, decayPpm := 700000, maxInducedSeverity := .congested }

theorem propagate_best_ring : ∃ topology result,
    TopologyIndex.build ringSnapshot = .ok topology ∧
    propagate topology [⟨⟨2⟩, .severe⟩, ⟨⟨1⟩, .congested⟩] ringPolicy 8 = .ok result ∧
    BestPressure ringSnapshot ringPolicy [⟨⟨2⟩, .severe⟩, ⟨⟨1⟩, .congested⟩] result := by
  obtain ⟨topology, htopology⟩ : ∃ topology, TopologyIndex.build ringSnapshot = .ok topology :=
    Result.exists_of_isOk (by decide +kernel)
  obtain ⟨result, hresult, hbest, _⟩ := @propagate_best ringSnapshot topology ringPolicy
    [⟨⟨2⟩, .severe⟩, ⟨⟨1⟩, .congested⟩] 8 (.built htopology) rfl (by decide) (by decide)
    (by decide) (by decide)
  exact ⟨topology, result, htopology, hresult, hbest⟩

example : ((TopologyIndex.build ringSnapshot).toOption.bind fun topology =>
    (propagate topology [⟨⟨2⟩, .severe⟩, ⟨⟨1⟩, .congested⟩] ringPolicy 8).toOption.map
      (·.induced)) = some [(⟨1⟩, .watch), (⟨2⟩, .watch), (⟨3⟩, .congested)] := by
  decide +kernel

end PropagationEngine

end CongestionFabric
