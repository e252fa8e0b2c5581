import CongestionFabric.Eval.MissingEvidence

namespace CongestionFabric

theorem pressureToSeverity_mono {p q : UInt32} (h : p ≤ q) :
    pressureToSeverity p ≤ pressureToSeverity q := by
  rw [UInt32.le_iff_toNat_le] at h
  unfold pressureToSeverity
  simp only [ge_iff_le, UInt32.le_iff_toNat_le]
  split_ifs <;> first | decide | omega

/-- A source presses with its own severity before any decay. -/
theorem pressureToSeverity_severity {s : Severity} (h : s ≤ .severe) :
    pressureToSeverity (severityPressurePpm s) = s := by
  rcases Severity.declared_cases h with rfl | rfl | rfl | rfl <;> decide

theorem severityPressurePpm_mono {s t : Severity} (h : s ≤ t) (ht : t ≤ .severe) :
    severityPressurePpm s ≤ severityPressurePpm t := by
  revert h
  rcases Severity.declared_cases ht with rfl | rfl | rfl | rfl <;> intro h <;>
    rcases Severity.declared_cases (h.trans ht) with rfl | rfl | rfl | rfl <;> revert h <;> decide

namespace PropagationEngine

variable {topology : TopologyIndex} {policy : PropagationPolicy} {bound : UInt32}

/-- Pressure never grows from one node to the next. -/
theorem decayed_le (pressure : UInt32) (h : policy.decayPpm ≤ 1000000) :
    ((pressure.toUInt64 * policy.decayPpm.toUInt64) / 1000000).toUInt32 ≤ pressure := by
  have hdecay : policy.decayPpm.toNat ≤ 1000000 := UInt32.le_iff_toNat_le.mp h
  have hpressure := pressure.toNat_lt
  have hprod : pressure.toNat * policy.decayPpm.toNat ≤ pressure.toNat * 1000000 :=
    Nat.mul_le_mul_left _ hdecay
  have hsmall : pressure.toNat * policy.decayPpm.toNat < 2 ^ 64 := by omega
  have hdiv : pressure.toNat * policy.decayPpm.toNat / 1000000 ≤ pressure.toNat := by omega
  rw [UInt32.le_iff_toNat_le, UInt64.toNat_toUInt32, UInt64.toNat_div, UInt64.toNat_mul,
    UInt32.toNat_toUInt64, UInt32.toNat_toUInt64, Nat.mod_eq_of_lt hsmall]
  exact (Nat.mod_le _ _).trans hdiv

/-- No target of a spread and no node of its next frontier is under more pressure than this. -/
structure Bounded (bound : UInt32) (spread : Spread) : Prop where
  best : ∀ resource target, spread.best.find? resource = some target → target.pressurePpm ≤ bound
  next : ∀ node ∈ spread.next, node.2 ≤ bound

theorem Bounded.visit {spread : Spread} {depth : UInt32} {node : ResourceId × UInt32}
    (hdecay : policy.decayPpm ≤ 1000000) (hnode : node.2 ≤ bound) (h : Bounded bound spread)
    (neighbour : ResourceId ×ₗ PathId) :
    Bounded bound (PropagationEngine.visit policy depth node spread neighbour) := by
  have hpressure := UInt32.le_trans (decayed_le node.2 hdecay) hnode
  unfold PropagationEngine.visit
  dsimp only
  split
  · exact h
  · split
    · exact ⟨h.best, h.next⟩
    · split
      · exact ⟨h.best, h.next⟩
      · refine ⟨?_, ?_⟩
        · intro resource target hfind
          dsimp only at hfind
          split at hfind
          · rw [SortedMap.find?_insert] at hfind
            split at hfind
            · obtain rfl := Option.some.inj hfind
              exact hpressure
            · exact h.best resource target hfind
          · exact h.best resource target hfind
        · intro found hfound
          rcases List.mem_append.mp hfound with hfound | hfound
          · exact h.next found hfound
          · obtain rfl := List.mem_singleton.mp hfound
            exact hpressure

theorem Bounded.visitNode {spread : Spread} {depth : UInt32} {node : ResourceId × UInt32}
    (hdecay : policy.decayPpm ≤ 1000000) (hnode : node.2 ≤ bound) (h : Bounded bound spread) :
    Bounded bound (PropagationEngine.visitNode topology policy depth spread node) := by
  unfold PropagationEngine.visitNode
  generalize neighbours topology node.1 policy = around
  induction around generalizing spread with
  | nil => exact h
  | cons neighbour around ih => exact ih (h.visit hdecay hnode neighbour)

theorem Bounded.visitNodes {spread : Spread} {depth : UInt32}
    {frontier : List (ResourceId × UInt32)} (hdecay : policy.decayPpm ≤ 1000000)
    (hfrontier : ∀ node ∈ frontier, node.2 ≤ bound) (h : Bounded bound spread) :
    Bounded bound (frontier.foldl (PropagationEngine.visitNode topology policy depth) spread) := by
  induction frontier generalizing spread with
  | nil => exact h
  | cons node frontier ih =>
    obtain ⟨hnode, hrest⟩ := List.forall_mem_cons.mp hfrontier
    exact ih hrest (h.visitNode hdecay hnode)

theorem Bounded.spreadLevels {spread : Spread} {remaining : Nat} {depth : UInt32}
    {frontier : List (ResourceId × UInt32)} (hdecay : policy.decayPpm ≤ 1000000)
    (hfrontier : ∀ node ∈ frontier, node.2 ≤ bound) (h : Bounded bound spread) :
    Bounded bound
      (PropagationEngine.spreadLevels topology policy remaining depth frontier spread) := by
  induction remaining generalizing spread depth frontier with
  | zero => exact h
  | succ remaining ih =>
    unfold PropagationEngine.spreadLevels
    split
    · exact h
    · have hlevel : Bounded bound (frontier.foldl
          (PropagationEngine.visitNode topology policy depth) { spread with next := [] }) :=
        Bounded.visitNodes hdecay hfrontier ⟨h.best, by simp⟩
      exact ih hlevel.next hlevel

theorem spreadSource_bounded {best : SortedMap ResourceId Target} {source : Source}
    (hdecay : policy.decayPpm ≤ 1000000) (hsource : severityPressurePpm source.severity ≤ bound)
    (h : ∀ resource target, best.find? resource = some target → target.pressurePpm ≤ bound) :
    ∀ resource target, (spreadSource topology policy best source).find? resource = some target →
      target.pressurePpm ≤ bound := by
  unfold spreadSource
  split
  · exact h
  · have hstart : Bounded bound { best, visited := [source.resource] } := ⟨h, by simp⟩
    exact (hstart.spreadLevels hdecay (by simpa using hsource)).best

theorem orderSources_subset (sources : List Source) :
    ∀ source ∈ orderSources sources, source ∈ sources := by
  have hfold : ∀ (rest : List Source) (m : SortedMap ResourceId Source),
      (∀ r s, m.find? r = some s → s ∈ sources) → rest ⊆ sources →
      ∀ r s, (rest.foldl (fun (m : SortedMap ResourceId Source) source =>
        if m.contains source.resource then m else m.insert source.resource source) m).find? r =
          some s → s ∈ sources := by
    intro rest
    induction rest with
    | nil => exact fun m hm _ => hm
    | cons source rest ih =>
      intro m hm hrest
      obtain ⟨hsource, hrest⟩ := List.cons_subset.mp hrest
      refine ih _ (fun r s hfind => ?_) hrest
      dsimp only at hfind
      split at hfind
      · exact hm r s hfind
      · rw [SortedMap.find?_insert] at hfind
        split at hfind
        · obtain rfl := Option.some.inj hfind
          exact hsource
        · exact hm r s hfind
  intro source hsource
  obtain ⟨r, hfind⟩ := SortedMap.mem_values_iff.mp hsource
  refine hfold sources ∅ (fun r s hfind => ?_) (List.Subset.refl _) r source hfind
  simp at hfind

theorem spreadSources_bounded {sources : List Source} (hdecay : policy.decayPpm ≤ 1000000)
    (hsources : ∀ source ∈ sources, severityPressurePpm source.severity ≤ bound)
    {best : SortedMap ResourceId Target}
    (h : ∀ resource target, best.find? resource = some target → target.pressurePpm ≤ bound) :
    ∀ resource target,
      (sources.foldl (spreadSource topology policy) best).find? resource = some target →
        target.pressurePpm ≤ bound := by
  induction sources generalizing best with
  | nil => exact h
  | cons source sources ih =>
    obtain ⟨hsource, hrest⟩ := List.forall_mem_cons.mp hsources
    exact ih hrest (spreadSource_bounded hdecay hsource h)

theorem inducedSeverity_le {target : Target} {s : Severity}
    (h : pressureToSeverity target.pressurePpm ≤ s) : inducedSeverity policy target ≤ s := by
  unfold inducedSeverity
  dsimp only
  split
  · next hcap => exact (le_of_lt hcap).trans h
  · exact h

theorem emit_bounded {s : Severity} {maxEdges : Nat} (entries : List (ResourceId × Target))
    (hentries : ∀ entry ∈ entries, pressureToSeverity entry.2.pressurePpm ≤ s)
    {out : PropagationResult} (h : ∀ edge ∈ out.edges, edge.induced ≤ s) :
    ∀ edge ∈ (entries.foldl (emit policy maxEdges) out).edges, edge.induced ≤ s := by
  induction entries generalizing out with
  | nil => exact h
  | cons entry entries ih =>
    obtain ⟨hentry, hrest⟩ := List.forall_mem_cons.mp hentries
    refine ih hrest ?_
    unfold emit
    dsimp only
    split
    · exact h
    · split
      · exact h
      · intro edge hedge
        rcases List.mem_append.mp hedge with hedge | hedge
        · exact h edge hedge
        · obtain rfl := List.mem_singleton.mp hedge
          exact inducedSeverity_le hentry

/-- An edge never induces more than the worst of the sources. -/
theorem propagate_bounded {sources : List Source} {maxEdges : Nat} {result : PropagationResult}
    {s : Severity} (hdecay : policy.decayPpm ≤ 1000000) (hs : s ≤ .severe)
    (hsources : ∀ source ∈ sources, source.severity ≤ s)
    (h : propagate topology sources policy maxEdges = .ok result) :
    ∀ edge ∈ result.edges, edge.induced ≤ s := by
  unfold propagate at h
  split at h
  · obtain rfl := Except.ok.inj h
    simp
  · split at h
    · cases h
    · obtain rfl := Except.ok.inj h
      refine emit_bounded _ (fun entry hentry => ?_) (by simp)
      have hordered : ∀ source ∈ orderSources sources,
          severityPressurePpm source.severity ≤ severityPressurePpm s := fun source hsource =>
        severityPressurePpm_mono (hsources source (orderSources_subset sources source hsource)) hs
      have hnone : ∀ resource target, (∅ : SortedMap ResourceId Target).find? resource =
          some target → target.pressurePpm ≤ severityPressurePpm s := by simp
      have hbest := spreadSources_bounded hdecay hordered hnone entry.1 entry.2
        (SortedMap.mem_entries_iff.mp hentry)
      exact (pressureToSeverity_mono hbest).trans_eq (pressureToSeverity_severity hs)

end PropagationEngine

end CongestionFabric
