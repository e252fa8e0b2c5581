import Mathlib.Data.List.TakeWhile
import CongestionFabric.Eval.Induced
import CongestionFabric.Lib.BreadthFirst
import CongestionFabric.Lib.FirstBest
import CongestionFabric.Model.Adjacency

namespace CongestionFabric

namespace PropagationEngine

open BreadthFirst

variable {snapshot : TopologySnapshot} {topology : TopologyIndex} {policy : PropagationPolicy}

/-- One step of the spread as the snapshot has it: over a link, or to the next hop of a path. -/
def NeighbourVia (snapshot : TopologySnapshot) (policy : PropagationPolicy)
    (node next : ResourceId) (via : PathId) : Prop :=
  (policy.followLinks = true ∧ via = ⟨0⟩ ∧
      ∃ link ∈ snapshot.links, link.fromId = node ∧ link.toId = next) ∨
    (policy.followPaths = true ∧
      ∃ path ∈ snapshot.paths, path.id = via ∧ nextHop node path.hops = some next)

def Neighbour (snapshot : TopologySnapshot) (policy : PropagationPolicy)
    (node next : ResourceId) : Prop :=
  ∃ via, NeighbourVia snapshot policy node next via

theorem nextHop_mem {node next : ResourceId} {hops : List ResourceId}
    (h : nextHop node hops = some next) : node ∈ hops := by
  unfold nextHop at h
  by_contra hnot
  have hdrop : hops.dropWhile (fun hop => decide (hop ≠ node)) = [] := by
    rw [List.dropWhile_eq_nil_iff]
    intro hop hhop
    exact decide_eq_true fun heq => hnot (heq ▸ hhop)
  rw [hdrop] at h
  cases h

theorem mem_linkNeighbours (h : topology.Adjacent snapshot) {node next : ResourceId}
    {via : PathId} :
    toLex (next, via) ∈ (topology.successors node).map (fun r => toLex (r, (⟨0⟩ : PathId))) ↔
      via = ⟨0⟩ ∧ ∃ link ∈ snapshot.links, link.fromId = node ∧ link.toId = next := by
  rw [List.mem_map]
  constructor
  · rintro ⟨r, hr, heq⟩
    obtain ⟨rfl, rfl⟩ := Prod.mk.inj (toLex.injective heq)
    exact ⟨rfl, (h.successors node r).mp hr⟩
  · rintro ⟨rfl, hlink⟩
    exact ⟨next, (h.successors node next).mpr hlink, rfl⟩

theorem mem_pathNeighbours (h : topology.Adjacent snapshot) {node next : ResourceId}
    {via : PathId} :
    toLex (next, via) ∈
        (topology.resourcePaths node).filterMap (pathNeighbour topology node) ↔
      ∃ path ∈ snapshot.paths, path.id = via ∧ nextHop node path.hops = some next := by
  rw [List.mem_filterMap]
  constructor
  · rintro ⟨id, _, hneighbour⟩
    unfold pathNeighbour at hneighbour
    obtain ⟨record, hrecord, hnext⟩ := Option.bind_eq_some_iff.mp hneighbour
    obtain ⟨hop, hhop, heq⟩ := Option.bind_eq_some_iff.mp hnext
    obtain ⟨rfl, rfl⟩ := Prod.mk.inj (toLex.injective (Option.some.inj heq))
    obtain ⟨hmem, hid⟩ := (h.path id record).mp hrecord
    exact ⟨record, hmem, hid, hhop⟩
  · rintro ⟨path, hpath, rfl, hnext⟩
    refine ⟨path.id, (h.resourcePaths node _).mpr ⟨path, hpath, rfl, nextHop_mem hnext⟩, ?_⟩
    unfold pathNeighbour
    rw [(h.path path.id path).mpr ⟨hpath, rfl⟩]
    show (nextHop node path.hops >>= _) = _
    rw [hnext]
    rfl

theorem mem_neighbours (h : topology.Adjacent snapshot) {node next : ResourceId} {via : PathId} :
    toLex (next, via) ∈ neighbours topology node policy ↔
      NeighbourVia snapshot policy node next via := by
  unfold neighbours NeighbourVia
  dsimp only
  rw [SortedMap.mem_sortedSet, List.mem_append]
  refine or_congr ?_ ?_
  · cases policy.followLinks with
    | false => simp
    | true => simpa using mem_linkNeighbours h
  · cases policy.followPaths with
    | false => simp
    | true => simpa using mem_pathNeighbours h

/-- The edges of a node, in the order the spread takes them. -/
def edgesOf (topology : TopologyIndex) (policy : PropagationPolicy) (node : ResourceId) :
    List (ResourceId × PathId) :=
  (neighbours topology node policy).map ofLex

theorem mem_edgesOf (h : topology.Adjacent snapshot) {node next : ResourceId} {via : PathId} :
    (next, via) ∈ edgesOf topology policy node ↔ NeighbourVia snapshot policy node next via := by
  unfold edgesOf
  rw [← mem_neighbours h, List.mem_map]
  constructor
  · rintro ⟨edge, hedge, heq⟩
    rw [← heq]
    exact hedge
  · exact fun hmem => ⟨_, hmem, rfl⟩

theorem steps_edgesOf (h : topology.Adjacent snapshot) :
    Steps (edgesOf topology policy) = Neighbour snapshot policy := by
  funext node next
  exact propext (exists_congr fun via => mem_edgesOf h)

/-- A resource the snapshot does not know has no neighbours. -/
theorem contains_of_neighbour (h : topology.Adjacent snapshot) {node next : ResourceId}
    (hstep : Neighbour snapshot policy node next) : topology.contains node = true := by
  rcases hstep with ⟨via, ⟨_, _, link, hlink, hfrom, _⟩ | ⟨_, path, hpath, _, hnext⟩⟩
  · rw [← hfrom]
    exact h.links link hlink
  · exact h.hops path hpath node (nextHop_mem hnext)

/-- The pressure a node passes on. -/
def decay (policy : PropagationPolicy) (pressure : UInt32) : UInt32 :=
  ((pressure.toUInt64 * policy.decayPpm.toUInt64) / 1000000).toUInt32

/-- The pressure so many steps from where it starts. -/
def decayed (policy : PropagationPolicy) (pressure : UInt32) : Nat → UInt32
  | 0 => pressure
  | k + 1 => decay policy (decayed policy pressure k)

/-- The same in the integers: each step keeps so many parts per million, rounded down. -/
def decayedPpm (decayPpm pressure : Nat) : Nat → Nat
  | 0 => pressure
  | k + 1 => decayedPpm decayPpm pressure k * decayPpm / 1000000

theorem toNat_decay (hdecay : policy.decayPpm ≤ 1000000) (pressure : UInt32) :
    (decay policy pressure).toNat = pressure.toNat * policy.decayPpm.toNat / 1000000 := by
  have hle : policy.decayPpm.toNat ≤ 1000000 := UInt32.le_iff_toNat_le.mp hdecay
  have hlt := pressure.toNat_lt
  have hprod : pressure.toNat * policy.decayPpm.toNat ≤ pressure.toNat * 1000000 :=
    Nat.mul_le_mul_left _ hle
  have hsmall : pressure.toNat * policy.decayPpm.toNat < 2 ^ 64 := by omega
  unfold decay
  rw [UInt64.toNat_toUInt32, UInt64.toNat_div, UInt64.toNat_mul, UInt32.toNat_toUInt64,
    UInt32.toNat_toUInt64, Nat.mod_eq_of_lt hsmall]
  apply Nat.mod_eq_of_lt
  show pressure.toNat * policy.decayPpm.toNat / 1000000 < 2 ^ 32
  omega

theorem toNat_decayed (hdecay : policy.decayPpm ≤ 1000000) (pressure : UInt32) (k : Nat) :
    (decayed policy pressure k).toNat =
      decayedPpm policy.decayPpm.toNat pressure.toNat k := by
  induction k with
  | zero => rfl
  | succ k ih =>
    show (decay policy (decayed policy pressure k)).toNat = _
    rw [toNat_decay hdecay, ih]
    rfl

/-- Pressure that is worth passing on. -/
def Presses (policy : PropagationPolicy) (pressure : UInt32) : Prop :=
  policy.minPressurePpm ≤ pressure ∧ 333333 ≤ pressure

instance (pressure : UInt32) : Decidable (Presses policy pressure) :=
  inferInstanceAs (Decidable (_ ∧ _))

theorem pressureToSeverity_clear_iff {pressure : UInt32} :
    pressureToSeverity pressure = .clear ↔ pressure < 333333 := by
  unfold pressureToSeverity
  simp only [ge_iff_le, UInt32.le_iff_toNat_le, UInt32.lt_iff_toNat_lt]
  have h1 : (1000000 : UInt32).toNat = 1000000 := rfl
  have h2 : (666666 : UInt32).toNat = 666666 := rfl
  have h3 : (333333 : UInt32).toNat = 333333 := rfl
  split_ifs <;> simp <;> omega

theorem presses_of_le {p q : UInt32} (h : p ≤ q) (hp : Presses policy p) : Presses policy q :=
  ⟨UInt32.le_trans hp.1 h, UInt32.le_trans hp.2 h⟩

theorem decayed_antitone (hdecay : policy.decayPpm ≤ 1000000) (pressure : UInt32) {k m : Nat}
    (h : k ≤ m) : decayed policy pressure m ≤ decayed policy pressure k := by
  induction m with
  | zero =>
    obtain rfl : k = 0 := by omega
    exact UInt32.le_refl _
  | succ m ih =>
    by_cases heq : k = m + 1
    · rw [heq]
      exact UInt32.le_refl _
    · exact UInt32.le_trans (decayed_le _ hdecay) (ih (by omega))

/-- A resource under pressure, against what the spread holds of it. -/
def offer (best : SortedMap ResourceId Target) (entry : ResourceId × Target) :
    SortedMap ResourceId Target :=
  if replaces best entry.1 entry.2.pressurePpm entry.2.source entry.2.viaPath then
    best.insert entry.1 entry.2
  else best

def offerRank (entry : ResourceId × Target) : Nat ×ₗ (ResourceId ×ₗ PathId)ᵒᵈ :=
  toLex (entry.2.pressurePpm.toNat,
    OrderDual.toDual (toLex (entry.2.source, entry.2.viaPath)))

theorem offer_mapVal (m : SortedMap ResourceId (ResourceId × Target))
    (entry : ResourceId × Target) :
    offer (m.mapVal fun _ => Prod.snd) entry =
      (SortedMap.keepBest Prod.fst offerRank m entry).mapVal fun _ => Prod.snd := by
  unfold offer replaces SortedMap.keepBest
  rw [SortedMap.find?_mapVal]
  cases m.find? entry.1 with
  | none =>
    dsimp only [Option.map_none]
    rw [if_pos rfl, SortedMap.mapVal_insert]
  | some found =>
    dsimp only [Option.map_some]
    have hrank : offerRank found < offerRank entry ↔
        (decide (entry.2.pressurePpm > found.2.pressurePpm) ||
          (decide (entry.2.pressurePpm = found.2.pressurePpm) &&
            decide ((toLex (entry.2.source, entry.2.viaPath) : ResourceId ×ₗ PathId) <
              toLex (found.2.source, found.2.viaPath)))) = true := by
      unfold offerRank
      rw [Prod.Lex.toLex_lt_toLex]
      simp only [Bool.or_eq_true, Bool.and_eq_true, decide_eq_true_eq, gt_iff_lt,
        UInt32.lt_iff_toNat_lt, OrderDual.toDual_lt_toDual, UInt32.toNat_inj]
      rw [eq_comm (a := found.2.pressurePpm)]
    by_cases hlt : offerRank found < offerRank entry
    · rw [if_pos hlt, if_pos (hrank.mp hlt), SortedMap.mapVal_insert]
    · rw [if_neg hlt, if_neg fun h => hlt (hrank.mpr h)]

/-- Offers in a row leave the best of each resource. -/
theorem foldl_offer (offers : List (ResourceId × Target)) :
    offers.foldl offer ∅ =
      (SortedMap.bestByKey Prod.fst offerRank offers).mapVal fun _ => Prod.snd := by
  unfold SortedMap.bestByKey
  generalize hm : (∅ : SortedMap ResourceId (ResourceId × Target)) = m
  have hstart : (∅ : SortedMap ResourceId Target) = m.mapVal fun _ => Prod.snd := by
    rw [← hm]
    rfl
  rw [hstart]
  exact List.foldl_hom (SortedMap.mapVal fun (_ : ResourceId) (e : ResourceId × Target) => e.2)
    offer_mapVal

/-- The best of a resource is an offer, and no other offer of it has more pressure. -/
theorem best_offer {offers : List (ResourceId × Target)} {resource : ResourceId}
    {target : Target} (h : (offers.foldl offer ∅).find? resource = some target) :
    (resource, target) ∈ offers ∧
      ∀ entry ∈ offers, entry.1 = resource → entry.2.pressurePpm ≤ target.pressurePpm := by
  rw [foldl_offer, SortedMap.find?_mapVal, Option.map_eq_some_iff] at h
  obtain ⟨found, hfound, rfl⟩ := h
  have hbest := SortedMap.find?_bestByKey.mp hfound
  obtain ⟨hmem, hkey⟩ := List.mem_filter.mp hbest.mem
  obtain rfl : found.1 = resource := by simpa using hkey
  refine ⟨hmem, fun entry hentry heq => ?_⟩
  have hle : offerRank entry ≤ offerRank found :=
    hbest.le (List.mem_filter.mpr ⟨hentry, by simpa using heq⟩)
  rw [UInt32.le_iff_toNat_le]
  rcases Prod.Lex.toLex_le_toLex.mp hle with hlt | ⟨heq, _⟩
  · exact Nat.le_of_lt hlt
  · exact Nat.le_of_eq heq

theorem best_of_offer {offers : List (ResourceId × Target)} {entry : ResourceId × Target}
    (h : entry ∈ offers) : ∃ target, (offers.foldl offer ∅).find? entry.1 = some target := by
  rw [foldl_offer, SortedMap.find?_mapVal]
  cases hfound : (SortedMap.bestByKey Prod.fst offerRank offers).find? entry.1 with
  | some found => exact ⟨found.2, rfl⟩
  | none =>
    have hnil := SortedMap.find?_bestByKey_none.mp hfound
    have hmem : entry ∈ offers.filter fun e => e.1 = entry.1 :=
      List.mem_filter.mpr ⟨h, by simp⟩
    rw [hnil] at hmem
    exact absurd hmem List.not_mem_nil

/-- What a level of a spread holds once the search has found so much of it. -/
def levelSpread (policy : PropagationPolicy) (depth pressure : UInt32)
    (best : SortedMap ResourceId Target) (level : Level ResourceId PathId) : Spread :=
  let kept := if Presses policy pressure then level.found else []
  { best := (kept.map fun f => (f.node, (⟨pressure, depth, f.parent, f.via⟩ : Target))).foldl
      offer best
    visited := level.visited
    next := kept.map fun f => (f.node, pressure) }

theorem visit_level (depth pressure : UInt32) (best : SortedMap ResourceId Target)
    (node : ResourceId) (level : Level ResourceId PathId) (neighbour : ResourceId ×ₗ PathId) :
    visit policy depth (node, pressure)
        (levelSpread policy depth (decay policy pressure) best level) neighbour =
      levelSpread policy depth (decay policy pressure) best
        (discoverEdge node level (ofLex neighbour)) := by
  unfold visit discoverEdge
  obtain ⟨dest, via⟩ : ResourceId × PathId := ofLex neighbour
  show (if dest ∈ level.visited then _ else
    if decay policy pressure < policy.minPressurePpm then _ else
      if pressureToSeverity (decay policy pressure) = .clear then _ else _) = _
  dsimp only
  by_cases hseen : dest ∈ level.visited
  · rw [if_pos hseen, if_pos hseen]
  · rw [if_neg hseen, if_neg hseen]
    by_cases hpress : Presses policy (decay policy pressure)
    · have hmin : ¬decay policy pressure < policy.minPressurePpm := by
        rw [UInt32.not_lt]
        exact hpress.1
      have hclear : pressureToSeverity (decay policy pressure) ≠ .clear := by
        rw [Ne, pressureToSeverity_clear_iff, UInt32.not_lt]
        exact hpress.2
      rw [if_neg hmin, if_neg hclear]
      unfold levelSpread
      simp only [if_pos hpress, List.map_append, List.map_cons, List.map_nil, List.foldl_append,
        List.foldl_cons, List.foldl_nil]
      rfl
    · have hstop : decay policy pressure < policy.minPressurePpm ∨
          pressureToSeverity (decay policy pressure) = .clear := by
        rw [pressureToSeverity_clear_iff]
        by_contra hnot
        rw [not_or, UInt32.not_lt, UInt32.not_lt] at hnot
        exact hpress hnot
      have hnext : levelSpread policy depth (decay policy pressure) best
            ⟨dest :: level.visited, level.found ++ [⟨dest, node, via⟩]⟩ =
          { levelSpread policy depth (decay policy pressure) best level with
            visited := dest :: level.visited } := by
        unfold levelSpread
        simp only [if_neg hpress]
      rw [hnext]
      rcases hstop with hmin | hclear
      · rw [if_pos hmin]
        rfl
      · rw [if_pos hclear, ite_self]
        rfl

theorem visitNode_level (depth pressure : UInt32) (best : SortedMap ResourceId Target)
    (level : Level ResourceId PathId) (node : ResourceId) :
    visitNode topology policy depth
        (levelSpread policy depth (decay policy pressure) best level) (node, pressure) =
      levelSpread policy depth (decay policy pressure) best
        (discoverNode (edgesOf topology policy) level node) := by
  unfold visitNode discoverNode edgesOf
  rw [List.foldl_map]
  exact List.foldl_hom _ fun level neighbour =>
    visit_level depth pressure best node level neighbour

/-- One level of a spread is one level of the search. -/
theorem visitNodes_level (depth pressure : UInt32) (best : SortedMap ResourceId Target)
    (visited frontier : List ResourceId) (next : List (ResourceId × UInt32)) :
    (frontier.map fun node => (node, pressure)).foldl (visitNode topology policy depth)
        { ({ best, visited, next } : Spread) with next := [] } =
      levelSpread policy depth (decay policy pressure) best
        (discover (edgesOf topology policy) visited frontier) := by
  have hstart : ({ best, visited, next := [] } : Spread) =
      levelSpread policy depth (decay policy pressure) best { visited } := by
    unfold levelSpread
    simp
  dsimp only
  rw [hstart, List.foldl_map]
  exact List.foldl_hom _ fun level node => visitNode_level depth pressure best level node

/-- A target offered at this distance: the last step of a shortest walk, under what is left of the
pressure there. -/
structure Offered (topology : TopologyIndex) (policy : PropagationPolicy) (source : ResourceId)
    (pressure : UInt32) (k : Nat) (entry : ResourceId × Target) : Prop where
  target : Distance (Steps (edgesOf topology policy)) source (k + 1) entry.1
  parent : Distance (Steps (edgesOf topology policy)) source k entry.2.source
  edge : (entry.1, entry.2.viaPath) ∈ edgesOf topology policy entry.2.source
  hops : entry.2.hops.toNat = k + 1
  pressing : entry.2.pressurePpm = decayed policy pressure (k + 1)
  presses : Presses policy entry.2.pressurePpm

/-- What a spread offers from distance d on. -/
structure Offers (topology : TopologyIndex) (policy : PropagationPolicy) (source : ResourceId)
    (pressure : UInt32) (d bound : Nat) (offers : List (ResourceId × Target)) : Prop where
  sound : ∀ entry ∈ offers, ∃ k, d ≤ k ∧ k < bound ∧
    Offered topology policy source pressure k entry
  complete : ∀ k resource, d ≤ k → k < bound →
    Distance (Steps (edgesOf topology policy)) source (k + 1) resource →
    Presses policy (decayed policy pressure (k + 1)) → ∃ entry ∈ offers, entry.1 = resource ∧
      entry.2.pressurePpm = decayed policy pressure (k + 1)

theorem Offers.none_of_faint {source : ResourceId} {pressure : UInt32} {d bound : Nat}
    (hdecay : policy.decayPpm ≤ 1000000)
    (hfaint : ¬Presses policy (decayed policy pressure (d + 1))) :
    Offers topology policy source pressure d bound [] := by
  constructor
  · exact fun entry hentry => absurd hentry List.not_mem_nil
  · intro k resource hk _ _ hpress
    exact absurd (presses_of_le (decayed_antitone hdecay pressure (by omega)) hpress) hfaint

theorem Offers.none_of_end {source : ResourceId} {pressure : UInt32} {d bound : Nat}
    {visited : List ResourceId}
    (hlevel : AtLevel (edgesOf topology policy) source d visited []) :
    Offers topology policy source pressure d bound [] := by
  constructor
  · exact fun entry hentry => absurd hentry List.not_mem_nil
  · intro k resource hk _ hdistance _
    obtain ⟨b, hb⟩ := hdistance.exists_le (show d ≤ k + 1 by omega)
    exact absurd ((hlevel.outer b).mpr hb) List.not_mem_nil

/-- The offers of one level before those of the levels after it. -/
theorem Offers.append {source : ResourceId} {pressure : UInt32} {d bound : Nat}
    {visited frontier : List ResourceId} {depth : UInt32} {later : List (ResourceId × Target)}
    (hlevel : AtLevel (edgesOf topology policy) source d visited frontier)
    (hd : d < bound) (hdepth : depth.toNat = d + 1)
    (hpress : Presses policy (decayed policy pressure (d + 1)))
    (h : Offers topology policy source pressure (d + 1) bound later) :
    Offers topology policy source pressure d bound
      ((discover (edgesOf topology policy) visited frontier).found.map (fun f =>
        (f.node, (⟨decayed policy pressure (d + 1), depth, f.parent, f.via⟩ : Target))) ++
          later) := by
  constructor
  · intro entry hentry
    rcases List.mem_append.mp hentry with hnow | hlater
    · obtain ⟨f, hf, rfl⟩ := List.mem_map.mp hnow
      obtain ⟨htarget, hparent, hedge⟩ := hlevel.found hf
      exact ⟨d, Nat.le_refl d, hd, htarget, hparent, hedge, hdepth, rfl, hpress⟩
    · obtain ⟨k, hk, hbound, hoffered⟩ := h.sound entry hlater
      exact ⟨k, by omega, hbound, hoffered⟩
  · intro k resource hk hbound hdistance hpresses
    by_cases heq : k = d
    · subst heq
      have hmem := (hlevel.next.outer resource).mpr hdistance
      obtain ⟨f, hf, rfl⟩ := List.mem_map.mp hmem
      exact ⟨_, List.mem_append_left _ (List.mem_map_of_mem hf), rfl, rfl⟩
    · obtain ⟨entry, hentry, hsame⟩ := h.complete k resource (by omega) hbound hdistance hpresses
      exact ⟨entry, List.mem_append_right _ hentry, hsame⟩

theorem spreadLevels_nil (remaining : Nat) (depth : UInt32) (spread : Spread) :
    spreadLevels topology policy remaining depth [] spread = spread := by
  cases remaining with
  | zero => rfl
  | succ remaining => exact if_pos rfl

/-- The levels of a spread make exactly the offers of the distances they go through. -/
theorem spreadLevels_offers (hdecay : policy.decayPpm ≤ 1000000) {source : ResourceId}
    {pressure : UInt32} {remaining d : Nat} {depth : UInt32} {frontier : List ResourceId}
    {spread : Spread} (hbound : d + remaining < 2 ^ 32)
    (hdepth : 0 < remaining → depth.toNat = d + 1)
    (hlevel : AtLevel (edgesOf topology policy) source d spread.visited frontier) :
    ∃ offers, Offers topology policy source pressure d (d + remaining) offers ∧
      (spreadLevels topology policy remaining depth
        (frontier.map fun node => (node, decayed policy pressure d)) spread).best =
        offers.foldl offer spread.best := by
  induction remaining generalizing d depth frontier spread with
  | zero =>
    refine ⟨[], ⟨by simp, ?_⟩, rfl⟩
    intro k resource hk hlt
    omega
  | succ remaining ih =>
    have hdepth := hdepth (Nat.succ_pos _)
    unfold spreadLevels
    by_cases hend : frontier = []
    · subst hend
      exact ⟨[], Offers.none_of_end hlevel, rfl⟩
    · rw [if_neg (by simpa using hend)]
      dsimp only
      have hstep : (frontier.map fun node => (node, decayed policy pressure d)).foldl
            (visitNode topology policy depth) { spread with next := [] } =
          levelSpread policy depth (decayed policy pressure (d + 1)) spread.best
            (discover (edgesOf topology policy) spread.visited frontier) :=
        visitNodes_level depth _ spread.best spread.visited frontier spread.next
      rw [hstep]
      generalize hlevelSpread : levelSpread policy depth (decayed policy pressure (d + 1))
        spread.best (discover (edgesOf topology policy) spread.visited frontier) = spread'
      have hvisited : spread'.visited =
          (discover (edgesOf topology policy) spread.visited frontier).visited := by
        rw [← hlevelSpread]
        rfl
      by_cases hpress : Presses policy (decayed policy pressure (d + 1))
      · -- the level is kept: its offers come first, and what it found is the next frontier
        have hnext : spread'.next =
            ((discover (edgesOf topology policy) spread.visited frontier).found.map
              (·.node)).map fun node => (node, decayed policy pressure (d + 1)) := by
          rw [← hlevelSpread, List.map_map]
          unfold levelSpread
          rw [if_pos hpress]
          rfl
        have hbest := congrArg Spread.best hlevelSpread
        unfold levelSpread at hbest
        rw [if_pos hpress] at hbest
        have hdepth' : 0 < remaining → (depth + 1).toNat = d + 1 + 1 := by
          intro hpos
          rw [UInt32.toNat_add, hdepth]
          exact Nat.mod_eq_of_lt (show d + 1 + 1 < 2 ^ 32 by omega)
        have hlevel' := hlevel.next
        rw [← hvisited] at hlevel'
        obtain ⟨later, hlater, hrest⟩ := ih (by omega) hdepth' hlevel'
        rw [show d + 1 + remaining = d + (remaining + 1) by omega] at hlater
        refine ⟨_, Offers.append hlevel (by omega) hdepth hpress hlater, ?_⟩
        rw [hnext, hrest, List.foldl_append, ← hbest]
      · -- the pressure has faded: nothing is offered and nothing goes further
        have hnext : spread'.next = [] := by
          rw [← hlevelSpread]
          unfold levelSpread
          rw [if_neg hpress]
          rfl
        have hbest : spread'.best = spread.best := by
          rw [← hlevelSpread]
          unfold levelSpread
          rw [if_neg hpress]
          rfl
        rw [hnext, spreadLevels_nil, hbest]
        exact ⟨[], Offers.none_of_faint hdecay hpress, rfl⟩

theorem Offers.none_of_alone {source : ResourceId} {pressure : UInt32} {bound : Nat}
    (h : topology.Adjacent snapshot) (halone : topology.contains source = false) :
    Offers topology policy source pressure 0 bound [] := by
  constructor
  · exact fun entry hentry => absurd hentry List.not_mem_nil
  · intro k resource _ _ hdistance _
    obtain ⟨b, hb⟩ := hdistance.exists_le (show 0 + 1 ≤ k + 1 by omega)
    obtain ⟨start, hstart, hstep⟩ := hb.pred
    obtain rfl := distance_zero.mp hstart
    rw [steps_edgesOf h] at hstep
    have hcontains := contains_of_neighbour h hstep
    rw [halone] at hcontains
    cases hcontains

/-- A source makes exactly the offers of what it reaches. -/
theorem spreadSource_offers (h : topology.Adjacent snapshot) (hdecay : policy.decayPpm ≤ 1000000)
    (best : SortedMap ResourceId Target) (source : Source) :
    ∃ offers, Offers topology policy source.resource (severityPressurePpm source.severity) 0
        policy.maxDepth.toNat offers ∧
      spreadSource topology policy best source = offers.foldl offer best := by
  unfold spreadSource
  split
  next hstop =>
    rcases hstop with hclear | halone
    · refine ⟨[], Offers.none_of_faint hdecay fun hpress => ?_, rfl⟩
      have hle := UInt32.le_trans hpress.2 (decayed_antitone hdecay _ (Nat.zero_le (0 + 1)))
      rw [hclear] at hle
      exact absurd (show (333333 : UInt32) ≤ 0 from hle) (by decide)
    · exact ⟨[], Offers.none_of_alone h (by simpa using halone), rfl⟩
  next =>
    have hlevels := @spreadLevels_offers topology policy hdecay source.resource
      (severityPressurePpm source.severity) policy.maxDepth.toNat 0 1 [source.resource]
      { best, visited := [source.resource] } (by rw [Nat.zero_add]; exact policy.maxDepth.toNat_lt)
      (fun _ => rfl) (AtLevel.start _ _)
    rw [Nat.zero_add] at hlevels
    exact hlevels

/-- All sources together make the offers of each. -/
theorem spreadSources_offers (h : topology.Adjacent snapshot)
    (hdecay : policy.decayPpm ≤ 1000000) (sources : List Source)
    (best : SortedMap ResourceId Target) :
    ∃ offers, sources.foldl (spreadSource topology policy) best = offers.foldl offer best ∧
      (∀ entry ∈ offers, ∃ source ∈ sources, ∃ own, entry ∈ own ∧
        Offers topology policy source.resource (severityPressurePpm source.severity) 0
          policy.maxDepth.toNat own) ∧
      ∀ source ∈ sources, ∃ own, own ⊆ offers ∧
        Offers topology policy source.resource (severityPressurePpm source.severity) 0
          policy.maxDepth.toNat own := by
  induction sources generalizing best with
  | nil => exact ⟨[], rfl, by simp, by simp⟩
  | cons source rest ih =>
    obtain ⟨own, hown, hsource⟩ := spreadSource_offers h hdecay best source
    obtain ⟨offers, hfold, hsound, hcomplete⟩ := ih (spreadSource topology policy best source)
    refine ⟨own ++ offers, ?_, fun entry hentry => ?_, fun other hother => ?_⟩
    · rw [List.foldl_cons, hfold, List.foldl_append, hsource]
    · rcases List.mem_append.mp hentry with hentry | hentry
      · exact ⟨source, List.mem_cons_self, own, hentry, hown⟩
      · obtain ⟨other, hother, hrest⟩ := hsound entry hentry
        exact ⟨other, List.mem_cons_of_mem _ hother, hrest⟩
    · rcases List.mem_cons.mp hother with rfl | hother
      · exact ⟨own, List.subset_append_left _ _, hown⟩
      · obtain ⟨own', hsub, hoffers⟩ := hcomplete other hother
        exact ⟨own', List.Subset.trans hsub (List.subset_append_right _ _), hoffers⟩

end PropagationEngine

end CongestionFabric
