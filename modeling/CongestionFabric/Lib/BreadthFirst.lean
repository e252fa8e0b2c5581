import Mathlib.Algebra.GroupWithZero.Nat
import Mathlib.Tactic.Common
import Mathlib.Data.List.Basic
import Mathlib.Data.Nat.Find

/-- A walk of so many steps. -/
inductive Walk {α : Type} (step : α → α → Prop) (a : α) : Nat → α → Prop where
  | start : Walk step a 0 a
  | next {n : Nat} {b c : α} (walk : Walk step a n b) (hstep : step b c) : Walk step a (n + 1) c

/-- The shortest walk has so many steps. -/
def Distance {α : Type} (step : α → α → Prop) (a : α) (n : Nat) (b : α) : Prop :=
  Walk step a n b ∧ ∀ m < n, ¬Walk step a m b

def Within {α : Type} (step : α → α → Prop) (a : α) (n : Nat) (b : α) : Prop :=
  ∃ m ≤ n, Walk step a m b

section

variable {α : Type} {step : α → α → Prop} {a b c : α} {n m : Nat}

theorem walk_zero : Walk step a 0 b ↔ b = a := by
  constructor
  · intro h
    cases h
    rfl
  · rintro rfl
    exact .start

theorem walk_succ : Walk step a (n + 1) c ↔ ∃ b, Walk step a n b ∧ step b c := by
  constructor
  · intro h
    cases h with
    | next walk hstep => exact ⟨_, walk, hstep⟩
  · rintro ⟨b, walk, hstep⟩
    exact walk.next hstep

theorem distance_zero : Distance step a 0 b ↔ b = a := by
  unfold Distance
  rw [walk_zero]
  exact and_iff_left fun m hm => absurd hm (Nat.not_lt_zero m)

theorem Distance.unique (h : Distance step a n b) (h' : Distance step a m b) : n = m := by
  rcases Nat.lt_trichotomy n m with hlt | heq | hlt
  · exact absurd h.1 (h'.2 n hlt)
  · exact heq
  · exact absurd h'.1 (h.2 m hlt)

theorem Within.distance (h : Within step a n b) : ∃ m ≤ n, Distance step a m b := by
  classical
  obtain ⟨m, hm, walk⟩ := h
  have hex : ∃ m, Walk step a m b := ⟨m, walk⟩
  refine ⟨Nat.find hex, Nat.le_trans (Nat.find_min' hex walk) hm, Nat.find_spec hex, ?_⟩
  exact fun k hk => Nat.find_min hex hk

/-- Before the last step of a shortest walk one is a step nearer. -/
theorem Distance.pred (h : Distance step a (n + 1) c) : ∃ b, Distance step a n b ∧ step b c := by
  obtain ⟨b, walk, hstep⟩ := walk_succ.mp h.1
  refine ⟨b, ⟨walk, fun m hm hshort => ?_⟩, hstep⟩
  exact h.2 (m + 1) (by omega) (hshort.next hstep)

/-- A shortest walk passes every distance on its way. -/
theorem Distance.exists_le (h : Distance step a n c) (hm : m ≤ n) :
    ∃ b, Distance step a m b := by
  induction n generalizing c with
  | zero =>
    obtain rfl : m = 0 := by omega
    exact ⟨c, h⟩
  | succ n ih =>
    by_cases heq : m = n + 1
    · rw [heq]
      exact ⟨c, h⟩
    · obtain ⟨b, hb, _⟩ := h.pred
      exact ih hb (by omega)

theorem within_succ : Within step a (n + 1) c ↔
    Within step a n c ∨ ∃ b, Distance step a n b ∧ step b c := by
  constructor
  · intro h
    obtain ⟨m, hm, hdistance⟩ := h.distance
    by_cases heq : m = n + 1
    · subst heq
      exact .inr hdistance.pred
    · exact .inl ⟨m, by omega, hdistance.1⟩
  · rintro (⟨m, hm, walk⟩ | ⟨b, hb, hstep⟩)
    · exact ⟨m, by omega, walk⟩
    · exact ⟨n + 1, Nat.le_refl _, hb.1.next hstep⟩

/-- The next distance is what a further step reaches and no shorter walk does. -/
theorem distance_succ : Distance step a (n + 1) c ↔
    ¬Within step a n c ∧ ∃ b, Distance step a n b ∧ step b c := by
  constructor
  · intro h
    refine ⟨?_, h.pred⟩
    rintro ⟨m, hm, walk⟩
    exact h.2 m (by omega) walk
  · rintro ⟨hnot, b, hb, hstep⟩
    refine ⟨hb.1.next hstep, fun m hm walk => hnot ⟨m, by omega, walk⟩⟩

end

namespace BreadthFirst

variable {α ι : Type} [DecidableEq α] {edges : α → List (α × ι)} {visited frontier : List α}
  {a x : α} {d : Nat}

/-- A node found on a level, and the edge it was found by. -/
structure Found (α ι : Type) where
  node : α
  parent : α
  via : ι

/-- The nodes visited so far and what this level has found. -/
structure Level (α ι : Type) where
  visited : List α
  found : List (Found α ι) := []

def discoverEdge (parent : α) (level : Level α ι) (edge : α × ι) : Level α ι :=
  if edge.1 ∈ level.visited then level
  else { visited := edge.1 :: level.visited, found := level.found ++ [⟨edge.1, parent, edge.2⟩] }

def discoverNode (edges : α → List (α × ι)) (level : Level α ι) (node : α) : Level α ι :=
  (edges node).foldl (discoverEdge node) level

/-- One level of the search: the unvisited ends of the edges of the frontier. -/
def discover (edges : α → List (α × ι)) (visited frontier : List α) : Level α ι :=
  frontier.foldl (discoverNode edges) { visited }

/-- One step along an edge. -/
def Steps (edges : α → List (α × ι)) (a b : α) : Prop := ∃ via, (b, via) ∈ edges a

/-- What the search has found of these edges, from what was visited before. -/
structure Discovered (edges : α → List (α × ι)) (visited frontier : List α) (level : Level α ι) :
    Prop where
  grown : ∀ x, x ∈ level.visited ↔ x ∈ visited ∨ ∃ f ∈ level.found, f.node = x
  fresh : ∀ f ∈ level.found, f.node ∉ visited
  edge : ∀ f ∈ level.found, f.parent ∈ frontier ∧ (f.node, f.via) ∈ edges f.parent

theorem Discovered.edgeStep {level : Level α ι} (h : Discovered edges visited frontier level)
    {parent : α} (hparent : parent ∈ frontier) {edge : α × ι} (hedge : edge ∈ edges parent) :
    Discovered edges visited frontier (discoverEdge parent level edge) ∧
      ∀ x, x ∈ (discoverEdge parent level edge).visited ↔ x ∈ level.visited ∨ x = edge.1 := by
  unfold discoverEdge
  split
  next hseen =>
    refine ⟨h, fun x => ?_⟩
    constructor
    · exact .inl
    · rintro (hx | rfl)
      · exact hx
      · exact hseen
  next hnew =>
    have hbefore : edge.1 ∉ visited := fun hmem => hnew ((h.grown _).mpr (.inl hmem))
    refine ⟨⟨fun x => ?_, ?_, ?_⟩, fun x => ?_⟩
    · dsimp only
      simp only [List.mem_cons, List.mem_append, List.not_mem_nil, or_false, or_and_right,
        exists_or, exists_eq_left, h.grown x]
      constructor
      · rintro (rfl | hx | hx)
        · exact .inr (.inr rfl)
        · exact .inl hx
        · exact .inr (.inl hx)
      · rintro (hx | hx | rfl)
        · exact .inr (.inl hx)
        · exact .inr (.inr hx)
        · exact .inl rfl
    · intro f hf
      rcases List.mem_append.mp hf with hf | hf
      · exact h.fresh f hf
      · obtain rfl := List.mem_singleton.mp hf
        exact hbefore
    · intro f hf
      rcases List.mem_append.mp hf with hf | hf
      · exact h.edge f hf
      · obtain rfl := List.mem_singleton.mp hf
        exact ⟨hparent, hedge⟩
    · dsimp only
      rw [List.mem_cons, or_comm]

theorem Discovered.nodeStep {level : Level α ι} (h : Discovered edges visited frontier level)
    {node : α} (hnode : node ∈ frontier) :
    Discovered edges visited frontier (discoverNode edges level node) ∧
      ∀ x, x ∈ (discoverNode edges level node).visited ↔
        x ∈ level.visited ∨ Steps edges node x := by
  have hfold : ∀ (rest : List (α × ι)), rest ⊆ edges node → ∀ level : Level α ι,
      Discovered edges visited frontier level →
      Discovered edges visited frontier (rest.foldl (discoverEdge node) level) ∧
        ∀ x, x ∈ (rest.foldl (discoverEdge node) level).visited ↔
          x ∈ level.visited ∨ ∃ via, (x, via) ∈ rest := by
    intro rest
    induction rest with
    | nil => exact fun _ level h => ⟨h, by simp⟩
    | cons edge rest ih =>
      intro hsub level h
      obtain ⟨hedge, hrest⟩ := List.cons_subset.mp hsub
      obtain ⟨hstep, hvisited⟩ := h.edgeStep hnode hedge
      obtain ⟨hall, hvisited'⟩ := ih hrest _ hstep
      refine ⟨hall, fun x => ?_⟩
      rw [List.foldl_cons, hvisited', hvisited, or_assoc]
      refine or_congr Iff.rfl ?_
      constructor
      · rintro (rfl | ⟨via, hvia⟩)
        · exact ⟨edge.2, List.mem_cons_self⟩
        · exact ⟨via, List.mem_cons_of_mem _ hvia⟩
      · rintro ⟨via, hvia⟩
        rcases List.mem_cons.mp hvia with heq | hvia
        · exact .inl (congrArg Prod.fst heq)
        · exact .inr ⟨via, hvia⟩
  exact hfold _ (List.Subset.refl _) level h

/-- A level visits what it had and the ends of the edges of its frontier. -/
theorem discover_spec (edges : α → List (α × ι)) (visited frontier : List α) :
    Discovered edges visited frontier (discover edges visited frontier) ∧
      ∀ x, x ∈ (discover edges visited frontier).visited ↔
        x ∈ visited ∨ ∃ node ∈ frontier, Steps edges node x := by
  have hfold : ∀ (rest : List α), rest ⊆ frontier → ∀ level : Level α ι,
      Discovered edges visited frontier level →
      Discovered edges visited frontier (rest.foldl (discoverNode edges) level) ∧
        ∀ x, x ∈ (rest.foldl (discoverNode edges) level).visited ↔
          x ∈ level.visited ∨ ∃ node ∈ rest, Steps edges node x := by
    intro rest
    induction rest with
    | nil => exact fun _ level h => ⟨h, by simp⟩
    | cons node rest ih =>
      intro hsub level h
      obtain ⟨hnode, hrest⟩ := List.cons_subset.mp hsub
      obtain ⟨hstep, hvisited⟩ := h.nodeStep hnode
      obtain ⟨hall, hvisited'⟩ := ih hrest _ hstep
      refine ⟨hall, fun x => ?_⟩
      rw [List.foldl_cons, hvisited', hvisited, or_assoc, List.exists_mem_cons_iff]
  exact hfold _ (List.Subset.refl _) { visited } ⟨fun x => by simp, by simp, by simp⟩

/-- The search stands at this distance: it has visited all up to it, and its frontier is all at
it. -/
structure AtLevel (edges : α → List (α × ι)) (a : α) (d : Nat) (visited frontier : List α) :
    Prop where
  inner : ∀ x, x ∈ visited ↔ Within (Steps edges) a d x
  outer : ∀ x, x ∈ frontier ↔ Distance (Steps edges) a d x

omit [DecidableEq α] in
theorem AtLevel.start (edges : α → List (α × ι)) (a : α) : AtLevel edges a 0 [a] [a] := by
  constructor
  · intro x
    rw [List.mem_singleton]
    constructor
    · rintro rfl
      exact ⟨0, Nat.le_refl _, .start⟩
    · rintro ⟨m, hm, walk⟩
      obtain rfl : m = 0 := by omega
      exact walk_zero.mp walk
  · intro x
    rw [List.mem_singleton, distance_zero]

/-- A level moves the search one step out. -/
theorem AtLevel.next (h : AtLevel edges a d visited frontier) :
    AtLevel edges a (d + 1) (discover edges visited frontier).visited
      ((discover edges visited frontier).found.map (·.node)) := by
  obtain ⟨hfound, hvisited⟩ := discover_spec edges visited frontier
  have hreached : ∀ x, (∃ node ∈ frontier, Steps edges node x) ↔
      ∃ b, Distance (Steps edges) a d b ∧ Steps edges b x := fun x => by simp only [h.outer]
  constructor
  · intro x
    rw [hvisited, h.inner, hreached, within_succ]
  · intro x
    rw [distance_succ, ← h.inner, ← hreached, List.mem_map]
    constructor
    · rintro ⟨f, hf, rfl⟩
      obtain ⟨hparent, hedge⟩ := hfound.edge f hf
      exact ⟨hfound.fresh f hf, f.parent, hparent, f.via, hedge⟩
    · rintro ⟨hfresh, hstep⟩
      exact ((hfound.grown x).mp ((hvisited x).mpr (.inr hstep))).resolve_left hfresh

/-- What a level finds is one step out, from a parent one step nearer. -/
theorem AtLevel.found (h : AtLevel edges a d visited frontier) {f : Found α ι}
    (hf : f ∈ (discover edges visited frontier).found) :
    Distance (Steps edges) a (d + 1) f.node ∧ Distance (Steps edges) a d f.parent ∧
      (f.node, f.via) ∈ edges f.parent := by
  obtain ⟨hparent, hedge⟩ := (discover_spec edges visited frontier).1.edge f hf
  exact ⟨(h.next.outer _).mp (List.mem_map_of_mem hf), (h.outer _).mp hparent, hedge⟩

end BreadthFirst
