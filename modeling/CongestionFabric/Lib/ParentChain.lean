import Mathlib.Data.Set.Card
import Mathlib.Logic.Relation

/-! Chains of a partial function that names for each element the one above it. -/

namespace ParentChain

variable {α : Type} {up : α → Option α}

/-- The second is named above the first. -/
def Above (up : α → Option α) (a b : α) : Prop := up a = some b

/-- Everything above an element, at any distance. -/
def ancestors (up : α → Option α) (a : α) : Set α := {b | Relation.TransGen (Above up) a b}

def Acyclic (up : α → Option α) : Prop := ∀ a, ¬Relation.TransGen (Above up) a a

/-- The element so many steps up. -/
def climb (up : α → Option α) : Nat → α → Option α
  | 0, a => some a
  | n + 1, a => (up a).bind (climb up n)

theorem climb_succ (n : Nat) (a : α) : climb up (n + 1) a = (up a).bind (climb up n) := rfl

theorem climb_add (m n : Nat) (a : α) :
    climb up (m + n) a = (climb up m a).bind (climb up n) := by
  induction m generalizing a with
  | zero =>
    rw [Nat.zero_add]
    rfl
  | succ m ih =>
    rw [Nat.succ_add, climb_succ, climb_succ]
    cases up a with
    | none => rfl
    | some b => exact ih b

theorem climb_none_of_le {m n : Nat} {a : α} (h : m ≤ n) (hm : climb up m a = none) :
    climb up n a = none := by
  obtain ⟨k, rfl⟩ := Nat.exists_eq_add_of_le h
  rw [climb_add, hm]
  rfl

theorem transGen_iff_climb {a b : α} :
    Relation.TransGen (Above up) a b ↔ ∃ n, climb up (n + 1) a = some b := by
  constructor
  · intro h
    induction h with
    | single hab =>
      refine ⟨0, ?_⟩
      rw [climb_succ, hab]
      rfl
    | tail _ hbc ih =>
      obtain ⟨n, hn⟩ := ih
      refine ⟨n + 1, ?_⟩
      rw [climb_add, hn, Option.bind_some, climb_succ, hbc]
      rfl
  · rintro ⟨n, hn⟩
    induction n generalizing a with
    | zero =>
      obtain ⟨c, hac, hc⟩ := Option.bind_eq_some_iff.mp hn
      obtain rfl := Option.some.inj hc
      exact .single hac
    | succ n ih =>
      obtain ⟨c, hac, hc⟩ := Option.bind_eq_some_iff.mp hn
      exact .head hac (ih hc)

/-- On the way up nothing is met twice. -/
theorem Acyclic.climb_injective (h : Acyclic up) {m n : Nat} {a b : α}
    (hm : climb up m a = some b) (hn : climb up n a = some b) : m = n := by
  have hlt : ∀ {m n : Nat}, climb up m a = some b → climb up n a = some b → ¬m < n := by
    intro m n hm hn hlt
    obtain ⟨k, rfl⟩ := Nat.exists_eq_add_of_lt hlt
    rw [Nat.add_assoc, climb_add, hm] at hn
    exact h b (transGen_iff_climb.mpr ⟨k, hn⟩)
  have hle := hlt hm hn
  have hge := hlt hn hm
  omega

/-- A chain that comes to an end has no more ancestors than steps. -/
theorem encard_ancestors_le {k : Nat} {a : α} (h : climb up (k + 1) a = none) :
    (ancestors up a).encard ≤ k := by
  have hsub : some '' ancestors up a ⊆ (fun n => climb up (n + 1) a) '' (Finset.range k : Set ℕ) := by
    rintro _ ⟨b, hb, rfl⟩
    obtain ⟨n, hn⟩ := transGen_iff_climb.mp hb
    refine ⟨n, ?_, hn⟩
    by_contra hge
    have hle : k + 1 ≤ n + 1 := by simpa using hge
    rw [climb_none_of_le hle h] at hn
    cases hn
  calc (ancestors up a).encard
      = (some '' ancestors up a).encard := ((Option.some_injective α).encard_image _).symm
    _ ≤ ((fun n => climb up (n + 1) a) '' (Finset.range k : Set ℕ)).encard := Set.encard_le_encard hsub
    _ ≤ (Finset.range k : Set ℕ).encard := Set.encard_image_le _ _
    _ = k := by
      rw [Set.encard_coe_eq_coe_finsetCard, Finset.card_range]

/-- One that goes on further has more. -/
theorem Acyclic.lt_encard_ancestors (hacyclic : Acyclic up) {k : Nat} {a c : α}
    (h : climb up (k + 1) a = some c) : (k : ℕ∞) < (ancestors up a).encard := by
  have hall : ∀ n ∈ (Finset.range (k + 1) : Set ℕ), ∃ b, climb up (n + 1) a = some b := by
    intro n hn
    cases hb : climb up (n + 1) a with
    | some b => exact ⟨b, rfl⟩
    | none =>
      have hle : n + 1 ≤ k + 1 := by simpa using hn
      rw [climb_none_of_le hle hb] at h
      cases h
  have hsub : (fun n => climb up (n + 1) a) '' (Finset.range (k + 1) : Set ℕ) ⊆
      some '' ancestors up a := by
    rintro _ ⟨n, hn, rfl⟩
    obtain ⟨b, hb⟩ := hall n hn
    exact ⟨b, transGen_iff_climb.mpr ⟨n, hb⟩, hb.symm⟩
  have hinjective : Set.InjOn (fun n => climb up (n + 1) a) (Finset.range (k + 1) : Set ℕ) := by
    intro m hm n _ heq
    obtain ⟨b, hb⟩ := hall m hm
    have hsame := hacyclic.climb_injective hb (heq.symm.trans hb)
    omega
  have hcard : (Finset.range (k + 1) : Set ℕ).encard = ((k + 1 : Nat) : ℕ∞) := by
    rw [Set.encard_coe_eq_coe_finsetCard, Finset.card_range]
  calc (k : ℕ∞) < ((k + 1 : Nat) : ℕ∞) := by exact_mod_cast Nat.lt_succ_self k
    _ = ((fun n => climb up (n + 1) a) '' (Finset.range (k + 1) : Set ℕ)).encard := by
      rw [hinjective.encard_image, hcard]
    _ ≤ (some '' ancestors up a).encard := Set.encard_le_encard hsub
    _ = (ancestors up a).encard := (Option.some_injective α).encard_image _

/-- All chains end within a bound exactly when there is no cycle and nobody has more ancestors than
the bound. -/
theorem climb_none_iff {k : Nat} : (∀ a, climb up (k + 1) a = none) ↔
    Acyclic up ∧ ∀ a, (ancestors up a).encard ≤ k := by
  constructor
  · intro h
    refine ⟨?_, fun a => encard_ancestors_le (h a)⟩
    intro a hcycle
    obtain ⟨n, hn⟩ := transGen_iff_climb.mp hcycle
    have hround : ∀ j, climb up (j * (n + 1)) a = some a := by
      intro j
      induction j with
      | zero => rw [Nat.zero_mul]; rfl
      | succ j ih => rw [Nat.succ_mul, climb_add, ih]; exact hn
    have hnone := climb_none_of_le (Nat.le_mul_of_pos_right (k + 1) (Nat.succ_pos n)) (h a)
    rw [hround] at hnone
    cases hnone
  · rintro ⟨hacyclic, hcard⟩ a
    cases hclimb : climb up (k + 1) a with
    | none => rfl
    | some c => exact absurd (hcard a) (not_le.mpr (hacyclic.lt_encard_ancestors hclimb))

end ParentChain
