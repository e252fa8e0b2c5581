import Mathlib.Logic.Relation
import Mathlib.Order.Lattice
import Mathlib.Data.List.Basic
import Mathlib.Tactic.Common

/-- A party that asks one thing at a time of another: what it has asked, what the other has handled
and how many answers have come back. -/
structure Lockstep (ρ : Type) where
  asked : List ρ := []
  handled : List ρ := []
  answered : Nat := 0

namespace Lockstep

/-- Asking waits for the last answer, handling follows the order of asking, and an answer follows the
handling. -/
inductive Step {ρ : Type} : Lockstep ρ → Lockstep ρ → Prop where
  | ask {l : Lockstep ρ} (r : ρ) (h : l.asked.length = l.answered) :
      Step l { l with asked := l.asked ++ [r] }
  | handle {l : Lockstep ρ} {r : ρ} {later : List ρ} (h : l.asked = l.handled ++ r :: later) :
      Step l { l with handled := l.handled ++ [r] }
  | answer {l : Lockstep ρ} (h : l.answered < l.handled.length) :
      Step l { l with answered := l.answered + 1 }

variable {ρ : Type} {l l' : Lockstep ρ}

/-- What is handled is what was asked, in order and once, one behind at most. -/
structure InStep (l : Lockstep ρ) : Prop where
  handled : l.handled <+: l.asked
  answered : l.answered ≤ l.handled.length
  asked : l.asked.length ≤ l.answered + 1

theorem InStep.start : InStep ({} : Lockstep ρ) := ⟨List.prefix_refl _, le_refl 0, by simp⟩

theorem InStep.step (h : InStep l) (hstep : Step l l') : InStep l' := by
  cases hstep with
  | ask r hlast =>
    refine ⟨h.handled.trans (List.prefix_append _ _), h.answered, ?_⟩
    dsimp only
    rw [List.length_append, List.length_singleton]
    omega
  | @handle r later hnext =>
    refine ⟨⟨later, ?_⟩, ?_, h.asked⟩
    · dsimp only
      rw [hnext, List.append_assoc, List.singleton_append]
    · have hanswered := h.answered
      dsimp only
      rw [List.length_append]
      omega
  | answer hless =>
    have hasked := h.asked
    refine ⟨h.handled, hless, ?_⟩
    dsimp only
    omega

theorem InStep.run (h : InStep l) (hrun : Relation.ReflTransGen Step l l') : InStep l' := by
  induction hrun with
  | refl => exact h
  | tail _ hstep ih => exact ih.step hstep

/-- With every answer in, everything has been handled. -/
theorem InStep.settled (h : InStep l) (hall : l.answered = l.asked.length) :
    l.handled = l.asked := by
  have hanswered := h.answered
  exact h.handled.eq_of_length_le (by omega)

end Lockstep
