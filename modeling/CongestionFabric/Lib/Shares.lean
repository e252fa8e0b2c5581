import Mathlib.Algebra.GroupWithZero.Nat
import Mathlib.Tactic.Common

/-! Shares of a whole, rounded down. -/

variable {d : Nat}

/-- The share of a whole, computed from its quotient and its remainder. -/
theorem share_split (hd : 0 < d) (t m : Nat) : t / d * m + t % d * m / d = t * m / d := by
  have hwhole : t * m = d * (t / d * m) + t % d * m := by
    have hsplit := Nat.div_add_mod t d
    calc t * m = (d * (t / d) + t % d) * m := by rw [hsplit]
      _ = d * (t / d * m) + t % d * m := by rw [Nat.add_mul, Nat.mul_assoc]
  rw [hwhole, Nat.mul_add_div hd]

theorem share_le_whole {m : Nat} (hm : m ≤ d) (t : Nat) : t * m / d ≤ t := by
  apply Nat.div_le_of_le_mul
  rw [Nat.mul_comm d t]
  exact Nat.mul_le_mul_left t hm

theorem share_mono {m n : Nat} (h : m ≤ n) (t : Nat) : t * m / d ≤ t * n / d :=
  Nat.div_le_div_right (Nat.mul_le_mul_left t h)

/-- A larger whole loses no more than it is larger by. -/
theorem share_add_le {m t u : Nat} (hd : 0 < d) (hm : m ≤ d) (h : t ≤ u) :
    u * m / d ≤ t * m / d + (u - t) := by
  have hmore : u * m ≤ t * m + d * (u - t) := by
    calc u * m = t * m + (u - t) * m := by rw [← Nat.add_mul, Nat.add_sub_cancel' h]
      _ ≤ t * m + (u - t) * d := Nat.add_le_add_left (Nat.mul_le_mul_left _ hm) _
      _ = t * m + d * (u - t) := by rw [Nat.mul_comm d]
  have hdiv := @Nat.div_le_div_right _ _ d hmore
  rwa [Nat.add_mul_div_left _ _ hd] at hdiv

theorem sub_share_mono {m t u : Nat} (hd : 0 < d) (hm : m ≤ d) (h : t ≤ u) :
    t - t * m / d ≤ u - u * m / d := by
  have hshare := share_add_le hd hm h
  have hwhole := share_le_whole hm t
  omega

theorem add_share_mono {m t u : Nat} (h : t ≤ u) : t + t * m / d ≤ u + u * m / d :=
  Nat.add_le_add h (Nat.div_le_div_right (Nat.mul_le_mul_right m h))
