import Mathlib.Data.List.Basic
import Mathlib.Tactic.Common

/-! Lists that keep the first entries up to a bound, and count the others. -/

namespace List

variable {α : Type} {bound : Nat} {all : List α}

/-- How many entries a list kept up to a bound leaves out. -/
def excess (bound : Nat) (all : List α) : Nat := all.length - bound

@[simp] theorem excess_nil : excess bound ([] : List α) = 0 := Nat.zero_sub bound

theorem excess_eq_zero : excess bound all = 0 ↔ all.length ≤ bound := Nat.sub_eq_zero_iff_le

/-- The next entry is kept as long as there is room. -/
theorem take_concat_of_room (h : (all.take bound).length < bound) (x : α) :
    (all ++ [x]).take bound = all.take bound ++ [x] := by
  have hroom : all.length < bound := by
    rw [length_take] at h
    omega
  have hlonger : (all ++ [x]).length ≤ bound := by
    rw [length_append, length_singleton]
    exact hroom
  rw [take_of_length_le hlonger, take_of_length_le (Nat.le_of_lt hroom)]

theorem excess_concat_of_room (h : (all.take bound).length < bound) (x : α) :
    excess bound (all ++ [x]) = excess bound all := by
  unfold excess
  rw [length_take] at h
  rw [length_append, length_singleton]
  omega

/-- A full list stays as it is, and leaves the next entry out. -/
theorem take_concat_of_full (h : ¬(all.take bound).length < bound) (x : α) :
    (all ++ [x]).take bound = all.take bound := by
  rw [take_append_of_le_length]
  rw [length_take] at h
  omega

theorem excess_concat_of_full (h : ¬(all.take bound).length < bound) (x : α) :
    excess bound (all ++ [x]) = excess bound all + 1 := by
  unfold excess
  rw [length_take] at h
  rw [length_append, length_singleton]
  omega

/-- Nothing is missing from a list that leaves nothing out. -/
theorem take_of_excess_eq_zero (h : excess bound all = 0) : all.take bound = all :=
  take_of_length_le (excess_eq_zero.mp h)

end List
