import Mathlib.Algebra.GroupWithZero.Nat
import Mathlib.Data.List.DropRight
import Mathlib.Tactic.Common

/-! Lines written one after another into a bounded text, and a notice that is given room at the end
of it. -/

namespace BudgetedText

variable {α : Type} {newline : α} {budget : Nat}

/-- A line of its own, left out without a word if it does not fit; or a block of lines, cut at the
first that does not fit and counted. -/
inductive Passage (α : Type) where
  | line (chars : List α)
  | block (lines : List (List α))

structure Draft (α : Type) where
  out : List α := []
  truncated : Nat := 0

/-- The text with the line at its end, if it fits. -/
def put (newline : α) (budget : Nat) (out line : List α) : Option (List α) :=
  if out.length + line.length + 1 > budget then none else some (out ++ (line ++ [newline]))

def putBlock (newline : α) (budget : Nat) : List (List α) → Draft α → Draft α
  | [], d => d
  | line :: lines, d =>
    match put newline budget d.out line with
    | none => { d with truncated := d.truncated + 1 }
    | some out => putBlock newline budget lines { d with out }

def write (newline : α) (budget : Nat) (d : Draft α) : Passage α → Draft α
  | .line chars => { d with out := (put newline budget d.out chars).getD d.out }
  | .block lines => putBlock newline budget lines d

/-- The part of the text that is kept when a notice has to follow it. -/
def makeRoom [DecidableEq α] (newline : α) (budget : Nat) (notice out : List α) :
    Option (List α) :=
  if out.length + notice.length ≤ budget then some out
  else if notice.length < budget then
    some ((out.take (budget - notice.length)).rdropWhile fun c => c ≠ newline)
  else none

def Passage.lines : Passage α → List (List α)
  | .line chars => [chars]
  | .block lines => lines

/-- The text that leaves nothing out. -/
def whole (newline : α) (parts : List (Passage α)) : List α :=
  parts.flatMap fun part => part.lines.flatMap fun line => line ++ [newline]

/-- The room that lines need. -/
def room (lines : List (List α)) : Nat := (lines.map fun line => line.length + 1).sum

/-- Room used after a part, where a block is charged in full and a line only if it fits. -/
def charge (budget used : Nat) : Passage α → Nat
  | .line chars => if used + chars.length + 1 > budget then used else used + chars.length + 1
  | .block lines => used + room lines

@[simp] theorem charge_line (used : Nat) (chars : List α) : charge budget used (.line chars) =
    if used + chars.length + 1 > budget then used else used + chars.length + 1 := rfl

@[simp] theorem charge_block (used : Nat) (lines : List (List α)) :
    charge budget used (.block lines) = used + room lines := rfl

/-! ### One line -/

theorem put_fits {out line : List α} (h : out.length + (line.length + 1) ≤ budget) :
    put newline budget out line = some (out ++ (line ++ [newline])) :=
  if_neg (by omega)

theorem length_put {out out' line : List α} (h : put newline budget out line = some out') :
    out'.length = out.length + (line.length + 1) ∧ out'.length ≤ budget := by
  unfold put at h
  split at h
  next => cases h
  next hfits =>
    obtain rfl := Option.some.inj h
    have hlength : (out ++ (line ++ [newline])).length = out.length + (line.length + 1) := by simp
    omega

/-! ### A block -/

theorem room_cons (line : List α) (lines : List (List α)) :
    room (line :: lines) = line.length + 1 + room lines := by
  simp [room]

theorem length_flatMap_newline (lines : List (List α)) :
    (lines.flatMap fun line => line ++ [newline]).length = room lines := by
  induction lines with
  | nil => rfl
  | cons line lines ih =>
    rw [List.flatMap_cons, List.length_append, ih, room_cons, List.length_append]
    rfl

theorem putBlock_bounded {lines : List (List α)} {d : Draft α} (h : d.out.length ≤ budget) :
    (putBlock newline budget lines d).out.length ≤ budget := by
  induction lines generalizing d with
  | nil => exact h
  | cons line lines ih =>
    rw [putBlock]
    cases hput : put newline budget d.out line with
    | none => exact h
    | some out =>
      apply ih
      exact (length_put hput).2

theorem putBlock_fits {lines : List (List α)} {d : Draft α}
    (h : d.out.length + room lines ≤ budget) :
    putBlock newline budget lines d =
      { d with out := d.out ++ lines.flatMap fun line => line ++ [newline] } := by
  induction lines generalizing d with
  | nil => simp [putBlock]
  | cons line lines ih =>
    rw [room_cons] at h
    have hput := @put_fits α newline budget d.out line (by omega)
    have hlength := (length_put hput).1
    rw [putBlock, hput]
    dsimp only
    rw [ih (by dsimp only; omega), List.flatMap_cons, List.append_assoc]

theorem putBlock_cut {lines : List (List α)} {d : Draft α} (hd : d.out.length ≤ budget)
    (h : budget < d.out.length + room lines) :
    d.truncated < (putBlock newline budget lines d).truncated := by
  induction lines generalizing d with
  | nil =>
    simp only [room, List.map_nil, List.sum_nil] at h
    omega
  | cons line lines ih =>
    rw [putBlock]
    cases hput : put newline budget d.out line with
    | none => exact Nat.lt_succ_self _
    | some out =>
      obtain ⟨hlength, hfits⟩ := length_put hput
      rw [room_cons] at h
      exact @ih { d with out } hfits (by dsimp only; omega)

theorem truncated_le_putBlock (lines : List (List α)) (d : Draft α) :
    d.truncated ≤ (putBlock newline budget lines d).truncated := by
  induction lines generalizing d with
  | nil => exact Nat.le_refl _
  | cons line lines ih =>
    rw [putBlock]
    cases put newline budget d.out line with
    | none => exact Nat.le_succ _
    | some out => exact ih { d with out }

/-! ### All parts -/

theorem write_bounded {d : Draft α} (h : d.out.length ≤ budget) (part : Passage α) :
    (write newline budget d part).out.length ≤ budget := by
  cases part with
  | block lines => exact putBlock_bounded h
  | line chars =>
    show ((put newline budget d.out chars).getD d.out).length ≤ budget
    cases hput : put newline budget d.out chars with
    | none => exact h
    | some out => exact (length_put hput).2

theorem draft_bounded {parts : List (Passage α)} {d : Draft α} (h : d.out.length ≤ budget) :
    (parts.foldl (write newline budget) d).out.length ≤ budget := by
  induction parts generalizing d with
  | nil => exact h
  | cons part parts ih => exact ih (write_bounded h part)

theorem truncated_le_draft (parts : List (Passage α)) (d : Draft α) :
    d.truncated ≤ (parts.foldl (write newline budget) d).truncated := by
  induction parts generalizing d with
  | nil => exact Nat.le_refl _
  | cons part parts ih =>
    refine Nat.le_trans ?_ (ih _)
    cases part with
    | line chars => exact Nat.le_refl _
    | block lines => exact truncated_le_putBlock lines d

theorem charge_beyond {parts : List (Passage α)} {used : Nat} (h : budget < used) :
    budget < parts.foldl (charge budget) used := by
  induction parts generalizing used with
  | nil => exact h
  | cons part parts ih =>
    apply ih
    cases part with
    | line chars =>
      rw [charge_line]
      split <;> omega
    | block lines =>
      rw [charge_block]
      omega

theorem length_write_line (d : Draft α) (chars : List α) :
    (write newline budget d (.line chars)).out.length =
      charge budget d.out.length (.line chars) := by
  show ((put newline budget d.out chars).getD d.out).length = _
  rw [charge_line]
  unfold put
  split
  · rfl
  · simp [Nat.add_assoc]

/-- No block is cut exactly when all blocks and the lines that fit in their turn fit together. -/
theorem truncated_draft {parts : List (Passage α)} {d : Draft α} (h : d.out.length ≤ budget) :
    (parts.foldl (write newline budget) d).truncated = d.truncated ↔
      parts.foldl (charge budget) d.out.length ≤ budget := by
  induction parts generalizing d with
  | nil => exact iff_of_true rfl h
  | cons part parts ih =>
    rw [List.foldl_cons, List.foldl_cons]
    have hrest := @ih (write newline budget d part) (write_bounded h part)
    cases part with
    | line chars =>
      rw [length_write_line] at hrest
      exact hrest
    | block lines =>
      by_cases hfits : d.out.length + room lines ≤ budget
      · have hwrite : write newline budget d (.block lines) = _ := putBlock_fits hfits
        rw [hwrite] at hrest ⊢
        rw [List.length_append, length_flatMap_newline] at hrest
        exact hrest
      · have hcut : d.truncated < (write newline budget d (.block lines)).truncated :=
          putBlock_cut h (by omega)
        have hmore := @truncated_le_draft α newline budget parts
          (write newline budget d (.block lines))
        have hbeyond := @charge_beyond α budget parts _
          (by omega : budget < d.out.length + room lines)
        refine iff_of_false (by omega) ?_
        exact Nat.not_le.mpr hbeyond

theorem whole_cons (part : Passage α) (parts : List (Passage α)) :
    whole newline (part :: parts) =
      (part.lines.flatMap fun line => line ++ [newline]) ++ whole newline parts := rfl

/-- What fits as a whole is written as a whole. -/
theorem draft_whole {parts : List (Passage α)} {d : Draft α}
    (h : d.out.length + (whole newline parts).length ≤ budget) :
    parts.foldl (write newline budget) d = { d with out := d.out ++ whole newline parts } := by
  induction parts generalizing d with
  | nil => simp [whole]
  | cons part parts ih =>
    have hpart : write newline budget d part =
        { d with out := d.out ++ part.lines.flatMap fun line => line ++ [newline] } := by
      rw [whole_cons, List.length_append, length_flatMap_newline] at h
      cases part with
      | block lines => exact putBlock_fits (by change _ + (room lines + _) ≤ _ at h; omega)
      | line chars =>
        have hfits : d.out.length + (chars.length + 1) ≤ budget := by
          simp only [Passage.lines, room_cons] at h
          omega
        simp [write, put_fits hfits, Passage.lines]
    have hlength : (write newline budget d part).out.length + (whole newline parts).length ≤
        budget := by
      rw [whole_cons, List.length_append] at h
      rw [hpart, List.length_append]
      omega
    rw [List.foldl_cons, ih hlength, hpart, whole_cons, List.append_assoc]

/-- Something is left out exactly when the whole does not fit. -/
theorem draft_incomplete (parts : List (Passage α)) :
    (parts.foldl (write newline budget) {}).out ≠ whole newline parts ↔
      budget < (whole newline parts).length := by
  constructor
  · intro hout
    by_contra hfits
    have hall := @draft_whole α newline budget parts {} (by simpa using hfits)
    exact hout (congrArg Draft.out hall)
  · intro hlong heq
    have hbounded := @draft_bounded α newline budget parts {} (Nat.zero_le _)
    rw [heq] at hbounded
    omega

/-! ### The notice -/

variable [DecidableEq α]

theorem makeRoom_length {notice out kept : List α}
    (h : makeRoom newline budget notice out = some kept) :
    kept.length + notice.length ≤ budget := by
  unfold makeRoom at h
  split at h
  next hfits =>
    obtain rfl := Option.some.inj h
    exact hfits
  next =>
    split at h
    next hnotice =>
      obtain rfl := Option.some.inj h
      have hcut := (List.rdropWhile_prefix (fun c => decide (c ≠ newline))
        (l := out.take (budget - notice.length))).length_le
      rw [List.length_take] at hcut
      omega
    next => cases h

theorem makeRoom_exists {notice : List α} (h : notice.length < budget) (out : List α) :
    ∃ kept, makeRoom newline budget notice out = some kept := by
  unfold makeRoom
  by_cases hfits : out.length + notice.length ≤ budget
  · exact ⟨_, if_pos hfits⟩
  · rw [if_neg hfits, if_pos h]
    exact ⟨_, rfl⟩

end BudgetedText
