import CongestionFabric.Lib.FramedLog

/-- Two strings of one length that differ in exactly one place. -/
inductive DiffersOnce {α : Type} : List α → List α → Prop where
  | here {a b : α} (rest : List α) (hne : a ≠ b) : DiffersOnce (a :: rest) (b :: rest)
  | later (a : α) {xs ys : List α} (h : DiffersOnce xs ys) : DiffersOnce (a :: xs) (a :: ys)

namespace DiffersOnce

variable {α : Type} {xs ys xs' ys' : List α}

theorem length_eq (h : DiffersOnce xs ys) : xs.length = ys.length := by
  induction h with
  | here => rfl
  | later _ _ ih => exact congrArg Nat.succ ih

theorem ne (h : DiffersOnce xs ys) : xs ≠ ys := by
  induction h with
  | here rest hne => exact fun heq => hne (List.cons.inj heq).1
  | later _ _ ih => exact fun heq => ih (List.cons.inj heq).2

theorem append_right (h : DiffersOnce xs ys) (rest : List α) :
    DiffersOnce (xs ++ rest) (ys ++ rest) := by
  induction h with
  | here tail hne => exact .here (tail ++ rest) hne
  | later a _ ih => exact .later a ih

theorem append_left (front : List α) (h : DiffersOnce xs ys) :
    DiffersOnce (front ++ xs) (front ++ ys) := by
  induction front with
  | nil => exact h
  | cons a _ ih => exact .later a ih

/-- The place is in the front or in the back. -/
theorem append_cases (h : DiffersOnce (xs ++ ys) (xs' ++ ys')) (hlen : xs.length = xs'.length) :
    DiffersOnce xs xs' ∧ ys = ys' ∨ xs = xs' ∧ DiffersOnce ys ys' := by
  induction xs generalizing xs' with
  | nil =>
    obtain rfl := List.length_eq_zero_iff.mp hlen.symm
    exact .inr ⟨rfl, h⟩
  | cons x xs ih =>
    obtain ⟨x', xs', rfl⟩ := List.exists_cons_of_length_eq_add_one hlen.symm
    rw [List.cons_append, List.cons_append] at h
    generalize hleft : xs ++ ys = left at h
    generalize hright : xs' ++ ys' = right at h
    cases h with
    | here rest hne =>
      rw [← hright] at hleft
      obtain ⟨rfl, rfl⟩ := List.append_inj hleft (by simpa using hlen)
      exact .inl ⟨.here _ hne, rfl⟩
    | later _ h =>
      rw [← hleft, ← hright] at h
      rcases ih h (by simpa using hlen) with ⟨hfront, hback⟩ | ⟨hfront, hback⟩
      · exact .inl ⟨.later _ hfront, hback⟩
      · exact .inr ⟨congrArg _ hfront, hback⟩

/-- A string that differs from two that are put together is put together from two. -/
theorem split_right {zs : List α} (h : DiffersOnce (xs ++ ys) zs) :
    ∃ xs' ys', zs = xs' ++ ys' ∧ xs.length = xs'.length ∧
      (DiffersOnce xs xs' ∧ ys = ys' ∨ xs = xs' ∧ DiffersOnce ys ys') := by
  have hlen := h.length_eq
  rw [List.length_append] at hlen
  have hfront : xs.length = (zs.take xs.length).length := by
    rw [List.length_take]
    omega
  rw [← List.take_append_drop xs.length zs] at h
  exact ⟨_, _, (List.take_append_drop xs.length zs).symm, hfront, h.append_cases hfront⟩

end DiffersOnce

/-- A framing that finds a record with one byte changed bad, whatever comes after it. -/
structure Guarded {ρ ε : Type} (head : List UInt8 → Head ρ ε) (encode : ρ → List UInt8)
    (ok : ρ → Prop) : Prop extends Framing head encode ok where
  damaged : ∀ r part rest, ok r → DiffersOnce (encode r) part →
    ∃ why, head (part ++ rest) = .bad why

/-- The damaged record of a log with one byte changed. -/
theorem DiffersOnce.in_log {ρ : Type} {encode : ρ → List UInt8} {records : List ρ}
    {data : List UInt8} (h : DiffersOnce (logOf encode records) data) :
    ∃ read r rest part, records = read ++ r :: rest ∧
      data = logOf encode read ++ (part ++ logOf encode rest) ∧ DiffersOnce (encode r) part := by
  induction records generalizing data with
  | nil => cases h
  | cons r rs ih =>
    rw [logOf_cons] at h
    obtain ⟨front, back, rfl, _, hcases⟩ := h.split_right
    rcases hcases with ⟨hfront, rfl⟩ | ⟨rfl, hback⟩
    · exact ⟨[], r, rs, front, rfl, rfl, hfront⟩
    · obtain ⟨read, r', rest, part, rfl, rfl, hpart⟩ := ih hback
      refine ⟨r :: read, r', rest, part, rfl, ?_, hpart⟩
      rw [logOf_cons, List.append_assoc]

namespace Scan

variable {ρ ε : Type} {head : List UInt8 → Head ρ ε} {encode : ρ → List UInt8} {ok : ρ → Prop}

/-- A scan of a log with one byte changed reads the records before the damaged one, and no more. -/
theorem run_logOf_damaged (hf : Guarded head encode ok) {read rest : List ρ} {r : ρ}
    {part : List UInt8} (hok : ∀ r' ∈ read ++ r :: rest, ok r') (hpart : DiffersOnce (encode r) part) :
    ∃ tail why, run head (logOf encode read ++ (part ++ logOf encode rest)) =
      ⟨read, tail, .bad why⟩ := by
  obtain ⟨why, hbad⟩ := hf.damaged r part (logOf encode rest)
    (hok r (List.mem_append_right _ List.mem_cons_self)) hpart
  have hne : part ++ logOf encode rest ≠ [] := by
    intro hnil
    have hlen := hpart.length_eq
    rw [(List.append_eq_nil_iff.mp hnil).1] at hlen
    exact hf.nonempty r (List.length_eq_zero_iff.mp hlen)
  refine ⟨part ++ logOf encode rest, why, ?_⟩
  rw [run_logOf_append hf.toFraming _ fun r' hr => hok r' (List.mem_append_left _ hr),
    run_bad hbad hne]
  simp

end Scan
