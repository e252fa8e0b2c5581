import CongestionFabric.Lib.LittleEndian
import Mathlib.Data.Option.Basic

/-! Layouts of binary records: a layout takes what it describes off the front of a byte string. -/

/-- What is left after the bytes described, if they are there. -/
abbrev Layout := List UInt8 → Option (List UInt8)

namespace Layout

/-- A number of so many bytes. -/
def fixed (width : Nat) : Layout := fun data => (takeField width data).map Prod.snd

/-- A number below a bound. -/
def below (width bound : Nat) : Layout := fun data =>
  (takeField width data).bind fun field => if field.1 < bound then some field.2 else none

/-- Zero or one. -/
def boolean : Layout := below 1 2

/-- A length of four bytes and that many bytes. -/
def text (bound : Nat) : Layout := fun data =>
  (takeField 4 data).bind fun field =>
    if field.1 ≤ bound ∧ field.1 ≤ field.2.length then some (field.2.drop field.1) else none

def times (layout : Layout) : Nat → Layout
  | 0 => some
  | count + 1 => fun data => (layout data).bind (times layout count)

/-- A count of eight bytes and that many entries. -/
def list (bound : Nat) (layout : Layout) : Layout := fun data =>
  (takeField 8 data).bind fun field =>
    if field.1 ≤ bound then times layout field.1 field.2 else none

/-- One layout after the other. -/
def all : List Layout → Layout
  | [] => some
  | layout :: layouts => fun data => (layout data).bind (all layouts)

theorem all_cons (layout : Layout) (layouts : List Layout) (data : List UInt8) :
    all (layout :: layouts) data = (layout data).bind (all layouts) := rfl

theorem all_singleton (layout : Layout) : all [layout] = layout := by
  funext data
  exact Option.bind_fun_some (layout data)

/-- A field that is taken off the front is a number of its width and the rest. -/
theorem takeField_eq_some {width n : Nat} {data rest : List UInt8} :
    takeField width data = some (n, rest) ↔ data = littleEndian width n ++ rest ∧ n < 256 ^ width := by
  constructor
  · intro h
    unfold takeField at h
    split at h
    next => cases h
    next hlong =>
      obtain ⟨rfl, rfl⟩ := Prod.mk.inj (Option.some.inj h)
      have hfront : (data.take width).length = width := by
        rw [List.length_take]
        omega
      have hback := littleEndian_fromLittleEndian (data.take width)
      have hlt := fromLittleEndian_lt (data.take width)
      rw [hfront] at hback hlt
      rw [hback, List.take_append_drop]
      exact ⟨rfl, hlt⟩
  · rintro ⟨rfl, hlt⟩
    exact takeField_append hlt rest

theorem fixed_eq_some {width : Nat} {data rest : List UInt8} :
    fixed width data = some rest ↔
      ∃ n, data = littleEndian width n ++ rest ∧ n < 256 ^ width := by
  simp only [fixed, Option.map_eq_some_iff, Prod.exists, takeField_eq_some, exists_eq_right]

theorem below_eq_some {width bound : Nat} {data rest : List UInt8} :
    below width bound data = some rest ↔
      ∃ n, data = littleEndian width n ++ rest ∧ n < 256 ^ width ∧ n < bound := by
  simp only [below, Option.bind_eq_some_iff, Prod.exists, takeField_eq_some]
  constructor
  · rintro ⟨n, after, ⟨rfl, hwidth⟩, h⟩
    split at h
    next hlt =>
      obtain rfl := Option.some.inj h
      exact ⟨n, rfl, hwidth, hlt⟩
    next => cases h
  · rintro ⟨n, rfl, hwidth, hlt⟩
    exact ⟨n, rest, ⟨rfl, hwidth⟩, if_pos hlt⟩

theorem text_eq_some {bound : Nat} {data rest : List UInt8} :
    text bound data = some rest ↔ ∃ value, data = littleEndian 4 value.length ++ (value ++ rest) ∧
      value.length < 256 ^ 4 ∧ value.length ≤ bound := by
  simp only [text, Option.bind_eq_some_iff, Prod.exists, takeField_eq_some]
  constructor
  · rintro ⟨n, after, ⟨rfl, hwidth⟩, h⟩
    split at h
    next hfits =>
      obtain rfl := Option.some.inj h
      have hlength : (after.take n).length = n := by
        rw [List.length_take]
        omega
      refine ⟨after.take n, ?_, by omega, by omega⟩
      rw [hlength, List.take_append_drop]
    next => cases h
  · rintro ⟨value, rfl, hwidth, hfits⟩
    refine ⟨value.length, value ++ rest, ⟨rfl, hwidth⟩, ?_⟩
    rw [if_pos ⟨hfits, by simp⟩, List.drop_left]

theorem list_eq_some {bound : Nat} {layout : Layout} {data rest : List UInt8} :
    list bound layout data = some rest ↔ ∃ n after, data = littleEndian 8 n ++ after ∧
      n < 256 ^ 8 ∧ n ≤ bound ∧ times layout n after = some rest := by
  simp only [list, Option.bind_eq_some_iff, Prod.exists, takeField_eq_some]
  constructor
  · rintro ⟨n, after, ⟨rfl, hwidth⟩, h⟩
    split at h
    next hfits => exact ⟨n, after, rfl, hwidth, hfits, h⟩
    next => cases h
  · rintro ⟨n, after, rfl, hwidth, hfits, h⟩
    refine ⟨n, after, ⟨rfl, hwidth⟩, ?_⟩
    rwa [if_pos hfits]

end Layout
