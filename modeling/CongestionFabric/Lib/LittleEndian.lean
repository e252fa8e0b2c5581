import Mathlib.Tactic.Common
import Mathlib.Data.Nat.ModEq

/-- The low `width` bytes of a number, least significant first. -/
def littleEndian : Nat → Nat → List UInt8
  | 0, _ => []
  | width + 1, n => UInt8.ofNat n :: littleEndian width (n / 256)

def fromLittleEndian : List UInt8 → Nat
  | [] => 0
  | b :: rest => b.toNat + 256 * fromLittleEndian rest

@[simp] theorem littleEndian_length (width n : Nat) : (littleEndian width n).length = width := by
  induction width generalizing n with
  | zero => rfl
  | succ width ih => simp [littleEndian, ih]

theorem fromLittleEndian_littleEndian (width n : Nat) :
    fromLittleEndian (littleEndian width n) = n % 256 ^ width := by
  induction width generalizing n with
  | zero => simp [littleEndian, fromLittleEndian, Nat.mod_one]
  | succ width ih =>
    have hb : (UInt8.ofNat n).toNat = n % 256 := by simp
    simp only [littleEndian, fromLittleEndian, ih, hb, Nat.pow_succ]
    rw [Nat.mul_comm (256 ^ width), Nat.mod_mul]

theorem fromLittleEndian_of_lt {width n : Nat} (h : n < 256 ^ width) :
    fromLittleEndian (littleEndian width n) = n := by
  rw [fromLittleEndian_littleEndian, Nat.mod_eq_of_lt h]

theorem fromLittleEndian_lt (bytes : List UInt8) :
    fromLittleEndian bytes < 256 ^ bytes.length := by
  induction bytes with
  | nil => simp [fromLittleEndian]
  | cons b rest ih =>
    have hb := b.toNat_lt
    simp only [fromLittleEndian, List.length_cons, Nat.pow_succ]
    omega

theorem littleEndian_fromLittleEndian (bytes : List UInt8) :
    littleEndian bytes.length (fromLittleEndian bytes) = bytes := by
  induction bytes with
  | nil => rfl
  | cons b rest ih =>
    have hb := b.toNat_lt
    have hdiv : (b.toNat + 256 * fromLittleEndian rest) / 256 = fromLittleEndian rest := by omega
    have hlow : UInt8.ofNat (b.toNat + 256 * fromLittleEndian rest) = b := by
      apply UInt8.toNat_inj.mp
      simp only [UInt8.toNat_ofNat']
      omega
    simp only [fromLittleEndian, List.length_cons, littleEndian, hdiv, hlow, ih]

/-- The first bytes of a string are a number of their width. -/
theorem exists_littleEndian {width n : Nat} {bytes : List UInt8} (h : bytes.length = width + n) :
    ∃ v rest, bytes = littleEndian width v ++ rest ∧ rest.length = n ∧ v < 256 ^ width := by
  have hfront : (bytes.take width).length = width := by
    rw [List.length_take]
    omega
  refine ⟨fromLittleEndian (bytes.take width), bytes.drop width, ?_, ?_, ?_⟩
  · have hback := littleEndian_fromLittleEndian (bytes.take width)
    rw [hfront] at hback
    rw [hback, List.take_append_drop]
  · rw [List.length_drop]
    omega
  · have hlt := fromLittleEndian_lt (bytes.take width)
    rwa [hfront] at hlt

/-- Cut a fixed-width field off the front of a byte string. -/
def takeField (width : Nat) (bytes : List UInt8) : Option (Nat × List UInt8) :=
  if bytes.length < width then none
  else some (fromLittleEndian (bytes.take width), bytes.drop width)

theorem takeField_append {width n : Nat} (h : n < 256 ^ width) (rest : List UInt8) :
    takeField width (littleEndian width n ++ rest) = some (n, rest) := by
  have hlen := littleEndian_length width n
  have htake : (littleEndian width n ++ rest).take width = littleEndian width n := by
    simp [hlen]
  have hdrop : (littleEndian width n ++ rest).drop width = rest := by
    simp [hlen]
  rw [takeField, if_neg (by simp [hlen]), htake, hdrop, fromLittleEndian_of_lt h]
