import CongestionFabric.Core.Checked
import CongestionFabric.Lib.Shares

namespace CongestionFabric

/-! ### Operations without a word to overflow -/

def addExact (a b : UInt64) : Option UInt64 :=
  if a.toNat + b.toNat < 2 ^ 64 then some (a + b) else none

def subExact (a b : UInt64) : Option UInt64 := if b ≤ a then some (a - b) else none

def mulExact (a b : UInt64) : Option UInt64 :=
  if a.toNat * b.toNat < 2 ^ 64 then some (a * b) else none

theorem addExact_eq {a b : UInt64} (h : a.toNat + b.toNat < 2 ^ 64) :
    addExact a b = some (a + b) := if_pos h

theorem mulExact_eq {a b : UInt64} (h : a.toNat * b.toNat < 2 ^ 64) :
    mulExact a b = some (a * b) := if_pos h

theorem toNat_mul_of_lt {a b : UInt64} (h : a.toNat * b.toNat < 2 ^ 64) :
    (a * b).toNat = a.toNat * b.toNat := by
  rw [UInt64.toNat_mul, Nat.mod_eq_of_lt h]

theorem toNat_add_of_lt {a b : UInt64} (h : a.toNat + b.toNat < 2 ^ 64) :
    (a + b).toNat = a.toNat + b.toNat := by
  rw [UInt64.toNat_add, Nat.mod_eq_of_lt h]

/-! ### Saturation -/

theorem kMaxU64_toNat : limits.kMaxU64.toNat = 2 ^ 64 - 1 := rfl

theorem le_kMaxU64 (a : UInt64) : a ≤ limits.kMaxU64 := by
  have ha := a.toNat_lt
  exact UInt64.le_iff_toNat_le.mpr (by rw [kMaxU64_toNat]; omega)

/-- The room that a sum is compared with is computed within the word. -/
theorem room_toNat (b : UInt64) : (limits.kMaxU64 - b).toNat = 2 ^ 64 - 1 - b.toNat := by
  rw [UInt64.toNat_sub_of_le _ _ (le_kMaxU64 b), kMaxU64_toNat]

/-- The same operations, nothing where a step leaves the word. -/
def saturatingAddExact (a b : UInt64) : Option UInt64 := do
  let room ← subExact limits.kMaxU64 b
  if a > room then some limits.kMaxU64 else addExact a b

def saturatingMulExact (a b : UInt64) : Option UInt64 :=
  if a = 0 ∨ b = 0 then some 0
  else if a > limits.kMaxU64 / b then some limits.kMaxU64
  else mulExact a b

theorem toNat_saturatingAdd_min (a b : UInt64) :
    (saturatingAdd a b).toNat = min (a.toNat + b.toNat) (2 ^ 64 - 1) := by
  have hb := b.toNat_lt
  have hroom := room_toNat b
  unfold saturatingAdd
  split_ifs with hover
  · have hlt : 2 ^ 64 - 1 - b.toNat < a.toNat := hroom ▸ UInt64.lt_iff_toNat_lt.mp hover
    rw [kMaxU64_toNat]
    omega
  · have hle : a.toNat ≤ 2 ^ 64 - 1 - b.toNat :=
      hroom ▸ UInt64.le_iff_toNat_le.mp (UInt64.not_lt.mp hover)
    rw [toNat_add_of_lt (by omega)]
    omega

/-- The quotient comparison finds out exactly the products that leave the word. -/
theorem quotient_lt_iff {a b : UInt64} (hb : b ≠ 0) :
    limits.kMaxU64 / b < a ↔ 2 ^ 64 ≤ a.toNat * b.toNat := by
  have hpos : 0 < b.toNat := Nat.pos_of_ne_zero fun hz => hb (UInt64.toNat_inj.mp hz)
  rw [UInt64.lt_iff_toNat_lt, UInt64.toNat_div, kMaxU64_toNat, Nat.div_lt_iff_lt_mul hpos]
  omega

theorem toNat_saturatingMul_min (a b : UInt64) :
    (saturatingMul a b).toNat = min (a.toNat * b.toNat) (2 ^ 64 - 1) := by
  unfold saturatingMul
  split_ifs with hzero hover
  · have hproduct : a.toNat * b.toNat = 0 := by
      rcases hzero with rfl | rfl
      · exact Nat.zero_mul _
      · exact Nat.mul_zero _
    rw [hproduct]
    rfl
  · have hbig := (quotient_lt_iff fun h => hzero (.inr h)).mp hover
    rw [kMaxU64_toNat]
    omega
  · have hsmall := Nat.not_le.mp ((quotient_lt_iff fun h => hzero (.inr h)).not.mp hover)
    rw [toNat_mul_of_lt hsmall]
    omega

theorem le_saturatingAdd (a b : UInt64) : a ≤ saturatingAdd a b := by
  have ha := a.toNat_lt
  have hmin := toNat_saturatingAdd_min a b
  rw [UInt64.le_iff_toNat_le]
  omega

theorem saturatingAddExact_eq (a b : UInt64) :
    saturatingAddExact a b = some (saturatingAdd a b) := by
  have hb := b.toNat_lt
  have hroom := room_toNat b
  have hsub : subExact limits.kMaxU64 b = some (limits.kMaxU64 - b) := if_pos (le_kMaxU64 b)
  unfold saturatingAddExact saturatingAdd
  rw [hsub, Option.bind_eq_bind, Option.bind_some]
  by_cases hover : a > limits.kMaxU64 - b
  · rw [if_pos hover, if_pos hover]
  · have hle := UInt64.le_iff_toNat_le.mp (UInt64.not_lt.mp hover)
    rw [if_neg hover, if_neg hover]
    exact addExact_eq (by omega)

theorem saturatingMulExact_eq (a b : UInt64) :
    saturatingMulExact a b = some (saturatingMul a b) := by
  unfold saturatingMulExact saturatingMul
  split_ifs with hzero hover
  · rfl
  · rfl
  · exact mulExact_eq (Nat.not_le.mp
      ((quotient_lt_iff fun h => hzero (.inr h)).not.mp hover))

/-! ### Scaling by parts per million -/

def applyPpmExact (magnitude : UInt64) (ppm : UInt32) : Option UInt64 := do
  let whole := magnitude / 1000000
  let rem := magnitude % 1000000
  let scaled ← saturatingMulExact whole ppm.toUInt64
  let product ← mulExact rem ppm.toUInt64
  saturatingAddExact scaled (product / 1000000)

variable (magnitude : UInt64) (ppm : UInt32)

theorem toNat_whole : (magnitude / 1000000).toNat = magnitude.toNat / 1000000 :=
  UInt64.toNat_div magnitude 1000000

theorem toNat_rem : (magnitude % 1000000).toNat = magnitude.toNat % 1000000 :=
  UInt64.toNat_mod magnitude 1000000

/-- The remainder is below a million, so its product with a 32-bit ratio has room to spare. -/
theorem rem_product_lt :
    (magnitude % 1000000).toNat * ppm.toUInt64.toNat < 2 ^ 64 := by
  have hrem := Nat.mod_lt magnitude.toNat (show 0 < 1000000 by omega)
  have hppm := ppm.toNat_lt
  rw [toNat_rem, UInt32.toNat_toUInt64]
  calc magnitude.toNat % 1000000 * ppm.toNat ≤ 1000000 * 2 ^ 32 :=
        Nat.mul_le_mul (Nat.le_of_lt hrem) (Nat.le_of_lt hppm)
    _ < 2 ^ 64 := by omega

theorem applyPpmExact_eq : applyPpmExact magnitude ppm = some (applyPpm magnitude ppm) := by
  unfold applyPpmExact applyPpm
  dsimp only
  rw [saturatingMulExact_eq, mulExact_eq (rem_product_lt magnitude ppm)]
  exact saturatingAddExact_eq _ _

/-- The parts saturate exactly where the whole share does. -/
theorem toNat_applyPpm_min : (applyPpm magnitude ppm).toNat =
    min (magnitude.toNat * ppm.toNat / 1000000) (2 ^ 64 - 1) := by
  have hsplit := @share_split 1000000 (by omega) magnitude.toNat ppm.toNat
  have hwhole := toNat_saturatingMul_min (magnitude / 1000000) ppm.toUInt64
  have hpart : (magnitude % 1000000 * ppm.toUInt64 / 1000000).toNat =
      magnitude.toNat % 1000000 * ppm.toNat / 1000000 := by
    rw [toNat_whole, toNat_mul_of_lt (rem_product_lt magnitude ppm), toNat_rem,
      UInt32.toNat_toUInt64]
  rw [toNat_whole, UInt32.toNat_toUInt64] at hwhole
  unfold applyPpm
  dsimp only
  rw [toNat_saturatingAdd_min, hwhole, hpart]
  omega

variable {magnitude ppm}

theorem toNat_ppm_le (h : ppm ≤ 1000000) : ppm.toNat ≤ 1000000 := UInt32.le_iff_toNat_le.mp h

/-- Up to a million parts the share is exact, rounded down. -/
theorem toNat_applyPpm (magnitude : UInt64) (h : ppm ≤ 1000000) :
    (applyPpm magnitude ppm).toNat = magnitude.toNat * ppm.toNat / 1000000 := by
  have hshare := share_le_whole (toNat_ppm_le h) magnitude.toNat
  have hm := magnitude.toNat_lt
  rw [toNat_applyPpm_min]
  omega

theorem applyPpm_le_magnitude (h : ppm ≤ 1000000) : applyPpm magnitude ppm ≤ magnitude := by
  rw [UInt64.le_iff_toNat_le, toNat_applyPpm magnitude h]
  exact share_le_whole (toNat_ppm_le h) magnitude.toNat

theorem applyPpm_mono {magnitude' : UInt64} {ppm' : UInt32} (hm : magnitude ≤ magnitude')
    (hp : ppm ≤ ppm') : applyPpm magnitude ppm ≤ applyPpm magnitude' ppm' := by
  have hproduct : magnitude.toNat * ppm.toNat ≤ magnitude'.toNat * ppm'.toNat :=
    Nat.mul_le_mul (UInt64.le_iff_toNat_le.mp hm) (UInt32.le_iff_toNat_le.mp hp)
  have hshare := @Nat.div_le_div_right _ _ 1000000 hproduct
  rw [UInt64.le_iff_toNat_le, toNat_applyPpm_min, toNat_applyPpm_min]
  omega

end CongestionFabric
