import CongestionFabric.Durability.Codec
import CongestionFabric.Durability.Crc32c
import CongestionFabric.Lib.ByteDamage

namespace CongestionFabric

/-- A byte step of the check. -/
def crc32cStep (crc : UInt32) (b : UInt8) : UInt32 :=
  crc32cEntry ((crc ^^^ b.toUInt32) &&& 0xFF) ^^^ (crc >>> 8)

theorem crc32cContinue_eq (seed : UInt32) (data : Bytes) :
    crc32cContinue seed data = ~~~data.foldl crc32cStep (~~~seed) := rfl

/-- A bit step run backwards: the polynomial has its top bit set, and a step that did not take it
leaves the top bit clear. -/
def crc32cUnbit (c : UInt32) : UInt32 :=
  if c >>> 31 ≠ 0 then (((0x82F63B78 : UInt32) ^^^ c) <<< 1) ||| 1 else c <<< 1

/-- The index of the table entry with a given top byte. -/
def crc32cIndexOf (top : UInt32) : UInt32 :=
  crc32cUnbit (crc32cUnbit (crc32cUnbit (crc32cUnbit (crc32cUnbit (crc32cUnbit (crc32cUnbit
    (crc32cUnbit (top <<< 24)))))))) &&& 0xFF

set_option maxRecDepth 100000 in
theorem crc32cIndexOf_entry : ∀ i ∈ List.range 256,
    crc32cIndexOf (crc32cEntry (UInt32.ofNat i) >>> 24) = UInt32.ofNat i := by
  decide +kernel

theorem crc32cEntry_top_injective {i j : UInt8}
    (h : crc32cEntry i.toUInt32 >>> 24 = crc32cEntry j.toUInt32 >>> 24) : i = j := by
  have hindex : ∀ k : UInt8, UInt32.ofNat k.toNat = k.toUInt32 := fun k => by
    apply UInt32.toNat_inj.mp
    have hk := k.toNat_lt
    simp
  have hi := crc32cIndexOf_entry i.toNat (List.mem_range.mpr i.toNat_lt)
  have hj := crc32cIndexOf_entry j.toNat (List.mem_range.mpr j.toNat_lt)
  rw [hindex] at hi hj
  have hsame : i.toUInt32 = j.toUInt32 := by rw [← hi, h, hj]
  have hnat := congrArg UInt32.toNat hsame
  rw [UInt8.toNat_toUInt32, UInt8.toNat_toUInt32] at hnat
  exact UInt8.toNat_inj.mp hnat

/-- The index of a step is the low byte of the state and the byte. -/
theorem crc32cStep_index (crc : UInt32) (b : UInt8) :
    (crc ^^^ b.toUInt32) &&& 0xFF = (crc.toUInt8 ^^^ b).toUInt32 := by
  apply UInt32.toNat_inj.mp
  have hmask : (255 : Nat) = 2 ^ 8 - 1 := rfl
  have hfull : (0xFF : UInt32).toNat = 255 := rfl
  have hb := b.toNat_lt
  rw [UInt32.toNat_and, hfull, hmask, Nat.and_two_pow_sub_one_eq_mod, UInt8.toNat_toUInt32,
    UInt8.toNat_xor, UInt32.toNat_xor, UInt8.toNat_toUInt32, UInt32.toNat_toUInt8,
    Nat.xor_mod_two_pow, Nat.mod_eq_of_lt hb]

theorem shiftRight_gone (crc : UInt32) : crc >>> 8 >>> 24 = 0 := by
  apply UInt32.toNat_inj.mp
  have hlt := crc.toNat_lt
  have hsmall : crc.toNat >>> 8 >>> 24 = 0 := by
    rw [Nat.shiftRight_eq_div_pow, Nat.shiftRight_eq_div_pow]
    omega
  rw [UInt32.toNat_shiftRight, UInt32.toNat_shiftRight]
  exact hsmall

/-- Two steps that meet agree in the index and in the rest of the state. -/
theorem crc32cStep_meets {crc crc' : UInt32} {b b' : UInt8}
    (h : crc32cStep crc b = crc32cStep crc' b') :
    crc.toUInt8 ^^^ b = crc'.toUInt8 ^^^ b' ∧ crc >>> 8 = crc' >>> 8 := by
  unfold crc32cStep at h
  rw [crc32cStep_index, crc32cStep_index] at h
  have htop := congrArg (fun state : UInt32 => state >>> 24) h
  rw [UInt32.shiftRight_xor, UInt32.shiftRight_xor, shiftRight_gone, shiftRight_gone,
    UInt32.xor_zero, UInt32.xor_zero] at htop
  have hindex := crc32cEntry_top_injective htop
  rw [hindex, UInt32.xor_right_inj] at h
  exact ⟨hindex, h⟩

theorem crc32cStep_left {crc crc' : UInt32} {b : UInt8}
    (h : crc32cStep crc b = crc32cStep crc' b) : crc = crc' := by
  obtain ⟨hlow, hhigh⟩ := crc32cStep_meets h
  rw [UInt8.xor_left_inj] at hlow
  have hlow := congrArg UInt8.toNat hlow
  have hhigh := congrArg UInt32.toNat hhigh
  rw [UInt32.toNat_toUInt8, UInt32.toNat_toUInt8] at hlow
  rw [UInt32.toNat_shiftRight, UInt32.toNat_shiftRight] at hhigh
  have hhigh : crc.toNat >>> 8 = crc'.toNat >>> 8 := hhigh
  rw [Nat.shiftRight_eq_div_pow, Nat.shiftRight_eq_div_pow] at hhigh
  apply UInt32.toNat_inj.mp
  omega

theorem crc32cStep_right {crc : UInt32} {b b' : UInt8}
    (h : crc32cStep crc b = crc32cStep crc b') : b = b' :=
  (UInt8.xor_right_inj _).mp (crc32cStep_meets h).1

theorem crc32c_fold_left {crc crc' : UInt32} (data : Bytes)
    (h : data.foldl crc32cStep crc = data.foldl crc32cStep crc') : crc = crc' := by
  induction data generalizing crc crc' with
  | nil => exact h
  | cons b rest ih => exact crc32cStep_left (ih h)

/-- The check tells a string from one that differs from it in one byte. -/
theorem crc32cContinue_damaged {data data' : Bytes} (h : DiffersOnce data data') (seed : UInt32) :
    crc32cContinue seed data ≠ crc32cContinue seed data' := by
  intro hsame
  rw [crc32cContinue_eq, crc32cContinue_eq, UInt32.not_inj] at hsame
  generalize ~~~seed = crc at hsame
  induction h generalizing crc with
  | here rest hne => exact hne (crc32cStep_right (crc32c_fold_left rest hsame))
  | later a _ ih => exact ih _ hsame

theorem crc32c_damaged {data data' : Bytes} (h : DiffersOnce data data') :
    crc32c data ≠ crc32c data' := crc32cContinue_damaged h 0

theorem u32_damaged {v v' : UInt32} (h : DiffersOnce (ByteWriter.u32 v) (ByteWriter.u32 v')) :
    v ≠ v' := fun hsame => h.ne (congrArg ByteWriter.u32 hsame)

/-- A check that lies inside the bytes it is the check of, and is taken as zero there, fails when
one of the bytes is changed. -/
theorem crc32c_field_damaged {before after before' after' : Bytes} {crc crc' : UInt32}
    (hcheck : crc32c (before ++ (ByteWriter.u32 0 ++ after)) = crc)
    (hlen : before.length = before'.length)
    (h : DiffersOnce (before ++ (ByteWriter.u32 crc ++ after))
      (before' ++ (ByteWriter.u32 crc' ++ after'))) :
    crc32c (before' ++ (ByteWriter.u32 0 ++ after')) ≠ crc' := by
  have hwidth : (ByteWriter.u32 crc).length = (ByteWriter.u32 crc').length := by
    simp [ByteWriter.u32]
  have hvalue {v v' : UInt32} (heq : ByteWriter.u32 v = ByteWriter.u32 v') : v = v' := by
    have hnat := congrArg fromLittleEndian heq
    unfold ByteWriter.u32 at hnat
    rw [fromLittleEndian_of_lt v.toNat_lt, fromLittleEndian_of_lt v'.toNat_lt] at hnat
    exact UInt32.toNat_inj.mp hnat
  intro hcheck'
  rcases h.append_cases hlen with ⟨hbefore, hrest⟩ | ⟨rfl, hrest⟩
  · obtain ⟨hcrc, rfl⟩ := List.append_inj hrest hwidth
    have hsame := hvalue hcrc
    apply crc32c_damaged (hbefore.append_right (ByteWriter.u32 0 ++ after))
    rw [hcheck, hcheck', hsame]
  · rcases hrest.append_cases hwidth with ⟨hcrc, rfl⟩ | ⟨hcrc, hafter⟩
    · exact u32_damaged hcrc (hcheck.symm.trans hcheck')
    · have hsame := hvalue hcrc
      apply crc32c_damaged ((hafter.append_left (ByteWriter.u32 0)).append_left before)
      rw [hcheck, hcheck', hsame]

/-! ### Any bytes are fields -/

theorem exists_u16 {bytes : Bytes} {n : Nat} (h : bytes.length = 2 + n) :
    ∃ v rest, bytes = ByteWriter.u16 v ++ rest ∧ rest.length = n := by
  obtain ⟨v, rest, heq, hlen, hlt⟩ := exists_littleEndian h
  have hlt : v < 2 ^ 16 := hlt
  refine ⟨UInt16.ofNat v, rest, ?_, hlen⟩
  rw [ByteWriter.u16, UInt16.toNat_ofNat', Nat.mod_eq_of_lt hlt, heq]

theorem exists_u32 {bytes : Bytes} {n : Nat} (h : bytes.length = 4 + n) :
    ∃ v rest, bytes = ByteWriter.u32 v ++ rest ∧ rest.length = n := by
  obtain ⟨v, rest, heq, hlen, hlt⟩ := exists_littleEndian h
  have hlt : v < 2 ^ 32 := hlt
  refine ⟨UInt32.ofNat v, rest, ?_, hlen⟩
  rw [ByteWriter.u32, UInt32.toNat_ofNat', Nat.mod_eq_of_lt hlt, heq]

theorem exists_u64 {bytes : Bytes} {n : Nat} (h : bytes.length = 8 + n) :
    ∃ v rest, bytes = ByteWriter.u64 v ++ rest ∧ rest.length = n := by
  obtain ⟨v, rest, heq, hlen, hlt⟩ := exists_littleEndian h
  have hlt : v < 2 ^ 64 := hlt
  refine ⟨UInt64.ofNat v, rest, ?_, hlen⟩
  rw [ByteWriter.u64, UInt64.toNat_ofNat', Nat.mod_eq_of_lt hlt, heq]

end CongestionFabric
