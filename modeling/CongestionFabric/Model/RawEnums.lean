import CongestionFabric.Model.Enums

namespace CongestionFabric

/-- Reading a raw value and writing it again, value by value below a bound and together above. -/
theorem raw8_back {E : Type} {ofRaw : UInt8 → E} {toRaw : E → UInt8} (bound : Nat)
    (hbelow : ∀ n : Fin bound, toRaw (ofRaw (UInt8.ofNat n.val)) = UInt8.ofNat n.val)
    (hbeyond : ∀ raw : UInt8, bound ≤ raw.toNat → toRaw (ofRaw raw) = raw) (raw : UInt8) :
    toRaw (ofRaw raw) = raw := by
  by_cases h : raw.toNat < bound
  · have hback := hbelow ⟨raw.toNat, h⟩
    rwa [UInt8.ofNat_toNat] at hback
  · exact hbeyond raw (Nat.not_lt.mp h)

theorem raw16_back {E : Type} {ofRaw : UInt16 → E} {toRaw : E → UInt16} (bound : Nat)
    (hbelow : ∀ n : Fin bound, toRaw (ofRaw (UInt16.ofNat n.val)) = UInt16.ofNat n.val)
    (hbeyond : ∀ raw : UInt16, bound ≤ raw.toNat → toRaw (ofRaw raw) = raw) (raw : UInt16) :
    toRaw (ofRaw raw) = raw := by
  by_cases h : raw.toNat < bound
  · have hback := hbelow ⟨raw.toNat, h⟩
    rwa [UInt16.ofNat_toNat] at hback
  · exact hbeyond raw (Nat.not_lt.mp h)

theorem Severity.toRaw_ofRaw (raw : UInt8) : (Severity.ofRaw raw).toRaw = raw := by
  apply raw8_back 4 (by decide)
  intro raw h
  rw [ofRaw, dif_neg (Nat.not_lt.mpr h), toRaw]

theorem CongestionState.toRaw_ofRaw (raw : UInt8) : (CongestionState.ofRaw raw).toRaw = raw := by
  apply raw8_back 8 (by decide)
  intro raw h
  rw [ofRaw, dif_neg (Nat.not_lt.mpr h), toRaw]

theorem MetricKind.toRaw_ofRaw (raw : UInt16) : (MetricKind.ofRaw raw).toRaw = raw := by
  apply raw16_back 21 (by decide)
  intro raw h
  rw [ofRaw, dif_neg (Nat.not_lt.mpr h), toRaw]

theorem ResourceKind.toRaw_ofRaw (raw : UInt8) : (ResourceKind.ofRaw raw).toRaw = raw := by
  apply raw8_back 9 (by decide)
  intro raw h
  rw [ofRaw, dif_neg (Nat.not_lt.mpr h), toRaw]

theorem InterventionKind.toRaw_ofRaw (raw : UInt8) :
    (InterventionKind.ofRaw raw).toRaw = raw := by
  apply raw8_back 11 (by decide)
  intro raw h
  rw [ofRaw, dif_neg (Nat.not_lt.mpr h), toRaw]

theorem FenceReason.toRaw_ofRaw (raw : UInt8) : (FenceReason.ofRaw raw).toRaw = raw := by
  apply raw8_back 11 (by decide)
  intro raw h
  rw [ofRaw, dif_neg (Nat.not_lt.mpr h), toRaw]

theorem ProvenanceKind.toRaw_ofRaw (raw : UInt8) : (ProvenanceKind.ofRaw raw).toRaw = raw := by
  apply raw8_back 11 (by decide)
  intro raw h
  rw [ofRaw, dif_neg (Nat.not_lt.mpr h), toRaw]

theorem AttemptState.toRaw_ofRaw (raw : UInt8) : (AttemptState.ofRaw raw).toRaw = raw := by
  apply raw8_back 10 (by decide)
  intro raw h
  rw [ofRaw, dif_neg (Nat.not_lt.mpr h), toRaw]

theorem ThresholdOp.toRaw_ofRaw (raw : UInt8) : (ThresholdOp.ofRaw raw).toRaw = raw := by
  apply raw8_back 2 (by decide)
  intro raw h
  rw [ofRaw, dif_neg (Nat.not_lt.mpr h), toRaw]

theorem ContradictionMode.toRaw_ofRaw (raw : UInt8) :
    (ContradictionMode.ofRaw raw).toRaw = raw := by
  apply raw8_back 3 (by decide)
  intro raw h
  rw [ofRaw, dif_neg (Nat.not_lt.mpr h), toRaw]

/-! ### Declared values, below the sentinel of those that have one -/

def Severity.Declared (e : Severity) : Prop := e.toRaw.toNat < 4
def CongestionState.Declared (e : CongestionState) : Prop := e.toRaw.toNat < 8
def MetricKind.Declared (e : MetricKind) : Prop := e.toRaw.toNat < 20
def ResourceKind.Declared (e : ResourceKind) : Prop := e.toRaw.toNat < 8
def InterventionKind.Declared (e : InterventionKind) : Prop := e.toRaw.toNat < 10
def FenceReason.Declared (e : FenceReason) : Prop := e.toRaw.toNat < 10
def ProvenanceKind.Declared (e : ProvenanceKind) : Prop := e.toRaw.toNat < 10
def AttemptState.Declared (e : AttemptState) : Prop := e.toRaw.toNat < 9
def ThresholdOp.Declared (e : ThresholdOp) : Prop := e.toRaw.toNat < 2
def ContradictionMode.Declared (e : ContradictionMode) : Prop := e.toRaw.toNat < 3

end CongestionFabric
