import CongestionFabric.Core.Words
import CongestionFabric.Eval.ConflictCaught

namespace CongestionFabric.CongestionEvaluator

/-- What scaling by parts per million promises for one magnitude and ratio. -/
structure ExactScaling (magnitude : UInt64) (ppm : UInt32) : Prop where
  computed : applyPpmExact magnitude ppm = some (applyPpm magnitude ppm)
  value : (applyPpm magnitude ppm).toNat =
    min (magnitude.toNat * ppm.toNat / 1000000) (2 ^ 64 - 1)

theorem exactScaling (magnitude : UInt64) (ppm : UInt32) : ExactScaling magnitude ppm where
  computed := applyPpmExact_eq magnitude ppm
  value := toNat_applyPpm_min magnitude ppm

/-- What an accepted contradiction policy forgives relative to a reading is within the reading. -/
theorem relative_le_high {policy accepted : CongestionPolicy}
    (h : validatePolicy policy = .ok accepted) (e : Extremes) :
    applyPpm e.high.value accepted.contradiction.relativeTolerancePpm ≤ e.high.value :=
  applyPpm_le_magnitude (validateEvidencePolicies_tolerance (validatePolicy_accepted h).2)

theorem tolerance_le {policy accepted : CongestionPolicy}
    (h : validatePolicy policy = .ok accepted) (e : Extremes) :
    tolerance accepted.contradiction e ≤
      max accepted.contradiction.absoluteTolerance e.high.value := by
  have hrelative := UInt64.le_iff_toNat_le.mp (relative_le_high h e)
  unfold tolerance
  rw [UInt64.le_iff_toNat_le, toNat_max, toNat_max]
  omega

/-- Scaling by parts per million is the exact share, saturated as a whole, and no step of it leaves
the word; it is monotone in both arguments, and the relative tolerance of an accepted policy is at
most the larger reading. -/
theorem ratio_scaling_exact :
    (∀ magnitude ppm, ExactScaling magnitude ppm) ∧
    (∀ magnitude magnitude' ppm ppm', magnitude ≤ magnitude' → ppm ≤ ppm' →
      applyPpm magnitude ppm ≤ applyPpm magnitude' ppm') ∧
    ∀ policy accepted, validatePolicy policy = .ok accepted → ∀ e : Extremes,
      applyPpm e.high.value accepted.contradiction.relativeTolerancePpm ≤ e.high.value ∧
      tolerance accepted.contradiction e ≤
        max accepted.contradiction.absoluteTolerance e.high.value := by
  refine ⟨exactScaling, fun _ _ _ _ => applyPpm_mono, ?_⟩
  intro policy accepted h e
  exact ⟨relative_le_high h e, tolerance_le h e⟩

/-- Near the limit the parts saturate together: a million parts return the magnitude, one part more
is cut off at the largest word. -/
theorem ratio_scaling_at_limit :
    ExactScaling limits.kMaxU64 1000000 ∧
    applyPpm limits.kMaxU64 1000000 ≤ applyPpm limits.kMaxU64 1000001 ∧
    applyPpm limits.kMaxU64 makeDefaultPolicy.contradiction.relativeTolerancePpm ≤
      limits.kMaxU64 := by
  obtain ⟨hexact, hmono, htolerance⟩ := ratio_scaling_exact
  refine ⟨hexact _ _, hmono _ _ _ _ (by decide) (by decide), ?_⟩
  have hhigh := htolerance makeDefaultPolicy makeDefaultPolicy defaultPolicy_accepted
    ⟨{}, { value := limits.kMaxU64 }⟩
  exact hhigh.1

end CongestionFabric.CongestionEvaluator
