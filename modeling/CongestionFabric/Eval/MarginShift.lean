import CongestionFabric.Core.Words
import CongestionFabric.Eval.RuleLevels

namespace CongestionFabric

/-! ### The shifts without a word to overflow -/

def marginShare (threshold : UInt64) (marginPpm : UInt32) : UInt64 :=
  (threshold / 1000000) * marginPpm.toUInt64 +
    ((threshold % 1000000) * marginPpm.toUInt64) / 1000000

/-- The same operations, nothing where one of them leaves the word. -/
def marginShareExact (threshold : UInt64) (marginPpm : UInt32) : Option UInt64 := do
  let whole ← mulExact (threshold / 1000000) marginPpm.toUInt64
  let part ← mulExact (threshold % 1000000) marginPpm.toUInt64
  addExact whole (part / 1000000)

def scaleDownExact (threshold : UInt64) (marginPpm : UInt32) : Option UInt64 := do
  let drop ← marginShareExact threshold marginPpm
  if threshold > drop then subExact threshold drop else some 0

/-- A sum that would saturate leaves the word. -/
def scaleUpExact (threshold : UInt64) (marginPpm : UInt32) : Option UInt64 := do
  addExact threshold (← marginShareExact threshold marginPpm)

def shapeExact (rule : ThresholdRule) (marginPpm : UInt32) : Option RuleShape :=
  let scale := if rule.op = .atLeast then scaleDownExact else scaleUpExact
  if marginPpm = 0 then some ⟨rule.watch, rule.congested, rule.severe⟩
  else do
    return ⟨← scale rule.watch marginPpm, ← scale rule.congested marginPpm,
      ← scale rule.severe marginPpm⟩

def classifyRuleExact (rule : ThresholdRule) (value : UInt64) (marginPpm : UInt32) :
    Option Severity :=
  if rule.weight = 0 then some .clear
  else (shapeExact rule marginPpm).map fun bounds => classifyShape rule bounds value

section Threshold

variable {threshold : UInt64} {margin : UInt32}

/-- Up to the whole, the share of any threshold is computed within the word. -/
theorem marginShare_exact (hm : margin.toNat ≤ 1000000) :
    marginShareExact threshold margin = some (marginShare threshold margin) ∧
      (marginShare threshold margin).toNat = threshold.toNat * margin.toNat / 1000000 := by
  have ht := threshold.toNat_lt
  have hmargin : margin.toUInt64.toNat = margin.toNat := UInt32.toNat_toUInt64 margin
  have hquotient : (threshold / 1000000).toNat = threshold.toNat / 1000000 := rfl
  have hremainder : (threshold % 1000000).toNat = threshold.toNat % 1000000 := rfl
  have hsplit := share_split (d := 1000000) (by omega) threshold.toNat margin.toNat
  have hwhole := share_le_whole hm threshold.toNat
  have hfirst : (threshold / 1000000).toNat * margin.toUInt64.toNat < 2 ^ 64 := by
    rw [hquotient, hmargin]
    omega
  have hsecond : (threshold % 1000000).toNat * margin.toUInt64.toNat < 2 ^ 64 := by
    rw [hremainder, hmargin]
    have hrem : threshold.toNat % 1000000 < 1000000 := Nat.mod_lt _ (by decide)
    calc threshold.toNat % 1000000 * margin.toNat
        ≤ 1000000 * 1000000 := Nat.mul_le_mul hrem.le hm
      _ < 2 ^ 64 := by decide
  have hpart : (threshold % 1000000 * margin.toUInt64 / 1000000).toNat =
      threshold.toNat % 1000000 * margin.toNat / 1000000 := by
    rw [UInt64.toNat_div, toNat_mul_of_lt hsecond, hremainder, hmargin]
    rfl
  have hsum : (threshold / 1000000 * margin.toUInt64).toNat +
      (threshold % 1000000 * margin.toUInt64 / 1000000).toNat < 2 ^ 64 := by
    rw [toNat_mul_of_lt hfirst, hpart, hquotient, hmargin]
    omega
  constructor
  · simp only [marginShareExact, mulExact_eq hfirst, mulExact_eq hsecond, Option.bind_eq_bind,
      Option.bind_some]
    exact addExact_eq hsum
  · unfold marginShare
    rw [toNat_add_of_lt hsum, toNat_mul_of_lt hfirst, hpart, hquotient, hmargin, hsplit]

theorem scaleDownByMargin_exact (hm : margin.toNat ≤ 1000000) :
    scaleDownExact threshold margin = some (scaleDownByMargin threshold margin) ∧
      (scaleDownByMargin threshold margin).toNat =
        threshold.toNat - threshold.toNat * margin.toNat / 1000000 := by
  obtain ⟨hexact, hshare⟩ := @marginShare_exact threshold margin hm
  have hdown : scaleDownByMargin threshold margin =
      if threshold > marginShare threshold margin then threshold - marginShare threshold margin
      else 0 := rfl
  unfold scaleDownExact
  rw [hexact, hdown]
  by_cases hlt : threshold > marginShare threshold margin
  · have hle := UInt64.le_of_lt hlt
    have hsub : subExact threshold (marginShare threshold margin) =
        some (threshold - marginShare threshold margin) := if_pos hle
    simp only [Option.bind_eq_bind, Option.bind_some, if_pos hlt]
    exact ⟨hsub, by rw [UInt64.toNat_sub_of_le _ _ hle, hshare]⟩
  · have hle := UInt64.le_iff_toNat_le.mp (UInt64.not_lt.mp hlt)
    rw [if_neg hlt]
    refine ⟨if_neg hlt, ?_⟩
    show 0 = _
    omega

theorem scaleUpByMargin_exact (hm : margin.toNat ≤ 1000000)
    (hsmall : threshold.toNat ≤ 1000000000000000) :
    scaleUpExact threshold margin = some (scaleUpByMargin threshold margin) ∧
      (scaleUpByMargin threshold margin).toNat =
        threshold.toNat + threshold.toNat * margin.toNat / 1000000 := by
  obtain ⟨hexact, hshare⟩ := @marginShare_exact threshold margin hm
  have hwhole := share_le_whole hm threshold.toNat
  have hsum : threshold.toNat + (marginShare threshold margin).toNat < 2 ^ 64 := by
    rw [hshare]
    omega
  have hup : scaleUpByMargin threshold margin = threshold + marginShare threshold margin := by
    have hmax : limits.kMaxU64.toNat = 2 ^ 64 - 1 := rfl
    have hle : marginShare threshold margin ≤ limits.kMaxU64 :=
      UInt64.le_iff_toNat_le.mpr (by omega)
    have hfits : ¬threshold > limits.kMaxU64 - marginShare threshold margin := by
      intro hover
      have hlt := UInt64.lt_iff_toNat_lt.mp hover
      rw [UInt64.toNat_sub_of_le _ _ hle] at hlt
      omega
    exact if_neg hfits
  rw [hup]
  refine ⟨?_, ?_⟩
  · unfold scaleUpExact
    rw [hexact]
    exact addExact_eq hsum
  · rw [toNat_add_of_lt hsum, hshare]

end Threshold

/-! ### Rules of an accepted policy -/

/-- The order that the sense of a rule asks of its thresholds. -/
def OrderedShape (op : ThresholdOp) (bounds : RuleShape) : Prop :=
  if op = .atLeast then bounds.watch ≤ bounds.congested ∧ bounds.congested ≤ bounds.severe
  else bounds.severe ≤ bounds.congested ∧ bounds.congested ≤ bounds.watch

/-- A rule whose thresholds are in order and within what a metric can read. -/
structure Sound (rule : ThresholdRule) : Prop where
  watch : rule.watch.toNat ≤ 1000000000000000
  congested : rule.congested.toNat ≤ 1000000000000000
  severe : rule.severe.toNat ≤ 1000000000000000
  ordered : OrderedShape rule.op ⟨rule.watch, rule.congested, rule.severe⟩

theorem metricPlausibleMax_le (kind : MetricKind) :
    (metricPlausibleMax kind).toNat ≤ 1000000000000000 := by
  cases kind with
  | undeclared raw h => exact Nat.zero_le _
  | _ => decide

theorem validateRule_sound {freshness : FreshnessPolicy} {seen : List MetricKind}
    {rule : ThresholdRule} (h : validateRule freshness seen rule = .ok ()) : Sound rule := by
  have hmax := metricPlausibleMax_le rule.metric
  simp only [validateRule, bind_ok, refuseIf_ok, exists_const, not_or, UInt64.not_lt, gt_iff_lt,
    UInt64.le_iff_toNat_le] at h
  obtain ⟨_, _, _, ⟨hwatch, hcongested, hsevere⟩, h⟩ := h
  refine ⟨by omega, by omega, by omega, ?_⟩
  unfold OrderedShape
  by_cases hop : rule.op = .atLeast
  · rw [if_pos hop] at h ⊢
    simp only [bind_ok, refuseIf_ok, not_not, exists_const] at h
    exact ⟨UInt64.le_iff_toNat_le.mpr h.1.1, UInt64.le_iff_toNat_le.mpr h.1.2⟩
  · rw [if_neg hop] at h ⊢
    simp only [bind_ok, refuseIf_ok, not_not, exists_const] at h
    exact ⟨UInt64.le_iff_toNat_le.mpr h.1.1, UInt64.le_iff_toNat_le.mpr h.1.2⟩

theorem validateRules_sound {freshness : FreshnessPolicy} {seen : List MetricKind}
    {rules : List ThresholdRule} (h : validateRules freshness seen rules = .ok ())
    {rule : ThresholdRule} (hrule : rule ∈ rules) : Sound rule := by
  induction rules generalizing seen with
  | nil => cases hrule
  | cons first rest ih =>
    obtain ⟨_, hfirst, hrest⟩ := bind_ok.mp h
    rcases List.mem_cons.mp hrule with rfl | hrule
    · exact validateRule_sound hfirst
    · exact ih hrest hrule

/-- A threshold after the shift by a margin. -/
def shifted (op : ThresholdOp) (threshold : Nat) (margin : Nat) : Nat :=
  if op = .atLeast then threshold - threshold * margin / 1000000
  else threshold + threshold * margin / 1000000

variable {rule : ThresholdRule} {margin : UInt32}

/-- The shape of a rule is what the margin makes of each threshold, and nothing overflows on the
way. -/
theorem Sound.shape_exact (h : Sound rule) (hm : margin.toNat ≤ 1000000) :
    shapeExact rule margin = some (shape rule margin) ∧
      (shape rule margin).watch.toNat = shifted rule.op rule.watch.toNat margin.toNat ∧
      (shape rule margin).congested.toNat = shifted rule.op rule.congested.toNat margin.toNat ∧
      (shape rule margin).severe.toNat = shifted rule.op rule.severe.toNat margin.toNat := by
  unfold shapeExact shape
  by_cases hzero : margin = 0
  · have hnone : ∀ threshold, shifted rule.op threshold margin.toNat = threshold := by
      intro threshold
      rw [hzero]
      unfold shifted
      show (if _ then threshold - threshold * 0 / 1000000 else threshold + threshold * 0 / 1000000) =
        threshold
      simp
    rw [hnone, hnone, hnone, if_pos hzero]
    simp [hzero]
  · unfold shifted
    by_cases hop : rule.op = .atLeast
    · obtain ⟨hw, hwatch⟩ := @scaleDownByMargin_exact rule.watch margin hm
      obtain ⟨hc, hcongested⟩ := @scaleDownByMargin_exact rule.congested margin hm
      obtain ⟨hs, hsevere⟩ := @scaleDownByMargin_exact rule.severe margin hm
      simp only [if_neg hzero, if_pos hop, hw, hc, hs]
      exact ⟨rfl, hwatch, hcongested, hsevere⟩
    · obtain ⟨hw, hwatch⟩ := scaleUpByMargin_exact hm h.watch
      obtain ⟨hc, hcongested⟩ := scaleUpByMargin_exact hm h.congested
      obtain ⟨hs, hsevere⟩ := scaleUpByMargin_exact hm h.severe
      simp only [if_neg hzero, if_neg hop, hw, hc, hs]
      exact ⟨rfl, hwatch, hcongested, hsevere⟩

theorem Sound.classify_exact (h : Sound rule) (hm : margin.toNat ≤ 1000000) (value : UInt64) :
    classifyRuleExact rule value margin = some (classifyRuleWithMargin rule value margin) := by
  unfold classifyRuleExact classifyRuleWithMargin
  rw [(h.shape_exact hm).1]
  split <;> rfl

theorem Sound.ordered_shape (h : Sound rule) (hm : margin.toNat ≤ 1000000) :
    OrderedShape rule.op (shape rule margin) := by
  obtain ⟨_, hwatch, hcongested, hsevere⟩ := h.shape_exact hm
  have hordered := h.ordered
  unfold OrderedShape at hordered ⊢
  simp only [UInt64.le_iff_toNat_le, hwatch, hcongested, hsevere] at hordered ⊢
  unfold shifted
  split
  next hop =>
    rw [if_pos hop] at hordered
    exact ⟨sub_share_mono (by omega) hm hordered.1, sub_share_mono (by omega) hm hordered.2⟩
  next hop =>
    rw [if_neg hop] at hordered
    exact ⟨add_share_mono hordered.1, add_share_mono hordered.2⟩

/-- A threshold that is reached under a margin is reached under a larger one. -/
theorem reaches_shifted {op : ThresholdOp} {m n : Nat} {threshold threshold' value : UInt64}
    {whole : Nat} (hthreshold : threshold.toNat = shifted op whole m)
    (hthreshold' : threshold'.toNat = shifted op whole n) (h : m ≤ n)
    (hr : reaches op threshold value) : reaches op threshold' value := by
  have hshare := share_mono (d := 1000000) h whole
  unfold reaches at hr ⊢
  unfold shifted at hthreshold hthreshold'
  by_cases hop : op = .atLeast
  · rw [if_pos hop] at hr hthreshold hthreshold' ⊢
    rw [UInt64.le_iff_toNat_le] at hr ⊢
    omega
  · rw [if_neg hop] at hr hthreshold hthreshold' ⊢
    rw [UInt64.le_iff_toNat_le] at hr ⊢
    omega

theorem Sound.classify_margin_mono (h : Sound rule) {m n : UInt32} (hmn : m ≤ n)
    (hn : n.toNat ≤ 1000000) (value : UInt64) :
    classifyRuleWithMargin rule value m ≤ classifyRuleWithMargin rule value n := by
  have hle := UInt32.le_iff_toNat_le.mp hmn
  obtain ⟨_, hwatch, hcongested, hsevere⟩ := h.shape_exact (hle.trans hn)
  obtain ⟨_, hwatch', hcongested', hsevere'⟩ := h.shape_exact hn
  unfold classifyRuleWithMargin
  split
  · exact le_refl _
  · apply classifyShape_le
    · exact reaches_shifted hsevere hsevere' hle
    · exact reaches_shifted hcongested hcongested' hle
    · exact reaches_shifted hwatch hwatch' hle

/-- What the levels of a rule promise for every reading and every margin up to the whole. -/
structure MarginContract (rule : ThresholdRule) : Prop where
  exact : ∀ value (m : UInt32), m ≤ 1000000 →
    classifyRuleExact rule value m = some (classifyRuleWithMargin rule value m)
  zero : ∀ value, classifyRuleWithMargin rule value 0 = rule.classify value
  ordered : ∀ m : UInt32, m ≤ 1000000 → OrderedShape rule.op (shape rule m)
  reading : ∀ value value' (m : UInt32), m ≤ 1000000 → NoBetter rule.op value value' →
    classifyRuleWithMargin rule value m ≤ classifyRuleWithMargin rule value' m
  margin : ∀ value (m n : UInt32), m ≤ n → n ≤ 1000000 →
    classifyRuleWithMargin rule value m ≤ classifyRuleWithMargin rule value n
  above : ∀ value (m : UInt32), m ≤ 1000000 →
    rule.classify value ≤ classifyRuleWithMargin rule value m

theorem classifyRuleWithMargin_zero (rule : ThresholdRule) (value : UInt64) :
    classifyRuleWithMargin rule value 0 = rule.classify value := rfl

/-- Every rule of an accepted policy keeps the contract. -/
theorem accepted_rule_margins {policy accepted : CongestionPolicy}
    (h : validatePolicy policy = .ok accepted) (hrule : rule ∈ policy.rules) :
    MarginContract rule := by
  obtain ⟨heq, haccepted⟩ := validatePolicy_accepted h
  have hsame : accepted.rules = policy.rules := by rw [heq]
  have hsound := validateRules_sound haccepted.rules (hsame ▸ hrule)
  constructor
  · intro value m hm
    exact hsound.classify_exact (UInt32.le_iff_toNat_le.mp hm) value
  · exact classifyRuleWithMargin_zero rule
  · intro m hm
    exact hsound.ordered_shape (UInt32.le_iff_toNat_le.mp hm)
  · intro value value' m _ hworse
    exact classifyRuleWithMargin_mono hworse m
  · intro value m n hmn hn
    exact hsound.classify_margin_mono hmn (UInt32.le_iff_toNat_le.mp hn) value
  · intro value m hm
    rw [← classifyRuleWithMargin_zero]
    have hzero : (0 : UInt32) ≤ m := UInt32.le_iff_toNat_le.mpr (Nat.zero_le _)
    exact hsound.classify_margin_mono hzero (UInt32.le_iff_toNat_le.mp hm) value

theorem accepted_rule_margins_default :
    MarginContract { metric := .utilizationPpm, watch := 700000, congested := 850000
                     severe := 950000, required := true } :=
  accepted_rule_margins defaultPolicy_accepted (List.mem_cons_self ..)

end CongestionFabric
