import CongestionFabric.Eval.Contradiction
import CongestionFabric.Eval.PropagationNeutral

namespace CongestionFabric

/-! ### Thresholds -/

/-- The value is on the bad side of the threshold. -/
def reaches (op : ThresholdOp) (threshold value : UInt64) : Prop :=
  if op = .atLeast then threshold ≤ value else value ≤ threshold

instance (op : ThresholdOp) (threshold value : UInt64) : Decidable (reaches op threshold value) :=
  inferInstanceAs (Decidable (if op = .atLeast then threshold ≤ value else value ≤ threshold))

/-- No better a value, by the sense of the threshold. -/
def NoBetter (op : ThresholdOp) (value value' : UInt64) : Prop :=
  if op = .atLeast then value ≤ value' else value' ≤ value

theorem NoBetter.reaches {op : ThresholdOp} {threshold value value' : UInt64}
    (h : NoBetter op value value') (hr : reaches op threshold value) :
    reaches op threshold value' := by
  unfold NoBetter at h
  unfold CongestionFabric.reaches at hr ⊢
  split at h
  next hop =>
    rw [if_pos hop] at hr ⊢
    exact UInt64.le_trans hr h
  next hop =>
    rw [if_neg hop] at hr ⊢
    exact UInt64.le_trans h hr

theorem classifyShape_eq (rule : ThresholdRule) (bounds : RuleShape) (value : UInt64) :
    classifyShape rule bounds value =
      if reaches rule.op bounds.severe value then .severe
      else if reaches rule.op bounds.congested value then .congested
      else if reaches rule.op bounds.watch value then .watch
      else .clear := by
  unfold classifyShape reaches
  by_cases hop : rule.op = .atLeast <;> simp [hop]

/-- Whatever reaches more thresholds is classified no lower. -/
theorem classifyShape_le {rule : ThresholdRule} {bounds bounds' : RuleShape}
    {value value' : UInt64}
    (hsevere : reaches rule.op bounds.severe value → reaches rule.op bounds'.severe value')
    (hcongested : reaches rule.op bounds.congested value →
      reaches rule.op bounds'.congested value')
    (hwatch : reaches rule.op bounds.watch value → reaches rule.op bounds'.watch value') :
    classifyShape rule bounds value ≤ classifyShape rule bounds' value' := by
  rw [classifyShape_eq, classifyShape_eq]
  by_cases hs : reaches rule.op bounds'.severe value'
  · rw [if_pos hs]
    split_ifs <;> decide
  · rw [if_neg hs, if_neg (fun h => hs (hsevere h))]
    by_cases hc : reaches rule.op bounds'.congested value'
    · rw [if_pos hc]
      split_ifs <;> decide
    · rw [if_neg hc, if_neg (fun h => hc (hcongested h))]
      by_cases hw : reaches rule.op bounds'.watch value'
      · rw [if_pos hw]
        split_ifs <;> decide
      · rw [if_neg hw, if_neg (fun h => hw (hwatch h))]

theorem classifyRuleWithMargin_mono {rule : ThresholdRule} {value value' : UInt64}
    (h : NoBetter rule.op value value') (margin : UInt32) :
    classifyRuleWithMargin rule value margin ≤ classifyRuleWithMargin rule value' margin := by
  unfold classifyRuleWithMargin
  split
  · exact le_refl _
  · exact classifyShape_le h.reaches h.reaches h.reaches

theorem scaleDownByMargin_le (threshold : UInt64) (margin : UInt32) :
    scaleDownByMargin threshold margin ≤ threshold := by
  unfold scaleDownByMargin
  dsimp only
  split
  next hlt =>
    rw [UInt64.le_iff_toNat_le, UInt64.toNat_sub_of_le _ _ (UInt64.le_of_lt hlt)]
    exact Nat.sub_le _ _
  next => exact UInt64.le_iff_toNat_le.mpr (Nat.zero_le _)

/-- The margin brings thresholds closer. -/
theorem classifyRuleWithMargin_margin (rule : ThresholdRule) (value : UInt64) (margin : UInt32) :
    classifyRuleWithMargin rule value 0 ≤ classifyRuleWithMargin rule value margin := by
  have hdown : ∀ threshold, rule.op = .atLeast → reaches rule.op threshold value →
      reaches rule.op (scaleDownByMargin threshold margin) value := by
    intro threshold hop hr
    unfold reaches at hr ⊢
    rw [if_pos hop] at hr ⊢
    exact UInt64.le_trans (scaleDownByMargin_le threshold margin) hr
  have hup : ∀ threshold, rule.op ≠ .atLeast → reaches rule.op threshold value →
      reaches rule.op (scaleUpByMargin threshold margin) value := by
    intro threshold hop hr
    unfold reaches at hr ⊢
    rw [if_neg hop] at hr ⊢
    exact UInt64.le_trans hr (le_saturatingAdd threshold _)
  have hzero : shape rule 0 = ⟨rule.watch, rule.congested, rule.severe⟩ := if_pos rfl
  unfold classifyRuleWithMargin
  split
  · exact le_refl _
  · rw [hzero]
    unfold shape
    split
    · exact le_refl _
    · split
      next hop => exact classifyShape_le (hdown _ hop) (hdown _ hop) (hdown _ hop)
      next hop => exact classifyShape_le (hup _ hop) (hup _ hop) (hup _ hop)

namespace CongestionEvaluator

/-! ### The reading that stands for a rule -/

/-- Highest level first, then newest observation, then lowest queue. -/
def prominence (rule : ThresholdRule) (candidate : QueueId × Reading) :
    Severity ×ₗ ℕ ×ₗ QueueIdᵒᵈ :=
  toLex (classifyRuleWithMargin rule candidate.2.value 0,
    toLex (candidate.2.observedTick.toNat, OrderDual.toDual candidate.1))

theorem outcomeBetter_iff (rule : ThresholdRule) (margin : UInt32)
    (candidate incumbent : QueueId × Reading) :
    outcomeBetter (ruleOutcomeOf rule margin candidate) (ruleOutcomeOf rule margin incumbent) =
      true ↔ prominence rule incumbent < prominence rule candidate := by
  unfold outcomeBetter prominence ruleOutcomeOf
  rw [Prod.Lex.toLex_lt_toLex, Prod.Lex.toLex_lt_toLex]
  rw [UInt64.toNat_inj, OrderDual.toDual_lt_toDual, ← UInt64.lt_iff_toNat_lt]
  simp only [Bool.or_eq_true, Bool.and_eq_true, decide_eq_true_eq, gt_iff_lt]
  refine or_congr Iff.rfl (and_congr eq_comm (or_congr Iff.rfl (and_congr eq_comm Iff.rfl)))

/-- The reading whose outcome stands for the rule. -/
def Represents (rule : ThresholdRule) (candidates : List (QueueId × Reading))
    (candidate : QueueId × Reading) : Prop :=
  IsFirstBest (prominence rule) candidates candidate

theorem worstOutcome_eq_some {rule : ThresholdRule} {margin : UInt32}
    {candidates : List (QueueId × Reading)} {outcome : RuleOutcome} :
    worstOutcome rule margin candidates = some outcome ↔
      ∃ candidate, Represents rule candidates candidate ∧
        outcome = ruleOutcomeOf rule margin candidate := by
  have hfold : ∀ (rest : List (QueueId × Reading)) (first : QueueId × Reading),
      rest.foldl (fun incumbent candidate =>
        let outcome := ruleOutcomeOf rule margin candidate
        if outcomeBetter outcome incumbent then outcome else incumbent)
        (ruleOutcomeOf rule margin first) =
      ruleOutcomeOf rule margin (rest.foldl (better (prominence rule)) first) := by
    intro rest
    induction rest with
    | nil => exact fun first => rfl
    | cons candidate rest ih =>
      intro first
      rw [List.foldl_cons, List.foldl_cons, ← ih]
      congr 1
      unfold better
      dsimp only
      by_cases hlt : prominence rule first < prominence rule candidate
      · rw [if_pos hlt, if_pos ((outcomeBetter_iff rule margin candidate first).mpr hlt)]
      · rw [if_neg hlt, if_neg fun h => hlt ((outcomeBetter_iff rule margin candidate first).mp h)]
  cases candidates with
  | nil =>
    refine iff_of_false (by simp [worstOutcome]) ?_
    rintro ⟨candidate, hbest, _⟩
    exact absurd hbest.mem List.not_mem_nil
  | cons first rest =>
    have hbest : Represents rule (first :: rest) (rest.foldl (better (prominence rule)) first) :=
      (IsFirstBest.single (prominence rule) first).foldl rest
    have hworst : worstOutcome rule margin (first :: rest) =
        some (ruleOutcomeOf rule margin (rest.foldl (better (prominence rule)) first)) :=
      congrArg some (hfold rest first)
    rw [hworst, Option.some.injEq]
    constructor
    · rintro rfl
      exact ⟨_, hbest, rfl⟩
    · rintro ⟨candidate, hcandidate, rfl⟩
      rw [IsFirstBest.unique hbest hcandidate]

/-- The representative has the highest level of the rule. -/
theorem Represents.level_le {rule : ThresholdRule} {candidates : List (QueueId × Reading)}
    {candidate other : QueueId × Reading} (h : Represents rule candidates candidate)
    (hother : other ∈ candidates) :
    classifyRuleWithMargin rule other.2.value 0 ≤ classifyRuleWithMargin rule candidate.2.value 0 := by
  have hle := IsFirstBest.le h hother
  unfold prominence at hle
  rw [Prod.Lex.toLex_le_toLex] at hle
  rcases hle with hlt | ⟨heq, _⟩
  · exact hlt.le
  · exact heq.le

/-! ### What a rule adds to the tally of a resource -/

variable {policy : CongestionPolicy} {resolution : Resolution} {resource : ResourceId}

/-- What a rule makes of a resource; nothing where it is contradicted or unread. -/
def ruleOutcome (policy : CongestionPolicy) (resolution : Resolution) (resource : ResourceId)
    (rule : ThresholdRule) : Option RuleOutcome :=
  if (resource, rule.metric) ∈ resolution.unresolved then none
  else worstOutcome rule policy.hysteresis.downgradeMarginPpm
    (readingsFor resolution resource rule.metric)

/-- The level a rule raises the resource to. -/
def raisedBy (policy : CongestionPolicy) (resolution : Resolution) (resource : ResourceId)
    (rule : ThresholdRule) : Severity :=
  ((ruleOutcome policy resolution resource rule).map (·.upward)).getD .clear

/-- The level a rule keeps the resource at. -/
def keptBy (policy : CongestionPolicy) (resolution : Resolution) (resource : ResourceId)
    (rule : ThresholdRule) : Severity :=
  ((ruleOutcome policy resolution resource rule).map (·.downward)).getD .clear

variable (policy resolution resource) in
theorem tallyRule_levels (t : Tally) (rule : ThresholdRule) :
    let t' := tallyRule policy resolution resource t rule
    let raised := raisedBy policy resolution resource rule
    t'.agreeWatch = countIf (.watch ≤ raised) t.agreeWatch ∧
      t'.agreeCongested = countIf (.congested ≤ raised) t.agreeCongested ∧
      t'.agreeSevere = countIf (.severe ≤ raised) t.agreeSevere ∧
      t'.strictestDown = max t.strictestDown (keptBy policy resolution resource rule) := by
  intro t' raised
  have hwatch : ∀ n : Nat, countIf (Severity.watch ≤ .clear) n = n := fun n => if_neg (by decide)
  have hcongested : ∀ n : Nat, countIf (Severity.congested ≤ .clear) n = n :=
    fun n => if_neg (by decide)
  have hsevere : ∀ n : Nat, countIf (Severity.severe ≤ .clear) n = n := fun n => if_neg (by decide)
  have hmax : max t.strictestDown .clear = t.strictestDown := max_eq_left (Nat.zero_le _)
  simp only [t', raised, tallyRule, raisedBy, keptBy, ruleOutcome]
  by_cases hu : (resource, rule.metric) ∈ resolution.unresolved
  · simp only [if_pos hu, Option.map_none, Option.getD_none]
    rw [hwatch, hcongested, hsevere, hmax]
    exact ⟨rfl, rfl, rfl, rfl⟩
  · simp only [if_neg hu]
    cases hw : worstOutcome rule policy.hysteresis.downgradeMarginPpm
        (readingsFor resolution resource rule.metric) with
    | none =>
      simp only [Option.map_none, Option.getD_none]
      rw [hwatch, hcongested, hsevere, hmax]
      exact ⟨rfl, rfl, rfl, rfl⟩
    | some outcome =>
      exact ⟨rfl, rfl, rfl, rfl⟩

theorem tallyFold_levels (rules : List ThresholdRule) (t : Tally) :
    let t' := rules.foldl (tallyRule policy resolution resource) t
    t'.agreeWatch = t.agreeWatch +
        rules.countP (fun r => .watch ≤ raisedBy policy resolution resource r) ∧
      t'.agreeCongested = t.agreeCongested +
        rules.countP (fun r => .congested ≤ raisedBy policy resolution resource r) ∧
      t'.agreeSevere = t.agreeSevere +
        rules.countP (fun r => .severe ≤ raisedBy policy resolution resource r) ∧
      ∀ v : Severity, v ≤ t'.strictestDown ↔
        v ≤ t.strictestDown ∨ ∃ r ∈ rules, v ≤ keptBy policy resolution resource r := by
  induction rules generalizing t with
  | nil => simp
  | cons rule rest ih =>
    obtain ⟨hw, hc, hs, hd⟩ := tallyRule_levels policy resolution resource t rule
    obtain ⟨iw, ic, is, id⟩ := ih (tallyRule policy resolution resource t rule)
    simp only [List.foldl_cons, List.countP_cons, List.exists_mem_cons_iff]
    refine ⟨?_, ?_, ?_, fun v => ?_⟩
    · rw [iw, hw]
      unfold countIf
      by_cases h : .watch ≤ raisedBy policy resolution resource rule
      · simp [h]
        omega
      · simp [h]
    · rw [ic, hc]
      unfold countIf
      by_cases h : .congested ≤ raisedBy policy resolution resource rule
      · simp [h]
        omega
      · simp [h]
    · rw [is, hs]
      unfold countIf
      by_cases h : .severe ≤ raisedBy policy resolution resource rule
      · simp [h]
        omega
      · simp [h]
    · rw [id, hd, le_max_iff, or_assoc]

/-- The severity of a resource: how many rules raise it how far, through the gates. -/
theorem upward_eq : (tallyResource policy resolution resource).upward policy =
    gateSeverity
      (policy.rules.countP fun r => .watch ≤ raisedBy policy resolution resource r)
      (policy.rules.countP fun r => .congested ≤ raisedBy policy resolution resource r)
      (policy.rules.countP fun r => .severe ≤ raisedBy policy resolution resource r) policy := by
  obtain ⟨hw, hc, hs, _⟩ := @tallyFold_levels policy resolution resource policy.rules { assessment := { resource } }
  unfold Tally.upward tallyResource
  rw [hw, hc, hs]
  simp

/-- More support, no lower a severity. -/
theorem gateSeverity_mono {w c s w' c' s' : Nat} (hw : w ≤ w') (hc : c ≤ c') (hs : s ≤ s') :
    gateSeverity w c s policy ≤ gateSeverity w' c' s' policy := by
  have hmono : ∀ {n : UInt32} {a b : Nat}, a ≤ b → (n ≠ 0 ∧ a ≥ n.toNat) → n ≠ 0 ∧ b ≥ n.toNat :=
    fun hab h => ⟨h.1, h.2.trans hab⟩
  unfold gateSeverity
  split_ifs <;> first | decide | (exfalso; grind)

end CongestionEvaluator

end CongestionFabric
