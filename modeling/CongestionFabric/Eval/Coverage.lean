import CongestionFabric.Eval.Evaluator

namespace CongestionFabric.CongestionEvaluator

variable {policy : CongestionPolicy} {resolution : Resolution} {resource : ResourceId}

/-- The resource has an admitted, uncontradicted reading for the metric. -/
def reports (resolution : Resolution) (resource : ResourceId) (metric : MetricKind) : Bool :=
  decide ((resource, metric) ∉ resolution.unresolved) &&
    !(readingsFor resolution resource metric).isEmpty

def contradicted (resolution : Resolution) (resource : ResourceId) (metric : MetricKind) : Bool :=
  decide ((resource, metric) ∈ resolution.unresolved)

theorem worstOutcome_isSome (rule : ThresholdRule) (margin : UInt32)
    (candidates : List (QueueId × Reading)) :
    (worstOutcome rule margin candidates).isSome = !candidates.isEmpty := by
  cases candidates <;> rfl

variable (policy resolution resource) in
/-- One rule of the tally, as far as coverage goes. -/
theorem tallyRule_coverage (t : Tally) (rule : ThresholdRule) :
    let t' := tallyRule policy resolution resource t rule
    t'.anyPresent = (t.anyPresent || reports resolution resource rule.metric) ∧
      t'.assessment.contradictory =
        (t.assessment.contradictory || contradicted resolution resource rule.metric) ∧
      t'.requiredTotal = countIf rule.required t.requiredTotal ∧
      t'.requiredPresent =
        countIf (rule.required && reports resolution resource rule.metric) t.requiredPresent ∧
      t'.assessment.resource = t.assessment.resource := by
  intro t'
  have hsome := worstOutcome_isSome rule policy.hysteresis.downgradeMarginPpm
    (readingsFor resolution resource rule.metric)
  simp only [t', tallyRule, reports, contradicted]
  by_cases hu : (resource, rule.metric) ∈ resolution.unresolved
  · simp [hu, countIf]
  · simp only [hu]
    cases hw : worstOutcome rule policy.hysteresis.downgradeMarginPpm
        (readingsFor resolution resource rule.metric) with
    | none => simp [← hsome, hw, countIf]
    | some outcome => simp [← hsome, hw, countIf, assessReading]

theorem tallyFold_coverage (rules : List ThresholdRule) (t : Tally) :
    let t' := rules.foldl (tallyRule policy resolution resource) t
    t'.anyPresent = (t.anyPresent || rules.any fun r => reports resolution resource r.metric) ∧
      t'.assessment.contradictory = (t.assessment.contradictory ||
        rules.any fun r => contradicted resolution resource r.metric) ∧
      t'.requiredTotal = t.requiredTotal + rules.countP (·.required) ∧
      t'.requiredPresent = t.requiredPresent +
        rules.countP (fun r => r.required && reports resolution resource r.metric) ∧
      t'.assessment.resource = t.assessment.resource := by
  induction rules generalizing t with
  | nil => simp
  | cons rule rest ih =>
    obtain ⟨h₁, h₂, h₃, h₄, h₅⟩ := tallyRule_coverage policy resolution resource
      t rule
    obtain ⟨i₁, i₂, i₃, i₄, i₅⟩ := ih (tallyRule policy resolution resource t rule)
    simp only [List.foldl_cons, List.any_cons, List.countP_cons]
    rw [i₁, i₂, i₃, i₄, i₅, h₁, h₂, h₃, h₄, h₅, Bool.or_assoc, Bool.or_assoc]
    refine ⟨rfl, rfl, ?_, ?_, rfl⟩
    · unfold countIf
      split <;> omega
    · unfold countIf
      split <;> omega

theorem countP_and_eq_iff {α : Type} (p q : α → Bool) (l : List α) :
    l.countP (fun x => p x && q x) = l.countP p ↔ ∀ x ∈ l, p x = true → q x = true := by
  induction l with
  | nil => simp
  | cons x rest ih =>
    have hle : rest.countP (fun x => p x && q x) ≤ rest.countP p :=
      List.countP_mono_left fun y _ h => (Bool.and_eq_true_iff.mp h).1
    by_cases hp : p x = true
    · by_cases hq : q x = true
      · simp [hp, hq, ih]
      · simp only [List.countP_cons, hp, hq, List.forall_mem_cons]
        simp
        omega
    · simp [hp, ih]

variable (policy) in
theorem tally_anyPresent_iff :
    (tallyResource policy resolution resource).anyPresent = true ↔
      ∃ rule ∈ policy.rules, reports resolution resource rule.metric = true := by
  rw [tallyResource, (tallyFold_coverage policy.rules _).1]
  simp

theorem tally_contradictory_iff :
    (tallyResource policy resolution resource).assessment.contradictory = true ↔
      ∃ rule ∈ policy.rules, contradicted resolution resource rule.metric = true := by
  rw [tallyResource, (tallyFold_coverage policy.rules _).2.1]
  simp

theorem tally_required_iff :
    (tallyResource policy resolution resource).requiredPresent =
        (tallyResource policy resolution resource).requiredTotal ↔
      ∀ rule ∈ policy.rules, rule.required = true →
        reports resolution resource rule.metric = true := by
  rw [tallyResource, (tallyFold_coverage policy.rules _).2.2.1,
    (tallyFold_coverage policy.rules _).2.2.2.1]
  simpa using countP_and_eq_iff (·.required) (fun r => reports resolution resource r.metric)
    policy.rules

@[simp] theorem tally_resource :
    (tallyResource policy resolution resource).assessment.resource = resource := by
  rw [tallyResource, (tallyFold_coverage policy.rules _).2.2.2.2]

def SilentCounts (t : Tally) : Prop :=
  t.anyPresent = false → t.agreeWatch = 0 ∧ t.agreeCongested = 0 ∧ t.agreeSevere = 0

theorem tallyRule_silent {t : Tally} {rule : ThresholdRule} (h : SilentCounts t) :
    SilentCounts (tallyRule policy resolution resource t rule) := by
  unfold tallyRule
  dsimp only
  split
  · exact h
  · split
    · exact h
    · exact fun hp => absurd hp (by simp)

theorem tally_silent : SilentCounts (tallyResource policy resolution resource) := by
  have hfold : ∀ (rules : List ThresholdRule) (t : Tally), SilentCounts t →
      SilentCounts (rules.foldl (tallyRule policy resolution resource) t) := by
    intro rules
    induction rules with
    | nil => exact fun t h => h
    | cons rule rest ih => exact fun t h => ih _ (tallyRule_silent h)
  exact hfold _ _ fun _ => ⟨rfl, rfl, rfl⟩

theorem gateSeverity_zero : gateSeverity 0 0 0 policy = .clear := by
  have hz : ∀ n : UInt32, ¬(n ≠ 0 ∧ 0 ≥ n.toNat) := by
    rintro n ⟨hn, hle⟩
    exact hn (UInt32.toNat_inj.mp (Nat.le_zero.mp hle))
  unfold gateSeverity
  rw [if_neg (hz _), if_neg (hz _), if_neg (hz _)]

/-- The corroboration gates answer CLEAR or at least WATCH. -/
theorem gateSeverity_ge_watch {w c s : Nat} (h : gateSeverity w c s policy ≠ .clear) :
    .watch ≤ gateSeverity w c s policy := by
  unfold gateSeverity at h ⊢
  split_ifs at h ⊢ <;> first | decide | exact absurd rfl h

/-- A resource nothing was read from supports no severity. -/
theorem upward_of_silent (h : (tallyResource policy resolution resource).anyPresent = false) :
    (tallyResource policy resolution resource).upward policy = .clear := by
  obtain ⟨hw, hc, hs⟩ := tally_silent h
  rw [Tally.upward, hw, hc, hs, gateSeverity_zero]

theorem upward_le_downward (t : Tally) : t.upward policy ≤ t.downward policy := by
  unfold Tally.downward
  dsimp only
  generalize (if policy.hysteresis.requireAllRulesAgreeOnDowngrade = true then t.strictestDown
    else max (t.upward policy) (gateSeverity t.downWatch t.downCongested t.downSevere policy)) = down
  split
  next => exact le_refl (t.upward policy)
  next h => exact not_lt.mp h

/-- What one resource adds to the domain aggregate. -/
theorem aggregateOne_eq (acc : Aggregate) (c : Classified) :
    (aggregateOne acc c).anyConflict = (acc.anyConflict || c.assessment.contradictory) ∧
      (aggregateOne acc c).anyEvidence =
        (acc.anyEvidence || decide (c.assessment.coverage ≠ .none)) ∧
      (aggregateOne acc c).anyPartial =
        (acc.anyPartial || decide (c.assessment.coverage = .partially)) ∧
      (∀ v : Severity, v ≤ (aggregateOne acc c).upward ↔
        v ≤ acc.upward ∨ c.assessment.coverage ≠ .none ∧ v ≤ c.upward) ∧
      (∀ v : Severity, v ≤ (aggregateOne acc c).downward ↔
        v ≤ acc.downward ∨ c.assessment.coverage ≠ .none ∧ v ≤ c.downward) := by
  unfold aggregateOne
  cases c.assessment.coverage <;> simp

theorem aggregate_fold (cs : List Classified) (acc : Aggregate) :
    let g := cs.foldl aggregateOne acc
    g.anyConflict = (acc.anyConflict || cs.any fun c => c.assessment.contradictory) ∧
      g.anyEvidence = (acc.anyEvidence || cs.any fun c => c.assessment.coverage ≠ .none) ∧
      g.anyPartial = (acc.anyPartial || cs.any fun c => c.assessment.coverage = .partially) ∧
      (∀ v : Severity, v ≤ g.upward ↔
        v ≤ acc.upward ∨ ∃ c ∈ cs, c.assessment.coverage ≠ .none ∧ v ≤ c.upward) ∧
      (∀ v : Severity, v ≤ g.downward ↔
        v ≤ acc.downward ∨ ∃ c ∈ cs, c.assessment.coverage ≠ .none ∧ v ≤ c.downward) := by
  induction cs generalizing acc with
  | nil => simp
  | cons c rest ih =>
    obtain ⟨h₁, h₂, h₃, h₄, h₅⟩ := ih (aggregateOne acc c)
    obtain ⟨i₁, i₂, i₃, i₄, i₅⟩ := aggregateOne_eq acc c
    simp only [List.foldl_cons, List.any_cons, List.exists_mem_cons_iff]
    refine ⟨?_, ?_, ?_, fun v => ?_, fun v => ?_⟩
    · rw [h₁, i₁, Bool.or_assoc]
    · rw [h₂, i₂, Bool.or_assoc]
    · rw [h₃, i₃, Bool.or_assoc]
    · rw [h₄, i₄, or_assoc]
    · rw [h₅, i₅, or_assoc]

/-- Propagation raises severities and leaves coverage and contradictions alone. -/
def Raised (c c' : Classified) : Prop :=
  c'.assessment.coverage = c.assessment.coverage ∧
    c'.assessment.contradictory = c.assessment.contradictory ∧
    c.upward ≤ c'.upward ∧ c.downward ≤ c'.downward

theorem induceOne_raised (c : Classified) (edge : PropagationEdge) :
    Raised c (induceOne c edge) := by
  unfold induceOne
  split
  · exact ⟨rfl, rfl, le_max_left _ _, le_max_left _ _⟩
  · exact ⟨rfl, rfl, le_refl _, le_refl _⟩

theorem Raised.trans {a b c : Classified} (h : Raised a b) (h' : Raised b c) : Raised a c :=
  ⟨h'.1.trans h.1, h'.2.1.trans h.2.1, h.2.2.1.trans h'.2.2.1, h.2.2.2.trans h'.2.2.2⟩

theorem induceOne_foldl_raised (edges : List PropagationEdge) (c : Classified) :
    Raised c (edges.foldl induceOne c) := by
  induction edges generalizing c with
  | nil => exact ⟨rfl, rfl, le_refl _, le_refl _⟩
  | cons edge rest ih => exact (induceOne_raised c edge).trans (ih (induceOne c edge))

theorem induce_foldl (edges : List PropagationEdge) (cs : List Classified) :
    edges.foldl induce cs = cs.map fun c => edges.foldl induceOne c := by
  induction edges generalizing cs with
  | nil => simp
  | cons edge rest ih =>
    rw [List.foldl_cons, ih, induce, List.map_map]
    rfl

end CongestionFabric.CongestionEvaluator
