import CongestionFabric.Core.Words
import CongestionFabric.Eval.SingleMetric
import CongestionFabric.Lib.FirstBest

namespace CongestionFabric

/-! ### Tolerance -/

theorem toNat_max (a b : UInt64) : (max a b).toNat = max a.toNat b.toNat := by
  show (if a ≤ b then b else a).toNat = _
  split
  next h => exact (max_eq_right (UInt64.le_iff_toNat_le.mp h)).symm
  next h =>
    have hlt : b.toNat < a.toNat := UInt64.lt_iff_toNat_lt.mp (UInt64.not_le.mp h)
    exact (max_eq_left hlt.le).symm

/-- Widening a range by some amount widens its relative tolerance by no more than that. -/
theorem share_widened {narrow wide ppm : Nat} (hle : narrow ≤ wide) (hppm : ppm ≤ 1000000) :
    wide * ppm / 1000000 ≤ narrow * ppm / 1000000 + (wide - narrow) := by
  have hsplit : wide * ppm = narrow * ppm + (wide - narrow) * ppm := by
    rw [← Nat.add_mul]
    congr 1
    omega
  have hextra : (wide - narrow) * ppm ≤ (wide - narrow) * 1000000 := Nat.mul_le_mul_left _ hppm
  rw [hsplit, ← Nat.add_mul_div_right _ _ (by decide)]
  exact Nat.div_le_div_right (by omega)

/-! ### What a contradiction is -/

/-- Newest observation first, then lowest publisher, then highest generation. -/
def readingRank (r : Reading) : ℕ ×ₗ PublisherIdᵒᵈ ×ₗ EvidenceGeneration :=
  toLex (r.observedTick.toNat, toLex (OrderDual.toDual r.publisher, r.generation))

theorem readingBetter_iff (candidate incumbent : Reading) :
    readingBetter candidate incumbent = true ↔ readingRank incumbent < readingRank candidate := by
  unfold readingBetter readingRank
  rw [Prod.Lex.toLex_lt_toLex, Prod.Lex.toLex_lt_toLex]
  rw [UInt64.toNat_inj, EmbeddingLike.apply_eq_iff_eq, OrderDual.toDual_lt_toDual,
    ← UInt64.lt_iff_toNat_lt]
  split_ifs with htick hpublisher
  · simp [Ne.symm htick]
  · have htick := not_not.mp htick
    simp [htick, Ne.symm hpublisher]
  · have htick := not_not.mp htick
    have hpublisher := not_not.mp hpublisher
    simp [htick, hpublisher]

/-- The newest reading a publisher has among these, the higher generation deciding between equal
ticks and the earlier reading between equal generations. -/
def Newest (readings : List Reading) (r : Reading) : Prop :=
  IsFirstBest readingRank (readings.filter fun other => other.publisher = r.publisher) r

/-- Enough publishers have a reading, and the newest ones of two of them differ by more than the
tolerance. -/
def Contradictory (policy : ContradictionPolicy) (readings : List Reading) : Prop :=
  policy.minDistinctPublishers.toNat ≤ (readings.map (·.publisher)).dedup.length ∧
    ∃ low high, Newest readings low ∧ Newest readings high ∧
      low.value.toNat + max policy.absoluteTolerance.toNat
        (high.value.toNat * policy.relativeTolerancePpm.toNat / 1000000) < high.value.toNat

namespace CongestionEvaluator

theorem perPublisher_eq (bucket : List Reading) :
    perPublisher bucket = SortedMap.bestByKey (·.publisher) readingRank bucket := by
  unfold perPublisher SortedMap.bestByKey
  congr 1
  funext m reading
  unfold SortedMap.keepBest
  split
  next found hf =>
    rw [hf]
    simp only [readingBetter_iff]
  next hf => rw [hf]

theorem mem_perPublisher {bucket : List Reading} {r : Reading} :
    r ∈ (perPublisher bucket).values ↔ Newest bucket r := by
  rw [perPublisher_eq, SortedMap.mem_values_iff]
  unfold Newest
  constructor
  · rintro ⟨publisher, hr⟩
    have hbest := SortedMap.find?_bestByKey.mp hr
    have hmem := (List.mem_filter.mp hbest.mem).2
    simp only [decide_eq_true_eq] at hmem
    rwa [hmem]
  · exact fun h => ⟨r.publisher, SortedMap.find?_bestByKey.mpr h⟩

/-- The extremes are two of the readings, and all lie between them. -/
theorem extremesOf_spec (first : Reading) (rest : List Reading) :
    (extremesOf first rest).low ∈ first :: rest ∧ (extremesOf first rest).high ∈ first :: rest ∧
      ∀ r ∈ first :: rest, (extremesOf first rest).low.value.toNat ≤ r.value.toNat ∧
        r.value.toNat ≤ (extremesOf first rest).high.value.toNat := by
  have hfold : ∀ (rest before : List Reading) (e : Extremes), e.low ∈ before → e.high ∈ before →
      (∀ r ∈ before, e.low.value.toNat ≤ r.value.toNat ∧
        r.value.toNat ≤ e.high.value.toNat) →
      let e' := rest.foldl (fun e r =>
        ({ low := if r.value < e.low.value then r else e.low
           high := if r.value > e.high.value then r else e.high } : Extremes)) e
      e'.low ∈ before ++ rest ∧ e'.high ∈ before ++ rest ∧
        ∀ r ∈ before ++ rest, e'.low.value.toNat ≤ r.value.toNat ∧
          r.value.toNat ≤ e'.high.value.toNat := by
    intro rest
    induction rest with
    | nil =>
      intro before e hlow hhigh hall
      simp only [List.foldl_nil, List.append_nil]
      exact ⟨hlow, hhigh, hall⟩
    | cons r rest ih =>
      intro before e hlow hhigh hall
      have hrest := ih (before ++ [r])
        { low := if r.value < e.low.value then r else e.low
          high := if r.value > e.high.value then r else e.high } ?_ ?_ ?_
      · simpa only [List.foldl_cons, List.append_assoc, List.singleton_append] using hrest
      · dsimp only
        split
        · exact List.mem_append_right _ List.mem_cons_self
        · exact List.mem_append_left _ hlow
      · dsimp only
        split
        · exact List.mem_append_right _ List.mem_cons_self
        · exact List.mem_append_left _ hhigh
      · have hbounds := hall e.low hlow
        intro other hother
        simp only [gt_iff_lt, UInt64.lt_iff_toNat_lt]
        rcases List.mem_append.mp hother with hother | hother
        · have hin := hall other hother
          constructor
          · split <;> omega
          · split <;> omega
        · rw [List.mem_singleton.mp hother]
          constructor
          · split <;> omega
          · split <;> omega
  have hstart := hfold rest [first] ⟨first, first⟩ List.mem_cons_self List.mem_cons_self ?_
  · exact hstart
  · intro r hr
    rw [List.mem_singleton.mp hr]
    exact ⟨le_refl _, le_refl _⟩

variable {policy : CongestionPolicy}

theorem disagreement_iff {contradiction : ContradictionPolicy} {bucket : List Reading}
    {first : Reading} {rest : List Reading} (hppm : contradiction.relativeTolerancePpm ≤ 1000000)
    (hvalues : (perPublisher bucket).values = first :: rest) :
    (disagreement contradiction first rest).isSome = true ↔ Contradictory contradiction bucket := by
  obtain ⟨hlow, hhigh, hall⟩ := extremesOf_spec first rest
  rw [← hvalues] at hlow hhigh hall
  have hcount : rest.length + 1 = (bucket.map (·.publisher)).dedup.length := by
    rw [← SortedMap.length_bestByKey (·.publisher) readingRank bucket, ← perPublisher_eq, hvalues]
    rfl
  unfold disagreement Contradictory
  dsimp only
  rw [hcount]
  generalize extremesOf first rest = e at hlow hhigh hall
  have hrange := hall e.high hhigh
  have hspan : e.span.toNat = e.high.value.toNat - e.low.value.toNat :=
    UInt64.toNat_sub_of_le _ _ (UInt64.le_iff_toNat_le.mpr hrange.1)
  have htolerance : (tolerance contradiction e).toNat = max contradiction.absoluteTolerance.toNat
      (e.high.value.toNat * contradiction.relativeTolerancePpm.toNat / 1000000) := by
    rw [← toNat_applyPpm _ hppm]
    exact toNat_max _ _
  have hwide : tolerance contradiction e < e.span ↔ e.low.value.toNat +
      max contradiction.absoluteTolerance.toNat
        (e.high.value.toNat * contradiction.relativeTolerancePpm.toNat / 1000000) <
        e.high.value.toNat := by
    rw [UInt64.lt_iff_toNat_lt, htolerance, hspan]
    omega
  constructor
  · intro h
    split at h
    next hboth =>
      exact ⟨hboth.1, e.low, e.high, mem_perPublisher.mp hlow, mem_perPublisher.mp hhigh,
        hwide.mp hboth.2⟩
    next => exact absurd h (by simp)
  · rintro ⟨hmany, low, high, hnewlow, hnewhigh, hdiffer⟩
    have hl := hall low (mem_perPublisher.mpr hnewlow)
    have hh := hall high (mem_perPublisher.mpr hnewhigh)
    have hshare := share_widened hh.2 (UInt32.le_iff_toNat_le.mp hppm)
    rw [if_pos ⟨hmany, hwide.mpr (by omega)⟩]
    rfl

theorem not_contradictory_nil {contradiction : ContradictionPolicy} {bucket : List Reading}
    (h : (perPublisher bucket).values = []) : ¬Contradictory contradiction bucket := by
  rintro ⟨_, low, _, hlow, _⟩
  have hmem := mem_perPublisher.mpr hlow
  rw [h] at hmem
  exact absurd hmem List.not_mem_nil

@[simp] theorem chooseReading_unresolved (key : ReadingKey) (winner : Reading) (acc : Resolution) :
    (chooseReading key winner acc).unresolved = acc.unresolved := rfl

theorem resolveKey_unresolved (hmode : policy.contradiction.mode = .reject)
    (hppm : policy.contradiction.relativeTolerancePpm ≤ 1000000) (acc : Resolution)
    (entry : ReadingKey × List Reading) (pair : ResourceId × MetricKind) :
    pair ∈ (resolveKey policy acc entry).unresolved ↔ pair ∈ acc.unresolved ∨
      pair = (entry.1.resource, entry.1.metric) ∧ Contradictory policy.contradiction entry.2 := by
  unfold resolveKey
  split
  next hvalues => simp [not_contradictory_nil hvalues]
  next first rest hvalues =>
    have hiff := disagreement_iff hppm hvalues
    dsimp only
    split
    next hnone =>
      rw [hnone] at hiff
      simp [← hiff]
    next e hsome =>
      rw [hsome] at hiff
      rw [hmode]
      simp [← hiff, or_comm]

/-- The unresolved pairs are those of the contradictory buckets. -/
theorem resolve_unresolved (hmode : policy.contradiction.mode = .reject)
    (hppm : policy.contradiction.relativeTolerancePpm ≤ 1000000) (admission : Admission)
    (resource : ResourceId) (metric : MetricKind) :
    (resource, metric) ∈ (resolve policy admission).unresolved ↔ ∃ queue,
      Contradictory policy.contradiction
        (admission.readings.findD ⟨resource, queue, metric⟩ []) := by
  have hfold : ∀ (entries : List (ReadingKey × List Reading)) (acc : Resolution),
      (resource, metric) ∈ (entries.foldl (resolveKey policy) acc).unresolved ↔
        (resource, metric) ∈ acc.unresolved ∨ ∃ entry ∈ entries,
          (resource, metric) = (entry.1.resource, entry.1.metric) ∧
            Contradictory policy.contradiction entry.2 := by
    intro entries
    induction entries with
    | nil => intro acc; simp
    | cons entry rest ih =>
      intro acc
      rw [List.foldl_cons, ih, resolveKey_unresolved hmode hppm, or_assoc,
        List.exists_mem_cons_iff]
  refine (hfold _ _).trans ?_
  rw [or_iff_right List.not_mem_nil]
  constructor
  · rintro ⟨⟨key, bucket⟩, hentry, hpair, hcontradictory⟩
    obtain ⟨rfl, rfl⟩ := Prod.mk.inj hpair
    refine ⟨key.queue, ?_⟩
    rw [SortedMap.findD, SortedMap.mem_entries_iff.mp hentry]
    exact hcontradictory
  · rintro ⟨queue, hcontradictory⟩
    cases hf : admission.readings.find? ⟨resource, queue, metric⟩ with
    | none =>
      rw [SortedMap.findD, hf] at hcontradictory
      exact absurd hcontradictory (not_contradictory_nil rfl)
    | some bucket =>
      rw [SortedMap.findD, hf] at hcontradictory
      exact ⟨(⟨resource, queue, metric⟩, bucket), SortedMap.mem_entries_iff.mpr hf, rfl,
        hcontradictory⟩

/-- Whether a bucket is contradictory, computed. -/
def disagree (contradiction : ContradictionPolicy) (bucket : List Reading) : Bool :=
  match (perPublisher bucket).values with
  | [] => false
  | first :: rest => (disagreement contradiction first rest).isSome

theorem disagree_iff {contradiction : ContradictionPolicy} {bucket : List Reading}
    (hppm : contradiction.relativeTolerancePpm ≤ 1000000) :
    disagree contradiction bucket = true ↔ Contradictory contradiction bucket := by
  unfold disagree
  split
  next hnone => simp [not_contradictory_nil hnone]
  next first rest hvalues => exact disagreement_iff hppm hvalues

end CongestionEvaluator

end CongestionFabric
