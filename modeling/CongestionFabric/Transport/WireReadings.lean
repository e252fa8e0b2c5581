import CongestionFabric.Transport.EvidenceTrip

namespace CongestionFabric

/-! ### The readings of a payload, as numbers -/

def rawReading : ByteReader (UInt16 × UInt64) := do return (← ByteReader.u16, ← ByteReader.u64)

def rawSample : ByteReader (List (UInt16 × UInt64)) := do
  let _identities ← ByteReader.times ByteReader.u64 8
  let _flags ← ByteReader.u32
  let count ← ByteReader.u64
  ByteReader.times rawReading count.toNat

/-- The readings of each sample, with whatever kinds and values the bytes have. -/
def rawEvidence : ByteReader (List (List (UInt16 × UInt64))) := do
  let _identities ← ByteReader.times ByteReader.u64 3
  let count ← ByteReader.u64
  ByteReader.times rawSample count.toNat

theorem u64_of_id {tag : IdTag} {id : StrongId tag} {data rest : Bytes}
    (h : ByteReader.id tag data = .ok (id, rest)) : ByteReader.u64 data = .ok (id.value, rest) := by
  obtain ⟨value, between, hread, hlast⟩ := ByteReader.bind_eq_ok.mp h
  obtain ⟨rfl, rfl⟩ := Prod.mk.inj (Except.ok.inj hlast)
  exact hread

theorem times_cons {α : Type} {reader : ByteReader α} {count : Nat} {a : α} {later : List α}
    {data between rest : Bytes} (hfirst : reader data = .ok (a, between))
    (hlater : ByteReader.times reader count between = .ok (later, rest)) :
    ByteReader.times reader (count + 1) data = .ok (a :: later, rest) :=
  ByteReader.bind_eq_ok.mpr ⟨a, between, hfirst, ByteReader.bind_eq_ok.mpr ⟨later, rest, hlater, rfl⟩⟩

theorem require_eq_ok {bad : Prop} [Decidable bad] {code : ErrCode} {message : String}
    {data rest : Bytes} {u : Unit}
    (h : ByteReader.require bad code message data = .ok (u, rest)) : ¬bad ∧ rest = data := by
  unfold ByteReader.require at h
  split at h
  next => cases h
  next hgood => exact ⟨hgood, (Prod.mk.inj (Except.ok.inj h)).2.symm⟩

namespace MetricReadings

/-- A set that was read was built by the readings of the payload, and none was refused. -/
theorem taken_of_readMetrics {count : Nat} {m m' : MetricSet} {data rest : Bytes}
    (h : readMetrics count m data = .ok (m', rest)) :
    ∃ raws, ByteReader.times rawReading count data = .ok (raws, rest) ∧
      m' = raws.foldl next m ∧ taken raws m.entries = raws := by
  induction count generalizing m data with
  | zero =>
    obtain ⟨rfl, rfl⟩ := Prod.mk.inj (Except.ok.inj h)
    exact ⟨[], rfl, rfl, rfl⟩
  | succ count ih =>
    obtain ⟨kind, afterKind, hkind, h⟩ := ByteReader.bind_eq_ok.mp h
    obtain ⟨value, afterValue, hvalue, h⟩ := ByteReader.bind_eq_ok.mp h
    obtain ⟨m₁, between, hset, h⟩ := ByteReader.bind_eq_ok.mp h
    obtain ⟨raws, hraws, hfold, htaken⟩ := ih h
    unfold ByteReader.ofResult at hset
    cases hcall : MetricSet.set m (.ofRaw kind) value with
    | error status =>
      rw [hcall] at hset
      cases hset
    | ok m₂ =>
      rw [hcall] at hset
      obtain ⟨rfl, rfl⟩ := Prod.mk.inj (Except.ok.inj hset)
      have hreading : rawReading data = .ok ((kind, value), afterValue) :=
        ByteReader.bind_eq_ok.mpr ⟨kind, afterKind, hkind,
          ByteReader.bind_eq_ok.mpr ⟨value, afterValue, hvalue, rfl⟩⟩
      have hnext : next m (kind, value) = m₂ := by
        unfold next
        rw [hcall]
      refine ⟨(kind, value) :: raws, times_cons hreading hraws, ?_, ?_⟩
      · rw [List.foldl_cons, hnext]
        exact hfold
      · rw [taken_cons, hcall]
        exact congrArg _ htaken

/-- What a sample that was read says of its readings. -/
theorem wellFormed_of_readSample {sample : EvidenceSample} {data rest : Bytes}
    (h : readSample data = .ok (sample, rest)) :
    ∃ raws, rawSample data = .ok (raws, rest) ∧
      (WellFormed raws sample.metrics.entries ↔ WithinTable raws) := by
  simp only [readSample, ByteReader.bind_eq_ok] at h
  obtain ⟨resource, _, h1, queue, _, h2, publisher, _, h3, boot, _, h4, epoch, _, h5, generation, _,
    h6, sequence, _, h7, tick, _, h8, flags, _, hflags, count, _, hcount, _, _, hfits, metrics, _,
    hmetrics, _, _, hvalid, h⟩ := h
  obtain ⟨_, rfl⟩ := require_eq_ok hfits
  obtain ⟨_, rfl⟩ := require_eq_ok hvalid
  obtain ⟨rfl, rfl⟩ := Prod.mk.inj (Except.ok.inj h)
  obtain ⟨raws, hraws, rfl, htaken⟩ := taken_of_readMetrics hmetrics
  have height := times_cons (u64_of_id h1) (times_cons (u64_of_id h2) (times_cons (u64_of_id h3)
    (times_cons (u64_of_id h4) (times_cons (u64_of_id h5) (times_cons (u64_of_id h6)
      (times_cons h7 (times_cons h8 (rfl : ByteReader.times ByteReader.u64 0 _ = .ok ([], _)))))))))
  refine ⟨raws, ?_, ?_⟩
  · exact ByteReader.bind_eq_ok.mpr ⟨_, _, height, ByteReader.bind_eq_ok.mpr ⟨_, _, hflags,
      ByteReader.bind_eq_ok.mpr ⟨_, _, hcount, hraws⟩⟩⟩
  · have hwell := wellFormed_iff raws
    rwa [show taken raws [] = raws from htaken] at hwell

theorem wellFormed_of_times {count : Nat} {samples : List EvidenceSample} {data rest : Bytes}
    (h : ByteReader.times readSample count data = .ok (samples, rest)) :
    ∃ wire, ByteReader.times rawSample count data = .ok (wire, rest) ∧
      List.Forall₂ (fun raws (sample : EvidenceSample) =>
        WellFormed raws sample.metrics.entries ↔ WithinTable raws) wire samples := by
  induction count generalizing samples data with
  | zero =>
    obtain ⟨rfl, rfl⟩ := Prod.mk.inj (Except.ok.inj h)
    exact ⟨[], rfl, .nil⟩
  | succ count ih =>
    obtain ⟨sample, _, hsample, h⟩ := ByteReader.bind_eq_ok.mp h
    obtain ⟨later, _, hlater, h⟩ := ByteReader.bind_eq_ok.mp h
    obtain ⟨rfl, rfl⟩ := Prod.mk.inj (Except.ok.inj h)
    obtain ⟨raws, hraws, hwell⟩ := wellFormed_of_readSample hsample
    obtain ⟨wire, hwire, hall⟩ := ih hlater
    exact ⟨raws :: wire, times_cons hraws hwire, .cons hwell hall⟩

theorem wellFormed_of_readEvidence {batch : EvidenceBatch} {data rest : Bytes}
    (h : readEvidence data = .ok (batch, rest)) :
    ∃ wire, rawEvidence data = .ok (wire, rest) ∧
      List.Forall₂ (fun raws (sample : EvidenceSample) =>
        WellFormed raws sample.metrics.entries ↔ WithinTable raws) wire batch.samples := by
  simp only [readEvidence, ByteReader.listOf, ByteReader.bind_eq_ok] at h
  obtain ⟨epoch, _, h1, provenance, _, h2, tick, _, h3, samples, _,
    ⟨count, _, hcount, _, _, hfits, hsamples⟩, h⟩ := h
  obtain ⟨rfl, rfl⟩ := Prod.mk.inj (Except.ok.inj h)
  obtain ⟨_, rfl⟩ := require_eq_ok hfits
  obtain ⟨wire, hwire, hall⟩ := wellFormed_of_times hsamples
  have hthree := times_cons (u64_of_id h1) (times_cons (u64_of_id h2) (times_cons h3 (rfl : ByteReader.times ByteReader.u64 0 _ = .ok ([], _))))
  exact ⟨wire, ByteReader.bind_eq_ok.mpr ⟨_, _, hthree, ByteReader.bind_eq_ok.mpr
    ⟨_, _, hcount, hwire⟩⟩, hall⟩

/-- Calls build well formed readings, and an accepted payload does, exactly when none of the readings
gives the value zero to a kind beyond the table. -/
theorem metric_sets_well_formed (calls : List (UInt16 × UInt64)) (payload : Bytes) :
    (WellBuilt calls ↔ WithinTable calls) ∧
      ∀ received, StickyReader.decodeEvidence payload = .ok received →
        ∃ wire, ByteReader.decode rawEvidence payload = .ok wire ∧
          List.Forall₂ (fun raws (sample : EvidenceSample) =>
            WellFormed raws sample.metrics.entries ↔ WithinTable raws) wire received.samples := by
  refine ⟨wellBuilt_iff calls, fun received hdecode => ?_⟩
  have hdecode := StickyReader.decodeEvidence_iff.mp hdecode
  unfold decodeEvidence ByteReader.decode at hdecode
  cases hread : readEvidence payload with
  | error status =>
    rw [hread] at hdecode
    cases hdecode
  | ok p =>
    obtain ⟨batch, rest⟩ := p
    rw [hread] at hdecode
    obtain rfl : batch = received := Except.ok.inj hdecode
    obtain ⟨wire, hwire, hall⟩ := wellFormed_of_readEvidence hread
    refine ⟨wire, ?_, hall⟩
    unfold ByteReader.decode
    rw [hwire]
    rfl

theorem metric_sets_well_formed_twoReadings :
    WellBuilt [(13, 9), (8, 7), (8, 6)] ∧
      ∃ payload received wire, encodeEvidence twoReadings = .ok payload ∧
        StickyReader.decodeEvidence payload = .ok received ∧
        ByteReader.decode rawEvidence payload = .ok wire ∧
        List.Forall₂ (fun raws (sample : EvidenceSample) =>
          WellFormed raws sample.metrics.entries ↔ WithinTable raws) wire received.samples := by
  have hwithin : WithinTable [(13, 9), (8, 7), (8, 6)] := by
    unfold WithinTable
    rw [List.forall_mem_cons, List.forall_mem_cons, List.forall_mem_singleton]
    exact ⟨by decide, by decide, by decide⟩
  obtain ⟨payload, hencode⟩ : ∃ payload, encodeEvidence twoReadings = .ok payload := by
    unfold encodeEvidence
    simp only [bind_ok, refuseIf_ok, exists_const]
    exact ⟨_, by decide, rfl⟩
  have hread := readEvidence_encoded twoReadings_sendable hencode
  have hdecode : StickyReader.decodeEvidence payload = .ok (sentBatch twoReadings) := by
    refine StickyReader.decodeEvidence_iff.mpr ?_
    unfold decodeEvidence ByteReader.decode
    rw [hread]
    rfl
  have hformed := metric_sets_well_formed [(13, 9), (8, 7), (8, 6)] payload
  obtain ⟨wire, hwire, hall⟩ := hformed.2 _ hdecode
  exact ⟨hformed.1.mpr hwithin, payload, _, wire, hencode, hdecode, hwire, hall⟩

/-- The first kind beyond the table is taken with the value zero. -/
theorem beyond_table_taken : ¬WellBuilt [(21, 0)] := by
  intro h
  have hheld : (MetricKind.ofRaw 21, (0 : UInt64)) ∈ run [(21, 0)] [] := by decide
  have hdeclared := h.wellFormed.declared _ hheld
  exact absurd ((declared_iff _).mp hdeclared).2.2 (by decide)

end MetricReadings

end CongestionFabric
