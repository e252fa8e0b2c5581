import CongestionFabric.Durability.StickyReader
import CongestionFabric.Model.MetricReadings
import CongestionFabric.Transport.Messages

namespace CongestionFabric

open limits

/-! ### The code around the sticky cursor -/

namespace StickyReader

def readMetrics : Nat → MetricSet → StickyReader MetricSet
  | 0, metrics => return metrics
  | count + 1, metrics => do
    let ok ← good
    if ok then
      let kind ← u16
      let value ← u64
      let metrics ← ofResult (MetricSet.set metrics (.ofRaw kind) value)
      readMetrics count metrics
    else return metrics

def readSample : StickyReader EvidenceSample := do
  let sample : EvidenceSample := {
    resource := ← StickyReader.id _, queue := ← StickyReader.id _
    publisher := ← StickyReader.id _, publisherBoot := ← StickyReader.id _
    epoch := ← StickyReader.id _, generation := ← StickyReader.id _, sequence := ← u64
    observedTick := ← u64, flags := ← u32 }
  let count ← u64
  returnIf (count.toNat > kMaxMetricReadings) .oversized
    "evidence sample declares more metrics than permitted"
  let sample := { sample with metrics := ← readMetrics count.toNat ∅ }
  check
  returnIf (¬sample.resource.valid) .malformed "evidence sample has no resource identity"
  return { sample with snapshot := computeSnapshotId sample }

def readSamples : Nat → StickyReader (List EvidenceSample)
  | 0 => return []
  | count + 1 => do
    let ok ← good
    if ok then
      let sample ← readSample
      let rest ← readSamples count
      return sample :: rest
    else return []

def readEvidence : StickyReader EvidenceBatch := do
  let batch : EvidenceBatch := {
    epoch := ← StickyReader.id _, provenance := ← StickyReader.id _, submittedTick := ← u64 }
  let count ← u64
  returnIf (count.toNat > kMaxEvidencePerBatch) .oversized
    "evidence frame declares more samples than permitted"
  let batch := { batch with samples := ← readSamples count.toNat }
  check
  return { batch with id := computeBatchId batch }

/-- Payload in, batch or refusal out. -/
def decodeEvidence (payload : Bytes) : Result EvidenceBatch := decode readEvidence payload

namespace Follows

theorem metrics (count : Nat) (metrics : MetricSet) :
    Follows (StickyReader.readMetrics count metrics)
      (CongestionFabric.readMetrics count metrics) := by
  induction count generalizing metrics with
  | zero => exact .pure metrics
  | succ count ih =>
    apply Follows.whileGood
    refine .bind .u16 fun kind => ?_
    refine .bind .u64 fun value => ?_
    exact .bind (.ofResult _) fun metrics => ih metrics

theorem sample : Follows StickyReader.readSample CongestionFabric.readSample := by
  refine .bind (.id _) fun resource => ?_
  refine .bind (.id _) fun queue => ?_
  refine .bind (.id _) fun publisher => ?_
  refine .bind (.id _) fun publisherBoot => ?_
  refine .bind (.id _) fun epoch => ?_
  refine .bind (.id _) fun generation => ?_
  refine .bind .u64 fun sequence => ?_
  refine .bind .u64 fun observedTick => ?_
  refine .bind .u32 fun flags => ?_
  refine .bind .u64 fun count => ?_
  refine .bind (.returnIf _ _ _) fun _ => ?_
  refine .bind (.metrics _ _) fun metrics => ?_
  apply Follows.checked
  exact .bind (.returnIf _ _ _) fun _ => .pure _

theorem samples (count : Nat) : Follows (StickyReader.readSamples count)
    (ByteReader.times CongestionFabric.readSample count) := by
  induction count with
  | zero => exact .pure []
  | succ count ih =>
    apply Follows.whileGood
    refine .bind .sample fun sample => ?_
    exact .bind ih fun rest => .pure _

theorem evidence : Follows StickyReader.readEvidence CongestionFabric.readEvidence := by
  refine .bind (.id _) fun epoch => ?_
  refine .bind (.id _) fun provenance => ?_
  refine .bind .u64 fun submittedTick => ?_
  unfold ByteReader.listOf
  rw [bind_assoc]
  refine .bind .u64 fun count => ?_
  rw [bind_assoc]
  refine .bind (.returnIf _ _ _) fun _ => ?_
  refine .bind (.samples _) fun samples => ?_
  exact .checked (.pure _)

end Follows

theorem readEvidence_ends : Ends readEvidence := by
  refine .bind fun epoch => ?_
  refine .bind fun provenance => ?_
  refine .bind fun submittedTick => ?_
  refine .bind fun count => ?_
  refine .bind fun _ => ?_
  refine .bind fun samples => ?_
  exact .check

/-- The code accepts what the reader that stops at the first failure accepts. -/
theorem decodeEvidence_iff {payload : Bytes} {batch : EvidenceBatch} :
    decodeEvidence payload = .ok batch ↔ CongestionFabric.decodeEvidence payload = .ok batch :=
  Follows.evidence.decode_iff readEvidence_ends

end StickyReader

theorem ofResult_steady {α : Type} (result : Result α) :
    ByteReader.Steady (ByteReader.ofResult result) := by
  cases result with
  | ok a => exact .pure a
  | error status => exact fun _ _ _ h => nomatch h

theorem readMetrics_steady (count : Nat) (metrics : MetricSet) :
    ByteReader.Steady (readMetrics count metrics) := by
  induction count generalizing metrics with
  | zero => exact .pure metrics
  | succ count ih =>
    refine .bind .u16 fun kind => ?_
    refine .bind .u64 fun value => ?_
    exact .bind (ofResult_steady _) fun metrics => ih metrics

theorem readSample_steady : ByteReader.Steady readSample := by
  refine .bind (.id _) fun resource => ?_
  refine .bind (.id _) fun queue => ?_
  refine .bind (.id _) fun publisher => ?_
  refine .bind (.id _) fun publisherBoot => ?_
  refine .bind (.id _) fun epoch => ?_
  refine .bind (.id _) fun generation => ?_
  refine .bind .u64 fun sequence => ?_
  refine .bind .u64 fun observedTick => ?_
  refine .bind .u32 fun flags => ?_
  refine .bind .u64 fun count => ?_
  refine .bind (.require _ _ _) fun _ => ?_
  refine .bind (readMetrics_steady _ _) fun metrics => ?_
  exact .bind (.require _ _ _) fun _ => .pure _

theorem readEvidence_steady : ByteReader.Steady readEvidence := by
  refine .bind (.id _) fun epoch => ?_
  refine .bind (.id _) fun provenance => ?_
  refine .bind .u64 fun submittedTick => ?_
  exact .bind (readSample_steady.listOf _ _) fun samples => .pure _

/-! ### Sets of metrics -/

/-- A reading beyond all others goes to the end. -/
theorem MetricSet.set_last {m m' : MetricSet} {e : MetricKind × UInt64}
    (hentries : m'.entries = m.entries ++ [e]) (hvalid : validateMetricValue e.1 e.2 = .ok ())
    (hroom : m.size < kMaxMetricReadings) : MetricSet.set m e.1 e.2 = .ok m' := by
  have hsorted := m'.sorted
  rw [hentries, List.map_append, List.pairwise_append] at hsorted
  have hlast : ∀ found ∈ m.entries, found.1 < e.1 := fun found hfound =>
    hsorted.2.2 _ (List.mem_map_of_mem hfound) _ (List.mem_singleton.mpr rfl)
  refine MetricSet.set_ok.mpr ⟨hvalid, hroom, ?_, ?_⟩
  · have hnone : m.find? e.1 = none :=
      SortedMap.lookup_eq_none fun found hfound => ne_of_lt (hlast found hfound)
    unfold SortedMap.contains
    rw [hnone]
    rfl
  · have hinsert : SortedMap.insertEntry e.1 e.2 m.entries = m.entries ++ [e] :=
      SortedMap.insertEntry_last hlast
    cases m'
    cases m
    simp only [SortedMap.insert] at hentries hinsert ⊢
    rw [SortedMap.mk.injEq, hentries, hinsert]

def putReading (e : MetricKind × UInt64) : Bytes :=
  ByteWriter.u16 e.1.toRaw ++ ByteWriter.u64 e.2

/-- Readings that were taken in order come back in order. -/
theorem readMetrics_encoded {later : List (MetricKind × UInt64)} {m full : MetricSet}
    (hentries : full.entries = m.entries ++ later)
    (hvalid : ∀ e ∈ later, validateMetricValue e.1 e.2 = .ok ())
    (hsize : full.size ≤ kMaxMetricReadings) (rest : Bytes) :
    readMetrics later.length m (later.flatMap putReading ++ rest) = .ok (full, rest) := by
  induction later generalizing m with
  | nil =>
    rw [List.append_nil] at hentries
    have hsame : full = m := by
      cases full
      cases m
      simpa using hentries
    rw [hsame]
    rfl
  | cons e later ih =>
    have hsplit : full.entries = (m.entries ++ [e]) ++ later := by
      rw [hentries, List.append_assoc, List.singleton_append]
    have hsorted := full.sorted
    rw [hsplit, List.map_append, List.pairwise_append] at hsorted
    have hroom : m.size < kMaxMetricReadings := by
      have hlength := congrArg List.length hentries
      rw [List.length_append, List.length_cons] at hlength
      unfold SortedMap.size at hsize ⊢
      omega
    have hset := @MetricSet.set_last m ⟨m.entries ++ [e], hsorted.1⟩ e rfl
      (hvalid e List.mem_cons_self) hroom
    have hrest := @ih ⟨m.entries ++ [e], hsorted.1⟩ hsplit
      fun e he => hvalid e (List.mem_cons_of_mem _ he)
    have hkind : MetricKind.ofRaw e.1.toRaw = e.1 := MetricKind.ofRaw_toRaw e.1
    rw [List.flatMap_cons, List.append_assoc, putReading, List.append_assoc]
    refine (ByteReader.bind_append (ByteReader.u16_append _ _)).trans ?_
    refine (ByteReader.bind_append (ByteReader.u64_append _ _)).trans ?_
    refine (ByteReader.bind_append ?_).trans hrest
    unfold ByteReader.ofResult
    rw [hkind, hset]
    rfl

/-! ### There and back -/

/-- A sample as its receiver has it: what the frame carries, under its own identity. -/
def sent (sample : EvidenceSample) : EvidenceSample :=
  { resource := sample.resource, queue := sample.queue, metrics := sample.metrics
    publisher := sample.publisher, publisherBoot := sample.publisherBoot, epoch := sample.epoch
    generation := sample.generation, sequence := sample.sequence
    observedTick := sample.observedTick, flags := sample.flags
    snapshot := computeSnapshotId sample }

theorem size_toNat {n bound : Nat} (h : n ≤ bound) (hbound : bound < 2 ^ 64) :
    (UInt64.ofNat n).toNat = n := by
  rw [UInt64.toNat_ofNat']
  exact Nat.mod_eq_of_lt (by omega)

theorem id_append {tag : IdTag} (id : StrongId tag) (rest : Bytes) :
    ByteReader.id tag (id.put ++ rest) = .ok (id, rest) :=
  ByteReader.bind_append (ByteReader.u64_append id.value rest)

theorem require_passes {bad : Prop} [Decidable bad] {code : ErrCode} {message : String}
    (h : ¬bad) (data : Bytes) : ByteReader.require bad code message data = .ok ((), data) :=
  if_neg h

theorem readSample_encoded {sample : EvidenceSample} (hvalid : sample.resource.valid = true)
    (hbuilt : BuiltSet sample.metrics) (rest : Bytes) :
    readSample (putSample sample ++ rest) = .ok (sent sample, rest) := by
  have hcount : (UInt64.ofNat sample.metrics.size).toNat = sample.metrics.size :=
    size_toNat hbuilt.size_le (by decide)
  have hmetrics : readMetrics sample.metrics.size ∅
      (sample.metrics.entries.flatMap putReading ++ rest) = .ok (sample.metrics, rest) :=
    readMetrics_encoded (List.nil_append _).symm (fun e he => hbuilt.valid he) hbuilt.size_le rest
  have hfits : ¬(UInt64.ofNat sample.metrics.size).toNat > kMaxMetricReadings := by
    rw [hcount]
    exact not_lt.mpr hbuilt.size_le
  simp only [putSample, ByteWriter.size, List.append_assoc]
  refine (ByteReader.bind_append (id_append _ _)).trans ?_
  refine (ByteReader.bind_append (id_append _ _)).trans ?_
  refine (ByteReader.bind_append (id_append _ _)).trans ?_
  refine (ByteReader.bind_append (id_append _ _)).trans ?_
  refine (ByteReader.bind_append (id_append _ _)).trans ?_
  refine (ByteReader.bind_append (id_append _ _)).trans ?_
  refine (ByteReader.bind_append (ByteReader.u64_append _ _)).trans ?_
  refine (ByteReader.bind_append (ByteReader.u64_append _ _)).trans ?_
  refine (ByteReader.bind_append (ByteReader.u32_append _ _)).trans ?_
  refine (ByteReader.bind_append (ByteReader.u64_append _ _)).trans ?_
  refine (ByteReader.bind_append (require_passes hfits _)).trans ?_
  rw [hcount]
  refine (ByteReader.bind_append hmetrics).trans ?_
  exact ByteReader.bind_append (require_passes (not_not.mpr hvalid) _)

/-- A sample that can be sent. -/
structure Sendable (sample : EvidenceSample) : Prop where
  resource : sample.resource.valid = true
  metrics : BuiltSet sample.metrics

theorem readSamples_encoded {samples : List EvidenceSample}
    (h : ∀ sample ∈ samples, Sendable sample) (rest : Bytes) :
    ByteReader.times readSample samples.length (samples.flatMap putSample ++ rest) =
      .ok (samples.map sent, rest) := by
  induction samples with
  | nil => rfl
  | cons sample samples ih =>
    have hsample := h sample List.mem_cons_self
    have hrest := ih fun other hother => h other (List.mem_cons_of_mem _ hother)
    rw [List.flatMap_cons, List.append_assoc]
    refine (ByteReader.bind_append
      (readSample_encoded hsample.resource hsample.metrics _)).trans ?_
    exact ByteReader.bind_append hrest

/-- A batch as its receiver has it. -/
def sentBatch (batch : EvidenceBatch) : EvidenceBatch :=
  let received : EvidenceBatch :=
    { epoch := batch.epoch, provenance := batch.provenance, submittedTick := batch.submittedTick
      samples := batch.samples.map sent }
  { received with id := computeBatchId received }

theorem readEvidence_encoded {batch : EvidenceBatch} {payload : Bytes}
    (h : ∀ sample ∈ batch.samples, Sendable sample) (hencode : encodeEvidence batch = .ok payload) :
    readEvidence payload = .ok (sentBatch batch, []) := by
  simp only [encodeEvidence, bind_ok, refuseIf_ok, exists_const] at hencode
  obtain ⟨hfits, hpayload⟩ := hencode
  obtain rfl := Except.ok.inj hpayload
  have hcount : (UInt64.ofNat batch.samples.length).toNat = batch.samples.length :=
    size_toNat (not_lt.mp hfits) (by decide)
  have hsamples : ByteReader.listOf kMaxEvidencePerBatch
      "evidence frame declares more samples than permitted" readSample
      (ByteWriter.u64 (UInt64.ofNat batch.samples.length) ++ batch.samples.flatMap putSample) =
        .ok (batch.samples.map sent, []) := by
    refine (ByteReader.bind_append (ByteReader.u64_append _ _)).trans ?_
    rw [hcount]
    refine (ByteReader.bind_append (require_passes hfits _)).trans ?_
    have hall := readSamples_encoded h []
    rwa [List.append_nil] at hall
  simp only [ByteWriter.size, List.append_assoc]
  refine (ByteReader.bind_append (id_append _ _)).trans ?_
  refine (ByteReader.bind_append (id_append _ _)).trans ?_
  refine (ByteReader.bind_append (ByteReader.u64_append _ _)).trans ?_
  exact ByteReader.bind_append hsamples

/-- The received sample is the original in all that a frame carries. -/
structure SameEvidence (original received : EvidenceSample) : Prop where
  resource : received.resource = original.resource
  queue : received.queue = original.queue
  publisher : received.publisher = original.publisher
  publisherBoot : received.publisherBoot = original.publisherBoot
  epoch : received.epoch = original.epoch
  generation : received.generation = original.generation
  sequence : received.sequence = original.sequence
  observedTick : received.observedTick = original.observedTick
  flags : received.flags = original.flags
  metrics : received.metrics = original.metrics
  snapshot : received.snapshot = computeSnapshotId original

theorem sent_same (sample : EvidenceSample) : SameEvidence sample (sent sample) := by
  unfold sent
  constructor <;> dsimp only

theorem sentBatch_fields (batch : EvidenceBatch) :
    (sentBatch batch).epoch = batch.epoch ∧ (sentBatch batch).provenance = batch.provenance ∧
      (sentBatch batch).submittedTick = batch.submittedTick ∧
      (sentBatch batch).samples = batch.samples.map sent := by
  unfold sentBatch
  dsimp only
  exact ⟨rfl, rfl, rfl, rfl⟩

/-- A batch is read back sample by sample, under the identities of the originals, and no part of its
encoding is taken for a batch. -/
theorem evidence_round_trip {batch : EvidenceBatch}
    (hcount : batch.samples.length ≤ kMaxEvidencePerBatch)
    (hsamples : ∀ sample ∈ batch.samples,
      sample.resource.valid = true ∧ BuiltSet sample.metrics) :
    ∃ payload received, encodeEvidence batch = .ok payload ∧
      StickyReader.decodeEvidence payload = .ok received ∧
      received.epoch = batch.epoch ∧ received.provenance = batch.provenance ∧
      received.submittedTick = batch.submittedTick ∧
      List.Forall₂ SameEvidence batch.samples received.samples ∧
      ∀ k < payload.length, ∃ status,
        StickyReader.decodeEvidence (payload.take k) = .error status := by
  have hsend : ∀ sample ∈ batch.samples, Sendable sample := fun sample hsample =>
    ⟨(hsamples sample hsample).1, (hsamples sample hsample).2⟩
  obtain ⟨payload, hencode⟩ : ∃ payload, encodeEvidence batch = .ok payload := by
    unfold encodeEvidence
    simp only [bind_ok, refuseIf_ok, exists_const]
    exact ⟨_, not_lt.mpr hcount, rfl⟩
  have hread := readEvidence_encoded hsend hencode
  obtain ⟨hepoch, hprovenance, htick, hreceived⟩ := sentBatch_fields batch
  refine ⟨payload, sentBatch batch, hencode, StickyReader.decodeEvidence_iff.mpr ?_, hepoch,
    hprovenance, htick, ?_, ?_⟩
  · unfold decodeEvidence ByteReader.decode
    rw [hread]
    rfl
  · rw [hreceived, List.forall₂_map_right_iff, List.forall₂_same]
    exact fun sample _ => sent_same sample
  · intro k hk
    cases hdecode : StickyReader.decodeEvidence (payload.take k) with
    | error status => exact ⟨status, rfl⟩
    | ok part =>
      have hpart := StickyReader.decodeEvidence_iff.mp hdecode
      exact absurd hpart (readEvidence_steady.refuses_part hread hk)

/-- A sample with two readings, the second set before the first. -/
def twoReadings : EvidenceBatch :=
  let metrics : MetricSet := (SortedMap.insert ∅ .latencyMicros 9).insert .lossRatePpm 7
  { epoch := ⟨1⟩, samples := [{ resource := ⟨3⟩, metrics, sequence := 5 }] }

theorem twoReadings_sendable : ∀ sample ∈ twoReadings.samples, Sendable sample := by
  have hlatency : validateMetricValue .latencyMicros 9 = .ok () :=
    validateMetricValue_ok.mpr ⟨by decide, by decide, by decide⟩
  have hloss : validateMetricValue .lossRatePpm 7 = .ok () :=
    validateMetricValue_ok.mpr ⟨by decide, by decide, by decide⟩
  have hbuilt : BuiltSet ((SortedMap.insert ∅ .latencyMicros 9).insert .lossRatePpm 7) :=
    .set (.set .empty (MetricSet.set_ok.mpr ⟨hlatency, by decide, by decide, rfl⟩))
      (MetricSet.set_ok.mpr ⟨hloss, by decide, by decide, rfl⟩)
  intro sample hsample
  obtain rfl := List.mem_singleton.mp hsample
  exact ⟨rfl, hbuilt⟩

theorem evidence_round_trip_twoReadings :
    ∃ payload received, encodeEvidence twoReadings = .ok payload ∧
      StickyReader.decodeEvidence payload = .ok received ∧
      received.epoch = twoReadings.epoch ∧ received.provenance = twoReadings.provenance ∧
      received.submittedTick = twoReadings.submittedTick ∧
      List.Forall₂ SameEvidence twoReadings.samples received.samples ∧
      ∀ k < payload.length, ∃ status,
        StickyReader.decodeEvidence (payload.take k) = .error status :=
  evidence_round_trip (by decide) fun sample hsample =>
    ⟨(twoReadings_sendable sample hsample).resource, (twoReadings_sendable sample hsample).metrics⟩

/-! ### Evidence that is read as it was written, or not at all -/

theorem readSample_refused {sample : EvidenceSample} (hinvalid : ¬sample.resource.valid = true)
    (hbuilt : BuiltSet sample.metrics) (rest : Bytes) :
    ∃ status, readSample (putSample sample ++ rest) = .error status := by
  have hcount : (UInt64.ofNat sample.metrics.size).toNat = sample.metrics.size :=
    size_toNat hbuilt.size_le (by decide)
  have hmetrics : readMetrics sample.metrics.size ∅
      (sample.metrics.entries.flatMap putReading ++ rest) = .ok (sample.metrics, rest) :=
    readMetrics_encoded (List.nil_append _).symm (fun e he => hbuilt.valid he) hbuilt.size_le rest
  have hfits : ¬(UInt64.ofNat sample.metrics.size).toNat > kMaxMetricReadings := by
    rw [hcount]
    exact not_lt.mpr hbuilt.size_le
  refine ⟨⟨.malformed, "evidence sample has no resource identity", ""⟩, ?_⟩
  simp only [putSample, ByteWriter.size, List.append_assoc]
  refine (ByteReader.bind_append (id_append _ _)).trans ?_
  refine (ByteReader.bind_append (id_append _ _)).trans ?_
  refine (ByteReader.bind_append (id_append _ _)).trans ?_
  refine (ByteReader.bind_append (id_append _ _)).trans ?_
  refine (ByteReader.bind_append (id_append _ _)).trans ?_
  refine (ByteReader.bind_append (id_append _ _)).trans ?_
  refine (ByteReader.bind_append (ByteReader.u64_append _ _)).trans ?_
  refine (ByteReader.bind_append (ByteReader.u64_append _ _)).trans ?_
  refine (ByteReader.bind_append (ByteReader.u32_append _ _)).trans ?_
  refine (ByteReader.bind_append (ByteReader.u64_append _ _)).trans ?_
  refine (ByteReader.bind_append (require_passes hfits _)).trans ?_
  rw [hcount]
  refine (ByteReader.bind_append hmetrics).trans ?_
  have hrefused : ByteReader.require (¬sample.resource.valid) .malformed
      "evidence sample has no resource identity" rest =
        .error ⟨.malformed, "evidence sample has no resource identity", ""⟩ := if_pos hinvalid
  simp only [bind, StateT.bind, hrefused, Except.bind]

/-- Samples are read back only if every one of them can be sent. -/
theorem readSamples_sendable {samples found : List EvidenceSample} {rest left : Bytes}
    (hbuilt : ∀ sample ∈ samples, BuiltSet sample.metrics)
    (h : ByteReader.times readSample samples.length (samples.flatMap putSample ++ rest) =
      .ok (found, left)) : ∀ sample ∈ samples, Sendable sample := by
  induction samples generalizing found left with
  | nil => simp
  | cons sample samples ih =>
    have hsample := hbuilt sample List.mem_cons_self
    have hvalid : sample.resource.valid = true := by
      by_contra hinvalid
      obtain ⟨status, hrefused⟩ := readSample_refused hinvalid hsample
        (samples.flatMap putSample ++ rest)
      rw [List.flatMap_cons, List.append_assoc] at h
      obtain ⟨first, between, hfirst, _⟩ := ByteReader.bind_eq_ok.mp h
      rw [hrefused] at hfirst
      cases hfirst
    rw [List.flatMap_cons, List.append_assoc] at h
    obtain ⟨first, between, hfirst, hmore⟩ := ByteReader.bind_eq_ok.mp h
    rw [readSample_encoded hvalid hsample] at hfirst
    obtain ⟨rfl, rfl⟩ := Prod.mk.inj (Except.ok.inj hfirst)
    obtain ⟨others, after, hothers, _⟩ := ByteReader.bind_eq_ok.mp hmore
    have hrest := ih (fun other hother => hbuilt other (List.mem_cons_of_mem _ hother)) hothers
    intro other hother
    rcases List.mem_cons.mp hother with rfl | hother
    · exact ⟨hvalid, hsample⟩
    · exact hrest other hother

/-- A batch of samples with proper metrics is received as it was sent, or refused. -/
theorem decodeEvidence_encoded {batch received : EvidenceBatch} {payload : Bytes}
    (hbuilt : ∀ sample ∈ batch.samples, BuiltSet sample.metrics)
    (hencode : encodeEvidence batch = .ok payload) (h : decodeEvidence payload = .ok received) :
    received = sentBatch batch := by
  have hsend : ∀ sample ∈ batch.samples, Sendable sample := by
    have hpayload := hencode
    simp only [encodeEvidence, bind_ok, refuseIf_ok, exists_const] at hpayload
    obtain ⟨hfits, hpayload⟩ := hpayload
    obtain rfl := Except.ok.inj hpayload
    have hcount : (UInt64.ofNat batch.samples.length).toNat = batch.samples.length :=
      size_toNat (not_lt.mp hfits) (by decide)
    unfold decodeEvidence ByteReader.decode at h
    cases hread : readEvidence (batch.epoch.put ++ batch.provenance.put ++
        ByteWriter.u64 batch.submittedTick ++ ByteWriter.size batch.samples.length ++
        batch.samples.flatMap putSample) with
    | error status =>
      rw [hread] at h
      cases h
    | ok found =>
      simp only [ByteWriter.size, List.append_assoc] at hread
      unfold readEvidence at hread
      rw [ByteReader.bind_append (id_append _ _), ByteReader.bind_append (id_append _ _),
        ByteReader.bind_append (ByteReader.u64_append _ _)] at hread
      obtain ⟨samples, after, hsamples, _⟩ := ByteReader.bind_eq_ok.mp hread
      unfold ByteReader.listOf at hsamples
      rw [ByteReader.bind_append (ByteReader.u64_append _ _), hcount,
        ByteReader.bind_append (require_passes hfits _)] at hsamples
      rw [← List.append_nil (batch.samples.flatMap putSample)] at hsamples
      exact readSamples_sendable hbuilt hsamples
  unfold decodeEvidence ByteReader.decode at h
  rw [readEvidence_encoded hsend hencode] at h
  exact (Except.ok.inj h).symm

end CongestionFabric
