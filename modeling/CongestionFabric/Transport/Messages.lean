import CongestionFabric.Transport.FrameDecoder

namespace CongestionFabric

open ByteWriter limits

structure HelloMessage where
  publisher : PublisherId := {}
  boot : BootId := {}
  generation : EvidenceGeneration := {}
  startSequence : UInt64 := 0
  requested : AuthoritySet := {}
  agent : Bytes := []
  deriving DecidableEq

namespace ByteReader

/-- A reader that goes on with what a check returns. -/
def ofResult {α : Type} (result : Result α) : ByteReader α := fun data =>
  result.map fun a => (a, data)

end ByteReader

def encodeHello (message : HelloMessage) : Result Bytes := do
  let agent ← ByteWriter.text message.agent 128
  return message.publisher.put ++ message.boot.put ++ message.generation.put ++
    u64 message.startSequence ++ u32 message.requested.bits ++ agent

open ByteReader in
def readHello : ByteReader HelloMessage := do
  return {
    publisher := ← ByteReader.id _, boot := ← ByteReader.id _, generation := ← ByteReader.id _
    startSequence := ← u64, requested := ⟨← u32⟩, agent := ← ByteReader.text 128 }

def decodeHello (payload : Bytes) : Result HelloMessage := do
  let message ← ByteReader.decode readHello payload
  refuseIf (¬message.publisher.valid ∨ ¬message.boot.valid) .malformed
    "hello frame is missing publisher identity"
  refuseIf (message.requested.bits &&& ~~~kAuthorityAllBits ≠ 0) .malformed
    "hello frame requests unknown authority bits"
  return message

/-- Nobody says hello without both identities. -/
theorem decodeHello_valid {payload : Bytes} {message : HelloMessage}
    (h : decodeHello payload = .ok message) :
    message.publisher.valid = true ∧ message.boot.valid = true := by
  simp only [decodeHello, bind_ok, refuseIf_ok, exists_const, not_or, not_not] at h
  obtain ⟨_, _, hvalid, _, heq⟩ := h
  obtain rfl := Except.ok.inj heq
  exact hvalid

def putSample (sample : EvidenceSample) : Bytes :=
  sample.resource.put ++ sample.queue.put ++ sample.publisher.put ++ sample.publisherBoot.put ++
    sample.epoch.put ++ sample.generation.put ++ u64 sample.sequence ++ u64 sample.observedTick ++
    u32 sample.flags ++ size sample.metrics.size ++
    sample.metrics.entries.flatMap fun e => u16 e.1.toRaw ++ u64 e.2

def encodeEvidence (batch : EvidenceBatch) : Result Bytes := do
  refuseIf (batch.samples.length > kMaxEvidencePerBatch) .oversized
    "evidence batch exceeds the permitted sample count"
  return batch.epoch.put ++ batch.provenance.put ++ u64 batch.submittedTick ++
    size batch.samples.length ++ batch.samples.flatMap putSample

open ByteReader in
def readMetrics : Nat → MetricSet → ByteReader MetricSet
  | 0, metrics => return metrics
  | count + 1, metrics => do
    let kind ← u16
    let value ← u64
    let metrics ← ofResult (MetricSet.set metrics (.ofRaw kind) value)
    readMetrics count metrics

open ByteReader in
/-- The snapshot identity is computed here, whatever the sender calls it. -/
def readSample : ByteReader EvidenceSample := do
  let sample : EvidenceSample := {
    resource := ← ByteReader.id _, queue := ← ByteReader.id _, publisher := ← ByteReader.id _
    publisherBoot := ← ByteReader.id _, epoch := ← ByteReader.id _
    generation := ← ByteReader.id _, sequence := ← u64, observedTick := ← u64, flags := ← u32 }
  let count ← u64
  require (count.toNat > kMaxMetricReadings) .oversized
    "evidence sample declares more metrics than permitted"
  let sample := { sample with metrics := ← readMetrics count.toNat ∅ }
  require (¬sample.resource.valid) .malformed "evidence sample has no resource identity"
  return { sample with snapshot := computeSnapshotId sample }

open ByteReader in
def readEvidence : ByteReader EvidenceBatch := do
  let batch : EvidenceBatch := {
    epoch := ← ByteReader.id _, provenance := ← ByteReader.id _, submittedTick := ← u64
    samples := ← listOf kMaxEvidencePerBatch
      "evidence frame declares more samples than permitted" readSample }
  return { batch with id := computeBatchId batch }

def decodeEvidence (payload : Bytes) : Result EvidenceBatch :=
  ByteReader.decode readEvidence payload

end CongestionFabric
