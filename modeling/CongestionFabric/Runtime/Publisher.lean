import CongestionFabric.Transport.ControlPayloads
import CongestionFabric.Transport.FrameDecoder

namespace CongestionFabric

open limits

/-- Binds a reply to the request that caused it. -/
def makeNonce (a b : UInt64) : UInt64 :=
  let value := a * 0x9E3779B97F4A7C15
  let value := value ^^^ (b + 0x165667B19E3779F9 + value <<< (6 : UInt64) + value >>> (2 : UInt64))
  let value := (value ^^^ value >>> (29 : UInt64)) * 0xBF58476D1CE4E5B9
  value ^^^ value >>> (32 : UInt64)

/-- The coordinator's clock against the local one; the difference is signed, since either clock can
read lower. -/
structure TickBridge where
  offset : Int64 := 0
  aligned : Bool := false

def TickBridge.stamp (bridge : TickBridge) (localTick : Tick) : Tick :=
  if !bridge.aligned then localTick
  else
    let shifted := localTick.toInt64 + bridge.offset
    if shifted ≤ 0 then 1 else shifted.toUInt64

/-- The evidence that a synthetic publisher emits; a metric of zero is left out. -/
structure PublisherScript where
  domain : DomainId := {}
  resources : List ResourceId := []
  samples : UInt64 := 1
  utilizationPpm : UInt64 := 0
  queuePpm : UInt64 := 0
  bufferPpm : UInt64 := 0
  lossPpm : UInt64 := 0
  latencyMicros : UInt64 := 0
  jitterMicros : UInt64 := 0
  residualBps : UInt64 := 0
  egressBps : UInt64 := 0
  utilizationStepPpm : Int64 := 0
  lossStepPpm : Int64 := 0
  queueStepPpm : Int64 := 0
  generationStart : UInt64 := 1
  sendHello : Bool := true
  sendGoodbye : Bool := true
  repeats : UInt64 := 1
  skipHandshake : Bool := false

structure PublisherReport where
  connected : Bool := false
  helloAccepted : Bool := false
  helloReason : Bytes := []
  epoch : EpochId := {}
  authorityGeneration : AuthorityGeneration := {}
  granted : AuthoritySet := {}
  framesSent : UInt64 := 0
  framesAcked : UInt64 := 0
  samplesSent : UInt64 := 0
  errors : UInt64 := 0
  fencesReceived : UInt64 := 0
  detail : Bytes := []
  deriving DecidableEq

structure PublisherClientOptions where
  endpoint : Bytes := []
  publisher : PublisherId := {}
  boot : BootId := {}
  agent : Bytes := text "ncf-publisher"

/-- A ramp that stops at zero. -/
def metricValue (base : UInt64) (step : Int64) (index : Nat) : UInt64 :=
  let value := base.toInt64 + step * Int64.ofNat index
  if value < 0 then 0 else value.toUInt64

/-- A reading that is not legal is left out as silently as a zero. -/
def putMetric (metrics : MetricSet) (kind : MetricKind) (value : UInt64) : MetricSet :=
  if value = 0 then metrics
  else match MetricSet.set metrics kind value with
    | .ok metrics => metrics
    | .error _ => metrics

def applySampleMetrics (script : PublisherScript) (index : Nat) : MetricSet :=
  let metrics := putMetric ∅ .utilizationPpm
    (metricValue script.utilizationPpm script.utilizationStepPpm index)
  let metrics := putMetric metrics .queueOccupancyPpm
    (metricValue script.queuePpm script.queueStepPpm index)
  let metrics := putMetric metrics .bufferUtilizationPpm script.bufferPpm
  let metrics := putMetric metrics .lossRatePpm
    (metricValue script.lossPpm script.lossStepPpm index)
  let metrics := putMetric metrics .latencyMicros script.latencyMicros
  let metrics := putMetric metrics .jitterMicros script.jitterMicros
  let metrics := putMetric metrics .residualCapacityBps script.residualBps
  putMetric metrics .egressRateBps script.egressBps

/-- Where the publisher is in its one pass over the script. -/
inductive Stage where
  | greeting
  | awaitingGreeting (before : Tick)
  | publishing (index : Nat)
  | awaitingAck (index : Nat)
  | parting
  | done (outcome : Result PublisherReport)
  deriving DecidableEq

/-- The locals of a running publisher; `heard` says that the reply it waits for has come. -/
structure Publisher where
  options : PublisherClientOptions
  script : PublisherScript
  report : PublisherReport := {}
  decoder : FrameDecoder := {}
  sequence : UInt64 := 1
  bridge : TickBridge := {}
  heard : Bool := false
  stage : Stage := .greeting

namespace Publisher

variable (p : Publisher)

def fail (status : Status) : Publisher := { p with stage := .done (.error status) }

def finish : Publisher := { p with stage := .done (.ok p.report) }

def finished : Bool := match p.stage with
  | .done _ => true
  | _ => false

/-- Whether the pass begins with a greeting. -/
def greets : Bool := p.script.sendHello && !p.script.skipHandshake

def total : Nat := (p.script.samples * p.script.repeats).toNat

def closing : Publisher := if p.script.sendGoodbye then { p with stage := .parting } else p.finish

def proceedTo (index : Nat) : Publisher :=
  if index < p.total then { p with stage := .publishing index } else p.closing

/-- The checks before anything is sent; the connection is made by then. -/
def start (options : PublisherClientOptions) (script : PublisherScript) : Result Publisher := do
  refuseIf (options.endpoint = []) .invalidArgument "publisher endpoint is empty"
  refuseIf (¬options.publisher.valid ∨ ¬options.boot.valid) .invalidArgument
    "publisher needs both publisher and boot identities"
  refuseIf (script.resources = []) .invalidArgument "publisher script names no resources"
  refuseIf (¬script.domain.valid) .invalidArgument "publisher script names no domain"
  let p : Publisher := { options, script, report := { connected := true } }
  return if p.greets then p else p.proceedTo 0

/-! ### What it sends -/

def hello : HelloMessage where
  publisher := p.options.publisher
  boot := p.options.boot
  generation := ⟨p.script.generationStart⟩
  startSequence := p.sequence
  requested := .all
  agent := p.options.agent

/-- The header of a request. -/
def header (type : FrameType) (epoch : EpochId) (nonce : UInt64) : FrameHeader where
  type := type.toRaw
  epoch := epoch.value
  boot := p.options.boot.value
  publisher := p.options.publisher.value
  sequence := p.sequence
  nonce := nonce

def nonce : UInt64 := makeNonce p.options.publisher.value p.sequence

def helloFrame : Result Frame := do
  let payload ← encodeHello p.hello
  return { header := p.header .hello {} p.nonce, payload }

def sampleAt (index : Nat) (tick : Tick) (provenance : ProvenanceId) (resource : ResourceId) :
    EvidenceSample :=
  let sample : EvidenceSample := {
    resource
    publisher := p.options.publisher
    publisherBoot := p.options.boot
    epoch := p.report.epoch
    generation := ⟨p.script.generationStart + UInt64.ofNat index⟩
    sequence := p.sequence
    observedTick := tick
    provenance
    metrics := applySampleMetrics p.script index }
  { sample with snapshot := computeSnapshotId sample }

def batchAt (index : Nat) (clock : Tick) : Result EvidenceBatch := do
  let tick := p.bridge.stamp clock
  let provenance := computeProvenanceId .remotePublisher p.options.publisher p.options.boot
    p.report.epoch tick
  let samples := p.script.resources.map (p.sampleAt index tick provenance)
  refuseIf (∃ sample ∈ samples, sample.metrics.size = 0) .invalidArgument
    "publisher script produced a sample with no metrics"
  let batch : EvidenceBatch := { epoch := p.report.epoch, provenance, submittedTick := tick, samples }
  return { batch with id := computeBatchId batch }

def evidenceFrame (batch : EvidenceBatch) : Result Frame := do
  let payload ← encodeEvidence batch
  return { header := p.header .evidence p.report.epoch p.nonce, payload }

def goodbyeFrame : Frame where
  header := p.header .goodbye p.report.epoch 0

/-- The frame that the publisher is about to write. -/
def composed (clock : Tick) : Result Frame :=
  match p.stage with
  | .greeting => p.helloFrame
  | .publishing index => do
    let batch ← p.batchAt index clock
    p.evidenceFrame batch
  | _ => .ok p.goodbyeFrame

/-- Encode a frame and write it. -/
def transmit (frame : Result Frame) (written : VoidResult) : VoidResult := do
  let frame ← frame
  let _ ← FrameCodec.encode frame
  written

def countFrame : Publisher :=
  { p with report := { p.report with framesSent := p.report.framesSent + 1 } }

def sentHello (clock : Tick) (written : VoidResult) : Publisher :=
  match transmit p.helloFrame written with
  | .error status => p.fail status
  | .ok _ => { p.countFrame with heard := false, stage := .awaitingGreeting clock }

def sentEvidence (index : Nat) (clock : Tick) (written : VoidResult) : Publisher :=
  match p.batchAt index clock with
  | .error status => p.fail status
  | .ok batch =>
    match transmit (p.evidenceFrame batch) written with
    | .error status => p.fail status
    | .ok _ =>
      let report := { p.countFrame.report with
        samplesSent := p.report.samplesSent + UInt64.ofNat batch.samples.length }
      { p with report, sequence := p.sequence + 1, heard := false, stage := .awaitingAck index }

/-- Whether the goodbye goes out or not, the script is over. -/
def sentGoodbye (written : VoidResult) : Publisher :=
  match transmit (.ok p.goodbyeFrame) written with
  | .error _ => p.finish
  | .ok _ => p.countFrame.finish

def write (clock : Tick) (written : VoidResult) : Publisher :=
  match p.stage with
  | .greeting => p.sentHello clock written
  | .publishing index => p.sentEvidence index clock written
  | .parting => p.sentGoodbye written
  | _ => p

/-! ### What it hears -/

/-- Align to the midpoint of the round trip. -/
def align (before after coordinatorTick : Tick) : TickBridge where
  offset := coordinatorTick.toInt64 - (before + (after - before) / 2).toInt64
  aligned := true

def greeted (before after : Tick) (ack : HelloAckMessage) : Publisher :=
  { p with
    report := { p.report with
      helloAccepted := ack.accepted
      helloReason := ack.reason
      epoch := ack.epoch
      authorityGeneration := ack.authorityGeneration
      granted := ack.granted }
    bridge := if ack.coordinatorTick ≠ kNoTick then align before after ack.coordinatorTick
      else p.bridge
    heard := true }

def hearHelloAck (before after : Tick) (payload : Bytes) : Publisher :=
  match decodeHelloAck payload with
  | .error status => p.fail status
  | .ok ack =>
    let p := p.greeted before after ack
    if ack.accepted then p
    else
      { p with report := { p.report with errors := p.report.errors + 1, detail := ack.reason } }.finish

def hearEvidenceAck : Publisher :=
  { p with report := { p.report with framesAcked := p.report.framesAcked + 1 }, heard := true }

def hearFence (payload : Bytes) : Publisher :=
  let detail := match decodeFenceNotice payload with
    | .ok notice => notice.detail
    | .error _ => text "fenced"
  { p with report := { p.report with
      fencesReceived := p.report.fencesReceived + 1, detail } }.finish

def hearError (payload : Bytes) : Publisher :=
  let detail := match decodeError payload with
    | .ok error => error.message
    | .error _ => text "protocol error"
  { p with report := { p.report with errors := p.report.errors + 1, detail } }.finish

/-- Frames of any other type are passed over. -/
def hear (clock : Tick) (frame : Frame) : Publisher :=
  match p.stage, frame.type with
  | .awaitingGreeting before, .helloAck => p.hearHelloAck before clock frame.payload
  | .awaitingAck _, .evidenceAck => p.hearEvidenceAck
  | .awaitingAck _, .fenceNotice => p.hearFence frame.payload
  | .awaitingAck _, .errorNotice => p.hearError frame.payload
  | _, _ => p

/-- Take frames until there is none, or until one of them is the end. -/
def takeRepliesFor (clock : Tick) : Nat → Publisher → Publisher
  | 0, p => p
  | calls + 1, p =>
    if p.finished then p
    else match p.decoder.next with
      | (decoder, .error status) => { p with decoder }.fail status
      | (decoder, .ok none) => { p with decoder }
      | (decoder, .ok (some frame)) => takeRepliesFor clock calls ({ p with decoder }.hear clock frame)

def takeReplies (clock : Tick) : Publisher := takeRepliesFor clock (p.decoder.buffered + 1) p

/-- The loop that waits ends with the frame it waits for. -/
def resume : Publisher :=
  match p.stage with
  | .awaitingGreeting _ => if p.heard then p.proceedTo 0 else p
  | .awaitingAck index => if p.heard then p.proceedTo (index + 1) else p
  | _ => p

def hearChunk (clock : Tick) (failure closed : String) : Result Bytes → Publisher
  | .error status => p.fail ⟨.unavailable, failure, status.describe⟩
  | .ok [] => p.fail ⟨.unavailable, failure, closed⟩
  | .ok chunk =>
    match p.decoder.push chunk with
    | (decoder, .error status) => { p with decoder }.fail status
    | (decoder, .ok _) => ({ p with decoder }.takeReplies clock).resume

def receive (clock : Tick) (read : Result Bytes) : Publisher :=
  match p.stage with
  | .awaitingGreeting _ =>
    p.hearChunk clock "handshake failed" "connection closed during the handshake" read
  | .awaitingAck _ =>
    p.hearChunk clock "evidence acknowledgement failed"
      "connection closed while awaiting an acknowledgement" read
  | _ => p

end Publisher

end CongestionFabric
