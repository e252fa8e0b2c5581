import CongestionFabric.Runtime.Exchange

namespace CongestionFabric.Publisher

open FrameDecoder

variable {p p' : Publisher} {d d' : FrameDecoder} {clock : Tick} {frame : Frame} {status : Status}
  {flight lost : Bytes} {carried : Option Frame}

/-! ### The books -/

/-- No reply has been other than expected, and so many have acknowledged evidence. -/
structure Clean (p : Publisher) (acked : Nat) : Prop where
  errors : p.report.errors = 0
  fences : p.report.fencesReceived = 0
  acked : p.report.framesAcked = UInt64.ofNat acked

/-- A pass that ended with a report: everything has been acknowledged, or the greeting was
refused. -/
structure Reported (p : Publisher) (report : PublisherReport) (sent : Nat) : Prop where
  same : report = p.report
  fences : report.fencesReceived = 0
  complete : report.errors = 0 → sent = p.total ∧ report.framesAcked = UInt64.ofNat p.total
  refused : report.errors ≠ 0 → sent = 0 ∧ report.framesAcked = 0 ∧ report.helloAccepted = false

/-- What a publisher that has written so many batches has on its books. -/
def Books (p : Publisher) (sent : Nat) : Prop :=
  match p.stage with
  | .greeting => sent = 0 ∧ Clean p 0 ∧ p.greets = true
  | .awaitingGreeting _ => sent = 0 ∧ Clean p 0 ∧ p.heard = false
  | .publishing index => sent = index ∧ index < p.total ∧ Clean p index
  | .awaitingAck index => sent = index + 1 ∧ index < p.total ∧ Clean p index ∧ p.heard = false
  | .parting => sent = p.total ∧ Clean p p.total
  | .done (.ok report) => Reported p report sent
  | .done (.error _) => True

theorem total_lt (p : Publisher) : p.total < 2 ^ 64 := UInt64.toNat_lt _

theorem finish_books {sent : Nat} (hclean : Clean p sent) (hsent : sent = p.total) :
    Books p.finish sent := by
  refine ⟨rfl, hclean.fences, fun _ => ⟨hsent, hsent ▸ hclean.acked⟩, fun hne => ?_⟩
  exact absurd hclean.errors hne

theorem closing_books {sent : Nat} (hclean : Clean p sent) (hsent : sent = p.total) :
    Books p.closing sent := by
  unfold closing
  split
  · subst hsent
    exact ⟨rfl, hclean.errors, hclean.fences, hclean.acked⟩
  · exact finish_books hclean hsent

theorem proceedTo_books {index : Nat} (hclean : Clean p index) (hindex : index ≤ p.total) :
    Books (p.proceedTo index) index := by
  unfold proceedTo
  split
  next hmore => exact ⟨rfl, hmore, hclean.errors, hclean.fences, hclean.acked⟩
  next hall => exact closing_books hclean (by omega)

/-- Going on changes nothing but the stage. -/
structure OnlyStage (p p' : Publisher) : Prop where
  decoder : p'.decoder = p.decoder
  report : p'.report = p.report
  script : p'.script = p.script
  awaiting : p'.awaiting = false

theorem fail_onlyStage (p : Publisher) (status : Status) : OnlyStage p (p.fail status) :=
  ⟨rfl, rfl, rfl, rfl⟩

theorem finish_onlyStage (p : Publisher) : OnlyStage p p.finish := ⟨rfl, rfl, rfl, rfl⟩

theorem proceedTo_onlyStage (p : Publisher) (index : Nat) : OnlyStage p (p.proceedTo index) := by
  unfold proceedTo closing
  split
  · exact ⟨rfl, rfl, rfl, rfl⟩
  · split
    · exact ⟨rfl, rfl, rfl, rfl⟩
    · exact p.finish_onlyStage

/-! ### Hearing one frame -/

theorem takeReplies_none (hrunning : p.finished = false)
    (hnext : p.decoder.next = (p.decoder, .ok none)) : p.takeReplies clock = p := by
  unfold takeReplies takeRepliesFor
  rw [if_neg (by simp [hrunning]), hnext]

theorem hear_decoder (p : Publisher) (clock : Tick) (frame : Frame) :
    (p.hear clock frame).decoder = p.decoder := by
  unfold hear
  split
  next =>
    unfold hearHelloAck
    split
    next => rfl
    next =>
      dsimp only
      split
      · rfl
      · rfl
  next => rfl
  next => rfl
  next => rfl
  next => rfl

theorem takeReplies_one (hrunning : p.finished = false)
    (hnext : p.decoder.next = (d, .ok (some frame))) (hlast : d.next = (d, .ok none)) :
    p.takeReplies clock = { p with decoder := d }.hear clock frame := by
  have hless := next_buffered hnext
  obtain ⟨calls, hcalls⟩ : ∃ calls, p.decoder.buffered = calls + 1 := ⟨p.decoder.buffered - 1, by omega⟩
  unfold takeReplies
  rw [hcalls]
  unfold takeRepliesFor
  rw [if_neg (by simp [hrunning]), hnext]
  dsimp only
  unfold takeRepliesFor
  split
  · rfl
  · have hdecoder := hear_decoder { p with decoder := d } clock frame
    have hdone : ({ p with decoder := d }.hear clock frame).decoder.next =
        (({ p with decoder := d }.hear clock frame).decoder, .ok none) := by
      rw [hdecoder]
      exact hlast
    rw [hdone]

/-- A publisher writes, waits or is done. -/
theorem stage_cases (p : Publisher) :
    p.writing = true ∨ p.awaiting = true ∨ p.finished = true := by
  unfold writing awaiting finished
  cases p.stage <;> simp

theorem awaiting_not_writing (h : p.awaiting = true) : p.writing = false := by
  unfold awaiting at h
  unfold writing
  split at h
  next hstage => rw [hstage]
  next hstage => rw [hstage]
  next => cases h

theorem awaiting_running (h : p.awaiting = true) : p.finished = false := by
  unfold awaiting at h
  unfold finished
  split at h
  next hstage => rw [hstage]
  next hstage => rw [hstage]
  next => cases h

theorem resume_unheard (h : p.heard = false) : p.resume = p := by
  unfold resume
  split
  next => rw [if_neg (by simp [h])]
  next => rw [if_neg (by simp [h])]
  next => rfl

/-- What a read comes to while one frame at most is on the way: it fails, there is more to come, or
the frame is heard. -/
inductive Received (p : Publisher) (clock : Tick) (flight' lost : Bytes) (carried : Option Frame) :
    Publisher → Prop where
  | fails (status : Status) : Received p clock flight' lost carried (p.fail status)
  | waits {d : FrameDecoder} (hcarries : Carries d flight' lost carried)
      (hshort : ∀ frame ∈ carried, Carries.Short d frame) :
      Received p clock flight' lost carried { p with decoder := d }
  | hears {d : FrameDecoder} {frame : Frame} (hcarried : carried = some frame) (hlost : lost = [])
      (hflight : flight' = []) (hcarries : Carries d [] [] none) :
      Received p clock flight' lost carried ({ p with decoder := d }.hear clock frame.sealed).resume

theorem hearChunk_received {failure closed : String} (hawaiting : p.awaiting = true)
    (hheard : p.heard = false) (hcarries : Carries p.decoder flight lost carried)
    (fate : ReadFate) (buffer : Nat) :
    Received p clock (fate.read buffer flight).2 lost carried
      (p.hearChunk clock failure closed (fate.read buffer flight).1) := by
  cases fate with
  | closed => exact .fails _
  | failed status => exact .fails _
  | bytes size =>
    have hsplit : flight.take (min size buffer) ++ flight.drop (min size buffer) = flight :=
      List.take_append_drop _ _
    unfold ReadFate.read
    dsimp only
    generalize flight.take (min size buffer) = chunk at hsplit
    generalize flight.drop (min size buffer) = rest at hsplit
    subst hsplit
    unfold hearChunk
    cases chunk with
    | nil => exact .fails _
    | cons byte chunk =>
      obtain ⟨d, hpush, hpushed⟩ := hcarries.push
      have hrunning : ({ p with decoder := d } : Publisher).finished = false :=
        awaiting_running (p := { p with decoder := d }) hawaiting
      have hsame : ({ p with decoder := d } : Publisher).heard = false := hheard
      dsimp only
      rw [hpush]
      dsimp only
      rcases hpushed.next with ⟨hnext, hshort⟩ | ⟨frame, d', hframe, hflight, hlost, hnext, hrest⟩
      · rw [takeReplies_none hrunning hnext, resume_unheard hsame]
        exact .waits hpushed hshort
      · have hlast : d'.next = (d', .ok none) := by
          rcases hrest.next with ⟨hnone, _⟩ | ⟨_, _, hsome, _⟩
          · exact hnone
          · cases hsome
        rw [takeReplies_one hrunning hnext hlast]
        exact .hears hframe hlost hflight hrest

theorem receive_received (hawaiting : p.awaiting = true) (hheard : p.heard = false)
    (hcarries : Carries p.decoder flight lost carried) (fate : ReadFate) (buffer : Nat) :
    Received p clock (fate.read buffer flight).2 lost carried
      (p.receive clock (fate.read buffer flight).1) := by
  unfold receive
  split
  next => exact hearChunk_received hawaiting hheard hcarries fate buffer
  next => exact hearChunk_received hawaiting hheard hcarries fate buffer
  next hgreeting hack =>
    unfold awaiting at hawaiting
    split at hawaiting
    next hstage => exact absurd hstage (hgreeting _)
    next hstage => exact absurd hstage (hack _)
    next => cases hawaiting

/-- What a publisher is after it has heard what it waited for. -/
structure Heard (p : Publisher) (d : FrameDecoder) (answered sent : Nat) (p' : Publisher) :
    Prop where
  decoder : p'.decoder = d
  script : p'.script = p.script
  awaiting : p'.awaiting = false
  acked : p'.report.framesAcked = p.report.framesAcked + UInt64.ofNat answered
  books : Books p' sent

theorem Heard.of_onlyStage {q : Publisher} {answered sent : Nat} (h : OnlyStage q p')
    (hdecoder : q.decoder = d) (hscript : q.script = p.script)
    (hacked : q.report.framesAcked = p.report.framesAcked + UInt64.ofNat answered)
    (hbooks : Books p' sent) : Heard p d answered sent p' :=
  ⟨h.decoder.trans hdecoder, h.script.trans hscript, h.awaiting, by rw [h.report, hacked], hbooks⟩

theorem greeting_heard {before : Tick} {sent : Nat} (hstage : p.stage = .awaitingGreeting before)
    (hbooks : Books p sent) (htype : frame.type = .helloAck) :
    Heard p d 0 sent ({ p with decoder := d }.hear clock frame).resume := by
  unfold Books at hbooks
  rw [hstage] at hbooks
  obtain ⟨rfl, hclean, hheard⟩ := hbooks
  have hzero : p.report.framesAcked + UInt64.ofNat 0 = p.report.framesAcked := UInt64.add_zero _
  unfold hear
  dsimp only
  rw [hstage, htype]
  dsimp only
  unfold hearHelloAck
  cases decodeHelloAck frame.payload with
  | error status =>
    exact .of_onlyStage (fail_onlyStage _ status) rfl rfl hzero.symm trivial
  | ok ack =>
    dsimp only
    split
    · have hheard : (({ p with decoder := d, stage := .awaitingGreeting before } : Publisher).greeted
          before clock ack).resume = (({ p with decoder := d, stage := .awaitingGreeting before } :
          Publisher).greeted before clock ack).proceedTo 0 := rfl
      rw [hheard]
      refine .of_onlyStage (proceedTo_onlyStage _ 0) rfl rfl hzero.symm ?_
      exact proceedTo_books ⟨hclean.errors, hclean.fences, hclean.acked⟩ (Nat.zero_le _)
    · next hrefused =>
      refine .of_onlyStage (finish_onlyStage _) rfl rfl hzero.symm ?_
      refine ⟨rfl, hclean.fences, ?_, ?_⟩
      · intro hno
        have hone : p.report.errors + 1 = 0 := hno
        rw [hclean.errors] at hone
        cases hone
      · intro _
        exact ⟨rfl, hclean.acked, Bool.eq_false_iff.mpr hrefused⟩

theorem ack_heard {index sent : Nat} (hstage : p.stage = .awaitingAck index) (hbooks : Books p sent)
    (htype : frame.type = .evidenceAck) :
    Heard p d 1 sent ({ p with decoder := d }.hear clock frame).resume := by
  unfold Books at hbooks
  rw [hstage] at hbooks
  obtain ⟨rfl, hindex, hclean, hheard⟩ := hbooks
  unfold hear
  dsimp only
  rw [hstage, htype]
  dsimp only
  have hresume : (({ p with decoder := d, stage := .awaitingAck index } :
      Publisher).hearEvidenceAck).resume = (({ p with decoder := d, stage := .awaitingAck index } :
      Publisher).hearEvidenceAck).proceedTo (index + 1) := rfl
  rw [hresume]
  refine .of_onlyStage (proceedTo_onlyStage _ _) rfl rfl rfl ?_
  refine proceedTo_books ⟨hclean.errors, hclean.fences, ?_⟩ hindex
  have hsum : p.report.framesAcked + 1 = UInt64.ofNat (index + 1) := by
    rw [hclean.acked, UInt64.ofNat_add]
    rfl
  exact hsum

/-! ### Writing one frame -/

/-- The request that a publisher writes: a greeting, the evidence of a batch or a farewell. -/
inductive Request (p : Publisher) (clock : Tick) (frame : Frame) : Prop where
  | greets (hstage : p.stage = .greeting) (htype : frame.type = .hello)
  | publishes {index : Nat} {batch : EvidenceBatch} (hstage : p.stage = .publishing index)
      (hbatch : p.batchAt index clock = .ok batch) (htype : frame.type = .evidence)
      (hpayload : encodeEvidence batch = .ok frame.payload)
  | parts (hstage : p.stage = .parting) (htype : frame.type = .goodbye)

/-- What a publisher is after a write. -/
structure Wrote (p : Publisher) (delivered : Bool) (sent : Nat) (p' : Publisher) : Prop where
  decoder : p'.decoder = p.decoder
  script : p'.script = p.script
  acked : p'.report.framesAcked = p.report.framesAcked
  books : Books p' sent
  writing : p'.writing = false
  delivered : p'.awaiting = true → delivered = true
  greeting : ∀ before, p'.stage = .awaitingGreeting before → p.stage = .greeting
  publishing : ∀ index, p'.stage = .awaitingAck index → p.stage = .publishing index

theorem wrote_done {delivered : Bool} {sent : Nat} {outcome : Result PublisherReport}
    (hdecoder : p'.decoder = p.decoder) (hscript : p'.script = p.script)
    (hacked : p'.report.framesAcked = p.report.framesAcked) (hbooks : Books p' sent)
    (hdone : p'.stage = .done outcome) : Wrote p delivered sent p' := by
  refine ⟨hdecoder, hscript, hacked, hbooks, ?_, ?_, ?_, ?_⟩
  · unfold writing
    rw [hdone]
  · unfold awaiting
    rw [hdone]
    intro h
    cases h
  · intro before h
    rw [hdone] at h
    cases h
  · intro index h
    rw [hdone] at h
    cases h

theorem fail_wrote (p : Publisher) (delivered : Bool) (sent : Nat) (status : Status) :
    Wrote p delivered sent (p.fail status) := wrote_done rfl rfl rfl trivial rfl

/-- The outcome of a write whose bytes are the first of a frame. -/
def written (fate : WriteFate) (failure : Status) : VoidResult :=
  if fate.delivered then succeed else .error failure

theorem transmit_ok {frame : Result Frame} {bytes : Bytes} (outcome : VoidResult)
    (h : (do FrameCodec.encode (← frame)) = .ok bytes) : transmit frame outcome = outcome := by
  obtain ⟨found, rfl, hencode⟩ := bind_ok.mp h
  have hbind : (Except.ok found : Result Frame) >>= (fun f => FrameCodec.encode f >>= fun _ => outcome) =
      FrameCodec.encode found >>= fun _ => outcome := rfl
  unfold transmit
  rw [hbind, hencode]
  rfl

theorem transmit_error {frame : Result Frame} (outcome : VoidResult)
    (h : (do FrameCodec.encode (← frame)) = .error status) :
    transmit frame outcome = .error status := by
  unfold transmit
  cases frame with
  | error found =>
    have hsame : (Except.error found : Result Bytes) = .error status := h
    obtain rfl := Except.error.inj hsame
    rfl
  | ok found =>
    have hsame : FrameCodec.encode found = .error status := h
    have hbind : (Except.ok found : Result Frame) >>=
        (fun f => FrameCodec.encode f >>= fun _ => outcome) =
        FrameCodec.encode found >>= fun _ => outcome := rfl
    rw [hbind, hsame]
    rfl

theorem helloFrame_request {bytes : Bytes} (hstage : p.stage = .greeting)
    (h : (do FrameCodec.encode (← p.helloFrame)) = .ok bytes) :
    ∃ frame, frame.Sendable ∧ bytes = frame.sealed.bytes ∧ Request p clock frame := by
  obtain ⟨frame, hframe, hencode⟩ := bind_ok.mp h
  obtain ⟨hsend, rfl⟩ := Frame.encode_ok.mp hencode
  obtain ⟨payload, _, hmade⟩ := bind_ok.mp hframe
  obtain rfl := Except.ok.inj hmade
  exact ⟨_, hsend, rfl, .greets hstage rfl⟩

theorem evidenceFrame_request {bytes : Bytes} {index : Nat} {batch : EvidenceBatch}
    (hstage : p.stage = .publishing index) (hbatch : p.batchAt index clock = .ok batch)
    (h : (do FrameCodec.encode (← p.evidenceFrame batch)) = .ok bytes) :
    ∃ frame, frame.Sendable ∧ bytes = frame.sealed.bytes ∧ Request p clock frame := by
  obtain ⟨frame, hframe, hencode⟩ := bind_ok.mp h
  obtain ⟨hsend, rfl⟩ := Frame.encode_ok.mp hencode
  obtain ⟨payload, hpayload, hmade⟩ := bind_ok.mp hframe
  obtain rfl := Except.ok.inj hmade
  exact ⟨_, hsend, rfl, .publishes hstage hbatch rfl hpayload⟩

theorem goodbyeFrame_request (clock : Tick) (hstage : p.stage = .parting) :
    FrameCodec.encode p.goodbyeFrame = .ok p.goodbyeFrame.sealed.bytes ∧ p.goodbyeFrame.Sendable ∧
      Request p clock p.goodbyeFrame := by
  have hsend : p.goodbyeFrame.Sendable := by
    refine ⟨rfl, Nat.zero_le _, ?_⟩
    unfold Frame.reservedFlag goodbyeFrame header
    dsimp only
    decide
  exact ⟨Frame.encode_ok.mpr ⟨hsend, rfl⟩, hsend, .parts hstage rfl⟩

/-- What the publisher encodes is a request, and what it becomes depends on the write alone. -/
theorem write_ok {bytes : Bytes} {sent : Nat} (hwriting : p.writing = true) (hbooks : Books p sent)
    (h : (do FrameCodec.encode (← p.composed clock)) = .ok bytes) (fate : WriteFate)
    (failure : Status) :
    (∃ frame, frame.Sendable ∧ bytes = frame.sealed.bytes ∧ Request p clock frame) ∧
      Wrote p fate.delivered (sent + (p.outgoing clock).length)
        (p.write clock (written fate failure)) := by
  unfold composed at h
  unfold Books at hbooks
  unfold outgoing write
  cases hstage : p.stage with
  | greeting =>
    rw [hstage] at h hbooks
    obtain ⟨rfl, hclean, _⟩ := hbooks
    refine ⟨helloFrame_request hstage h, ?_⟩
    dsimp only
    unfold sentHello
    rw [transmit_ok _ h]
    cases fate with
    | whole =>
      exact ⟨rfl, rfl, rfl, ⟨rfl, ⟨hclean.errors, hclean.fences, hclean.acked⟩, rfl⟩, rfl,
        fun _ => rfl, fun _ _ => hstage, fun index h => by cases h⟩
    | cut size => exact fail_wrote p _ _ _
  | publishing index =>
    rw [hstage] at h hbooks
    obtain ⟨rfl, hindex, hclean⟩ := hbooks
    dsimp only at h ⊢
    cases hbatch : p.batchAt sent clock with
    | error status =>
      rw [hbatch] at h
      cases h
    | ok batch =>
      rw [hbatch] at h
      have hencoded : (do FrameCodec.encode (← p.evidenceFrame batch)) = .ok bytes := h
      refine ⟨evidenceFrame_request hstage hbatch hencoded, ?_⟩
      unfold sentEvidence
      rw [hbatch]
      dsimp only
      rw [transmit_ok _ hencoded]
      cases fate with
      | whole =>
        refine ⟨rfl, rfl, rfl,
          ⟨rfl, hindex, ⟨hclean.errors, hclean.fences, hclean.acked⟩, rfl⟩, rfl, fun _ => rfl,
          fun before h => (by cases h), ?_⟩
        intro index h
        obtain rfl := Stage.awaitingAck.inj h
        exact hstage
      | cut size => exact fail_wrote p _ _ _
  | parting =>
    rw [hstage] at h hbooks
    obtain ⟨rfl, hclean⟩ := hbooks
    have hencoded : FrameCodec.encode p.goodbyeFrame = .ok bytes := h
    obtain ⟨hencode, hsend, hrequest⟩ := goodbyeFrame_request clock hstage
    rw [hencode] at hencoded
    refine ⟨⟨_, hsend, (Except.ok.inj hencoded).symm, hrequest⟩, ?_⟩
    dsimp only
    unfold sentGoodbye
    rw [transmit_ok _ h]
    cases fate with
    | whole =>
      exact wrote_done rfl rfl rfl
        (finish_books ⟨hclean.errors, hclean.fences, hclean.acked⟩ rfl) rfl
    | cut size => exact wrote_done rfl rfl rfl (finish_books hclean rfl) rfl
  | awaitingGreeting before =>
    unfold writing at hwriting
    rw [hstage] at hwriting
    cases hwriting
  | awaitingAck index =>
    unfold writing at hwriting
    rw [hstage] at hwriting
    cases hwriting
  | done outcome =>
    unfold writing at hwriting
    rw [hstage] at hwriting
    cases hwriting

/-- What cannot be encoded ends the pass. -/
theorem write_error (hwriting : p.writing = true)
    (h : (do FrameCodec.encode (← p.composed clock)) = .error status) (outcome : VoidResult) :
    p.write clock outcome = p.fail status := by
  unfold composed at h
  unfold write
  cases hstage : p.stage with
  | greeting =>
    rw [hstage] at h
    dsimp only
    unfold sentHello
    rw [transmit_error _ h]
  | publishing index =>
    rw [hstage] at h
    dsimp only at h ⊢
    unfold sentEvidence
    cases hbatch : p.batchAt index clock with
    | error found =>
      rw [hbatch] at h
      have hsame : (Except.error found : Result Bytes) = .error status := h
      obtain rfl := Except.error.inj hsame
      rfl
    | ok batch =>
      rw [hbatch] at h
      have hrefused : (do FrameCodec.encode (← p.evidenceFrame batch)) = .error status := h
      dsimp only
      rw [transmit_error _ hrefused]
  | parting =>
    rw [hstage] at h
    have hrefused : FrameCodec.encode p.goodbyeFrame = .error status := h
    rw [(goodbyeFrame_request clock hstage).1] at hrefused
    cases hrefused
  | awaitingGreeting before =>
    unfold writing at hwriting
    rw [hstage] at hwriting
    cases hwriting
  | awaitingAck index =>
    unfold writing at hwriting
    rw [hstage] at hwriting
    cases hwriting
  | done outcome =>
    unfold writing at hwriting
    rw [hstage] at hwriting
    cases hwriting

/-! ### The evidence it makes -/

theorem putMetric_built {metrics : MetricSet} (h : BuiltSet metrics) (kind : MetricKind)
    (value : UInt64) : BuiltSet (putMetric metrics kind value) := by
  unfold putMetric
  split
  · exact h
  · split
    next metrics' hset => exact .set h hset
    next => exact h

theorem applySampleMetrics_built (script : PublisherScript) (index : Nat) :
    BuiltSet (applySampleMetrics script index) := by
  unfold applySampleMetrics
  refine putMetric_built ?_ _ _
  refine putMetric_built ?_ _ _
  refine putMetric_built ?_ _ _
  refine putMetric_built ?_ _ _
  refine putMetric_built ?_ _ _
  refine putMetric_built ?_ _ _
  refine putMetric_built ?_ _ _
  exact putMetric_built .empty _ _

/-- Every sample of a batch is one of the script's resources at this index. -/
theorem batchAt_samples {index : Nat} {batch : EvidenceBatch} (h : p.batchAt index clock = .ok batch) :
    batch.samples = p.script.resources.map
      (p.sampleAt index (p.bridge.stamp clock) batch.provenance) ∧
      batch.epoch = p.report.epoch ∧ batch.submittedTick = p.bridge.stamp clock := by
  unfold batchAt at h
  simp only [bind_ok, refuseIf_ok, exists_const] at h
  obtain ⟨_, hmade⟩ := h
  obtain rfl := Except.ok.inj hmade
  exact ⟨rfl, rfl, rfl⟩

theorem batchAt_built {index : Nat} {batch : EvidenceBatch} (h : p.batchAt index clock = .ok batch) :
    ∀ sample ∈ batch.samples, BuiltSet sample.metrics := by
  intro sample hsample
  rw [(batchAt_samples h).1] at hsample
  obtain ⟨resource, _, rfl⟩ := List.mem_map.mp hsample
  exact applySampleMetrics_built _ _

/-! ### The script stays -/

theorem write_script (p : Publisher) (clock : Tick) (outcome : VoidResult) :
    (p.write clock outcome).script = p.script := by
  unfold write
  split
  next =>
    unfold sentHello
    split <;> rfl
  next =>
    unfold sentEvidence
    split
    next => rfl
    next => split <;> rfl
  next =>
    unfold sentGoodbye
    split <;> rfl
  next => rfl

theorem hear_script (p : Publisher) (clock : Tick) (frame : Frame) :
    (p.hear clock frame).script = p.script := by
  unfold hear
  split
  next =>
    unfold hearHelloAck
    split
    next => rfl
    next =>
      dsimp only
      split <;> rfl
  all_goals rfl

theorem takeRepliesFor_script (clock : Tick) (calls : Nat) (p : Publisher) :
    (takeRepliesFor clock calls p).script = p.script := by
  induction calls generalizing p with
  | zero => rfl
  | succ calls ih =>
    unfold takeRepliesFor
    split
    · rfl
    · split
      next => rfl
      next => rfl
      next => rw [ih, hear_script]

theorem resume_script (p : Publisher) : p.resume.script = p.script := by
  unfold resume
  split
  next => split <;> simp [(proceedTo_onlyStage p _).script]
  next => split <;> simp [(proceedTo_onlyStage p _).script]
  next => rfl

theorem receive_script (p : Publisher) (clock : Tick) (read : Result Bytes) :
    (p.receive clock read).script = p.script := by
  have hchunk : ∀ failure closed : String,
      (p.hearChunk clock failure closed read).script = p.script := by
    intro failure closed
    unfold hearChunk
    split
    next => rfl
    next => rfl
    next =>
      split
      next => rfl
      next =>
        rw [resume_script]
        exact takeRepliesFor_script clock _ _
  unfold receive
  split
  next => exact hchunk _ _
  next => exact hchunk _ _
  next => rfl

end CongestionFabric.Publisher
