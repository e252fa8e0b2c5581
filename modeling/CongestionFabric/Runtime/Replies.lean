import CongestionFabric.Runtime.Moves
import CongestionFabric.Transport.ControlPayloads

namespace CongestionFabric

def kFrameFlagReply : UInt16 := 1
def kFrameFlagFinal : UInt16 := 2

/-- The reply to a request carries the identities of the request. -/
def makeReply (request : Frame) (type : FrameType) (payload : Bytes) : Frame where
  header := {
    type := type.toRaw
    flags := kFrameFlagReply ||| kFrameFlagFinal
    epoch := request.header.epoch
    boot := request.header.boot
    publisher := request.header.publisher
    connection := request.header.connection
    sequence := request.header.sequence
    nonce := request.header.nonce }
  payload := payload

/-- What a connection thread reads of the fabric after its call; other threads have gone on. -/
structure Seen where
  boot : BootId := {}
  tick : Tick := kNoTick
  authorityGeneration : AuthorityGeneration := {}
  epoch : EpochId := {}

/-- Whether a write takes all bytes, or fails after some of them. -/
inductive WriteFate where
  | whole
  | cut (sent : Nat)
  deriving DecidableEq

namespace WriteFate

def sent : WriteFate → Bytes → Bytes
  | whole, bytes => bytes
  | cut sent, bytes => bytes.take sent

def unsent : WriteFate → Bytes → Bytes
  | whole, _ => []
  | cut sent, bytes => bytes.drop sent

def delivered : WriteFate → Bool
  | whole => true
  | cut _ => false

theorem sent_unsent (fate : WriteFate) (bytes : Bytes) :
    fate.sent bytes ++ fate.unsent bytes = bytes := by
  cases fate with
  | whole => exact List.append_nil bytes
  | cut sent => exact List.take_append_drop sent bytes

end WriteFate

namespace CoordinatorNode

variable (n : CoordinatorNode) (s : Session) (seen : Seen)

def helloAckOf (hello : HelloMessage) : HelloAckMessage :=
  let ack : HelloAckMessage := { coordinatorBoot := seen.boot, coordinatorTick := seen.tick }
  match (n.fabric.registerPublisher hello.publisher hello.boot hello.requested).2 with
  | .ok registration =>
    { ack with
      accepted := true
      epoch := registration.epoch
      authorityGeneration := seen.authorityGeneration
      granted := registration.granted }
  | .error status => { ack with accepted := false, reason := text status.describe }

/-- A batch that is refused as a whole has every sample rejected. -/
def evidenceAckOf (batch : EvidenceBatch) : EvidenceAckMessage :=
  match (n.fabric.ingest batch).2 with
  | .ok report =>
    { epoch := seen.epoch
      accepted := UInt64.ofNat report.accepted
      rejected := UInt64.ofNat report.rejected
      duplicate := UInt64.ofNat report.duplicate
      fenced := UInt64.ofNat report.fenced }
  | .error _ => { epoch := seen.epoch, rejected := UInt64.ofNat batch.samples.length }

def notAccepted : ErrorMessage where
  code := ErrCode.invalidArgument.toRaw
  message := text "frame type is not accepted from a publisher"

def replyWith (request : Frame) (type : FrameType) : Result Bytes → Option Frame
  | .ok payload => some (makeReply request type payload)
  | .error _ => none

/-- The reply to a frame that a session handles. -/
def replyTo (request : Frame) : Option Frame :=
  match request.type with
  | .hello =>
    match decodeHello request.payload with
    | .error _ => none
    | .ok hello => replyWith request .helloAck (encodeHelloAck (n.helloAckOf seen hello))
  | .evidence =>
    if !s.registered then none
    else match decodeEvidence request.payload with
      | .error _ => none
      | .ok batch => replyWith request .evidenceAck (encodeEvidenceAck (n.evidenceAckOf seen batch))
  | .heartbeat => some (makeReply request .heartbeatAck [])
  | .goodbye => none
  | _ => replyWith request .errorNotice (encodeError notAccepted)

/-- The reply that the next step of a session writes. -/
def reply : Option Frame :=
  match n.frameTaken s with
  | none => none
  | some request => n.replyTo s seen request

/-- The bytes that reach the channel, and whether the thread takes the reply for delivered. -/
def speak (reply : Option Frame) (fate : WriteFate) : Bytes × Bool :=
  match reply with
  | none => ([], true)
  | some frame =>
    match FrameCodec.encode frame with
    | .error _ => ([], false)
    | .ok bytes => (fate.sent bytes, fate.delivered)

/-! ### Every reply can be sent -/

variable {n s seen} {request reply : Frame} {type : FrameType} {payload : Bytes}

theorem makeReply_sendable (htype : isValidFrameType (FrameType.ofRaw type.toRaw) = true)
    (hpayload : payload.length ≤ limits.kMaxFramePayload) :
    (makeReply request type payload).Sendable := by
  refine ⟨htype, hpayload, ?_⟩
  unfold Frame.reservedFlag makeReply
  dsimp only
  decide

theorem replyWith_ok {encoded : Result Bytes} (h : replyWith request type encoded = some reply) :
    ∃ payload, encoded = .ok payload ∧ reply = makeReply request type payload := by
  cases encoded with
  | error status => cases h
  | ok payload => exact ⟨payload, rfl, (Option.some.inj h).symm⟩

theorem encodeHelloAck_length {message : HelloAckMessage}
    (h : encodeHelloAck message = .ok payload) : payload.length ≤ limits.kMaxFramePayload := by
  obtain ⟨reason, hreason, hpayload⟩ := bind_ok.mp h
  obtain rfl := Except.ok.inj hpayload
  have hbound := ByteWriter.text_length hreason
  have hlimit : 300 ≤ limits.kMaxFramePayload := by decide
  simp only [StrongId.put, ByteWriter.u64, ByteWriter.u32, ByteWriter.boolean, ByteWriter.u8,
    List.length_append, littleEndian_length, List.length_singleton]
  omega

theorem encodeEvidenceAck_length {message : EvidenceAckMessage}
    (h : encodeEvidenceAck message = .ok payload) : payload.length ≤ limits.kMaxFramePayload := by
  obtain rfl := Except.ok.inj h
  simp only [StrongId.put, ByteWriter.u64, List.length_append, littleEndian_length]
  decide

theorem encodeError_length {message : ErrorMessage} (h : encodeError message = .ok payload) :
    payload.length ≤ limits.kMaxFramePayload := by
  obtain ⟨text, htext, hpayload⟩ := bind_ok.mp h
  obtain rfl := Except.ok.inj hpayload
  have hbound := ByteWriter.text_length htext
  have hlimit : 600 ≤ limits.kMaxFramePayload := by decide
  simp only [ByteWriter.u16, List.length_append, littleEndian_length]
  omega

/-- The type of frame that answers a request. -/
def answerType : FrameType → FrameType
  | .hello => .helloAck
  | .evidence => .evidenceAck
  | .heartbeat => .heartbeatAck
  | _ => .errorNotice

/-- A reply that answers its request. -/
structure Answers (request reply : Frame) : Prop where
  sendable : reply.Sendable
  type : reply.type = answerType request.type
  epoch : reply.header.epoch = request.header.epoch
  boot : reply.header.boot = request.header.boot
  publisher : reply.header.publisher = request.header.publisher
  connection : reply.header.connection = request.header.connection
  sequence : reply.header.sequence = request.header.sequence
  nonce : reply.header.nonce = request.header.nonce

theorem answers_made (htype : answerType request.type = type)
    (hvalid : isValidFrameType type = true) (hraw : FrameType.ofRaw type.toRaw = type)
    (hpayload : payload.length ≤ limits.kMaxFramePayload) :
    Answers request (makeReply request type payload) := by
  have hsend : isValidFrameType (FrameType.ofRaw type.toRaw) = true := by
    rw [hraw]
    exact hvalid
  exact ⟨makeReply_sendable hsend hpayload, hraw.trans htype.symm, rfl, rfl, rfl, rfl, rfl, rfl⟩

theorem replyTo_answers (h : n.replyTo s seen request = some reply) : Answers request reply := by
  unfold replyTo at h
  split at h
  next htype =>
    split at h
    next => cases h
    next hello _ =>
      obtain ⟨payload, hpayload, rfl⟩ := replyWith_ok h
      exact answers_made (by rw [htype]; rfl) rfl rfl (encodeHelloAck_length hpayload)
  next htype =>
    split at h
    next => cases h
    next =>
      split at h
      next => cases h
      next batch _ =>
        obtain ⟨payload, hpayload, rfl⟩ := replyWith_ok h
        exact answers_made (by rw [htype]; rfl) rfl rfl (encodeEvidenceAck_length hpayload)
  next htype =>
    obtain rfl := Option.some.inj h
    exact answers_made (by rw [htype]; rfl) rfl rfl (Nat.zero_le _)
  next => cases h
  next hhello hevidence hheartbeat hgoodbye =>
    obtain ⟨payload, hpayload, rfl⟩ := replyWith_ok h
    refine answers_made ?_ rfl rfl (encodeError_length hpayload)
    unfold answerType
    split
    next htype => exact absurd htype hhello
    next htype => exact absurd htype hevidence
    next htype => exact absurd htype hheartbeat
    next => rfl

/-! ### A frame is answered, or it is the last one -/

/-- Why a registration is refused always fits into the acknowledgement. -/
theorem registration_reason_fits {f : Fabric} {publisher : PublisherId} {boot : BootId}
    {requested : AuthoritySet} {status : Status}
    (h : (f.registerPublisher publisher boot requested).2 = .error status) :
    (text status.describe).length ≤ 256 := by
  have hrefused : f.admitPublisher publisher boot = .error status := by
    unfold Fabric.registerPublisher Fabric.checked at h
    split at h
    next status' hadmit =>
      obtain rfl := Except.error.inj h
      exact hadmit
    next => cases h
  unfold Fabric.admitPublisher Fabric.ensureOpen refuseIf at hrefused
  split at hrefused
  next =>
    obtain rfl := Except.error.inj hrefused
    decide +kernel
  next =>
    split at hrefused
    next =>
      obtain rfl := Except.error.inj hrefused
      decide +kernel
    next =>
      split at hrefused
      next =>
        obtain rfl := Except.error.inj hrefused
        decide +kernel
      next =>
        split at hrefused
        next =>
          obtain rfl := Except.error.inj hrefused
          decide +kernel
        next => cases hrefused

theorem helloAck_encodes (n : CoordinatorNode) (seen : Seen) (hello : HelloMessage) :
    ∃ payload, encodeHelloAck (n.helloAckOf seen hello) = .ok payload := by
  have hreason : (n.helloAckOf seen hello).reason.length ≤ 256 := by
    unfold helloAckOf
    dsimp only
    split
    next => exact Nat.zero_le _
    next status hrefused => exact registration_reason_fits hrefused
  have htext : ByteWriter.text (n.helloAckOf seen hello).reason 256 = .ok
      (ByteWriter.u32 (UInt32.ofNat (n.helloAckOf seen hello).reason.length) ++
        (n.helloAckOf seen hello).reason) :=
    ByteWriter.text_eq_ok.mpr ⟨hreason, by omega, rfl⟩
  unfold encodeHelloAck
  rw [htext]
  exact ⟨_, rfl⟩

theorem notAccepted_encodes : ∃ payload, encodeError notAccepted = .ok payload := by
  have hshort : notAccepted.message.length ≤ 512 := by decide +kernel
  have htext : ByteWriter.text notAccepted.message 512 = .ok
      (ByteWriter.u32 (UInt32.ofNat notAccepted.message.length) ++ notAccepted.message) :=
    ByteWriter.text_eq_ok.mpr ⟨hshort, by omega, rfl⟩
  unfold encodeError
  rw [htext]
  exact ⟨_, rfl⟩

variable {c : Nat} {s' s₁ : Session} {delivered : Bool}

theorem put_session (hc : c < n.sessions.length) : (n.put c s').sessions[c]? = some s' := by
  unfold put
  exact List.getElem?_set_self hc

theorem called_session {a : Fabric.Action} (hc : c < n.sessions.length) :
    ((n.call a).put c s').sessions[c]? = some s' := put_session (n := n.call a) hc

/-- What a session is after it has handled a frame: on its way out, or one that has answered. -/
structure Handled (n : CoordinatorNode) (s₁ : Session) (seen : Seen) (request : Frame)
    (delivered : Bool) (s' : Session) : Prop where
  decoder : s'.decoder = s₁.decoder
  registered : s'.registered = true → s₁.registered = true ∨ request.type = .hello
  goesOn : s'.work ≠ .leaving →
    s'.healthy = delivered ∧ s'.work ≠ .reading ∧ (s'.work = .decoding → s'.healthy = true) ∧
      ∃ reply, n.replyTo s₁ seen request = some reply

theorem handled_leave {s₂ : Session} (hdecoder : s₂.decoder = s₁.decoder)
    (hregistered : s₂.registered = true → s₁.registered = true ∨ request.type = .hello) :
    Handled n s₁ seen request delivered s₂.leave := by
  refine ⟨hdecoder, hregistered, ?_⟩
  intro hwork
  exact absurd rfl hwork

theorem handled_goOn {s₂ : Session} {reply : Frame} (hdecoder : s₂.decoder = s₁.decoder)
    (hregistered : s₂.registered = true → s₁.registered = true ∨ request.type = .hello)
    (hhealthy : s₂.healthy = delivered) (hreply : n.replyTo s₁ seen request = some reply) :
    Handled n s₁ seen request delivered s₂.goOn := by
  refine ⟨hdecoder, hregistered, ?_⟩
  intro hwork
  unfold Session.goOn at hwork ⊢
  dsimp only at hwork ⊢
  refine ⟨hhealthy, ?_, ?_, reply, hreply⟩
  · split <;> simp
  · intro hdecoding
    by_contra hunhealthy
    rw [if_neg hunhealthy] at hdecoding
    cases hdecoding

theorem handle_handled (n : CoordinatorNode) (seen : Seen) (s₁ : Session) (request : Frame)
    (delivered : Bool) (hc : c < n.sessions.length) :
    ∃ s', (n.handle c s₁ request delivered).sessions[c]? = some s' ∧
      Handled n s₁ seen request delivered s' := by
  unfold handle
  split
  next htype =>
    unfold handleHello
    split
    next => exact ⟨_, put_session hc, handled_leave rfl .inl⟩
    next hello hdecoded =>
      obtain ⟨payload, hpayload⟩ := helloAck_encodes n seen hello
      have hreply : n.replyTo s₁ seen request = some (makeReply request .helloAck payload) := by
        unfold replyTo
        rw [htype]
        dsimp only
        rw [hdecoded]
        dsimp only
        rw [hpayload]
        rfl
      dsimp only
      split
      next => exact ⟨_, put_session hc, handled_goOn rfl (fun _ => .inr htype) rfl hreply⟩
      next => exact ⟨_, called_session hc, handled_leave rfl .inl⟩
  next htype =>
    unfold handleEvidence
    split
    next => exact ⟨_, put_session hc, handled_leave rfl .inl⟩
    next hregistered =>
      split
      next => exact ⟨_, put_session hc, handled_leave rfl .inl⟩
      next batch hdecoded =>
        have hreply : ∃ reply, n.replyTo s₁ seen request = some reply := by
          unfold replyTo
          rw [htype]
          dsimp only
          rw [if_neg hregistered, hdecoded]
          exact ⟨_, rfl⟩
        obtain ⟨reply, hreply⟩ := hreply
        dsimp only
        split
        next =>
          refine ⟨_, called_session hc, rfl, .inl, fun _ => ⟨rfl, by simp, by simp, reply, hreply⟩⟩
        next => exact ⟨_, called_session hc, handled_goOn rfl .inl rfl hreply⟩
  next htype =>
    have hreply : n.replyTo s₁ seen request = some (makeReply request .heartbeatAck []) := by
      unfold replyTo
      rw [htype]
    unfold handleHeartbeat
    dsimp only
    split
    · exact ⟨_, called_session hc, handled_goOn rfl .inl rfl hreply⟩
    · exact ⟨_, put_session hc, handled_goOn rfl .inl rfl hreply⟩
  next htype =>
    unfold handleGoodbye
    dsimp only
    split
    · refine ⟨_, put_session hc, handled_leave rfl ?_⟩
      simp
    · refine ⟨_, put_session hc, handled_leave rfl ?_⟩
      simp
  next hhello hevidence hheartbeat hgoodbye =>
    have hreply : ∃ reply, n.replyTo s₁ seen request = some reply := by
      unfold replyTo
      split
      next htype => exact absurd htype hhello
      next htype => exact absurd htype hevidence
      next htype => exact absurd htype hheartbeat
      next htype => exact absurd htype hgoodbye
      next =>
        obtain ⟨payload, hpayload⟩ := notAccepted_encodes
        rw [hpayload]
        exact ⟨_, rfl⟩
    obtain ⟨reply, hreply⟩ := hreply
    exact ⟨_, put_session hc, handled_goOn rfl .inl rfl hreply⟩

theorem frameTaken_some (h : n.frameTaken s = some request) :
    ∃ decoder, s.work = .decoding ∧ s.decoder.next = (decoder, .ok (some request)) ∧
      ¬s.frames + 1 > n.maxFramesPerConnection := by
  unfold frameTaken at h
  split at h
  next decoder frame hwork hnext =>
    split_ifs at h with hbudget
    obtain rfl := Option.some.inj h
    exact ⟨decoder, hwork, hnext, hbudget⟩
  next => cases h

/-- Taking a frame is handling it with one more on the count. -/
theorem proceed_taken {decoder : FrameDecoder} {request : Frame} (hwork : s.work = .decoding)
    (hnext : s.decoder.next = (decoder, .ok (some request)))
    (hbudget : ¬s.frames + 1 > n.maxFramesPerConnection) (answer : ChannelAnswer) :
    n.proceed c s answer =
      n.handle c { s with decoder, frames := s.frames + 1 } request answer.delivered := by
  unfold proceed
  rw [hwork]
  dsimp only
  unfold decodeNext
  rw [hnext]
  dsimp only
  unfold takeFrame
  dsimp only
  rw [if_neg hbudget, hwork]

theorem replyTo_congr {s₁ : Session} (h : s₁.registered = s.registered) :
    n.replyTo s₁ seen request = n.replyTo s seen request := by
  unfold replyTo
  rw [h]

/-- Whatever a node is doing, a frame that a connection takes is answered by a frame that echoes it
and can be sent, or it is the last frame of the connection. -/
theorem frame_answered {answer : ChannelAnswer} (hs : n.sessions[c]? = some s)
    (htaken : n.frameTaken s = some request) :
    ∃ s', (n.proceed c s answer).sessions[c]? = some s' ∧
      (s'.work = .leaving ∨
        ∃ reply, n.reply s seen = some reply ∧ Answers request reply ∧
          FrameCodec.encode reply = .ok reply.sealed.bytes) := by
  obtain ⟨hlt, _⟩ := List.getElem?_eq_some_iff.mp hs
  obtain ⟨decoder, hwork, hnext, hbudget⟩ := frameTaken_some htaken
  rw [proceed_taken hwork hnext hbudget answer]
  obtain ⟨s', hs', hhandled⟩ :=
    handle_handled n seen { s with decoder, frames := s.frames + 1 } request answer.delivered hlt
  refine ⟨s', hs', ?_⟩
  by_cases hleaving : s'.work = .leaving
  · exact .inl hleaving
  · obtain ⟨_, _, _, reply, hreply⟩ := hhandled.goesOn hleaving
    have hanswers := replyTo_answers hreply
    refine .inr ⟨reply, ?_, hanswers, Frame.encode_ok.mpr ⟨hanswers.sendable, rfl⟩⟩
    unfold CoordinatorNode.reply
    rw [htaken]
    exact (replyTo_congr rfl).symm.trans hreply

/-- A session that has a heartbeat to take. -/
def beating : Session where
  decoder := (FrameDecoder.push {}
    (Frame.sealed { header := { type := FrameType.heartbeat.toRaw } }).bytes).1
  work := .decoding

def beatingNode : CoordinatorNode :=
  { starting World.memoryFabric 100 with sessions := [beating] }

set_option maxRecDepth 100000 in
theorem frame_answered_beating :
    ∃ s', (beatingNode.proceed 0 beating {}).sessions[0]? = some s' ∧
      (s'.work = .leaving ∨
        ∃ reply, beatingNode.reply beating {} = some reply ∧
          Answers (Frame.sealed { header := { type := FrameType.heartbeat.toRaw } }) reply ∧
          FrameCodec.encode reply = .ok reply.sealed.bytes) := by
  have htaken : beatingNode.frameTaken beating =
      some (Frame.sealed { header := { type := FrameType.heartbeat.toRaw } }) := by
    decide +kernel
  exact frame_answered rfl htaken

end CoordinatorNode

end CongestionFabric
