import CongestionFabric.Transport.EvidenceTrip

namespace CongestionFabric

open ByteWriter

/-! ### Replies and notices -/

structure HelloAckMessage where
  epoch : EpochId := {}
  authorityGeneration : AuthorityGeneration := {}
  coordinatorBoot : BootId := {}
  granted : AuthoritySet := {}
  coordinatorTick : Tick := kNoTick
  accepted : Bool := false
  reason : Bytes := []
  deriving DecidableEq

structure EvidenceAckMessage where
  epoch : EpochId := {}
  accepted : UInt64 := 0
  rejected : UInt64 := 0
  duplicate : UInt64 := 0
  fenced : UInt64 := 0
  deriving DecidableEq

def ErrCode.toRaw (code : ErrCode) : UInt16 := UInt16.ofNat code.ctorIdx

/-- The code is whatever number was sent: the cast that reads it checks nothing. -/
structure ErrorMessage where
  code : UInt16 := ErrCode.internal.toRaw
  message : Bytes := []
  deriving DecidableEq

structure FenceMessage where
  epoch : EpochId := {}
  reason : FenceReason := .none
  detail : Bytes := []
  deriving DecidableEq

structure PolicyMessage where
  policy : PolicyId := {}
  version : UInt32 := 0
  fingerprint : Hash64 := {}
  deriving DecidableEq

def encodeHelloAck (message : HelloAckMessage) : Result Bytes := do
  let reason ← ByteWriter.text message.reason 256
  return message.epoch.put ++ (message.authorityGeneration.put ++ (message.coordinatorBoot.put ++
    (u32 message.granted.bits ++ (u64 message.coordinatorTick ++ (boolean message.accepted ++
    reason)))))

open ByteReader in
def readHelloAck : ByteReader HelloAckMessage := do
  return {
    epoch := ← ByteReader.id _, authorityGeneration := ← ByteReader.id _
    coordinatorBoot := ← ByteReader.id _, granted := ⟨← u32⟩, coordinatorTick := ← u64
    accepted := ← boolean, reason := ← ByteReader.text 256 }

def decodeHelloAck (payload : Bytes) : Result HelloAckMessage :=
  ByteReader.decode readHelloAck payload

def encodeEvidenceAck (message : EvidenceAckMessage) : Result Bytes :=
  .ok (message.epoch.put ++ (u64 message.accepted ++ (u64 message.rejected ++
    (u64 message.duplicate ++ u64 message.fenced))))

open ByteReader in
def readEvidenceAck : ByteReader EvidenceAckMessage := do
  return {
    epoch := ← ByteReader.id _, accepted := ← u64, rejected := ← u64, duplicate := ← u64
    fenced := ← u64 }

def decodeEvidenceAck (payload : Bytes) : Result EvidenceAckMessage :=
  ByteReader.decode readEvidenceAck payload

def encodeError (message : ErrorMessage) : Result Bytes := do
  let text ← ByteWriter.text message.message 512
  return u16 message.code ++ text

open ByteReader in
def readError : ByteReader ErrorMessage := do
  return { code := ← u16, message := ← ByteReader.text 512 }

def decodeError (payload : Bytes) : Result ErrorMessage := ByteReader.decode readError payload

def encodeFenceNotice (message : FenceMessage) : Result Bytes := do
  let detail ← ByteWriter.text message.detail 512
  return message.epoch.put ++ (u8 message.reason.toRaw ++ detail)

open ByteReader in
def readFenceNotice : ByteReader FenceMessage := do
  return { epoch := ← ByteReader.id _, reason := .ofRaw (← u8), detail := ← ByteReader.text 512 }

def decodeFenceNotice (payload : Bytes) : Result FenceMessage :=
  ByteReader.decode readFenceNotice payload

def encodePolicyNotice (message : PolicyMessage) : Result Bytes :=
  .ok (message.policy.put ++ (u32 message.version ++ u64 message.fingerprint.value))

open ByteReader in
def readPolicyNotice : ByteReader PolicyMessage := do
  return { policy := ← ByteReader.id _, version := ← u32, fingerprint := ⟨← u64⟩ }

def decodePolicyNotice (payload : Bytes) : Result PolicyMessage :=
  ByteReader.decode readPolicyNotice payload

/-! ### Bounded payloads -/

namespace ByteReader.Steady

theorem u8 : Steady ByteReader.u8 := (field 1).bind fun _ => .pure _

theorem boolean : Steady ByteReader.boolean := u8.bind fun _ => .pure _

theorem raw (size : Nat) : Steady (ByteReader.raw size) := by
  intro data rest a h extra
  unfold ByteReader.raw at h ⊢
  by_cases hshort : size > data.length
  · rw [if_pos hshort] at h
    cases h
  · rw [if_neg hshort] at h
    obtain ⟨rfl, rfl⟩ := Prod.mk.inj (Except.ok.inj h)
    have hlong : ¬size > (data ++ extra).length := by
      rw [List.length_append]
      omega
    rw [if_neg hlong, List.take_append_of_le_length (not_lt.mp hshort),
      List.drop_append_of_le_length (not_lt.mp hshort)]

theorem text (maxLen : Nat) : Steady (ByteReader.text maxLen) :=
  u32.bind fun _ => (require _ _ _).bind fun _ => raw _

end ByteReader.Steady

theorem ByteWriter.text_eq_ok {value bytes : Bytes} {maxLen : Nat} :
    ByteWriter.text value maxLen = .ok bytes ↔
      value.length ≤ maxLen ∧ value.length < 2 ^ 32 ∧
        bytes = u32 (UInt32.ofNat value.length) ++ value := by
  unfold ByteWriter.text
  split
  next hlong =>
    have hrefused : ¬(value.length ≤ maxLen ∧ value.length < 2 ^ 32) := by omega
    constructor
    · intro h
      cases h
    · intro h
      exact absurd ⟨h.1, h.2.1⟩ hrefused
  next hfits =>
    constructor
    · intro h
      exact ⟨by omega, by omega, (Except.ok.inj h).symm⟩
    · intro h
      rw [h.2.2]

/-- A bounded text is one with its length before it. -/
theorem ByteWriter.text_length {value bytes : Bytes} {maxLen : Nat}
    (h : ByteWriter.text value maxLen = .ok bytes) : bytes.length ≤ maxLen + 4 := by
  obtain ⟨hmax, _, rfl⟩ := ByteWriter.text_eq_ok.mp h
  simp only [List.length_append, ByteWriter.u32, littleEndian_length]
  omega

/-! ### There and back -/

/-- What a payload was encoded from is read back from it, and from no part of it. -/
def ReadsBack {α : Type} (encode : α → Result Bytes) (decode : Bytes → Result α) : Prop :=
  ∀ message payload, encode message = .ok payload →
    decode payload = .ok message ∧
      ∀ k < payload.length, ∃ status, decode (payload.take k) = .error status

section Reading

variable {α : Type} {reader : ByteReader α} {message : α} {payload : Bytes}

theorem Recovers.reads (h : Recovers True reader payload message) (hlen : payload.length < 2 ^ 64) :
    reader payload = .ok (message, []) := by
  have hread := (h hlen []).1 trivial
  rwa [List.append_nil] at hread

theorem ByteReader.Steady.part_refused (hsteady : ByteReader.Steady reader)
    (hread : reader payload = .ok (message, [])) {k : Nat} (hk : k < payload.length) :
    ∃ status, ByteReader.decode reader (payload.take k) = .error status := by
  cases hpart : ByteReader.decode reader (payload.take k) with
  | error status => exact ⟨status, rfl⟩
  | ok part => exact absurd hpart (hsteady.refuses_part hread hk)

theorem ReadsBack.of_reader {encode : α → Result Bytes} (hsteady : ByteReader.Steady reader)
    (hread : ∀ message payload, encode message = .ok payload →
      reader payload = .ok (message, [])) :
    ReadsBack encode (ByteReader.decode reader) := by
  intro message payload hencode
  have hall := hread message payload hencode
  constructor
  · unfold ByteReader.decode
    rw [hall]
    rfl
  · intro k hk
    exact hsteady.part_refused hall hk

end Reading

theorem readHelloAck_steady : ByteReader.Steady readHelloAck := by
  refine .bind (.id _) fun epoch => ?_
  refine .bind (.id _) fun authorityGeneration => ?_
  refine .bind (.id _) fun coordinatorBoot => ?_
  refine .bind .u32 fun granted => ?_
  refine .bind .u64 fun coordinatorTick => ?_
  refine .bind .boolean fun accepted => ?_
  exact .bind (.text _) fun reason => .pure _

theorem readHelloAck_encoded {message : HelloAckMessage} {payload : Bytes}
    (h : encodeHelloAck message = .ok payload) : readHelloAck payload = .ok (message, []) := by
  obtain ⟨reason, hreason, hpayload⟩ := bind_ok.mp h
  obtain rfl := Except.ok.inj hpayload
  have hbound := ByteWriter.text_length hreason
  refine Recovers.reads ?_ ?_
  · refine .bind (.id _) ?_
    refine .bind (.id _) ?_
    refine .bind (.id _) ?_
    refine .bind (.u32 _) ?_
    refine .bind (.u64 _) ?_
    refine .bind (.boolean _) ?_
    exact .last (.text hreason)
  · simp only [StrongId.put, u64, u32, boolean, u8, List.length_append, littleEndian_length,
      List.length_singleton]
    omega

theorem helloAck_reads_back : ReadsBack encodeHelloAck decodeHelloAck :=
  .of_reader readHelloAck_steady fun _ _ => readHelloAck_encoded

theorem readEvidenceAck_steady : ByteReader.Steady readEvidenceAck := by
  refine .bind (.id _) fun epoch => ?_
  refine .bind .u64 fun accepted => ?_
  refine .bind .u64 fun rejected => ?_
  refine .bind .u64 fun duplicate => ?_
  exact .bind .u64 fun fenced => .pure _

theorem readEvidenceAck_encoded {message : EvidenceAckMessage} {payload : Bytes}
    (h : encodeEvidenceAck message = .ok payload) :
    readEvidenceAck payload = .ok (message, []) := by
  obtain rfl := Except.ok.inj h
  refine Recovers.reads ?_ ?_
  · refine .bind (.id _) ?_
    refine .bind (.u64 _) ?_
    refine .bind (.u64 _) ?_
    refine .bind (.u64 _) ?_
    exact .last (.u64 _)
  · simp [StrongId.put, u64]

theorem evidenceAck_reads_back : ReadsBack encodeEvidenceAck decodeEvidenceAck :=
  .of_reader readEvidenceAck_steady fun _ _ => readEvidenceAck_encoded

theorem error_reads_back : ReadsBack encodeError decodeError := by
  refine .of_reader (.bind .u16 fun code => .bind (.text _) fun text => .pure _) ?_
  intro message payload h
  obtain ⟨text, htext, hpayload⟩ := bind_ok.mp h
  obtain rfl := Except.ok.inj hpayload
  have hbound := ByteWriter.text_length htext
  refine Recovers.reads (.bind (.u16 _) (.last (.text htext))) ?_
  simp only [u16, List.length_append, littleEndian_length]
  omega

theorem fenceNotice_reads_back : ReadsBack encodeFenceNotice decodeFenceNotice := by
  refine .of_reader
    (.bind (.id _) fun epoch => .bind .u8 fun reason => .bind (.text _) fun detail => .pure _) ?_
  intro message payload h
  obtain ⟨detail, hdetail, hpayload⟩ := bind_ok.mp h
  obtain rfl := Except.ok.inj hpayload
  have hbound := ByteWriter.text_length hdetail
  refine Recovers.reads ?_ ?_
  · refine .bind (.id _) ?_
    refine .bind (.u8 _) ?_
    simp only [FenceReason.ofRaw_toRaw]
    exact .last (.text hdetail)
  · simp only [StrongId.put, u64, u8, List.length_append, littleEndian_length,
      List.length_singleton]
    omega

theorem policyNotice_reads_back : ReadsBack encodePolicyNotice decodePolicyNotice := by
  refine .of_reader
    (.bind (.id _) fun policy => .bind .u32 fun version => .bind .u64 fun value => .pure _) ?_
  intro message payload h
  obtain rfl := Except.ok.inj h
  refine Recovers.reads ?_ ?_
  · refine .bind (.id _) ?_
    refine .bind (.u32 _) ?_
    exact (Recovers.u64 message.fingerprint.value).last (f := fun value =>
      ({ policy := message.policy, version := message.version
         fingerprint := ⟨value⟩ } : PolicyMessage))
  · simp [StrongId.put, u64, u32]

/-! ### The greeting -/

/-- What the receiver of a Hello asks of it. -/
structure HelloMessage.Proper (message : HelloMessage) : Prop where
  publisher : message.publisher.valid = true
  boot : message.boot.valid = true
  requested : message.requested.bits &&& ~~~kAuthorityAllBits = 0

theorem readHello_steady : ByteReader.Steady readHello := by
  refine .bind (.id _) fun publisher => ?_
  refine .bind (.id _) fun boot => ?_
  refine .bind (.id _) fun generation => ?_
  refine .bind .u64 fun startSequence => ?_
  refine .bind .u32 fun requested => ?_
  exact .bind (.text _) fun agent => .pure _

theorem readHello_encoded {message : HelloMessage} {payload : Bytes}
    (h : encodeHello message = .ok payload) : readHello payload = .ok (message, []) := by
  obtain ⟨agent, hagent, hpayload⟩ := bind_ok.mp h
  obtain rfl := Except.ok.inj hpayload
  have hbound := ByteWriter.text_length hagent
  refine Recovers.reads ?_ ?_
  · simp only [List.append_assoc]
    refine .bind (.id _) ?_
    refine .bind (.id _) ?_
    refine .bind (.id _) ?_
    refine .bind (.u64 _) ?_
    refine .bind (.u32 _) ?_
    exact .last (.text hagent)
  · simp only [StrongId.put, u64, u32, List.length_append, littleEndian_length]
    omega

theorem decodeHello_ok {payload : Bytes} {message : HelloMessage} :
    decodeHello payload = .ok message ↔
      ByteReader.decode readHello payload = .ok message ∧ message.Proper := by
  simp only [decodeHello, bind_ok, refuseIf_ok, exists_const, not_or, not_not]
  constructor
  · intro h
    obtain ⟨read, hread, hvalid, hrequested, hsame⟩ := h
    obtain rfl := Except.ok.inj hsame
    exact ⟨hread, hvalid.1, hvalid.2, hrequested⟩
  · intro h
    exact ⟨message, h.1, ⟨h.2.publisher, h.2.boot⟩, h.2.requested, rfl⟩

theorem decodeHello_encoded {message : HelloMessage} {payload : Bytes}
    (h : encodeHello message = .ok payload) :
    decodeHello payload = .ok message ↔ message.Proper := by
  rw [decodeHello_ok, ByteReader.decode, readHello_encoded h]
  exact and_iff_right rfl

/-- Every payload a party can encode is read back by the other whole, and none of it cut short; a
Hello besides has to name its sender and ask for known authority. -/
theorem controlPayloads_round_trip :
    ReadsBack encodeHelloAck decodeHelloAck ∧ ReadsBack encodeEvidenceAck decodeEvidenceAck ∧
      ReadsBack encodeError decodeError ∧ ReadsBack encodeFenceNotice decodeFenceNotice ∧
      ReadsBack encodePolicyNotice decodePolicyNotice ∧
      ∀ message payload, encodeHello message = .ok payload →
        (decodeHello payload = .ok message ↔ message.Proper) ∧
          (¬message.Proper → ∃ status, decodeHello payload = .error status) ∧
          ∀ k < payload.length, ∃ status, decodeHello (payload.take k) = .error status := by
  refine ⟨helloAck_reads_back, evidenceAck_reads_back, error_reads_back,
    fenceNotice_reads_back, policyNotice_reads_back, ?_⟩
  intro message payload hencode
  have hread := readHello_encoded hencode
  refine ⟨decodeHello_encoded hencode, ?_, ?_⟩
  · intro himproper
    cases hdecode : decodeHello payload with
    | error status => exact ⟨status, rfl⟩
    | ok found =>
      obtain ⟨hfound, hproper⟩ := decodeHello_ok.mp hdecode
      rw [ByteReader.decode, hread] at hfound
      obtain rfl := Except.ok.inj hfound
      exact absurd hproper himproper
  · intro k hk
    obtain ⟨status, hrefused⟩ := readHello_steady.part_refused hread hk
    refine ⟨status, ?_⟩
    unfold decodeHello
    rw [hrefused]
    rfl

/-- A publisher's Hello. -/
def politeHello : HelloMessage where
  publisher := ⟨7⟩
  boot := ⟨9⟩
  generation := ⟨3⟩
  startSequence := 12
  requested := .all
  agent := [112, 117, 98]

/-- The answer to it. -/
def politeAck : HelloAckMessage where
  epoch := ⟨2⟩
  authorityGeneration := ⟨5⟩
  coordinatorBoot := ⟨4⟩
  granted := .all
  coordinatorTick := 100
  accepted := true
  reason := [111, 107]

theorem ReadsBack.carries {α : Type} {encode : α → Result Bytes} {decode : Bytes → Result α}
    {message : α} (h : ReadsBack encode decode) (hok : (encode message).isOk = true) :
    ∃ payload, encode message = .ok payload ∧ decode payload = .ok message := by
  obtain ⟨payload, hencode⟩ := Result.exists_of_isOk hok
  exact ⟨payload, hencode, (h message payload hencode).1⟩

/-- A message of each kind, encoded and read back. -/
theorem controlPayloads_round_trip_polite :
    (∃ payload, encodeHello politeHello = .ok payload ∧ decodeHello payload = .ok politeHello ∧
      ∀ k < payload.length, ∃ status, decodeHello (payload.take k) = .error status) ∧
    (∃ payload, encodeHelloAck politeAck = .ok payload ∧ decodeHelloAck payload = .ok politeAck) ∧
    (∃ payload, encodeEvidenceAck ⟨⟨2⟩, 5, 1, 0, 0⟩ = .ok payload ∧
      decodeEvidenceAck payload = .ok ⟨⟨2⟩, 5, 1, 0, 0⟩) ∧
    (∃ payload, encodeError ⟨ErrCode.fenced.toRaw, [110, 111]⟩ = .ok payload ∧
      decodeError payload = .ok ⟨ErrCode.fenced.toRaw, [110, 111]⟩) ∧
    (∃ payload, encodeFenceNotice ⟨⟨2⟩, .manual, [111, 117, 116]⟩ = .ok payload ∧
      decodeFenceNotice payload = .ok ⟨⟨2⟩, .manual, [111, 117, 116]⟩) ∧
    ∃ payload, encodePolicyNotice ⟨⟨1⟩, 3, ⟨17⟩⟩ = .ok payload ∧
      decodePolicyNotice payload = .ok ⟨⟨1⟩, 3, ⟨17⟩⟩ := by
  obtain ⟨hack, hevidence, herror, hfence, hpolicy, hhello⟩ := controlPayloads_round_trip
  have hproper : politeHello.Proper := ⟨by decide, by decide, by decide⟩
  obtain ⟨payload, hencode⟩ : ∃ payload, encodeHello politeHello = .ok payload :=
    Result.exists_of_isOk (by decide)
  obtain ⟨hdecode, _, hparts⟩ := hhello politeHello payload hencode
  exact ⟨⟨payload, hencode, hdecode.mpr hproper, hparts⟩, hack.carries (by decide),
    hevidence.carries (by decide), herror.carries (by decide), hfence.carries (by decide),
    hpolicy.carries (by decide)⟩

end CongestionFabric
