import CongestionFabric.Durability.CrcDamage
import CongestionFabric.Transport.Frame

namespace CongestionFabric

theorem exists_encodeFrameHeader {bytes : Bytes} (h : bytes.length = kFrameHeaderSize) :
    ∃ header, bytes = encodeFrameHeader header := by
  obtain ⟨magic, rest1, rfl, h1⟩ := exists_u32 (n := 76) h
  obtain ⟨format, rest2, rfl, h2⟩ := exists_u16 (n := 74) h1
  obtain ⟨type, rest3, rfl, h3⟩ := exists_u16 (n := 72) h2
  obtain ⟨flags, rest4, rfl, h4⟩ := exists_u16 (n := 70) h3
  obtain ⟨reserved, rest5, rfl, h5⟩ := exists_u16 (n := 68) h4
  obtain ⟨payloadLen, rest6, rfl, h6⟩ := exists_u32 (n := 64) h5
  obtain ⟨headerCrc, rest7, rfl, h7⟩ := exists_u32 (n := 60) h6
  obtain ⟨payloadCrc, rest8, rfl, h8⟩ := exists_u32 (n := 56) h7
  obtain ⟨epoch, rest9, rfl, h9⟩ := exists_u64 (n := 48) h8
  obtain ⟨boot, rest10, rfl, h10⟩ := exists_u64 (n := 40) h9
  obtain ⟨publisher, rest11, rfl, h11⟩ := exists_u64 (n := 32) h10
  obtain ⟨connection, rest12, rfl, h12⟩ := exists_u64 (n := 24) h11
  obtain ⟨sequence, rest13, rfl, h13⟩ := exists_u64 (n := 16) h12
  obtain ⟨nonce, rest14, rfl, h14⟩ := exists_u64 (n := 8) h13
  obtain ⟨reserved2, rest15, rfl, h15⟩ := exists_u32 (n := 4) h14
  obtain ⟨reserved3, rest16, rfl, h16⟩ := exists_u32 (n := 0) h15
  obtain rfl := List.length_eq_zero_iff.mp h16
  refine ⟨⟨magic, format, type, flags, reserved, payloadLen, headerCrc, payloadCrc, epoch, boot,
    publisher, connection, sequence, nonce, reserved2, reserved3⟩, ?_⟩
  rw [List.append_nil]
  rfl

theorem readFrameHeader_encoded (header : FrameHeader) :
    ByteReader.decode readFrameHeader (encodeFrameHeader header) = .ok header := by
  have hlen : (encodeFrameHeader header).length < 2 ^ 64 := by
    rw [encodeFrameHeader_length]
    decide
  exact ((recovers_frameHeader header).decode_plain hlen).mpr rfl

theorem u32_injective {value value' : UInt32} (h : ByteWriter.u32 value = ByteWriter.u32 value') :
    value = value' := by
  have hread := @fromLittleEndian_of_lt 4 _ value.toNat_lt
  have hread' := @fromLittleEndian_of_lt 4 _ value'.toNat_lt
  unfold ByteWriter.u32 at h
  rw [h, hread'] at hread
  exact (UInt32.toNat_inj.mp hread).symm

theorem encodeFrameHeader_injective {header header' : FrameHeader}
    (h : encodeFrameHeader header = encodeFrameHeader header') : header = header' := by
  have hread := readFrameHeader_encoded header
  rw [h, readFrameHeader_encoded] at hread
  exact (Except.ok.inj hread).symm

open ByteWriter in
/-- The fields of a header before and after its own check. -/
def frameHeaderFront (header : FrameHeader) : Bytes :=
  u32 header.magic ++ (u16 header.format ++ (u16 header.type ++ (u16 header.flags ++
    (u16 header.reserved ++ u32 header.payloadLen))))

open ByteWriter in
def frameHeaderBack (header : FrameHeader) : Bytes :=
  u32 header.payloadCrc ++ (u64 header.epoch ++ (u64 header.boot ++ (u64 header.publisher ++
    (u64 header.connection ++ (u64 header.sequence ++ (u64 header.nonce ++
    (u32 header.reserved2 ++ u32 header.reserved3)))))))

theorem frameHeaderFront_length (header : FrameHeader) : (frameHeaderFront header).length = 16 := by
  simp [frameHeaderFront, ByteWriter.u32, ByteWriter.u16]

/-- A header around its own check. -/
theorem encodeFrameHeader_around (header : FrameHeader) (crc : UInt32) :
    encodeFrameHeader { header with headerCrc := crc } =
      frameHeaderFront header ++ (ByteWriter.u32 crc ++ frameHeaderBack header) := by
  unfold frameHeaderFront
  simp only [List.append_assoc]
  rfl

/-- No two headers that match their checks differ in one byte. -/
theorem frameHeader_damaged {header header' : FrameHeader}
    (hcheck : header.computedHeaderCrc = header.headerCrc)
    (h : DiffersOnce (encodeFrameHeader header) (encodeFrameHeader header')) :
    header'.computedHeaderCrc ≠ header'.headerCrc := by
  have hwhole := encodeFrameHeader_around header header.headerCrc
  have hwhole' := encodeFrameHeader_around header' header'.headerCrc
  unfold FrameHeader.computedHeaderCrc at hcheck ⊢
  rw [encodeFrameHeader_around] at hcheck
  rw [encodeFrameHeader_around]
  apply crc32c_field_damaged hcheck
  · rw [frameHeaderFront_length, frameHeaderFront_length]
  · rwa [← hwhole, ← hwhole']

/-- What a header and a payload must be for the codec to take them. -/
structure Receivable (header : FrameHeader) (payload : Bytes) : Prop where
  check : header.computedHeaderCrc = header.headerCrc
  magic : header.magic = kFrameMagic
  format : header.format = kFormatVersion
  type : isValidFrameType (FrameType.ofRaw header.type) = true
  flags : Frame.reservedFlag header = false
  bounded : payload.length ≤ limits.kMaxFramePayload
  length : header.payloadLen.toNat = payload.length
  payloadCrc : crc32c payload = header.payloadCrc

theorem decodeFrameHeader_magic {header : FrameHeader}
    (h : (decodeFrameHeader (encodeFrameHeader header)).magic = kFrameMagic) :
    header.computedHeaderCrc = header.headerCrc := by
  unfold decodeFrameHeader at h
  rw [readFrameHeader_encoded] at h
  dsimp only at h
  split_ifs at h with hcheck
  · cases h
  · exact not_not.mp hcheck

namespace FrameCodec

variable {frame : Frame} {bytes : Bytes}

/-- The codec takes exactly the frames whose header and payload it can receive. -/
theorem decode_ok : decode bytes = .ok frame ↔
    Receivable frame.header frame.payload ∧ bytes = frame.bytes := by
  constructor
  · intro h
    simp only [decode, bind_ok, refuseIf_ok, exists_const, not_not] at h
    obtain ⟨hlong, hmagic, hformat, htype, hflags, hbound, hlength, hcrc, hframe⟩ := h
    obtain rfl := Except.ok.inj hframe
    have hfront : (bytes.take kFrameHeaderSize).length = kFrameHeaderSize := by
      rw [List.length_take]
      omega
    obtain ⟨header, hheader⟩ := exists_encodeFrameHeader hfront
    have hsplit := List.take_append_drop kFrameHeaderSize bytes
    rw [hheader] at hmagic hformat htype hflags hbound hlength hcrc hsplit ⊢
    have hcheck := decodeFrameHeader_magic hmagic
    rw [decodeFrameHeader_encoded hcheck] at hmagic hformat htype hflags hbound hlength hcrc ⊢
    have hpayload : (bytes.drop kFrameHeaderSize).length = header.payloadLen.toNat := by
      rw [List.length_drop, hlength]
      omega
    refine ⟨⟨hcheck, hmagic, hformat, by simpa using htype, by simpa using hflags, ?_, ?_, hcrc⟩,
      hsplit.symm⟩
    · rw [hpayload]
      exact not_lt.mp hbound
    · exact hpayload.symm
  · rintro ⟨h, rfl⟩
    have hlen := encodeFrameHeader_length frame.header
    have htake : frame.bytes.take kFrameHeaderSize = encodeFrameHeader frame.header :=
      List.take_left' hlen
    have hdrop : frame.bytes.drop kFrameHeaderSize = frame.payload := List.drop_left' hlen
    have hbytes : frame.bytes.length = kFrameHeaderSize + frame.payload.length := by
      rw [Frame.bytes, List.length_append, hlen]
    have hbound := h.bounded
    have hlength := h.length
    simp only [decode, bind_ok, refuseIf_ok, exists_const, htake, hdrop,
      decodeFrameHeader_encoded h.check, h.type, h.flags]
    exact ⟨by omega, not_not.mpr h.magic, not_not.mpr h.format, by simp, by simp, by omega,
      by omega, not_not.mpr h.payloadCrc, rfl⟩

/-- Serialise a frame at the end of a buffer. -/
def append (frame : Frame) (out : Bytes) : Bytes × VoidResult :=
  match encode frame with
  | .error status => (out, .error status)
  | .ok bytes => (out ++ bytes, succeed)

/-- A string with one byte changed, or with bytes missing from its end or added to it. -/
def Damaged (bytes damaged : Bytes) : Prop :=
  DiffersOnce bytes damaged ∨ damaged <+: bytes ∧ damaged ≠ bytes ∨
    bytes <+: damaged ∧ damaged ≠ bytes

/-- Two frames that are taken, one of which starts the other, are one frame. -/
theorem receivable_starts {frame frame' : Frame} (h : Receivable frame.header frame.payload)
    (h' : Receivable frame'.header frame'.payload) (hstarts : frame'.bytes <+: frame.bytes) :
    frame'.bytes = frame.bytes := by
  obtain ⟨rest, hrest⟩ := hstarts
  unfold Frame.bytes at hrest ⊢
  rw [List.append_assoc] at hrest
  obtain ⟨hheader, hpayload⟩ := List.append_inj hrest (by simp)
  have hsame := encodeFrameHeader_injective hheader
  have hlength := h'.length
  rw [hsame, h.length] at hlength
  have hall := congrArg List.length hpayload
  rw [List.length_append] at hall
  have hnil : rest = [] := List.length_eq_zero_iff.mp (by omega)
  rw [hsame, ← hpayload, hnil, List.append_nil]

/-- No frame that is taken is a damaged one. -/
theorem receivable_damaged {frame frame' : Frame} (h : Receivable frame.header frame.payload)
    (h' : Receivable frame'.header frame'.payload) : ¬Damaged frame.bytes frame'.bytes := by
  rintro (honce | ⟨hstarts, hne⟩ | ⟨hstarts, hne⟩)
  · have hlen : (encodeFrameHeader frame.header).length =
        (encodeFrameHeader frame'.header).length := by simp
    unfold Frame.bytes at honce
    rcases honce.append_cases hlen with ⟨hheader, _⟩ | ⟨hheader, hpayload⟩
    · exact frameHeader_damaged h.check hheader h'.check
    · have hsame := encodeFrameHeader_injective hheader
      apply crc32c_damaged hpayload
      rw [h.payloadCrc, h'.payloadCrc, hsame]
  · exact hne (receivable_starts h h' hstarts)
  · exact hne (receivable_starts h' h hstarts).symm

theorem sealed_receivable (h : frame.Sendable) :
    Receivable frame.sealed.header frame.sealed.payload :=
  (decode_ok.mp h.decode_sealed).1

/-- The fields that a frame carries for its reader. -/
def carried (frame : Frame) : FrameType × UInt16 × List UInt64 × Bytes :=
  (frame.type, frame.header.flags, [frame.header.epoch, frame.header.boot, frame.header.publisher,
    frame.header.connection, frame.header.sequence, frame.header.nonce], frame.payload)

/-- What is appended decodes to what was encoded, a refusal appends nothing, and no damaged encoding
is taken for a frame. -/
theorem codec_round_trip (frame : Frame) (out : Bytes) :
    (isValidFrameType frame.type = true → frame.payload.length ≤ limits.kMaxFramePayload →
      Frame.reservedFlag frame.header = false →
      ∃ bytes decoded, append frame out = (out ++ bytes, .ok ()) ∧ decode bytes = .ok decoded ∧
        carried decoded = carried frame ∧
        ∀ damaged, Damaged bytes damaged → ∃ status, decode damaged = .error status) ∧
      ∀ status, (append frame out).2 = .error status → (append frame out).1 = out := by
  constructor
  · intro htype hpayload hflags
    have hsend : frame.Sendable := ⟨htype, hpayload, hflags⟩
    have hencode : encode frame = .ok frame.sealed.bytes := Frame.encode_ok.mpr ⟨hsend, rfl⟩
    refine ⟨frame.sealed.bytes, frame.sealed, ?_, hsend.decode_sealed, ?_, ?_⟩
    · unfold append
      rw [hencode]
      rfl
    · unfold carried
      rw [Frame.sealed_type]
      rfl
    · intro damaged hdamaged
      cases hdecode : decode damaged with
      | error status => exact ⟨status, rfl⟩
      | ok found =>
        obtain ⟨hfound, rfl⟩ := decode_ok.mp hdecode
        exact absurd hdamaged (receivable_damaged (sealed_receivable hsend) hfound)
  · intro status hstatus
    unfold append at hstatus ⊢
    cases hencode : encode frame with
    | error _ => rfl
    | ok bytes =>
      rw [hencode] at hstatus
      cases hstatus

/-- A batch of three bytes on a connection that is under way. -/
def batched : Frame where
  header := {
    type := FrameType.evidence.toRaw, flags := 2
    epoch := 3, boot := 9, publisher := 7, connection := 4, sequence := 12, nonce := 99 }
  payload := [1, 2, 3]

theorem codec_round_trip_batched :
    ∃ bytes decoded, append batched [7] = (7 :: bytes, .ok ()) ∧ decode bytes = .ok decoded ∧
      carried decoded = carried batched ∧
      ∀ damaged, Damaged bytes damaged → ∃ status, decode damaged = .error status :=
  (codec_round_trip batched [7]).1 (by decide) (by decide) (by decide)

/-- The reserved words at the end of a header. -/
def reservedWords (bytes : Bytes) : Bytes := (bytes.drop 72).take 8

open ByteWriter in
theorem reservedWords_encoded (header : FrameHeader) (payload : Bytes) :
    reservedWords (encodeFrameHeader header ++ payload) =
      u32 header.reserved2 ++ u32 header.reserved3 := by
  have hfields : ∃ fields : Bytes, fields.length = 72 ∧
      encodeFrameHeader header = fields ++ (u32 header.reserved2 ++ u32 header.reserved3) := by
    refine ⟨frameHeaderFront header ++ (u32 header.headerCrc ++ (u32 header.payloadCrc ++
      (u64 header.epoch ++ (u64 header.boot ++ (u64 header.publisher ++ (u64 header.connection ++
      (u64 header.sequence ++ u64 header.nonce))))))), ?_, ?_⟩
    · simp [frameHeaderFront, u32, u16, u64]
    · simp only [frameHeaderFront, encodeFrameHeader, List.append_assoc]
  obtain ⟨fields, hlen, heq⟩ := hfields
  have hwords : (u32 header.reserved2 ++ u32 header.reserved3).length = 8 := by simp [u32]
  unfold reservedWords
  rw [heq, List.append_assoc, List.drop_left' hlen, List.take_left' hwords]

theorem reservedWords_zero {header : FrameHeader} {payload : Bytes} :
    reservedWords (encodeFrameHeader header ++ payload) = List.replicate 8 0 ↔
      header.reserved2 = 0 ∧ header.reserved3 = 0 := by
  rw [reservedWords_encoded]
  constructor
  · intro h
    have hsplit : ByteWriter.u32 header.reserved2 ++ ByteWriter.u32 header.reserved3 =
        ByteWriter.u32 0 ++ ByteWriter.u32 0 := h
    obtain ⟨hfirst, hsecond⟩ := List.append_inj hsplit (by simp [ByteWriter.u32])
    exact ⟨u32_injective hfirst, u32_injective hsecond⟩
  · rintro ⟨hfirst, hsecond⟩
    rw [hfirst, hsecond]
    rfl

/-- Sealing a frame that was taken changes its reserved words and what is computed over them. -/
theorem sealed_received (h : Receivable frame.header frame.payload) :
    frame.sealed = frame ↔ frame.header.reserved2 = 0 ∧ frame.header.reserved3 = 0 := by
  constructor
  · intro heq
    have hheader := congrArg Frame.header heq
    exact ⟨(congrArg FrameHeader.reserved2 hheader).symm,
      (congrArg FrameHeader.reserved3 hheader).symm⟩
  · rintro ⟨hsecond, hthird⟩
    obtain ⟨header, payload⟩ := frame
    have htype : (FrameType.ofRaw header.type).toRaw = header.type := Frame.toRaw_ofRaw _
    have hlength : UInt32.ofNat payload.length = header.payloadLen := by
      rw [← h.length]
      exact UInt32.ofNat_toNat
    have hfields : ({ header with
        magic := kFrameMagic
        format := kFormatVersion
        type := (FrameType.ofRaw header.type).toRaw
        payloadLen := UInt32.ofNat payload.length
        payloadCrc := crc32c payload
        reserved2 := 0
        reserved3 := 0 } : FrameHeader) = header := by
      rw [htype, hlength, h.payloadCrc, ← h.magic, ← h.format, ← hsecond]
      nth_rewrite 2 [hsecond]
      rw [← hthird]
    have hcheck := h.check
    unfold Frame.sealed
    dsimp only [Frame.type]
    rw [hfields, hcheck]
    exact congrArg (fun header => (⟨header, payload⟩ : Frame)) hfields

/-- A frame that was taken is encoded as it came exactly when the reserved words at the end of its
header are zero. -/
theorem decoded_reencodes_iff (h : decode bytes = .ok frame) :
    encode frame = .ok bytes ↔ reservedWords bytes = List.replicate 8 0 := by
  obtain ⟨hreceived, rfl⟩ := decode_ok.mp h
  have hsend : frame.Sendable := ⟨hreceived.type, hreceived.bounded, hreceived.flags⟩
  have hwords : reservedWords frame.bytes = List.replicate 8 0 ↔
      frame.header.reserved2 = 0 ∧ frame.header.reserved3 = 0 := reservedWords_zero
  rw [hwords, ← sealed_received hreceived, Frame.encode_ok, and_iff_right hsend]
  constructor
  · intro heq
    obtain ⟨hheader, _⟩ := List.append_inj heq (by simp)
    have hsame := encodeFrameHeader_injective hheader
    have hpayload : frame.sealed.payload = frame.payload := rfl
    cases hsealed : frame.sealed with
    | mk header payload =>
      rw [hsealed] at hsame hpayload
      dsimp only at hsame hpayload
      rw [← hsame, hpayload]
  · intro heq
    rw [heq]

theorem decoded_reencodes_iff_batched : decode batched.sealed.bytes = .ok batched.sealed ∧
    encode batched.sealed = .ok batched.sealed.bytes := by
  have htaken : decode batched.sealed.bytes = .ok batched.sealed :=
    Frame.Sendable.decode_sealed ⟨by decide, by decide, by decide⟩
  have hclear : reservedWords batched.sealed.bytes = List.replicate 8 0 :=
    reservedWords_zero.mpr ⟨rfl, rfl⟩
  exact ⟨htaken, (decoded_reencodes_iff htaken).mpr hclear⟩

def heartbeat : Frame := { header := { type := FrameType.heartbeat.toRaw } }

/-- A heartbeat whose sender has written into the first reserved word. -/
def marked : Frame :=
  let header := { heartbeat.sealed.header with reserved2 := 1 }
  { header := { header with headerCrc := header.computedHeaderCrc } }

/-- It is taken, and encoding it gives other bytes. -/
theorem marked_reencodes_differently :
    decode marked.bytes = .ok marked ∧ encode marked ≠ .ok marked.bytes := by
  have hreceived : Receivable marked.header marked.payload :=
    ⟨Frame.computedHeaderCrc_headerCrc _ _, rfl, rfl, by decide, by decide, by decide, rfl, rfl⟩
  refine ⟨decode_ok.mpr ⟨hreceived, rfl⟩, ?_⟩
  intro hencode
  obtain ⟨_, heq⟩ := Frame.encode_ok.mp hencode
  obtain ⟨hheader, _⟩ := List.append_inj heq (by simp)
  have hword := congrArg FrameHeader.reserved2 (encodeFrameHeader_injective hheader)
  have hwritten : marked.header.reserved2 = 1 := rfl
  have hcleared : marked.sealed.header.reserved2 = 0 := rfl
  rw [hwritten, hcleared] at hword
  exact absurd hword (by decide)

end FrameCodec

end CongestionFabric
