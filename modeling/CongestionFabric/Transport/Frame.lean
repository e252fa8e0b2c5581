import CongestionFabric.Durability.RoundTrip

namespace CongestionFabric

def limits.kMaxFramePayload : Nat := 1048576

inductive FrameType where
  | invalid | hello | helloAck | evidence | evidenceAck | heartbeat | heartbeatAck | resync
  | fenceNotice | policyNotice | errorNotice | goodbye | count
  | undeclared (raw : UInt16) (h : 12 < raw.toNat)
  deriving DecidableEq

namespace FrameType

def toRaw : FrameType → UInt16
  | undeclared raw _ => raw
  | e => UInt16.ofNat e.ctorIdx

def ofRaw (raw : UInt16) : FrameType :=
  if h : raw.toNat < 13 then
    [invalid, hello, helloAck, evidence, evidenceAck, heartbeat, heartbeatAck, resync,
      fenceNotice, policyNotice, errorNotice, goodbye, count][raw.toNat]
  else undeclared raw (Nat.le_of_not_lt h)

end FrameType

/-- Range-checked, so that a value from the wire is never taken for a frame of the protocol. -/
def isValidFrameType (type : FrameType) : Bool :=
  decide (FrameType.invalid.toRaw < type.toRaw) && decide (type.toRaw < FrameType.count.toRaw)

def kFrameFlagCompressed : UInt16 := 4
def kFrameFlagExtended : UInt16 := 8

def kFrameMagic : UInt32 := 0x4E434644
def kFrameHeaderSize : Nat := 80

structure FrameHeader where
  magic : UInt32 := kFrameMagic
  format : UInt16 := 0
  type : UInt16 := 0
  flags : UInt16 := 0
  reserved : UInt16 := 0
  payloadLen : UInt32 := 0
  headerCrc : UInt32 := 0
  payloadCrc : UInt32 := 0
  epoch : UInt64 := 0
  boot : UInt64 := 0
  publisher : UInt64 := 0
  connection : UInt64 := 0
  sequence : UInt64 := 0
  nonce : UInt64 := 0
  reserved2 : UInt32 := 0
  reserved3 : UInt32 := 0
  deriving DecidableEq

open ByteWriter in
def encodeFrameHeader (header : FrameHeader) : Bytes :=
  u32 header.magic ++ (u16 header.format ++ (u16 header.type ++ (u16 header.flags ++
    (u16 header.reserved ++ (u32 header.payloadLen ++ (u32 header.headerCrc ++
    (u32 header.payloadCrc ++ (u64 header.epoch ++ (u64 header.boot ++ (u64 header.publisher ++
    (u64 header.connection ++ (u64 header.sequence ++ (u64 header.nonce ++
    (u32 header.reserved2 ++ u32 header.reserved3))))))))))))))

def FrameHeader.computedHeaderCrc (header : FrameHeader) : UInt32 :=
  crc32c (encodeFrameHeader { header with headerCrc := 0 })

open ByteReader in
def readFrameHeader : ByteReader FrameHeader := do
  return {
    magic := ← u32, format := ← u16, type := ← u16, flags := ← u16, reserved := ← u16
    payloadLen := ← u32, headerCrc := ← u32, payloadCrc := ← u32, epoch := ← u64, boot := ← u64
    publisher := ← u64, connection := ← u64, sequence := ← u64, nonce := ← u64
    reserved2 := ← u32, reserved3 := ← u32 }

/-- A header whose check does not match comes back with its magic cleared. -/
def decodeFrameHeader (bytes : Bytes) : FrameHeader :=
  match ByteReader.decode readFrameHeader bytes with
  | .error _ => { magic := 0 }
  | .ok header =>
    if header.computedHeaderCrc ≠ header.headerCrc then { header with magic := 0 } else header

structure Frame where
  header : FrameHeader := {}
  payload : Bytes := []
  deriving DecidableEq

namespace Frame

def type (frame : Frame) : FrameType := FrameType.ofRaw frame.header.type

/-- A reserved bit is never set on a frame that is sent or taken. -/
def reservedFlag (header : FrameHeader) : Bool :=
  header.flags &&& kFrameFlagCompressed != 0 || header.flags &&& kFrameFlagExtended != 0

/-- The frame as it is on the wire: with its length and its checks. -/
def sealed (frame : Frame) : Frame :=
  let header := { frame.header with
    magic := kFrameMagic
    format := kFormatVersion
    type := frame.type.toRaw
    payloadLen := UInt32.ofNat frame.payload.length
    payloadCrc := crc32c frame.payload
    reserved2 := 0
    reserved3 := 0 }
  { frame with header := { header with headerCrc := header.computedHeaderCrc } }

def bytes (frame : Frame) : Bytes := encodeFrameHeader frame.header ++ frame.payload

end Frame

namespace FrameCodec

def encode (frame : Frame) : Result Bytes := do
  refuseIf (isValidFrameType frame.type = false) .invalidArgument
    "frame type is not part of the protocol"
  refuseIf (frame.payload.length > limits.kMaxFramePayload) .oversized
    "frame payload exceeds the permitted size"
  refuseIf (Frame.reservedFlag frame.header = true) .unsupported "frame sets a reserved flag bit"
  return frame.sealed.bytes

/-- Exactly one frame; bytes after it are refused. -/
def decode (bytes : Bytes) : Result Frame := do
  refuseIf (bytes.length < kFrameHeaderSize) .truncated "frame is shorter than its header"
  let header := decodeFrameHeader (bytes.take kFrameHeaderSize)
  refuseIf (header.magic ≠ kFrameMagic) .integrityFailure
    "frame header failed its integrity check"
  refuseIf (header.format ≠ kFormatVersion) .unsupported
    "frame format version is not supported"
  refuseIf (isValidFrameType (FrameType.ofRaw header.type) = false) .malformed
    "frame type is not part of the protocol"
  refuseIf (Frame.reservedFlag header = true) .unsupported "frame sets a reserved flag bit"
  refuseIf (header.payloadLen.toNat > limits.kMaxFramePayload) .oversized
    "frame declares a payload beyond the permitted size"
  refuseIf (bytes.length ≠ kFrameHeaderSize + header.payloadLen.toNat) .malformed
    "frame length does not match its declared payload length"
  let payload := bytes.drop kFrameHeaderSize
  refuseIf (crc32c payload ≠ header.payloadCrc) .integrityFailure
    "frame payload failed its integrity check"
  return { header, payload }

end FrameCodec

@[simp] theorem encodeFrameHeader_length (header : FrameHeader) :
    (encodeFrameHeader header).length = kFrameHeaderSize := by
  simp [encodeFrameHeader, ByteWriter.u32, ByteWriter.u16, ByteWriter.u64, kFrameHeaderSize]

theorem recovers_frameHeader (header : FrameHeader) :
    Recovers True readFrameHeader (encodeFrameHeader header) header := by
  unfold encodeFrameHeader
  refine .bind (.u32 _) ?_
  refine .bind (.u16 _) ?_
  refine .bind (.u16 _) ?_
  refine .bind (.u16 _) ?_
  refine .bind (.u16 _) ?_
  refine .bind (.u32 _) ?_
  refine .bind (.u32 _) ?_
  refine .bind (.u32 _) ?_
  refine .bind (.u64 _) ?_
  refine .bind (.u64 _) ?_
  refine .bind (.u64 _) ?_
  refine .bind (.u64 _) ?_
  refine .bind (.u64 _) ?_
  refine .bind (.u64 _) ?_
  refine .bind (.u32 _) ?_
  exact .last (.u32 _)

theorem decodeFrameHeader_encoded {header : FrameHeader}
    (h : header.computedHeaderCrc = header.headerCrc) :
    decodeFrameHeader (encodeFrameHeader header) = header := by
  have hlen : (encodeFrameHeader header).length < 2 ^ 64 := by
    rw [encodeFrameHeader_length]
    decide
  have hread : ByteReader.decode readFrameHeader (encodeFrameHeader header) = .ok header :=
    ((recovers_frameHeader header).decode_plain hlen).mpr rfl
  rw [decodeFrameHeader, hread]
  simp [h]

namespace Frame

/-- A frame that the codec encodes. -/
structure Sendable (frame : Frame) : Prop where
  type : isValidFrameType frame.type = true
  payload : frame.payload.length ≤ limits.kMaxFramePayload
  flags : reservedFlag frame.header = false

theorem encode_ok {frame : Frame} {out : Bytes} :
    FrameCodec.encode frame = .ok out ↔ frame.Sendable ∧ out = frame.sealed.bytes := by
  simp only [FrameCodec.encode, bind_ok, refuseIf_ok, exists_const]
  constructor
  · rintro ⟨htype, hpayload, hflags, hout⟩
    exact ⟨⟨by simpa using htype, by omega, by simpa using hflags⟩, (Except.ok.inj hout).symm⟩
  · rintro ⟨⟨htype, hpayload, hflags⟩, rfl⟩
    exact ⟨by simp [htype], by omega, by simp [hflags], rfl⟩

variable {frame : Frame}

@[simp] theorem sealed_payload : frame.sealed.payload = frame.payload := rfl

theorem computedHeaderCrc_headerCrc (header : FrameHeader) (crc : UInt32) :
    ({ header with headerCrc := crc } : FrameHeader).computedHeaderCrc =
      header.computedHeaderCrc := rfl

theorem sealed_computedHeaderCrc :
    frame.sealed.header.computedHeaderCrc = frame.sealed.header.headerCrc :=
  computedHeaderCrc_headerCrc _ _

theorem toRaw_ofRaw (raw : UInt16) : (FrameType.ofRaw raw).toRaw = raw := by
  unfold FrameType.ofRaw
  split
  next h =>
    obtain ⟨n, rfl⟩ : ∃ n : Fin 13, raw = UInt16.ofNat n.val :=
      ⟨⟨raw.toNat, h⟩, by simp⟩
    revert n
    decide
  next => rfl

theorem sealed_type : frame.sealed.type = frame.type := by
  have hraw : frame.sealed.header.type = frame.header.type := toRaw_ofRaw frame.header.type
  unfold type
  rw [hraw]

theorem Sendable.sealed_payloadLen (h : frame.Sendable) :
    frame.sealed.header.payloadLen.toNat = frame.payload.length := by
  have hbound := h.payload
  have hsmall : limits.kMaxFramePayload < 2 ^ 32 := by decide
  have hlen : frame.sealed.header.payloadLen = UInt32.ofNat frame.payload.length := rfl
  rw [hlen, UInt32.toNat_ofNat']
  exact Nat.mod_eq_of_lt (by omega)

variable (frame) in
theorem sealed_bytes_length :
    frame.sealed.bytes.length = kFrameHeaderSize + frame.payload.length := by
  rw [bytes, List.length_append, encodeFrameHeader_length, sealed_payload]

variable (frame) in
/-- The header of a frame is read back from the front of its bytes. -/
theorem decodeFrameHeader_sealed (rest : Bytes) :
    decodeFrameHeader ((frame.sealed.bytes ++ rest).take kFrameHeaderSize) =
      frame.sealed.header := by
  have hlen := encodeFrameHeader_length frame.sealed.header
  have htake : (frame.sealed.bytes ++ rest).take kFrameHeaderSize =
      encodeFrameHeader frame.sealed.header := by
    rw [bytes, List.append_assoc, List.take_append_of_le_length (by omega),
      List.take_of_length_le (by omega)]
  rw [htake]
  exact decodeFrameHeader_encoded sealed_computedHeaderCrc

theorem Sendable.decode_sealed (h : frame.Sendable) :
    FrameCodec.decode frame.sealed.bytes = .ok frame.sealed := by
  have hheader := decodeFrameHeader_sealed frame []
  have hlen := h.sealed_payloadLen
  have hbytes := sealed_bytes_length frame
  have hpayload : frame.sealed.bytes.drop kFrameHeaderSize = frame.payload := by
    rw [bytes, List.drop_append_of_le_length (by simp), List.drop_of_length_le (by simp)]
    rfl
  rw [List.append_nil] at hheader
  simp only [FrameCodec.decode, bind_ok, refuseIf_ok, exists_const, hheader, hpayload]
  refine ⟨by omega, not_not.mpr rfl, not_not.mpr rfl, ?_, ?_, ?_, ?_, not_not.mpr rfl, rfl⟩
  · intro hinvalid
    have htype : isValidFrameType frame.sealed.type = true := sealed_type.symm ▸ h.type
    exact Bool.noConfusion (hinvalid.symm.trans htype)
  · have hflags : reservedFlag frame.sealed.header = false := h.flags
    rw [hflags]
    decide
  · have hbound := h.payload
    omega
  · omega

end Frame

end CongestionFabric
