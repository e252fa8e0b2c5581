import CongestionFabric.Durability.Journal

namespace CongestionFabric

namespace ByteReader

theorem field_append (width : Nat) {n : Nat} (h : n < 256 ^ width) (rest : Bytes) :
    field width (littleEndian width n ++ rest) = .ok (n, rest) := by
  unfold field
  rw [takeField_append h]

/-- A reader that succeeds hands its value and the rest to the next one. -/
theorem bind_append {α β : Type} {reader : ByteReader α} {next : α → ByteReader β} {data rest : Bytes}
    {a : α} (h : reader data = .ok (a, rest)) : (reader >>= next) data = next a rest := by
  simp [bind, StateT.bind, h, Except.bind]

theorem pure_read {α : Type} (a : α) (data : Bytes) : (pure a : ByteReader α) data = .ok (a, data) :=
  rfl

@[simp] theorem u8_append (v : UInt8) (rest : Bytes) :
    u8 (ByteWriter.u8 v ++ rest) = .ok (v, rest) := by
  have hv : littleEndian 1 v.toNat = ByteWriter.u8 v := by
    simp [littleEndian, ByteWriter.u8]
  have h := field_append 1 v.toNat_lt rest
  rw [hv] at h
  refine (bind_append h).trans ?_
  rw [pure_read, UInt8.ofNat_toNat]

@[simp] theorem u16_append (v : UInt16) (rest : Bytes) :
    u16 (ByteWriter.u16 v ++ rest) = .ok (v, rest) := by
  refine (bind_append (field_append 2 v.toNat_lt rest)).trans ?_
  rw [pure_read, UInt16.ofNat_toNat]

@[simp] theorem u32_append (v : UInt32) (rest : Bytes) :
    u32 (ByteWriter.u32 v ++ rest) = .ok (v, rest) := by
  refine (bind_append (field_append 4 v.toNat_lt rest)).trans ?_
  rw [pure_read, UInt32.ofNat_toNat]

@[simp] theorem u64_append (v : UInt64) (rest : Bytes) :
    u64 (ByteWriter.u64 v ++ rest) = .ok (v, rest) := by
  refine (bind_append (field_append 8 v.toNat_lt rest)).trans ?_
  rw [pure_read, UInt64.ofNat_toNat]

end ByteReader

@[simp] theorem encodeHeader_length (header : RecordHeader) :
    (encodeHeader header).length = kRecordHeaderSize := by
  simp [encodeHeader, ByteWriter.u32, ByteWriter.u16, ByteWriter.u64, kRecordHeaderSize]

theorem readHeader_encodeHeader (header : RecordHeader) :
    ByteReader.decode readHeader (encodeHeader header) = .ok header := by
  have h : readHeader (encodeHeader header) = .ok (header, []) := by
    have hlast : ByteWriter.u32 header.reserved3 = ByteWriter.u32 header.reserved3 ++ [] :=
      (List.append_nil _).symm
    unfold readHeader encodeHeader
    refine (ByteReader.bind_append (ByteReader.u32_append _ _)).trans ?_
    refine (ByteReader.bind_append (ByteReader.u16_append _ _)).trans ?_
    refine (ByteReader.bind_append (ByteReader.u16_append _ _)).trans ?_
    refine (ByteReader.bind_append (ByteReader.u32_append _ _)).trans ?_
    refine (ByteReader.bind_append (ByteReader.u32_append _ _)).trans ?_
    refine (ByteReader.bind_append (ByteReader.u32_append _ _)).trans ?_
    refine (ByteReader.bind_append (ByteReader.u32_append _ _)).trans ?_
    refine (ByteReader.bind_append (ByteReader.u64_append _ _)).trans ?_
    refine (ByteReader.bind_append (ByteReader.u64_append _ _)).trans ?_
    refine (ByteReader.bind_append (ByteReader.u64_append _ _)).trans ?_
    refine (ByteReader.bind_append (ByteReader.u64_append _ _)).trans ?_
    refine (ByteReader.bind_append (ByteReader.u32_append _ _)).trans ?_
    rw [hlast]
    exact ByteReader.bind_append (ByteReader.u32_append _ _)
  rw [ByteReader.decode, h]
  rfl

theorem decodeHeader_encodeHeader {header : RecordHeader}
    (h : header.computedHeaderCrc = header.headerCrc) :
    decodeHeader (encodeHeader header) = header := by
  rw [decodeHeader, readHeader_encodeHeader]
  simp [h]

/-- The record carries its own length and checks, as `append` seals it. -/
structure Sealed (maxRecordBytes : Nat) (record : JournalRecord) : Prop where
  magic : record.header.magic = kRecordMagic
  format : record.header.format = kFormatVersion
  length : record.header.payloadLen.toNat = record.payload.length
  payloadCrc : crc32c record.payload = record.header.payloadCrc
  headerCrc : record.header.computedHeaderCrc = record.header.headerCrc
  bounded : record.payload.length ≤ maxRecordBytes

theorem computedHeaderCrc_headerCrc (header : RecordHeader) (crc : UInt32) :
    ({ header with headerCrc := crc } : RecordHeader).computedHeaderCrc =
      header.computedHeaderCrc := rfl

theorem recordOf_sealed {type : RecordType} {epoch : EpochId} {generation sequence : UInt64}
    {transaction : TransactionId} {payload : Bytes} {maxRecordBytes : Nat}
    (hmax : maxRecordBytes < 2 ^ 32) (h : payload.length ≤ maxRecordBytes) :
    Sealed maxRecordBytes
      (Journal.recordOf type epoch generation sequence transaction payload) where
  magic := rfl
  format := rfl
  length := by
    simp only [Journal.recordOf, UInt32.toNat_ofNat']
    exact Nat.mod_eq_of_lt (lt_of_le_of_lt h hmax)
  payloadCrc := rfl
  headerCrc := computedHeaderCrc_headerCrc _ _
  bounded := h

namespace Journal

variable {maxRecordBytes : Nat}

theorem readRecord_shrinks (data : Bytes) (record : JournalRecord) (rest : Bytes)
    (h : readRecord maxRecordBytes data = .record record rest) : rest.length < data.length := by
  unfold readRecord at h
  split at h
  next => cases h
  next hlen =>
    dsimp only at h
    split_ifs at h
    cases h
    have h64 : kRecordHeaderSize = 64 := rfl
    rw [List.length_drop]
    omega

theorem readRecord_whole {record : JournalRecord} (rest : Bytes)
    (h : Sealed maxRecordBytes record) :
    readRecord maxRecordBytes (record.encode ++ rest) = .record record rest := by
  have hlen : (record.encode ++ rest).length =
      kRecordHeaderSize + record.payload.length + rest.length := by
    simp [JournalRecord.encode, Nat.add_assoc]
  have htake : (record.encode ++ rest).take kRecordHeaderSize = encodeHeader record.header := by
    rw [JournalRecord.encode, List.append_assoc]
    exact List.take_left' (encodeHeader_length _)
  have hdrop : (record.encode ++ rest).drop kRecordHeaderSize = record.payload ++ rest := by
    rw [JournalRecord.encode, List.append_assoc]
    exact List.drop_left' (encodeHeader_length _)
  have htotal : (record.encode ++ rest).drop (kRecordHeaderSize + record.payload.length) = rest := by
    refine List.drop_left' ?_
    simp [JournalRecord.encode]
  unfold readRecord
  rw [htake, decodeHeader_encodeHeader h.headerCrc, hdrop, hlen]
  dsimp only
  rw [h.length, htotal, if_neg (by omega), if_neg (by simp [h.magic]), if_neg (by simp [h.format]),
    if_neg (by simp [h.bounded]), if_neg (by omega), List.take_left' rfl,
    if_neg (by simp [h.payloadCrc])]

/-- A proper part of a sealed record is too short, in its header or in its payload. -/
theorem readRecord_torn {record : JournalRecord} {part : Bytes} (h : Sealed maxRecordBytes record)
    (hp : part <+: record.encode) (hne : part ≠ record.encode) :
    ∃ why, readRecord maxRecordBytes part = .short why := by
  have hlt : part.length < record.encode.length := by
    rcases Nat.lt_or_ge part.length record.encode.length with hlt | hge
    · exact hlt
    · exact absurd (hp.eq_of_length_le hge) hne
  have hrec : record.encode.length = kRecordHeaderSize + record.payload.length := by
    simp [JournalRecord.encode]
  unfold readRecord
  split
  next => exact ⟨_, rfl⟩
  next hlong =>
    have htake : part.take kRecordHeaderSize = encodeHeader record.header := by
      obtain ⟨suffix, hs⟩ := hp
      have : (part ++ suffix).take kRecordHeaderSize = part.take kRecordHeaderSize :=
        List.take_append_of_le_length (not_lt.mp hlong)
      rw [← this, hs, JournalRecord.encode]
      exact List.take_left' (encodeHeader_length _)
    rw [htake, decodeHeader_encodeHeader h.headerCrc]
    dsimp only
    rw [h.length, if_neg (by simp [h.magic]), if_neg (by simp [h.format]), if_neg (by simp [h.bounded]),
      if_pos (by omega)]
    exact ⟨_, rfl⟩

/-- The journal is a framed log of sealed records. -/
theorem framing : Framing (readRecord maxRecordBytes) JournalRecord.encode
    (Sealed maxRecordBytes) where
  shrinks := readRecord_shrinks
  nonempty := fun record h => by
    have hlen : record.encode.length = 0 := by rw [h]; rfl
    simp [JournalRecord.encode, kRecordHeaderSize] at hlen
  whole := fun _ rest h => readRecord_whole rest h
  torn := fun _ _ h hp hne _ => readRecord_torn h hp hne

end Journal

end CongestionFabric
