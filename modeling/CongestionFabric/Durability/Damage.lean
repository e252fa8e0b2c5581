import CongestionFabric.Durability.CrcDamage
import CongestionFabric.Durability.JournalFraming

namespace CongestionFabric

theorem exists_encodeHeader {bytes : Bytes} (h : bytes.length = kRecordHeaderSize) :
    ∃ header, bytes = encodeHeader header := by
  obtain ⟨magic, rest1, rfl, h1⟩ := exists_u32 (n := 60) h
  obtain ⟨format, rest2, rfl, h2⟩ := exists_u16 (n := 58) h1
  obtain ⟨type, rest3, rfl, h3⟩ := exists_u16 (n := 56) h2
  obtain ⟨headerCrc, rest4, rfl, h4⟩ := exists_u32 (n := 52) h3
  obtain ⟨payloadLen, rest5, rfl, h5⟩ := exists_u32 (n := 48) h4
  obtain ⟨payloadCrc, rest6, rfl, h6⟩ := exists_u32 (n := 44) h5
  obtain ⟨reserved, rest7, rfl, h7⟩ := exists_u32 (n := 40) h6
  obtain ⟨sequence, rest8, rfl, h8⟩ := exists_u64 (n := 32) h7
  obtain ⟨epoch, rest9, rfl, h9⟩ := exists_u64 (n := 24) h8
  obtain ⟨generation, rest10, rfl, h10⟩ := exists_u64 (n := 16) h9
  obtain ⟨transaction, rest11, rfl, h11⟩ := exists_u64 (n := 8) h10
  obtain ⟨reserved2, rest12, rfl, h12⟩ := exists_u32 (n := 4) h11
  obtain ⟨reserved3, rest13, rfl, h13⟩ := exists_u32 (n := 0) h12
  obtain rfl := List.length_eq_zero_iff.mp h13
  refine ⟨⟨magic, format, type, headerCrc, payloadLen, payloadCrc, reserved, sequence, epoch,
    generation, transaction, reserved2, reserved3⟩, ?_⟩
  rw [List.append_nil]
  rfl

open ByteWriter in
/-- The fields of a header after its own check. -/
def encodeHeaderBack (header : RecordHeader) : Bytes :=
  u32 header.payloadLen ++ (u32 header.payloadCrc ++ (u32 header.reserved ++
    (u64 header.sequence ++ (u64 header.epoch ++ (u64 header.generation ++
    (u64 header.transaction ++ (u32 header.reserved2 ++ u32 header.reserved3)))))))

/-- A header around its own check. -/
theorem encodeHeader_around (header : RecordHeader) : ∃ before after,
    before.length = 8 ∧ ∀ crc, encodeHeader { header with headerCrc := crc } =
      before ++ (ByteWriter.u32 crc ++ after) := by
  refine ⟨ByteWriter.u32 header.magic ++ (ByteWriter.u16 header.format ++
    ByteWriter.u16 header.type), encodeHeaderBack header, ?_, fun crc => ?_⟩
  · simp [ByteWriter.u32, ByteWriter.u16]
  · rw [List.append_assoc, List.append_assoc]
    rfl

/-- A header with one byte changed comes back with its magic cleared. -/
theorem decodeHeader_damaged {header : RecordHeader} {bytes : Bytes}
    (hcheck : header.computedHeaderCrc = header.headerCrc)
    (h : DiffersOnce (encodeHeader header) bytes) : (decodeHeader bytes).magic = 0 := by
  have hlen := h.length_eq
  rw [encodeHeader_length] at hlen
  obtain ⟨header', rfl⟩ := exists_encodeHeader hlen.symm
  obtain ⟨before, after, hbefore, haround⟩ := encodeHeader_around header
  obtain ⟨before', after', hbefore', haround'⟩ := encodeHeader_around header'
  have hfails : header'.computedHeaderCrc ≠ header'.headerCrc := by
    unfold RecordHeader.computedHeaderCrc at hcheck ⊢
    rw [haround] at hcheck
    rw [haround']
    have hwhole := haround header.headerCrc
    have hwhole' := haround' header'.headerCrc
    exact crc32c_field_damaged hcheck (hbefore.trans hbefore'.symm)
      (by rwa [← hwhole, ← hwhole'])
  rw [decodeHeader, readHeader_encodeHeader]
  dsimp only
  rw [if_pos hfails]

namespace Journal

variable {maxRecordBytes : Nat}

/-- A record with one byte changed, in its header or in its payload, is found bad. -/
theorem readRecord_damaged {record : JournalRecord} {part : Bytes} (rest : Bytes)
    (hsealed : Sealed maxRecordBytes record) (h : DiffersOnce record.encode part) :
    ∃ why, readRecord maxRecordBytes (part ++ rest) = .bad why := by
  obtain ⟨header, payload, rfl, hlen, hcases⟩ := h.split_right
  rw [encodeHeader_length] at hlen
  have hlong : ¬(header ++ payload ++ rest).length < kRecordHeaderSize := by
    simp only [List.length_append]
    omega
  have htake : (header ++ payload ++ rest).take kRecordHeaderSize = header := by
    rw [List.append_assoc]
    exact List.take_left' hlen.symm
  have hdrop : (header ++ payload ++ rest).drop kRecordHeaderSize = payload ++ rest := by
    rw [List.append_assoc]
    exact List.drop_left' hlen.symm
  unfold readRecord
  rw [if_neg hlong, htake]
  rcases hcases with ⟨hheader, _⟩ | ⟨rfl, hpayload⟩
  · have hmagic := decodeHeader_damaged hsealed.headerCrc hheader
    dsimp only
    rw [hmagic, if_pos (by decide)]
    exact ⟨_, rfl⟩
  · have hlength := hsealed.length
    rw [hpayload.length_eq] at hlength
    have hwhole : ¬(encodeHeader record.header ++ payload ++ rest).length <
        kRecordHeaderSize + payload.length := by
      simp only [List.length_append, encodeHeader_length]
      omega
    have hcrc : crc32c payload ≠ record.header.payloadCrc := by
      rw [← hsealed.payloadCrc]
      exact (crc32c_damaged hpayload).symm
    have hbounded := hsealed.bounded
    rw [hpayload.length_eq] at hbounded
    rw [decodeHeader_encodeHeader hsealed.headerCrc, hdrop]
    dsimp only
    rw [hlength, if_neg (not_not.mpr hsealed.magic), if_neg (not_not.mpr hsealed.format),
      if_neg (not_lt.mpr hbounded), if_neg hwhole, List.take_left' rfl, if_pos hcrc]
    exact ⟨_, rfl⟩

/-- A record is read only where it stands sealed, byte for byte. -/
theorem readRecord_found {data rest : Bytes} {record : JournalRecord}
    (h : readRecord maxRecordBytes data = .record record rest) :
    Sealed maxRecordBytes record ∧ data = record.encode ++ rest := by
  unfold readRecord at h
  split at h
  next => cases h
  next hlong =>
    obtain ⟨header, hheader⟩ := @exists_encodeHeader (data.take kRecordHeaderSize) (by simp; omega)
    have hdata := List.take_append_drop kRecordHeaderSize data
    rw [hheader] at h hdata
    have hdecode : decodeHeader (encodeHeader header) =
        if header.computedHeaderCrc ≠ header.headerCrc then { header with magic := 0 }
        else header := by
      rw [decodeHeader, readHeader_encodeHeader]
    have hcheck : header.computedHeaderCrc = header.headerCrc := by
      by_contra hfails
      rw [hdecode, if_pos hfails] at h
      simp [kRecordMagic] at h
    rw [hdecode, if_neg (not_not.mpr hcheck)] at h
    dsimp only at h
    split_ifs at h with hmagic hformat hbounded hwhole hcrc
    obtain ⟨rfl, rfl⟩ := Head.record.inj h
    have hlength : ((data.drop kRecordHeaderSize).take header.payloadLen.toNat).length =
        header.payloadLen.toNat := by
      rw [List.length_take, List.length_drop]
      omega
    have hfits : ((data.drop kRecordHeaderSize).take header.payloadLen.toNat).length ≤
        maxRecordBytes := by omega
    refine ⟨⟨not_not.mp hmagic, not_not.mp hformat, hlength.symm, not_not.mp hcrc, hcheck,
      hfits⟩, ?_⟩
    rw [JournalRecord.encode, List.append_assoc, ← List.drop_drop, List.take_append_drop]
    exact hdata.symm

theorem exactFraming : Exact (readRecord maxRecordBytes) JournalRecord.encode
    (Sealed maxRecordBytes) where
  toFraming := framing
  found := fun _ _ _ h => readRecord_found h

theorem guarded : Guarded (readRecord maxRecordBytes) JournalRecord.encode
    (Sealed maxRecordBytes) where
  toFraming := framing
  damaged := fun _ _ rest hsealed h => readRecord_damaged rest hsealed h

end Journal

end CongestionFabric
