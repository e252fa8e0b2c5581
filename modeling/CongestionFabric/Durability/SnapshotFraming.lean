import CongestionFabric.Durability.RoundTrip
import CongestionFabric.Durability.Snapshot

namespace CongestionFabric

theorem recovers_snapshotHeader (header : SnapshotHeader) :
    Recovers True readSnapshotHeader (encodeSnapshotHeader header) header := by
  unfold encodeSnapshotHeader
  simp only [List.append_assoc]
  refine .bind (.u32 _) ?_
  refine .bind (.u16 _) ?_
  refine .bind (.u16 _) ?_
  refine .bind (.u32 _) ?_
  refine .bind (.u32 _) ?_
  refine .bind (.u64 _) ?_
  refine .bind (.u64 _) ?_
  refine .bind (.u64 _) ?_
  refine .bind (.u64 _) ?_
  refine .bind (.u64 _) ?_
  refine .bind (.u64 _) ?_
  refine .bind (.u32 _) ?_
  exact .last (.u32 _)

theorem recovers_snapshotFooter (footer : SnapshotFooter) :
    Recovers True readSnapshotFooter (encodeSnapshotFooter footer) footer := by
  unfold encodeSnapshotFooter
  simp only [List.append_assoc]
  refine .bind (.u32 _) ?_
  refine .bind (.u32 _) ?_
  refine .bind (.u64 _) ?_
  refine .bind (.u64 _) ?_
  refine .bind (.u32 _) ?_
  exact .last (.u32 _)

@[simp] theorem encodeSnapshotHeader_length (header : SnapshotHeader) :
    (encodeSnapshotHeader header).length = kSnapshotHeaderSize := by
  simp [encodeSnapshotHeader, ByteWriter.u32, ByteWriter.u16, ByteWriter.u64, kSnapshotHeaderSize]

@[simp] theorem encodeSnapshotFooter_length (footer : SnapshotFooter) :
    (encodeSnapshotFooter footer).length = kSnapshotFooterSize := by
  simp [encodeSnapshotFooter, ByteWriter.u32, ByteWriter.u64, kSnapshotFooterSize]

theorem snapshot_headerCrc (header : SnapshotHeader) (crc : UInt32) :
    ({ header with headerCrc := crc } : SnapshotHeader).computedHeaderCrc =
      header.computedHeaderCrc := rfl

theorem snapshot_footerCrc (footer : SnapshotFooter) (crc : UInt32) :
    ({ footer with footerCrc := crc } : SnapshotFooter).computedFooterCrc =
      footer.computedFooterCrc := rfl

theorem decodeSnapshotHeader_encoded {header : SnapshotHeader}
    (h : header.computedHeaderCrc = header.headerCrc) :
    decodeSnapshotHeader (encodeSnapshotHeader header) = header := by
  have hread : ByteReader.decode readSnapshotHeader (encodeSnapshotHeader header) = .ok header :=
    ((recovers_snapshotHeader header).decode_plain (by simp [kSnapshotHeaderSize])).mpr rfl
  unfold decodeSnapshotHeader
  rw [hread]
  exact if_neg (not_not.mpr h)

theorem decodeSnapshotFooter_encoded {footer : SnapshotFooter}
    (h : footer.computedFooterCrc = footer.footerCrc) :
    decodeSnapshotFooter (encodeSnapshotFooter footer) = footer := by
  have hread : ByteReader.decode readSnapshotFooter (encodeSnapshotFooter footer) = .ok footer :=
    ((recovers_snapshotFooter footer).decode_plain (by simp [kSnapshotFooterSize])).mpr rfl
  unfold decodeSnapshotFooter
  rw [hread]
  exact if_neg (not_not.mpr h)

/-! ### The body -/

variable {maxRecordBytes : Nat} {records : List JournalRecord}

/-- The accounting of a body after more records. -/
def SnapshotBody.after (acc : SnapshotBody) (records : List JournalRecord) : SnapshotBody where
  records := acc.records ++ records
  payloadBytes :=
    records.foldl (fun bytes record => bytes + record.header.payloadLen.toUInt64) acc.payloadBytes
  rollingCrc := records.foldl (fun crc record => crc32cContinue crc record.payload) acc.rollingCrc

theorem SnapshotBody.after_cons (acc : SnapshotBody) (record : JournalRecord)
    (rest : List JournalRecord) : acc.after (record :: rest) = (acc.after [record]).after rest := by
  unfold SnapshotBody.after
  rw [List.append_assoc]
  rfl

/-- A sealed record at the front of a body is read, and the rest after it. -/
theorem readSnapshotBody_record {record : JournalRecord} (h : Sealed maxRecordBytes record)
    (count : Nat) (bytes : Bytes) (acc : SnapshotBody) :
    readSnapshotBody (count + 1) (record.encode ++ bytes) acc =
      readSnapshotBody count bytes (acc.after [record]) := by
  have hlen : (record.encode ++ bytes).length =
      kRecordHeaderSize + record.payload.length + bytes.length := by
    simp [JournalRecord.encode, Nat.add_assoc]
  have htake : (record.encode ++ bytes).take kRecordHeaderSize = encodeHeader record.header := by
    rw [JournalRecord.encode, List.append_assoc]
    exact List.take_left' (encodeHeader_length _)
  have hdrop : (record.encode ++ bytes).drop kRecordHeaderSize = record.payload ++ bytes := by
    rw [JournalRecord.encode, List.append_assoc]
    exact List.drop_left' (encodeHeader_length _)
  have htotal : (record.encode ++ bytes).drop (kRecordHeaderSize + record.payload.length) =
      bytes := by
    refine List.drop_left' ?_
    simp [JournalRecord.encode]
  have hpass : ∀ {p : Prop} [Decidable p] {code : ErrCode} {message : String}, ¬p →
      refuseIf p code message = .ok () := fun hp => refuseIf_ok.mpr hp
  rw [readSnapshotBody, htake, decodeHeader_encodeHeader h.headerCrc, hdrop, hlen]
  dsimp only
  rw [h.length, htotal, List.take_left' rfl, hpass (by omega), hpass (not_not.mpr h.magic),
    hpass (not_not.mpr h.format), hpass (by omega), hpass (not_not.mpr h.payloadCrc)]
  rfl

theorem readSnapshotBody_sealed (h : ∀ record ∈ records, Sealed maxRecordBytes record)
    (acc : SnapshotBody) : readSnapshotBody records.length (records.flatMap JournalRecord.encode) acc =
      .ok (acc.after records) := by
  induction records generalizing acc with
  | nil =>
    have hsame : acc.after [] = acc := by
      unfold SnapshotBody.after
      rw [List.append_nil]
      rfl
    rw [hsame]
    rfl
  | cons record rest ih =>
    have hsealed := h record List.mem_cons_self
    have hrest := ih fun r hr => h r (List.mem_cons_of_mem _ hr)
    rw [List.flatMap_cons, List.length_cons, readSnapshotBody_record hsealed, hrest,
      ← SnapshotBody.after_cons]

theorem sealSnapshotRecord_sealed (record : JournalRecord) (hmax : maxRecordBytes < 2 ^ 32)
    (h : record.payload.length ≤ maxRecordBytes) :
    Sealed maxRecordBytes (sealSnapshotRecord record) where
  magic := rfl
  format := rfl
  length := by
    simp only [sealSnapshotRecord, UInt32.toNat_ofNat']
    exact Nat.mod_eq_of_lt (lt_of_le_of_lt h hmax)
  payloadCrc := rfl
  headerCrc := computedHeaderCrc_headerCrc _ _
  bounded := h

theorem payloadBytes_sealed (h : ∀ record ∈ records, Sealed maxRecordBytes record) (n : Nat) :
    records.foldl (fun bytes record => bytes + record.header.payloadLen.toUInt64) (UInt64.ofNat n) =
      UInt64.ofNat (n + (records.map (·.payload.length)).sum) := by
  induction records generalizing n with
  | nil => rfl
  | cons record rest ih =>
    have hlength := (h record List.mem_cons_self).length
    have hrecord : record.header.payloadLen.toUInt64 = UInt64.ofNat record.payload.length := by
      rw [← hlength]
      apply UInt64.toNat_inj.mp
      have hlt := record.header.payloadLen.toNat_lt
      rw [UInt32.toNat_toUInt64, UInt64.toNat_ofNat', Nat.mod_eq_of_lt (by omega)]
    rw [List.foldl_cons, hrecord, ← UInt64.ofNat_add, ih fun r hr => h r (List.mem_cons_of_mem _ hr),
      List.map_cons, List.sum_cons, Nat.add_assoc]

/-- The encoding of records takes a header each at least. -/
theorem length_le_encoded (records : List JournalRecord) :
    kRecordHeaderSize * records.length ≤ (records.flatMap JournalRecord.encode).length := by
  induction records with
  | nil => exact Nat.zero_le _
  | cons record rest ih =>
    have hencoded : record.encode.length = kRecordHeaderSize + record.payload.length := by
      simp [JournalRecord.encode]
    rw [List.flatMap_cons, List.length_append, List.length_cons, hencoded, Nat.mul_succ]
    omega

/-! ### The container -/

/-- The parts of a container agree with each other and with its records. -/
structure Agrees (header : SnapshotHeader) (records : List JournalRecord)
    (footer : SnapshotFooter) : Prop where
  headerMagic : header.magic = kSnapshotMagic
  format : header.format = kFormatVersion
  headerCrc : header.computedHeaderCrc = header.headerCrc
  footerMagic : footer.magic = kSnapshotFooterMagic
  footerCrc : footer.computedFooterCrc = footer.footerCrc
  repeated : footer.recordCount = header.recordCount ∧ footer.payloadBytes = header.payloadBytes ∧
    footer.payloadCrc = header.payloadCrc
  count : header.recordCount.toNat = records.length
  payloadBytes : (SnapshotBody.after {} records).payloadBytes = header.payloadBytes
  payloadCrc : (SnapshotBody.after {} records).rollingCrc = header.payloadCrc
  whole : ∀ record ∈ records, Sealed limits.kMaxJournalRecordBytes record

/-- The bytes of a container. -/
def containerOf (header : SnapshotHeader) (records : List JournalRecord) (footer : SnapshotFooter) :
    Bytes :=
  encodeSnapshotHeader header ++ records.flatMap JournalRecord.encode ++ encodeSnapshotFooter footer

/-- A container is read when it is within the bounds on its bytes and its records. -/
theorem Agrees.read {header : SnapshotHeader} {footer : SnapshotFooter}
    (h : Agrees header records footer) {options : SnapshotOptions}
    (hfits : (containerOf header records footer).length ≤ options.maxBytes) :
    readSnapshot (containerOf header records footer) options =
      if records.length ≤ options.maxRecords then .ok ⟨header, records⟩
      else fail .oversized "snapshot declares more records than permitted" := by
  have hlen : (containerOf header records footer).length = kSnapshotHeaderSize +
      (records.flatMap JournalRecord.encode).length + kSnapshotFooterSize := by
    rw [containerOf, List.length_append, List.length_append, encodeSnapshotHeader_length,
      encodeSnapshotFooter_length]
  have hfront : (containerOf header records footer).take kSnapshotHeaderSize =
      encodeSnapshotHeader header := by
    rw [containerOf, List.append_assoc]
    exact List.take_left' (encodeSnapshotHeader_length _)
  have hback : (containerOf header records footer).drop
      ((containerOf header records footer).length - kSnapshotFooterSize) =
        encodeSnapshotFooter footer := by
    refine List.drop_left' ?_
    rw [hlen]
    simp
  have hmiddle : ((containerOf header records footer).take
      ((containerOf header records footer).length - kSnapshotFooterSize)).drop kSnapshotHeaderSize =
        records.flatMap JournalRecord.encode := by
    have htake : (containerOf header records footer).take
        ((containerOf header records footer).length - kSnapshotFooterSize) =
          encodeSnapshotHeader header ++ records.flatMap JournalRecord.encode := by
      refine List.take_left' ?_
      rw [hlen]
      simp
    rw [htake]
    exact List.drop_left' (encodeSnapshotHeader_length _)
  unfold readSnapshot
  rw [hfront, hback, hmiddle, decodeSnapshotHeader_encoded h.headerCrc,
    decodeSnapshotFooter_encoded h.footerCrc]
  dsimp only
  rw [h.count, readSnapshotBody_sealed h.whole]
  have hrefuse : ∀ {p : Prop} [Decidable p] {code : ErrCode} {message : String}, ¬p →
      refuseIf p code message = .ok () := fun hp => refuseIf_ok.mpr hp
  rw [hrefuse (by omega), hrefuse (by rw [hlen]; omega), hrefuse (not_not.mpr h.headerMagic),
    hrefuse (not_not.mpr h.format), hrefuse (not_not.mpr h.footerMagic),
    hrefuse (by simp [h.repeated])]
  split_ifs with hcount
  · rw [hrefuse (not_lt.mpr hcount)]
    simp only [bind, Except.bind]
    rw [hrefuse (by simp [h.payloadBytes, h.payloadCrc])]
    rfl
  · have hover : refuseIf (records.length > options.maxRecords) .oversized
        "snapshot declares more records than permitted" =
          fail .oversized "snapshot declares more records than permitted" :=
      if_pos (not_le.mp hcount)
    rw [hover]
    rfl

/-- What is written is a container of the sealed records, which keeps the header's marks. -/
theorem writeSnapshot_ok {header : SnapshotHeader} {options : SnapshotOptions} {container : Bytes}
    (hbytes : options.maxBytes < 2 ^ 64) (h : writeSnapshot header records options = .ok container) :
    ∃ (header' : SnapshotHeader) (footer : SnapshotFooter),
      container = containerOf header' (records.map sealSnapshotRecord) footer ∧
      container.length ≤ options.maxBytes ∧
      Agrees header' (records.map sealSnapshotRecord) footer ∧
      header'.epoch = header.epoch ∧ header'.coordinatorBoot = header.coordinatorBoot ∧
      header'.coordinatorBootCounter = header.coordinatorBootCounter ∧
      header'.lastSequence = header.lastSequence ∧
      ∀ record ∈ records, record.payload.length ≤ limits.kMaxJournalRecordBytes := by
  unfold writeSnapshot at h
  simp only [bind_ok, refuseIf_ok] at h
  generalize hrecordCount : UInt64.ofNat records.length = recordCount at h
  generalize hpayloadBytes : UInt64.ofNat (records.map (·.payload.length)).sum = payloadBytes at h
  generalize hpayloadCrc : records.foldl (fun crc record => crc32cContinue crc record.payload) 0 =
    payloadCrc at h
  obtain ⟨_, _, _, hbounded, _, hfits, h⟩ := h
  obtain rfl := Except.ok.inj h
  have hbounded : ∀ record ∈ records, record.payload.length ≤ limits.kMaxJournalRecordBytes :=
    fun record hr => not_lt.mp fun hlt => hbounded ⟨record, hr, hlt⟩
  have hbody : (records.flatMap fun record => (sealSnapshotRecord record).encode) =
      (records.map sealSnapshotRecord).flatMap JournalRecord.encode := by
    rw [List.flatMap_map]
  rw [hbody] at hfits ⊢
  have hsealed : ∀ record ∈ records.map sealSnapshotRecord,
      Sealed limits.kMaxJournalRecordBytes record := by
    intro record hr
    obtain ⟨found, hfound, rfl⟩ := List.mem_map.mp hr
    exact sealSnapshotRecord_sealed found (by decide) (hbounded found hfound)
  have hlen := length_le_encoded (records.map sealSnapshotRecord)
  rw [List.length_map] at hlen
  have hcount : records.length < 2 ^ 64 := by
    have h64 : kRecordHeaderSize = 64 := rfl
    rw [h64] at hlen
    simp only [List.length_append] at hfits
    omega
  refine ⟨_, _, rfl, not_lt.mp hfits, ?_, rfl, rfl, rfl, rfl, hbounded⟩
  have hheader := snapshot_headerCrc { header with
    magic := kSnapshotMagic, format := kFormatVersion, recordCount, payloadBytes, payloadCrc }
  have hfooter := snapshot_footerCrc { recordCount, payloadBytes, payloadCrc }
  refine ⟨rfl, rfl, hheader _, rfl, hfooter _, ⟨rfl, rfl, rfl⟩, ?_, ?_, ?_, hsealed⟩
  · rw [List.length_map, ← hrecordCount]
    exact (UInt64.toNat_ofNat' ..).trans (Nat.mod_eq_of_lt hcount)
  · have hsum := payloadBytes_sealed hsealed 0
    rw [Nat.zero_add, List.map_map] at hsum
    exact hsum.trans hpayloadBytes
  · exact (List.foldl_map ..).trans hpayloadCrc

end CongestionFabric
