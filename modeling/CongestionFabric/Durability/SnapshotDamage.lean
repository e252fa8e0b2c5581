import CongestionFabric.Durability.Damage
import CongestionFabric.Durability.SnapshotFraming

namespace CongestionFabric

theorem exists_encodeSnapshotHeader {bytes : Bytes} (h : bytes.length = kSnapshotHeaderSize) :
    ∃ header, bytes = encodeSnapshotHeader header := by
  obtain ⟨magic, rest1, rfl, h1⟩ := exists_u32 (n := 68) h
  obtain ⟨format, rest2, rfl, h2⟩ := exists_u16 (n := 66) h1
  obtain ⟨reserved, rest3, rfl, h3⟩ := exists_u16 (n := 64) h2
  obtain ⟨headerCrc, rest4, rfl, h4⟩ := exists_u32 (n := 60) h3
  obtain ⟨reserved2, rest5, rfl, h5⟩ := exists_u32 (n := 56) h4
  obtain ⟨epoch, rest6, rfl, h6⟩ := exists_u64 (n := 48) h5
  obtain ⟨boot, rest7, rfl, h7⟩ := exists_u64 (n := 40) h6
  obtain ⟨counter, rest8, rfl, h8⟩ := exists_u64 (n := 32) h7
  obtain ⟨lastSequence, rest9, rfl, h9⟩ := exists_u64 (n := 24) h8
  obtain ⟨recordCount, rest10, rfl, h10⟩ := exists_u64 (n := 16) h9
  obtain ⟨payloadBytes, rest11, rfl, h11⟩ := exists_u64 (n := 8) h10
  obtain ⟨payloadCrc, rest12, rfl, h12⟩ := exists_u32 (n := 4) h11
  obtain ⟨reserved3, rest13, rfl, h13⟩ := exists_u32 (n := 0) h12
  obtain rfl := List.length_eq_zero_iff.mp h13
  refine ⟨⟨magic, format, reserved, headerCrc, reserved2, epoch, boot, counter, lastSequence,
    recordCount, payloadBytes, payloadCrc, reserved3⟩, ?_⟩
  simp only [encodeSnapshotHeader, List.append_assoc, List.append_nil]

theorem exists_encodeSnapshotFooter {bytes : Bytes} (h : bytes.length = kSnapshotFooterSize) :
    ∃ footer, bytes = encodeSnapshotFooter footer := by
  obtain ⟨magic, rest1, rfl, h1⟩ := exists_u32 (n := 28) h
  obtain ⟨footerCrc, rest2, rfl, h2⟩ := exists_u32 (n := 24) h1
  obtain ⟨recordCount, rest3, rfl, h3⟩ := exists_u64 (n := 16) h2
  obtain ⟨payloadBytes, rest4, rfl, h4⟩ := exists_u64 (n := 8) h3
  obtain ⟨payloadCrc, rest5, rfl, h5⟩ := exists_u32 (n := 4) h4
  obtain ⟨reserved, rest6, rfl, h6⟩ := exists_u32 (n := 0) h5
  obtain rfl := List.length_eq_zero_iff.mp h6
  refine ⟨⟨magic, footerCrc, recordCount, payloadBytes, payloadCrc, reserved⟩, ?_⟩
  simp only [encodeSnapshotFooter, List.append_assoc, List.append_nil]

open ByteWriter in
/-- The fields of a snapshot header after its own check. -/
def encodeSnapshotHeaderBack (header : SnapshotHeader) : Bytes :=
  u32 header.reserved2 ++ (u64 header.epoch ++ (u64 header.coordinatorBoot ++
    (u64 header.coordinatorBootCounter ++ (u64 header.lastSequence ++ (u64 header.recordCount ++
    (u64 header.payloadBytes ++ (u32 header.payloadCrc ++ u32 header.reserved3)))))))

open ByteWriter in
/-- The fields of a snapshot footer after its own check. -/
def encodeSnapshotFooterBack (footer : SnapshotFooter) : Bytes :=
  u64 footer.recordCount ++ (u64 footer.payloadBytes ++ (u32 footer.payloadCrc ++
    u32 footer.reserved))

theorem encodeSnapshotHeader_around (header : SnapshotHeader) : ∃ before after,
    before.length = 8 ∧ ∀ crc, encodeSnapshotHeader { header with headerCrc := crc } =
      before ++ (ByteWriter.u32 crc ++ after) := by
  refine ⟨ByteWriter.u32 header.magic ++ (ByteWriter.u16 header.format ++
    ByteWriter.u16 header.reserved), encodeSnapshotHeaderBack header, ?_, fun crc => ?_⟩
  · simp [ByteWriter.u32, ByteWriter.u16]
  · simp only [encodeSnapshotHeader, encodeSnapshotHeaderBack, List.append_assoc]

theorem encodeSnapshotFooter_around (footer : SnapshotFooter) : ∃ before after,
    before.length = 4 ∧ ∀ crc, encodeSnapshotFooter { footer with footerCrc := crc } =
      before ++ (ByteWriter.u32 crc ++ after) := by
  refine ⟨ByteWriter.u32 footer.magic, encodeSnapshotFooterBack footer, ?_, fun crc => ?_⟩
  · simp [ByteWriter.u32]
  · simp only [encodeSnapshotFooter, encodeSnapshotFooterBack, List.append_assoc]

theorem decodeSnapshotHeader_damaged {header : SnapshotHeader} {bytes : Bytes}
    (hcheck : header.computedHeaderCrc = header.headerCrc)
    (h : DiffersOnce (encodeSnapshotHeader header) bytes) :
    (decodeSnapshotHeader bytes).magic = 0 := by
  have hlen := h.length_eq
  rw [encodeSnapshotHeader_length] at hlen
  obtain ⟨header', rfl⟩ := exists_encodeSnapshotHeader hlen.symm
  obtain ⟨before, after, hbefore, haround⟩ := encodeSnapshotHeader_around header
  obtain ⟨before', after', hbefore', haround'⟩ := encodeSnapshotHeader_around header'
  have hfails : header'.computedHeaderCrc ≠ header'.headerCrc := by
    unfold SnapshotHeader.computedHeaderCrc at hcheck ⊢
    rw [haround] at hcheck
    rw [haround']
    have hwhole := haround header.headerCrc
    have hwhole' := haround' header'.headerCrc
    exact crc32c_field_damaged hcheck (hbefore.trans hbefore'.symm)
      (by rwa [← hwhole, ← hwhole'])
  have hread : ByteReader.decode readSnapshotHeader (encodeSnapshotHeader header') = .ok header' :=
    ((recovers_snapshotHeader header').decode_plain (by simp [kSnapshotHeaderSize])).mpr rfl
  rw [decodeSnapshotHeader, hread]
  dsimp only
  rw [if_pos hfails]

theorem decodeSnapshotFooter_damaged {footer : SnapshotFooter} {bytes : Bytes}
    (hcheck : footer.computedFooterCrc = footer.footerCrc)
    (h : DiffersOnce (encodeSnapshotFooter footer) bytes) :
    (decodeSnapshotFooter bytes).magic = 0 := by
  have hlen := h.length_eq
  rw [encodeSnapshotFooter_length] at hlen
  obtain ⟨footer', rfl⟩ := exists_encodeSnapshotFooter hlen.symm
  obtain ⟨before, after, hbefore, haround⟩ := encodeSnapshotFooter_around footer
  obtain ⟨before', after', hbefore', haround'⟩ := encodeSnapshotFooter_around footer'
  have hfails : footer'.computedFooterCrc ≠ footer'.footerCrc := by
    unfold SnapshotFooter.computedFooterCrc at hcheck ⊢
    rw [haround] at hcheck
    rw [haround']
    have hwhole := haround footer.footerCrc
    have hwhole' := haround' footer'.footerCrc
    exact crc32c_field_damaged hcheck (hbefore.trans hbefore'.symm)
      (by rwa [← hwhole, ← hwhole'])
  have hread : ByteReader.decode readSnapshotFooter (encodeSnapshotFooter footer') = .ok footer' :=
    ((recovers_snapshotFooter footer').decode_plain (by simp [kSnapshotFooterSize])).mpr rfl
  rw [decodeSnapshotFooter, hread]
  dsimp only
  rw [if_pos hfails]

/-! ### The body -/

variable {maxRecordBytes : Nat} {records : List JournalRecord}

/-- A body that was cut short does not hold the declared number of records. -/
theorem readSnapshotBody_cut (h : ∀ record ∈ records, Sealed maxRecordBytes record) {part : Bytes}
    (hpart : part <+: records.flatMap JournalRecord.encode)
    (hshort : part.length < (records.flatMap JournalRecord.encode).length) (acc body : SnapshotBody) :
    readSnapshotBody records.length part acc ≠ .ok body := by
  induction records generalizing part acc with
  | nil => exact absurd hshort (Nat.not_lt_zero _)
  | cons record rest ih =>
    have hsealed := h record List.mem_cons_self
    rw [List.flatMap_cons] at hpart hshort
    rcases Nat.lt_or_ge part.length record.encode.length with hlt | hge
    · intro hread
      have hfirst : part <+: record.encode :=
        List.prefix_of_prefix_length_le hpart (List.prefix_append _ _) (Nat.le_of_lt hlt)
      have hrecord : record.encode.length = kRecordHeaderSize + record.payload.length := by
        simp [JournalRecord.encode]
      rw [List.length_cons, readSnapshotBody] at hread
      obtain ⟨_, hheader, hread⟩ := bind_ok.mp hread
      have hheader := refuseIf_ok.mp hheader
      have htake : part.take kRecordHeaderSize = encodeHeader record.header := by
        obtain ⟨suffix, hs⟩ := hfirst
        have hsame : (part ++ suffix).take kRecordHeaderSize = part.take kRecordHeaderSize :=
          List.take_append_of_le_length (not_lt.mp hheader)
        rw [← hsame, hs, JournalRecord.encode]
        exact List.take_left' (encodeHeader_length _)
      rw [htake, decodeHeader_encodeHeader hsealed.headerCrc] at hread
      simp only [bind_ok, refuseIf_ok, hsealed.length] at hread
      obtain ⟨_, _, _, _, _, hwhole, _⟩ := hread
      omega
    · have hfirst : record.encode <+: part :=
        List.prefix_of_prefix_length_le (List.prefix_append _ _) hpart hge
      obtain ⟨later, rfl⟩ := hfirst
      rw [List.length_append, List.length_append] at hshort
      rw [List.length_cons, readSnapshotBody_record hsealed]
      exact ih (fun r hr => h r (List.mem_cons_of_mem _ hr)) ((List.prefix_append_right_inj _).mp hpart)
        (by omega) _

/-- A body with one byte changed fails a check of the record it belongs to. -/
theorem readSnapshotBody_damaged (h : ∀ record ∈ records, Sealed maxRecordBytes record)
    {data : Bytes} (hdata : DiffersOnce (records.flatMap JournalRecord.encode) data)
    (acc body : SnapshotBody) : readSnapshotBody records.length data acc ≠ .ok body := by
  induction records generalizing data acc with
  | nil => cases hdata
  | cons record rest ih =>
    have hsealed := h record List.mem_cons_self
    rw [List.flatMap_cons] at hdata
    obtain ⟨front, back, rfl, _, hcases⟩ := hdata.split_right
    rcases hcases with ⟨hfront, _⟩ | ⟨rfl, hback⟩
    · obtain ⟨header, payload, rfl, hlen, hwhere⟩ := hfront.split_right
      rw [encodeHeader_length] at hlen
      have htake : (header ++ payload ++ back).take kRecordHeaderSize = header := by
        rw [List.append_assoc]
        exact List.take_left' hlen.symm
      have hdrop : (header ++ payload ++ back).drop kRecordHeaderSize = payload ++ back := by
        rw [List.append_assoc]
        exact List.drop_left' hlen.symm
      intro hread
      rw [List.length_cons, readSnapshotBody, htake, hdrop] at hread
      simp only [bind_ok, refuseIf_ok, not_not] at hread
      obtain ⟨_, _, _, hmagic, _, _, _, _, _, hcrc, _⟩ := hread
      rcases hwhere with ⟨hheader, _⟩ | ⟨rfl, hpayload⟩
      · rw [decodeHeader_damaged hsealed.headerCrc hheader] at hmagic
        exact absurd hmagic (by decide)
      · rw [decodeHeader_encodeHeader hsealed.headerCrc, hsealed.length, hpayload.length_eq,
          List.take_left' rfl, ← hsealed.payloadCrc] at hcrc
        exact crc32c_damaged hpayload hcrc.symm
    · rw [List.length_cons, readSnapshotBody_record hsealed]
      exact ih (fun r hr => h r (List.mem_cons_of_mem _ hr)) hback _

/-! ### The container -/

/-- What a container that is read was found to hold. -/
theorem readSnapshot_found {data : Bytes} {options : SnapshotOptions} {contents : SnapshotContents}
    (h : readSnapshot data options = .ok contents) :
    kSnapshotHeaderSize + kSnapshotFooterSize ≤ data.length ∧
    (decodeSnapshotHeader (data.take kSnapshotHeaderSize)).magic = kSnapshotMagic ∧
    (decodeSnapshotFooter (data.drop (data.length - kSnapshotFooterSize))).magic =
      kSnapshotFooterMagic ∧
    ∃ body, readSnapshotBody
      (decodeSnapshotHeader (data.take kSnapshotHeaderSize)).recordCount.toNat
      ((data.take (data.length - kSnapshotFooterSize)).drop kSnapshotHeaderSize) {} = .ok body := by
  unfold readSnapshot at h
  simp only [bind_ok, refuseIf_ok, not_not, not_lt] at h
  obtain ⟨_, _, _, hlen, _, hheader, _, _, _, hfooter, _, _, _, _, body, hbody, _⟩ := h
  exact ⟨hlen, hheader, hfooter, body, hbody⟩

variable {header : SnapshotHeader} {footer : SnapshotFooter}

/-- A part of a container is refused: the records it declares are not all there. -/
theorem Agrees.cut (h : Agrees header records footer) {part : Bytes}
    (hpart : part <+: containerOf header records footer)
    (hshort : part ≠ containerOf header records footer) (options : SnapshotOptions)
    (contents : SnapshotContents) : readSnapshot part options ≠ .ok contents := by
  intro hread
  obtain ⟨hlen, _, _, body, hbody⟩ := readSnapshot_found hread
  have hlt : part.length < (containerOf header records footer).length := by
    rcases Nat.lt_or_ge part.length (containerOf header records footer).length with hlt | hge
    · exact hlt
    · exact absurd (hpart.eq_of_length_le hge) hshort
  have hwhole : (containerOf header records footer).length = kSnapshotHeaderSize +
      (records.flatMap JournalRecord.encode).length + kSnapshotFooterSize := by
    rw [containerOf, List.length_append, List.length_append, encodeSnapshotHeader_length,
      encodeSnapshotFooter_length]
  have htake : ∀ n ≤ part.length, part.take n = (containerOf header records footer).take n := by
    intro n hn
    obtain ⟨suffix, hs⟩ := hpart
    rw [← hs, List.take_append_of_le_length hn]
  have hfront : part.take kSnapshotHeaderSize = encodeSnapshotHeader header := by
    rw [htake _ (by omega), containerOf, List.append_assoc]
    exact List.take_left' (encodeSnapshotHeader_length _)
  have hmiddle : (part.take (part.length - kSnapshotFooterSize)).drop kSnapshotHeaderSize =
      (records.flatMap JournalRecord.encode).take
        (part.length - kSnapshotFooterSize - kSnapshotHeaderSize) := by
    rw [htake _ (Nat.sub_le _ _), List.drop_take, containerOf, List.append_assoc,
      List.drop_left' (encodeSnapshotHeader_length _), List.take_append_of_le_length (by omega)]
  rw [hfront, decodeSnapshotHeader_encoded h.headerCrc, h.count, hmiddle] at hbody
  refine readSnapshotBody_cut h.whole (List.take_prefix _ _) ?_ _ _ hbody
  rw [List.length_take]
  omega

/-- A container with one byte changed is refused, in whichever part the byte lies. -/
theorem Agrees.damaged (h : Agrees header records footer) {data : Bytes}
    (hdata : DiffersOnce (containerOf header records footer) data) (options : SnapshotOptions)
    (contents : SnapshotContents) : readSnapshot data options ≠ .ok contents := by
  intro hread
  obtain ⟨_, hheader, hfooter, body, hbody⟩ := readSnapshot_found hread
  rw [containerOf, List.append_assoc] at hdata
  obtain ⟨front, rest, rfl, hfront, hcases⟩ := hdata.split_right
  rw [encodeSnapshotHeader_length] at hfront
  rw [List.take_left' hfront.symm] at hheader hbody
  rcases hcases with ⟨hdamaged, _⟩ | ⟨rfl, hrest⟩
  · rw [decodeSnapshotHeader_damaged h.headerCrc hdamaged] at hheader
    exact absurd hheader (by decide)
  · obtain ⟨middle, back, rfl, hmiddle, hwhere⟩ := hrest.split_right
    have hback : back.length = kSnapshotFooterSize := by
      have hlen := hrest.length_eq
      rw [List.length_append, List.length_append, encodeSnapshotFooter_length] at hlen
      omega
    have hlast : (encodeSnapshotHeader header ++ (middle ++ back)).length - kSnapshotFooterSize =
        (encodeSnapshotHeader header ++ middle).length := by
      simp only [List.length_append]
      omega
    rw [hlast, ← List.append_assoc, List.drop_left' rfl] at hfooter
    rw [hlast, ← List.append_assoc, List.take_left' rfl,
      List.drop_left' (encodeSnapshotHeader_length _), decodeSnapshotHeader_encoded h.headerCrc,
      h.count] at hbody
    rcases hwhere with ⟨hdamaged, _⟩ | ⟨_, hdamaged⟩
    · exact readSnapshotBody_damaged h.whole hdamaged _ _ hbody
    · rw [decodeSnapshotFooter_damaged h.footerCrc hdamaged] at hfooter
      exact absurd hfooter (by decide)

/-- The records fit into a snapshot under the bounds. -/
structure Snapshottable (records : List JournalRecord) (options : SnapshotOptions) : Prop where
  count : records.length ≤ options.maxRecords
  payload : ∀ record ∈ records, record.payload.length ≤ limits.kMaxJournalRecordBytes
  size : kSnapshotHeaderSize + (records.map fun record =>
    kRecordHeaderSize + record.payload.length).sum + kSnapshotFooterSize ≤ options.maxBytes

theorem encoded_length (records : List JournalRecord) :
    (records.flatMap fun record => (sealSnapshotRecord record).encode).length =
      (records.map fun record => kRecordHeaderSize + record.payload.length).sum := by
  rw [List.length_flatMap]
  congr 2
  funext record
  rw [JournalRecord.encode, List.length_append, encodeHeader_length]
  rfl

theorem Snapshottable.writes {options : SnapshotOptions} (h : Snapshottable records options)
    (header : SnapshotHeader) : ∃ container, writeSnapshot header records options = .ok container := by
  unfold writeSnapshot
  simp only [bind_ok, refuseIf_ok]
  refine ⟨_, (), not_lt.mpr h.count, (), ?_, (), ?_, rfl⟩
  · rintro ⟨record, hr, hlt⟩
    exact absurd (h.payload record hr) (not_le.mpr hlt)
  · have hsize := h.size
    rw [List.length_append, List.length_append, encodeSnapshotHeader_length,
      encodeSnapshotFooter_length, encoded_length]
    omega

/-- A snapshot is read back as it was written, and what is left of it or differs from it in one byte
is refused. The bound on the bytes is a 64-bit number. -/
theorem snapshot_integrity {options : SnapshotOptions} (hoptions : options.maxBytes < 2 ^ 64)
    (header : SnapshotHeader) (hfits : Snapshottable records options) :
    ∃ container, writeSnapshot header records options = .ok container ∧
      (∃ contents, readSnapshot container options = .ok contents ∧
        contents.header.epoch = header.epoch ∧
        contents.header.coordinatorBoot = header.coordinatorBoot ∧
        contents.header.coordinatorBootCounter = header.coordinatorBootCounter ∧
        contents.header.lastSequence = header.lastSequence ∧
        contents.records.map (fun r => (r.header.sequence, r.header.epoch, r.type, r.payload)) =
          records.map fun r => (r.header.sequence, r.header.epoch, r.type, r.payload)) ∧
      (∀ part, part <+: container → part ≠ container → ∀ options' contents,
        readSnapshot part options' ≠ .ok contents) ∧
      ∀ data, DiffersOnce container data → ∀ options' contents,
        readSnapshot data options' ≠ .ok contents := by
  obtain ⟨container, hwrite⟩ := hfits.writes header
  obtain ⟨header', footer, rfl, hlen, hagrees, hepoch, hboot, hcounter, hlast, _⟩ :=
    writeSnapshot_ok hoptions hwrite
  refine ⟨_, hwrite, ?_, fun part hpart hne => hagrees.cut hpart hne,
    fun data hdata => hagrees.damaged hdata⟩
  refine ⟨⟨header', records.map sealSnapshotRecord⟩, ?_, hepoch, hboot, hcounter, hlast, ?_⟩
  · rw [hagrees.read hlen, List.length_map, if_pos hfits.count]
  · rw [List.map_map]
    rfl

theorem snapshot_integrity_pair : ∃ container,
    writeSnapshot { epoch := 3, lastSequence := 9 }
      [⟨{ sequence := 8, epoch := 3 }, [1, 2]⟩, ⟨{ sequence := 9, epoch := 3 }, []⟩] {} =
        .ok container ∧
    (∃ contents, readSnapshot container {} = .ok contents ∧ contents.header.epoch = 3 ∧
      contents.header.coordinatorBoot = 0 ∧ contents.header.coordinatorBootCounter = 0 ∧
      contents.header.lastSequence = 9 ∧
      contents.records.map (fun r => (r.header.sequence, r.header.epoch, r.type, r.payload)) =
        [(8, 3, .unknown, [1, 2]), (9, 3, .unknown, [])]) ∧
    (∀ part, part <+: container → part ≠ container → ∀ options' contents,
      readSnapshot part options' ≠ .ok contents) ∧
    ∀ data, DiffersOnce container data → ∀ options' contents,
      readSnapshot data options' ≠ .ok contents :=
  snapshot_integrity (by decide) { epoch := 3, lastSequence := 9 }
    ⟨by decide, by decide, by decide⟩

end CongestionFabric
