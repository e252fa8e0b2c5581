import CongestionFabric.Durability.Compaction

namespace CongestionFabric

namespace DurableDocument

variable {d d' : DurableDocument} {kind : MutationKind} {payload : Bytes}

/-- Every decoded mutation keeps a document normal. -/
theorem Normal.apply (h : Normal d) (happly : d.apply kind payload = .ok d') : Normal d' := by
  obtain ⟨mutation, hdecode, hpure⟩ := bind_ok.mp happly
  obtain rfl := Except.ok.inj hpure
  cases mutation with
  | policySet policy =>
    refine ⟨fun found hfound => ?_, h.keyed, h.interventions, h.fences, h.provenance⟩
    obtain rfl : policy = found := Option.some.inj hfound
    cases kind with
    | policySet =>
      obtain ⟨_, hd, hp⟩ := bind_ok.mp hdecode
      cases hp
      obtain ⟨_, _, hv⟩ := bind_ok.mp hd
      exact validatePolicy_again hv
    | _ =>
      first
        | cases hdecode
        | (obtain ⟨_, _, hp⟩ := bind_ok.mp hdecode
           cases hp)
  | domainState state =>
    refine ⟨h.policy, fun domain s hs => ?_, h.interventions, h.fences, h.provenance⟩
    change (d.domains.insert state.domain state).find? domain = some s at hs
    rw [SortedMap.find?_insert] at hs
    split_ifs at hs with hk
    · rw [← Option.some.inj hs, hk]
    · exact h.keyed domain s hs
  | intervention record =>
    exact ⟨h.policy, h.keyed, pushUnless_nodup _ record h.interventions, h.fences, h.provenance⟩
  | fence record =>
    exact ⟨h.policy, h.keyed, h.interventions, pushUnless_nodup _ record h.fences, h.provenance⟩
  | provenanceAppend record =>
    exact ⟨h.policy, h.keyed, h.interventions, h.fences, pushUnless_nodup _ record h.provenance⟩
  | _ => exact ⟨h.policy, h.keyed, h.interventions, h.fences, h.provenance⟩

theorem Normal.empty : Normal {} := by
  refine ⟨fun _ h => ?_, fun domain s h => ?_, List.nodup_nil, List.nodup_nil, List.nodup_nil⟩
  · cases h
  · exact absurd (h.symm.trans (SortedMap.find?_empty domain)) (Option.some_ne_none s)

end DurableDocument

namespace Store

open DurableDocument

variable {store store' : Store} {stamp : MutationStamp} {c : StoreCall} {base : DurableDocument}
  {r : Recovery} {records : List JournalRecord} {journal : Journal} {offset : Nat}

theorem trim_nodup {α ι : Type} (id : α → ι) {records : List α} (h : (records.map id).Nodup)
    (limit : UInt64) : ((trim records limit).map id).Nodup := by
  unfold trim
  split_ifs
  · exact h
  · rw [List.map_drop]
    exact h.sublist (List.drop_sublist _ _)

theorem pruneDocument_normal (h : Normal store.document) :
    Normal (pruneDocument store).document :=
  ⟨h.policy, h.keyed, trim_nodup _ h.interventions _, trim_nodup _ h.fences _,
    trim_nodup _ h.provenance _⟩

/-- A call leaves the document, or applies a mutation and stamps it with the last sequence. -/
theorem call_document (store : Store) (stamp : MutationStamp) (c : StoreCall) :
    (store.call stamp c).1.document = store.document ∨
      (Normal store.document → Normal (store.call stamp c).1.document) ∧
        (store.call stamp c).1.document.lastSequence =
          (store.call stamp c).1.journal.nextSequence - 1 := by
  rcases store.call_cases stamp c with ⟨status, hr⟩ | ⟨payload, _, hc⟩
  · rw [hr]
    exact .inl rfl
  · rw [hc]
    unfold commit
    split
    next => exact .inl rfl
    next =>
      split
      next => exact .inl rfl
      next =>
        split
        next => exact .inl rfl
        next document happly =>
          refine .inr ⟨fun h => ?_, rfl⟩
          have hnormal := h.apply happly
          exact pruneDocument_normal
            ⟨hnormal.policy, hnormal.keyed, hnormal.interventions, hnormal.fences, hnormal.provenance⟩

theorem call_frame (store : Store) (stamp : MutationStamp) (c : StoreCall) :
    (store.call stamp c).1.options = store.options ∧
      (store.call stamp c).1.snapshot = store.snapshot := by
  rcases store.call_cases stamp c with ⟨status, hr⟩ | ⟨payload, _, hc⟩
  · rw [hr]
    exact ⟨rfl, rfl⟩
  · rw [hc]
    unfold commit
    split
    next => exact ⟨rfl, rfl⟩
    next =>
      split
      next => exact ⟨rfl, rfl⟩
      next => split <;> exact ⟨rfl, rfl⟩

/-- What every append keeps, a call keeps. -/
theorem call_journal {P : Journal → Prop} (happend : ∀ journal type epoch generation transaction
      payload, P journal → P (journal.append type epoch generation transaction payload).1)
    (h : P store.journal) (stamp : MutationStamp) (c : StoreCall) :
    P (store.call stamp c).1.journal := by
  have hgroup : ∀ kind payload stamp, P (appendGroup store.journal kind payload stamp).1 := by
    intro kind payload stamp
    unfold appendGroup
    dsimp only
    have h₁ := happend store.journal .intent stamp.epoch stamp.generation.value
      ⟨store.journal.nextSequence⟩ (intentBody kind stamp) h
    split
    next he =>
      rw [he] at h₁
      exact h₁
    next he =>
      rw [he] at h₁
      have h₂ := happend _ .payload stamp.epoch stamp.generation.value
        ⟨store.journal.nextSequence⟩ (frameBody kind payload) h₁
      split
      next he₂ =>
        rw [he₂] at h₂
        exact h₂
      next he₂ =>
        rw [he₂] at h₂
        exact happend _ _ _ _ _ _ h₂
  rcases store.call_cases stamp c with ⟨status, hr⟩ | ⟨payload, _, hc⟩
  · rw [hr]
    exact h
  · rw [hc]
    unfold commit
    split
    next => exact h
    next =>
      have hg := hgroup c.kind payload (c.stamped stamp)
      split
      next he =>
        rw [he] at hg
        exact hg
      next he =>
        rw [he] at hg
        split <;> exact hg

/-! ### Replay goes forward -/

theorem replayRecord_normal (h : Normal r.document) (record : JournalRecord) :
    Normal (replayRecord r record).document := by
  unfold replayRecord
  dsimp only
  split_ifs
  · exact h
  · cases record.type with
    | intent =>
      dsimp only [noteIntent]
      split <;> exact h
    | commit =>
      dsimp only [noteCommit]
      split
      next => exact h
      next =>
        split
        next => exact h
        next =>
          split
          next => exact h
          next happly =>
            have hnormal := h.apply happly
            exact ⟨hnormal.policy, hnormal.keyed, hnormal.interventions, hnormal.fences,
              hnormal.provenance⟩
    | abort | rebase => exact ⟨h.policy, h.keyed, h.interventions, h.fences, h.provenance⟩
    | _ => exact h

theorem replayFrom_normal (h : Normal base) (records : List JournalRecord) :
    Normal (replayFrom base records).document := by
  induction records using List.reverseRecOn with
  | nil => exact h
  | append_singleton records record ih =>
    rw [replayFrom, List.foldl_append]
    exact replayRecord_normal ih record

/-- Replay stands at the last sequence it was at, or at that of the record. -/
theorem replayRecord_lastSequence (r : Recovery) (record : JournalRecord) :
    (replayRecord r record).document.lastSequence = r.document.lastSequence ∨
      (replayRecord r record).document.lastSequence = record.header.sequence := by
  unfold replayRecord
  dsimp only
  split_ifs
  · exact .inl rfl
  · cases record.type with
    | intent =>
      dsimp only [noteIntent]
      split <;> exact .inl rfl
    | commit =>
      dsimp only [noteCommit]
      split
      next => exact .inl rfl
      next =>
        split
        next => exact .inl rfl
        next =>
          split
          next => exact .inl rfl
          next => exact .inr rfl
    | abort | rebase => exact .inr rfl
    | _ => exact .inl rfl

/-- No record of a journal is one that replay has gone past. -/
def Forward (base : DurableDocument) (records : List JournalRecord) : Prop :=
  ∀ read record rest, records = read ++ record :: rest →
    (replayFrom base read).document.lastSequence < record.header.sequence

theorem Forward.snoc {record : JournalRecord} (h : Forward base records)
    (hlast : (replayFrom base records).document.lastSequence < record.header.sequence) :
    Forward base (records ++ [record]) := by
  intro read found rest hsplit
  rcases List.eq_nil_or_concat rest with rfl | ⟨rest', last, rfl⟩
  · obtain ⟨rfl, rfl⟩ := List.append_singleton_inj.mp hsplit
    exact hlast
  · rw [List.concat_eq_append, ← List.cons_append, ← List.append_assoc] at hsplit
    obtain ⟨hinit, _⟩ := List.append_singleton_inj.mp hsplit
    exact h read found rest' hinit

theorem Forward.init {record : JournalRecord} (h : Forward base (records ++ [record])) :
    Forward base records ∧
      (replayFrom base records).document.lastSequence < record.header.sequence := by
  refine ⟨fun read found rest hsplit => ?_, h records record [] rfl⟩
  refine h read found (rest ++ [record]) ?_
  rw [hsplit, List.append_assoc]
  rfl

/-- What a record adds to the report when it is not skipped. -/
theorem replayRecord_skips (record : JournalRecord) :
    (replayRecord r record).report.integrityFailure = r.report.integrityFailure ∧
      (r.document.lastSequence < record.header.sequence →
        (replayRecord r record).report.recordsSkipped = r.report.recordsSkipped) := by
  unfold replayRecord
  dsimp only
  split_ifs with hskip
  · exact ⟨rfl, fun hlt => absurd hskip (UInt64.not_le.mpr hlt)⟩
  · cases record.type with
    | intent =>
      dsimp only [noteIntent]
      split <;> exact ⟨rfl, fun _ => rfl⟩
    | commit =>
      dsimp only [noteCommit]
      split
      next => exact ⟨rfl, fun _ => rfl⟩
      next =>
        split
        next => exact ⟨rfl, fun _ => rfl⟩
        next => split <;> exact ⟨rfl, fun _ => rfl⟩
    | _ => exact ⟨rfl, fun _ => rfl⟩

theorem foldl_replayRecord_skips (records : List JournalRecord) (base : DurableDocument)
    (report : StoreReplay) :
    (records.foldl replayRecord { document := base, report }).report.integrityFailure =
        report.integrityFailure ∧
      (Forward base records →
        (records.foldl replayRecord { document := base, report }).report.recordsSkipped =
          report.recordsSkipped) := by
  induction records using List.reverseRecOn with
  | nil => exact ⟨rfl, fun _ => rfl⟩
  | append_singleton records record ih =>
    have hdocument := (foldl_replayRecord_report records { document := base } report).1
    rw [List.foldl_append]
    obtain ⟨hintegrity, hskips⟩ :=
      replayRecord_skips (r := records.foldl replayRecord { document := base, report }) record
    refine ⟨hintegrity.trans ih.1, fun hforward => ?_⟩
    obtain ⟨hinit, hlast⟩ := hforward.init
    refine (hskips ?_).trans (ih.2 hinit)
    rw [hdocument]
    exact hlast

/-! ### A journal that goes on -/

/-- A journal whose records replay forward over a document, and whose counter is ahead of them; it
has counted no further than its records. -/
structure Feeds (base : DurableDocument) (offset : Nat) (journal : Journal)
    (records : List JournalRecord) : Prop where
  holds : Holds journal records
  forward : Forward base records
  ahead : (replayFrom base records).document.lastSequence < journal.nextSequence
  counted : journal.nextSequence.toNat ≤ offset + records.length

/-- The counter can advance once more. -/
theorem Feeds.next (h : Feeds base offset journal records)
    (hoffset : offset + limits.kMaxJournalBytes + 1 < 2 ^ 64) :
    (journal.nextSequence + 1).toNat = journal.nextSequence.toNat + 1 := by
  have hcounted := h.counted
  have hlength := h.holds.length_le
  have hone : (1 : UInt64).toNat = 1 := rfl
  rw [UInt64.toNat_add, hone, Nat.mod_eq_of_lt (by omega)]

/-- A record that fits goes on where the journal stands. -/
theorem Feeds.keeping (h : Feeds base offset journal records)
    (hoffset : offset + limits.kMaxJournalBytes + 1 < 2 ^ 64) (type : RecordType) (epoch : EpochId)
    (generation : UInt64) (transaction : TransactionId) {payload : Bytes}
    (hlen : payload.length ≤ journal.options.maxRecordBytes)
    (hsize : journal.size + kRecordHeaderSize + payload.length ≤ journal.options.maxJournalBytes) :
    Feeds base offset
      (journal.keeping
        (Journal.recordOf type epoch generation journal.nextSequence transaction payload))
      (records ++
        [Journal.recordOf type epoch generation journal.nextSequence transaction payload]) := by
  have hnext := h.next hoffset
  have hahead := UInt64.lt_iff_toNat_lt.mp h.ahead
  have hcounted := h.counted
  have hholds := h.holds.keeping type epoch generation journal.nextSequence transaction hlen hsize
  generalize hrecord : Journal.recordOf type epoch generation journal.nextSequence transaction
    payload = record at hholds ⊢
  have hsequence : record.header.sequence = journal.nextSequence := by
    rw [← hrecord]
    rfl
  refine ⟨hholds, h.forward.snoc (hsequence ▸ h.ahead), ?_, ?_⟩
  · change _ < journal.nextSequence + 1
    rw [replayFrom, List.foldl_append, UInt64.lt_iff_toNat_lt, hnext]
    have hlast := replayRecord_lastSequence (replayFrom base records) record
    rw [hsequence] at hlast
    rcases hlast with hsame | hrecord
    · have hsame' := congrArg UInt64.toNat hsame
      change (replayRecord (replayFrom base records) record).document.lastSequence.toNat < _
      omega
    · have hrecord' := congrArg UInt64.toNat hrecord
      change (replayRecord (replayFrom base records) record).document.lastSequence.toNat < _
      omega
  · change (journal.nextSequence + 1).toNat ≤ _
    rw [hnext, List.length_append, List.length_singleton]
    omega

theorem Feeds.append (h : Feeds base offset journal records)
    (hoffset : offset + limits.kMaxJournalBytes + 1 < 2 ^ 64) (type : RecordType) (epoch : EpochId)
    (generation : UInt64) (transaction : TransactionId) (payload : Bytes) :
    (∃ records', Feeds base offset (journal.append type epoch generation transaction payload).1
        records') ∧
      journal.nextSequence.toNat ≤
        (journal.append type epoch generation transaction payload).1.nextSequence.toNat := by
  rcases Journal.append_cases h.holds.kept type epoch generation transaction payload with
    ⟨status, he⟩ | ⟨he, hlen, hsize⟩
  · rw [he]
    exact ⟨⟨records, h⟩, Nat.le_refl _⟩
  · rw [he]
    refine ⟨⟨_, h.keeping hoffset type epoch generation transaction hlen hsize⟩, ?_⟩
    change _ ≤ (journal.nextSequence + 1).toNat
    rw [h.next hoffset]
    exact Nat.le_succ _

theorem retainAmbiguous_last (r : Recovery) :
    (retainAmbiguous r).document.lastSequence = r.document.lastSequence := rfl

/-- Opening a whole journal reports what its snapshot reported, and skips nothing of a journal that
goes forward. -/
theorem openDisk_report {disk : Disk} {options : StoreOptions} {report : StoreReplay}
    (hload : loadSnapshot disk.snapshot options = .ok (base, report))
    (hfile : disk.journal = some (logOf JournalRecord.encode records))
    (hfit : (logOf JournalRecord.encode records).length ≤ limits.kMaxJournalBytes)
    (hwhole : ∀ record ∈ records, Sealed limits.kMaxJournalRecordBytes record)
    (hopen : openDisk disk options = .ok store) :
    store.report.integrityFailure = report.integrityFailure ∧
      (Forward base records → store.report.recordsSkipped = report.recordsSkipped) := by
  obtain ⟨journal, hjournal⟩ : ∃ journal : Journal,
      journal = { options := journalOptions options, file := logOf JournalRecord.encode records
                  isOpen := true, size := (logOf JournalRecord.encode records).length } := ⟨_, rfl⟩
  have hopened : Journal.openFile disk.journal (journalOptions options) = .ok journal := by
    rw [hfile, hjournal]
    rfl
  have hlog : journal.file = logOf JournalRecord.encode records ++ [] := by
    rw [hjournal, List.append_nil]
  obtain ⟨replay, hreplay, hrecords, _, hclean, htail⟩ :=
    Journal.replay_torn journal hlog (by rw [hjournal]; rfl) (by rw [hjournal]; exact hfit) hwhole
      (.inl rfl) (.inl rfl)
  have hwholeTail : replay.status ≠ .truncatedTail := fun h => htail.mp h rfl
  unfold openDisk settleTail at hopen
  simp only [hload, hopened, hreplay, bind, Except.bind, if_neg hclean, if_neg hwholeTail] at hopen
  obtain rfl := Except.ok.inj hopen
  rw [hrecords]
  exact foldl_replayRecord_skips records base _

/-! ### Stores in service -/

inductive Service where
  | call (stamp : MutationStamp) (c : StoreCall)
  | reopen

/-- A call with any outcome, or an open of the same directory under the same options. -/
inductive Serviced (store : Store) : Service → Store → Prop where
  | call (stamp : MutationStamp) (c : StoreCall) :
      Serviced store (.call stamp c) (store.call stamp c).1
  | reopen {store' : Store} (hopen : openDisk store.disk store.options = .ok store') :
      Serviced store .reopen store'

/-- A store over a snapshot that loads as `base`, with a journal that goes forward from there. -/
structure InService (base : DurableDocument) (report : StoreReplay) (options : StoreOptions)
    (snapshot : Option Bytes) (offset : Nat) (store : Store) : Prop where
  configured : store.options = options
  covered : store.snapshot = snapshot
  normal : Normal store.document
  behind : store.document.lastSequence.toNat < store.journal.nextSequence.toNat
  feeds : ∃ records, Feeds base offset store.journal records
  loads : loadSnapshot snapshot options = .ok (base, report)
  founded : Normal base

variable {report : StoreReplay} {options : StoreOptions} {snapshot : Option Bytes}

theorem InService.call (h : InService base report options snapshot offset store)
    (hoffset : offset + limits.kMaxJournalBytes + 1 < 2 ^ 64) (stamp : MutationStamp)
    (c : StoreCall) : InService base report options snapshot offset (store.call stamp c).1 := by
  have hkept := call_journal
    (P := fun j => (∃ records, Feeds base offset j records) ∧
      store.journal.nextSequence.toNat ≤ j.nextSequence.toNat)
    (fun j type epoch generation transaction payload hj => by
      obtain ⟨⟨records, hfeeds⟩, hle⟩ := hj
      obtain ⟨hfeeds', hle'⟩ := hfeeds.append hoffset type epoch generation transaction payload
      exact ⟨hfeeds', hle.trans hle'⟩)
    ⟨h.feeds, Nat.le_refl _⟩ stamp c
  obtain ⟨hfeeds, hle⟩ := hkept
  have hbehind := h.behind
  obtain ⟨hoptions, hsnapshot⟩ := call_frame store stamp c
  refine ⟨hoptions.trans h.configured, hsnapshot.trans h.covered, ?_, ?_, hfeeds, h.loads, h.founded⟩
  · rcases call_document store stamp c with hsame | ⟨hnormal, _⟩
    · rw [hsame]
      exact h.normal
    · exact hnormal h.normal
  · rcases call_document store stamp c with hsame | ⟨_, hlast⟩
    · rw [hsame]
      exact hbehind.trans_le hle
    · rw [hlast]
      have hpos : 0 < (store.call stamp c).1.journal.nextSequence.toNat := by omega
      have hone : (1 : UInt64).toNat = 1 := rfl
      have hle' : (1 : UInt64) ≤ (store.call stamp c).1.journal.nextSequence :=
        UInt64.le_iff_toNat_le.mpr (by omega)
      rw [UInt64.toNat_sub_of_le _ _ hle', hone]
      omega

/-- Opening the directory of a store in service gives one, from which nothing is skipped. -/
theorem InService.reopen (h : InService base report options snapshot offset store)
    (hoffset : offset + limits.kMaxJournalBytes + 1 < 2 ^ 64) :
    ∃ second records, openDisk store.disk store.options = .ok second ∧
      InService base report options snapshot offset second ∧
      Feeds base offset store.journal records ∧ Feeds base offset second.journal records ∧
      second.document = (retainAmbiguous (replayFrom base records)).document ∧
      second.report.integrityFailure = report.integrityFailure ∧
      second.report.recordsSkipped = report.recordsSkipped := by
  obtain ⟨records, hfeeds⟩ := h.feeds
  have hlog : (logOf JournalRecord.encode records).length ≤ limits.kMaxJournalBytes := by
    rw [← hfeeds.holds.file, ← hfeeds.holds.size]
    exact hfeeds.holds.fits
  have hfile : store.disk.journal = some (logOf JournalRecord.encode records) :=
    congrArg some hfeeds.holds.file
  have hload : loadSnapshot store.disk.snapshot store.options = .ok (base, report) := by
    rw [h.configured]
    exact (congrArg (fun s => loadSnapshot s options) h.covered).trans h.loads
  obtain ⟨second, hopen, hholds, hdocument, hsnapshot, hoptions, hresume⟩ :=
    openDisk_torn hload (hfile.trans (by rw [List.append_nil])) (by rwa [List.append_nil])
      hfeeds.holds.whole (.inl rfl) (.inl rfl) (.inl rfl)
  obtain ⟨hintegrity, hskipped⟩ := openDisk_report hload hfile hlog hfeeds.holds.whole hopen
  have hahead := UInt64.lt_iff_toNat_lt.mp hfeeds.ahead
  have hcounted := hfeeds.counted
  have hlength := hfeeds.holds.length_le
  have hone : (1 : UInt64).toNat = 1 := rfl
  have hnext : ((replayFrom base records).document.lastSequence + 1).toNat =
      (replayFrom base records).document.lastSequence.toNat + 1 := by
    rw [UInt64.toNat_add, hone, Nat.mod_eq_of_lt (by omega)]
  have hresumed := hresume fun hzero => by
    rw [hzero] at hnext
    exact absurd hnext.symm (Nat.succ_ne_zero _)
  have hfeeds' : Feeds base offset second.journal records := by
    refine ⟨hholds, hfeeds.forward, ?_, ?_⟩
    · rw [hresumed, UInt64.lt_iff_toNat_lt, hnext]
      exact Nat.lt_succ_self _
    · rw [hresumed, hnext]
      omega
  refine ⟨second, records, hopen, ⟨hoptions.trans h.configured, hsnapshot.trans h.covered, ?_, ?_,
    ⟨records, hfeeds'⟩, h.loads, h.founded⟩, hfeeds, hfeeds', hdocument, hintegrity,
    hskipped hfeeds.forward⟩
  · rw [hdocument]
    have hnormal := replayFrom_normal h.founded records
    exact ⟨hnormal.policy, hnormal.keyed, hnormal.interventions, hnormal.fences, hnormal.provenance⟩
  · rw [hdocument, hresumed, hnext, retainAmbiguous_last]
    exact Nat.lt_succ_self _

theorem InService.run {es : List (Event Store Service)}
    (h : InService base report options snapshot offset store)
    (hoffset : offset + limits.kMaxJournalBytes + 1 < 2 ^ 64) (run : Run Serviced store es store') :
    InService base report options snapshot offset store' := by
  refine run.invariant h fun s i s' hs hstep => ?_
  cases hstep with
  | call stamp c => exact hs.call hoffset stamp c
  | reopen hopen =>
    obtain ⟨second, _, hopen', hsecond, _⟩ := hs.reopen hoffset
    obtain rfl := Except.ok.inj (hopen.symm.trans hopen')
    exact hsecond

theorem InService.start (hwritable : options.readOnly = false)
    (hopen : openDisk {} options = .ok store) : InService {} {} options none 1 store := by
  have hload : loadSnapshot ({ journal := some [] } : Disk).snapshot options = .ok ({}, {}) := rfl
  have hfile : ({ journal := some [] } : Disk).journal =
      some (logOf JournalRecord.encode [] ++ []) := rfl
  obtain ⟨found, hfound, hholds, hdocument, hsnapshot, hoptions, hresume⟩ :=
    openDisk_torn hload hfile (by decide) (fun _ hr => absurd hr List.not_mem_nil)
      (.inl rfl) (.inl rfl) (.inl rfl)
  obtain rfl := Except.ok.inj (hopen.symm.trans ((openDisk_none hwritable).trans hfound))
  have hresumed := hresume (by decide)
  have hlast : (replayFrom {} []).document.lastSequence = 0 := rfl
  rw [hlast] at hresumed
  refine ⟨hoptions, hsnapshot, ?_, ?_, ⟨[], hholds, ?_, ?_, ?_⟩, rfl, .empty⟩
  · rw [hdocument]
    exact .empty
  · rw [hdocument, hresumed]
    decide
  · intro read record rest hsplit
    exact absurd hsplit.symm (by simp)
  · rw [hlast, hresumed]
    decide
  · rw [hresumed]
    exact Nat.le_refl _

/-! ### Checkpoints -/

/-- A checkpoint that succeeds leaves its container and a journal with one record. -/
theorem checkpoint_ok (hholds : Holds store.journal records)
    (h : store.checkpoint = (store', .ok ())) : ∃ container options count rebased,
      compact store.document = .ok (container, options, count) ∧
      store' = { store with snapshot := some container, journal := rebased } ∧
      Holds rebased [Journal.recordOf .rebase store.document.epoch
        store.document.authorityGeneration.value store.journal.nextSequence {} []] ∧
      rebased.nextSequence = store.journal.nextSequence + 1 := by
  unfold checkpoint at h
  split at h
  next => cases (Prod.mk.inj h).2
  next =>
    split at h
    next => cases (Prod.mk.inj h).2
    next container options count hcompact =>
      dsimp only at h
      split at h
      next => cases (Prod.mk.inj h).2
      next =>
        dsimp only [Journal.rebase] at h
        split at h
        next => cases (Prod.mk.inj h).2
        next =>
          split at h
          next => cases (Prod.mk.inj h).2
          next =>
            have hempty : Holds { store.journal with file := [], size := 0 } [] :=
              ⟨hholds.kept, hholds.recordBound, hholds.journalBound, rfl, rfl, Nat.zero_le _,
                fun _ hr => absurd hr List.not_mem_nil⟩
            rcases Journal.append_cases hempty.kept .rebase store.document.epoch
              store.document.authorityGeneration.value {} [] with ⟨status, he⟩ | ⟨he, hlen, hsize⟩
            · rw [he] at h
              cases (Prod.mk.inj h).2
            · rw [he] at h
              obtain ⟨rfl, _⟩ := Prod.mk.inj h
              exact ⟨container, options, count, _, hcompact, rfl,
                hempty.keeping .rebase store.document.epoch
                  store.document.authorityGeneration.value store.journal.nextSequence {} hlen hsize,
                rfl⟩

/-- A checkpoint of a writable store fails before it writes anything, or not at all. -/
theorem checkpoint_total (hholds : Holds store.journal records) (hnormal : Normal store.document)
    (hwritable : store.journal.options.readOnly = false) (hrunning : store.journal.isOpen = true) :
    (∃ status, store.checkpoint = (store, .error status)) ∨
      ∃ store', store.checkpoint = (store', .ok ()) := by
  unfold checkpoint
  split
  next => exact .inl ⟨_, rfl⟩
  next =>
    split
    next => exact .inl ⟨_, rfl⟩
    next container options count hcompact =>
      dsimp only
      rw [verifySnapshot_compact hnormal hcompact]
      refine .inr ⟨_, Prod.ext rfl ?_⟩
      have hrecord := hholds.recordBound
      have hjournal := hholds.journalBound
      have hroom : ¬limits.kMaxJournalBytes < kRecordHeaderSize := by decide
      unfold Journal.rebase Journal.append
      simp [hwritable, hrunning, hrecord, hjournal, hholds.kept, hroom, succeed]

/-- A checkpoint keeps how the journal was opened. -/
theorem checkpoint_journal (hkept : store.journal.fates = []) :
    store.checkpoint.1.journal.options = store.journal.options ∧
      store.checkpoint.1.journal.isOpen = store.journal.isOpen := by
  unfold checkpoint
  split
  next => exact ⟨rfl, rfl⟩
  next =>
    split
    next => exact ⟨rfl, rfl⟩
    next =>
      dsimp only
      split
      next => exact ⟨rfl, rfl⟩
      next =>
        dsimp only [Journal.rebase]
        split_ifs
        · exact ⟨rfl, rfl⟩
        · exact ⟨rfl, rfl⟩
        · rcases @Journal.append_cases { store.journal with file := [], size := 0 } hkept .rebase
            store.document.epoch store.document.authorityGeneration.value {} [] with
            ⟨_, he⟩ | ⟨he, _⟩
          · rw [he]
            exact ⟨rfl, rfl⟩
          · rw [he]
            exact ⟨rfl, rfl⟩

/-- The directory a checkpoint leaves opens without an integrity failure and recovers the document,
and no open after later calls skips a record. -/
def Recoverable (store store' : Store) : Prop :=
  ∃ second, openDisk store'.disk store'.options = .ok second ∧
    second.report.integrityFailure = false ∧ second.document.content = store.document.content ∧
    ∀ later last third, Run Serviced store' later last →
      openDisk last.disk last.options = .ok third → third.report.recordsSkipped = 0

/-- Replaying the record of a rebase changes the sequence only. -/
theorem replayFrom_rebase {record : JournalRecord} (htype : record.type = .rebase)
    (hlast : base.lastSequence < record.header.sequence) :
    (replayFrom base [record]).document = { base with lastSequence := record.header.sequence } ∧
      (replayFrom base [record]).pending = ∅ := by
  unfold replayFrom
  rw [List.foldl_cons, List.foldl_nil]
  unfold replayRecord
  dsimp only
  rw [if_neg (UInt64.not_le.mpr hlast), htype]
  exact ⟨rfl, rfl⟩

theorem ambiguousAttempts_empty (h : r.pending = ∅) : ambiguousAttempts r = [] := by
  unfold ambiguousAttempts
  rw [h]
  rfl

theorem retainAmbiguous_rebase {record : JournalRecord} (htype : record.type = .rebase)
    (hlast : base.lastSequence < record.header.sequence) :
    (retainAmbiguous (replayFrom base [record])).document =
        { base with lastSequence := record.header.sequence } ∧
      (replayFrom base [record]).document.lastSequence = record.header.sequence := by
  obtain ⟨hdocument, hpending⟩ := replayFrom_rebase htype hlast
  refine ⟨?_, by rw [hdocument]⟩
  rw [retainAmbiguous]
  dsimp only
  rw [ambiguousAttempts_empty hpending, hdocument, List.append_nil]

/-- A checkpoint puts a store in service over its container, which loads when its records are as
many as an open admits. -/
theorem InService.checkpoint {base' : DurableDocument} {report' : StoreReplay} {container : Bytes}
    {offset' : Nat} (h : InService base report options snapshot offset store)
    (hoffset : offset + limits.kMaxJournalBytes + 1 < 2 ^ 64)
    (hoffset' : store.journal.nextSequence.toNat ≤ offset')
    (hcheckpoint : store.checkpoint = (store', .ok ())) (hcontainer : store'.snapshot = some container)
    (hloads : loadSnapshot (some container) options = .ok (base', report'))
    (hcontent : base'.content = store.document.content)
    (hlast : base'.lastSequence = store.document.lastSequence) :
    InService base' report' options (some container) offset' store' ∧
      ∀ second, openDisk store'.disk store'.options = .ok second →
        second.document.content = base'.content := by
  obtain ⟨records, hfeeds⟩ := h.feeds
  obtain ⟨written, _, _, rebased, _, rfl, hholds, hnext⟩ := checkpoint_ok hfeeds.holds hcheckpoint
  obtain rfl : written = container := Option.some.inj hcontainer
  have hcounted := hfeeds.counted
  have hlength := hfeeds.holds.length_le
  have hbehind := h.behind
  have hahead : base'.lastSequence < store.journal.nextSequence :=
    UInt64.lt_iff_toNat_lt.mpr (hlast ▸ hbehind)
  obtain ⟨hretained, hreplayed⟩ := retainAmbiguous_rebase (Journal.recordOf_type _) hahead
  have hsucc := hfeeds.next hoffset
  have hfeeds' : Feeds base' offset' rebased
      [Journal.recordOf .rebase store.document.epoch store.document.authorityGeneration.value
        store.journal.nextSequence {} []] := by
    refine ⟨hholds, ?_, ?_, ?_⟩
    · have hempty : Forward base' [] := fun read record rest hsplit => absurd hsplit.symm (by simp)
      exact hempty.snoc hahead
    · rw [hreplayed, hnext, UInt64.lt_iff_toNat_lt, hsucc]
      exact Nat.lt_succ_self _
    · rw [hnext, hsucc, List.length_singleton]
      omega
  have hservice : InService base' report' options (some written) offset'
      { store with snapshot := some written, journal := rebased } := by
    refine ⟨h.configured, rfl, h.normal, ?_, ⟨_, hfeeds'⟩, hloads, h.normal.congr hcontent⟩
    rw [hnext, hsucc]
    exact Nat.lt_succ_of_lt hbehind
  refine ⟨hservice, fun second hopen => ?_⟩
  have hlog : (logOf JournalRecord.encode [Journal.recordOf .rebase store.document.epoch
      store.document.authorityGeneration.value store.journal.nextSequence {} []] ++ []).length ≤
        limits.kMaxJournalBytes := by
    rw [List.append_nil, ← hholds.file, ← hholds.size]
    exact hholds.fits
  have hload : loadSnapshot (⟨some rebased.file, some written⟩ : Disk).snapshot store.options =
      .ok (base', report') := h.configured ▸ hloads
  obtain ⟨found, hfound, _, hdocument, _⟩ := openDisk_torn hload
    ((congrArg some hholds.file).trans (by rw [List.append_nil])) hlog hholds.whole (.inl rfl)
    (.inl rfl) (.inl rfl)
  obtain rfl := Except.ok.inj (hopen.symm.trans hfound)
  rw [hdocument, hretained]
  rfl

/-- The journal of a store opened on an empty directory has counted its own records. -/
theorem journalBytes_lt : 1 + limits.kMaxJournalBytes + limits.kMaxJournalBytes + 1 < 2 ^ 64 := by
  decide

variable {first : Store} {es : List (Event Store Service)}

/-- A document of more records than an open admits in a snapshot is not recoverable. -/
theorem not_recoverable (hservice : InService base report options snapshot offset store)
    (hcheckpoint : store.checkpoint = (store', .ok ()))
    (hmany : (snapshotOptions options).maxRecords < store.document.compactCalls.length) :
    ¬Recoverable store store' := by
  rintro ⟨second, hsecond, hclean, _⟩
  obtain ⟨records, hfeeds⟩ := hservice.feeds
  obtain ⟨container, _, _, rebased, hcompact, rfl, hholds, _⟩ :=
    checkpoint_ok hfeeds.holds hcheckpoint
  obtain ⟨_, hover⟩ := loadSnapshot_compact hservice.normal hcompact options
  obtain ⟨base, report, hload⟩ := loadSnapshot_of_openDisk hsecond
  have hload' : loadSnapshot (some container) options = .ok (base, report) :=
    hservice.configured ▸ hload
  have hfailed := hover hmany base report hload'
  have hfit := hholds.fits
  rw [hholds.size, hholds.file] at hfit
  obtain ⟨hintegrity, _⟩ :=
    openDisk_report hload (congrArg some hholds.file) hfit hholds.whole hsecond
  rw [hfailed, hclean] at hintegrity
  exact Bool.false_ne_true hintegrity

/-- What a checkpoint leaves is recoverable just when the document has as many records as an open
under the same options admits in a snapshot. -/
theorem checkpoint_recoverable_iff (hwritable : options.readOnly = false)
    (hopen : openDisk {} options = .ok first) (run : Run Serviced first es store)
    (hcheckpoint : store.checkpoint = (store', .ok ())) :
    Recoverable store store' ↔
      store.document.compactCalls.length ≤ (snapshotOptions options).maxRecords := by
  have hmax := journalBytes_lt
  have hservice := (InService.start hwritable hopen).run (by omega) run
  constructor
  · intro hrecoverable
    by_contra hmany
    exact not_recoverable hservice hcheckpoint (not_le.mp hmany) hrecoverable
  · intro hcount
    obtain ⟨records, hfeeds⟩ := hservice.feeds
    obtain ⟨container, _, _, rebased, hcompact, hstore', _, _⟩ :=
      checkpoint_ok hfeeds.holds hcheckpoint
    have hsnapshot : store'.snapshot = some container := by rw [hstore']
    obtain ⟨hfits, _⟩ := loadSnapshot_compact hservice.normal hcompact options
    obtain ⟨base, hload, hcontent, hlast⟩ := hfits hcount
    have hnext : store.journal.nextSequence.toNat ≤ 1 + limits.kMaxJournalBytes := by
      have hlength := hfeeds.holds.length_le
      have hcounted := hfeeds.counted
      omega
    obtain ⟨hservice', hrecovers⟩ :=
      hservice.checkpoint (by omega) hnext hcheckpoint hsnapshot hload hcontent hlast
    obtain ⟨second, _, hsecond, _, _, _, _, hintegrity, _⟩ := hservice'.reopen (by omega)
    refine ⟨second, hsecond, hintegrity, (hrecovers second hsecond).trans hcontent, ?_⟩
    intro later last third hlater hthird
    have hlast := hservice'.run (by omega) hlater
    obtain ⟨found, _, hfound, _, _, _, _, _, hskipped⟩ := hlast.reopen (by omega)
    obtain rfl := Except.ok.inj (hthird.symm.trans hfound)
    exact hskipped

/-- Bounds of zero keep everything in memory, and leave eight records to a snapshot. -/
def unbounded : StoreOptions where
  maxHistoryEntries := 0
  maxInterventionRecords := 0
  maxFences := 0
  maxAttempts := 0
  maxProvenance := 0
  maxDomains := 0

/-- The bounds are added as 64-bit numbers: the largest one and the eight wrap to seven. -/
example : (snapshotOptions { unbounded with maxHistoryEntries := limits.kMaxU64 }).maxRecords = 7 := by
  decide

/-- A store without bounds after some history entries. -/
def chronicle : Nat → Store
  | 0 =>
    match openDisk {} unbounded with
    | .ok store => store
    | .error _ => {}
  | n + 1 => ((chronicle n).call {} (.appendHistory {})).1

theorem chronicle_opens : openDisk {} unbounded = .ok (chronicle 0) := rfl

theorem chronicle_run (n : Nat) : ∃ es, Run Serviced (chronicle 0) es (chronicle n) := by
  induction n with
  | zero => exact ⟨[], .start⟩
  | succ n ih =>
    obtain ⟨es, run⟩ := ih
    exact ⟨_, run.next (.call {} (.appendHistory {}))⟩

set_option maxRecDepth 100000 in
theorem chronicle_checkpoints : (chronicle 9).checkpoint.2.isOk = true ∧
    (snapshotOptions unbounded).maxRecords < (chronicle 9).document.compactCalls.length ∧
    (chronicle 1).checkpoint.2.isOk = true ∧
    (chronicle 1).document.compactCalls.length ≤ (snapshotOptions unbounded).maxRecords := by
  decide +kernel

theorem checkpoint_ok_of_isOk (h : store.checkpoint.2.isOk = true) :
    store.checkpoint = (store.checkpoint.1, .ok ()) := by
  obtain ⟨_, hok⟩ := Result.exists_of_isOk h
  exact Prod.ext rfl hok

theorem checkpoint_loses_document : ∃ es, Run Serviced (chronicle 0) es (chronicle 9) ∧
    (chronicle 9).checkpoint = ((chronicle 9).checkpoint.1, .ok ()) ∧
    ¬Recoverable (chronicle 9) (chronicle 9).checkpoint.1 := by
  obtain ⟨hok, hmany, _⟩ := chronicle_checkpoints
  obtain ⟨es, run⟩ := chronicle_run 9
  have hcheckpoint := checkpoint_ok_of_isOk hok
  have hmax := journalBytes_lt
  have hservice := (InService.start rfl chronicle_opens).run (by omega) run
  exact ⟨es, run, hcheckpoint, not_recoverable hservice hcheckpoint hmany⟩

theorem checkpoint_recoverable_iff_chronicle :
    Recoverable (chronicle 1) (chronicle 1).checkpoint.1 := by
  obtain ⟨_, _, hok, hcount⟩ := chronicle_checkpoints
  obtain ⟨es, run⟩ := chronicle_run 1
  exact (checkpoint_recoverable_iff rfl chronicle_opens run (checkpoint_ok_of_isOk hok)).mpr hcount

end Store

end CongestionFabric
