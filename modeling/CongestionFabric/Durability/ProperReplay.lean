import CongestionFabric.Durability.BadSnapshot

namespace CongestionFabric

namespace Store

/-- The payload a transaction has waiting for its commit. -/
def waitingFor (r : Recovery) (transaction : TransactionId) : Option Bytes :=
  (r.pending.find? transaction).bind (·.payload)

/-- The document is as it was, its position apart, and nothing is counted as applied. -/
def Keeps (r r' : Recovery) : Prop :=
  (∃ lastSequence, r'.document = { r.document with lastSequence }) ∧
    r'.report.recordsApplied = r.report.recordsApplied

/-- The document gains the mutation of a payload, and one payload is counted as applied. -/
def Gains (r : Recovery) (payload : Bytes) (r' : Recovery) : Prop :=
  (∃ kind body document lastSequence, unframeBody payload = .ok (kind, body) ∧
      r.document.apply kind body = .ok document ∧ r'.document = { document with lastSequence }) ∧
    r'.report.recordsApplied = r.report.recordsApplied + 1

/-- What one record does to the document and to the payloads that wait. -/
inductive Replayed (r : Recovery) (record : JournalRecord) (r' : Recovery) : Prop where
  /-- a covered record, a malformed intent, a commit that finds nothing, or a record of another
  type -/
  | idle (hread : record.type = .payload → record.header.sequence ≤ r.document.lastSequence)
      (hkeeps : Keeps r r') (hpending : r'.pending = r.pending)
  | intent (hnew : r.document.lastSequence < record.header.sequence)
      (htype : record.type = .intent) (kind : MutationKind)
      (hkind : decodeIntentKind record.payload = some kind) (hkeeps : Keeps r r')
      (hpending : r'.pending = r.pending.insert ⟨record.header.transaction⟩
        { r.pending.findD ⟨record.header.transaction⟩ {} with
          kind, sequence := record.header.sequence })
  | payload (hnew : r.document.lastSequence < record.header.sequence)
      (htype : record.type = .payload) (sequence : UInt64) (hkeeps : Keeps r r')
      (hpending : r'.pending = r.pending.insert ⟨record.header.transaction⟩
        { r.pending.findD ⟨record.header.transaction⟩ {} with
          payload := some record.payload, sequence })
  | commit (hnew : r.document.lastSequence < record.header.sequence)
      (htype : record.type = .commit) (payload : Bytes)
      (hwait : waitingFor r ⟨record.header.transaction⟩ = some payload)
      (hdone : Gains r payload r' ∨
        Keeps r r' ∧ r'.report.recordsRejected = r.report.recordsRejected + 1)
      (hpending : r'.pending = r.pending.erase ⟨record.header.transaction⟩)
  | abort (hnew : r.document.lastSequence < record.header.sequence)
      (htype : record.type = .abort) (hkeeps : Keeps r r')
      (hpending : r'.pending = r.pending.erase ⟨record.header.transaction⟩)

theorem Keeps.same {r r' : Recovery} (hdocument : r'.document = r.document)
    (happlied : r'.report.recordsApplied = r.report.recordsApplied) : Keeps r r' :=
  ⟨⟨r.document.lastSequence, hdocument⟩, happlied⟩

theorem replayRecord_replayed (r : Recovery) (record : JournalRecord)
    (hnew : r.document.lastSequence < record.header.sequence) :
    Replayed r record (replayRecord r record) := by
  unfold replayRecord
  dsimp only
  rw [if_neg (UInt64.not_le.mpr hnew)]
  cases htype : record.type with
  | intent =>
    dsimp only [noteIntent]
    cases hkind : decodeIntentKind record.payload with
    | none => exact .idle (by rw [htype]; nofun) (.same rfl rfl) rfl
    | some kind => exact .intent hnew htype kind hkind (.same rfl rfl) rfl
  | payload => exact .payload hnew htype _ (.same rfl rfl) rfl
  | commit =>
    dsimp only [noteCommit]
    cases hwait : waitingFor r ⟨record.header.transaction⟩ with
    | none =>
      have hread : record.type = .payload → record.header.sequence ≤ r.document.lastSequence := by
        rw [htype]
        nofun
      unfold waitingFor at hwait
      rw [hwait]
      exact .idle hread (.same rfl rfl) rfl
    | some payload =>
      have hfound := hwait
      unfold waitingFor at hfound
      rw [hfound]
      dsimp only
      cases hunframe : unframeBody payload with
      | error status => exact .commit hnew htype payload hwait (.inr ⟨.same rfl rfl, rfl⟩) rfl
      | ok framed =>
        obtain ⟨kind, body⟩ := framed
        dsimp only
        cases happly : r.document.apply kind body with
        | error status => exact .commit hnew htype payload hwait (.inr ⟨.same rfl rfl, rfl⟩) rfl
        | ok document =>
          exact .commit hnew htype payload hwait
            (.inl ⟨⟨kind, body, document, _, hunframe, happly, rfl⟩, rfl⟩) rfl
  | abort => exact .abort hnew htype ⟨⟨_, rfl⟩, rfl⟩ rfl
  | rebase => exact .idle (by rw [htype]; nofun) ⟨⟨_, rfl⟩, rfl⟩ rfl
  | unknown => exact .idle (by rw [htype]; nofun) (.same rfl rfl) rfl
  | count => exact .idle (by rw [htype]; nofun) (.same rfl rfl) rfl
  | undeclared raw h => exact .idle (by rw [htype]; nofun) (.same rfl rfl) rfl

theorem replayRecord_step (r : Recovery) (record : JournalRecord) :
    Replayed r record (replayRecord r record) := by
  by_cases hskip : record.header.sequence ≤ r.document.lastSequence
  · have hstep : replayRecord r record = { r with report := { r.report with
        recordsRead := r.report.recordsRead + 1, recordsSkipped := r.report.recordsSkipped + 1 } } := by
      unfold replayRecord
      exact if_pos hskip
    rw [hstep]
    exact .idle (fun _ => hskip) (.same rfl rfl) rfl
  · exact replayRecord_replayed r record (UInt64.not_le.mp hskip)

/-! ### Proper commits -/

/-- The record is an Intent of the transaction that names the kind. -/
def Intends (intent : JournalRecord) (transaction : UInt64) (kind : MutationKind) : Prop :=
  intent.type = .intent ∧ intent.header.transaction = transaction ∧
    decodeIntentKind intent.payload = some kind

/-- The record is a Payload of the transaction that carries the bytes. -/
def Brings (record : JournalRecord) (transaction : UInt64) (payload : Bytes) : Prop :=
  record.type = .payload ∧ record.header.transaction = transaction ∧ record.payload = payload

/-- The transaction has, in this order, an Intent that names the kind of the payload, the Payload,
and the Commit, which carries the kind and the CRC of the payload. -/
def ProperlyCommitted (before : List JournalRecord) (commit : JournalRecord) (payload : Bytes) :
    Prop :=
  commit.type = .commit ∧ commitBody (framedKind payload) payload <+: commit.payload ∧
    ∃ front carrier back intent, before = front ++ carrier :: back ∧
      Brings carrier commit.header.transaction payload ∧ intent ∈ front ∧
      Intends intent commit.header.transaction (framedKind payload)

/-- The payload waits for its transaction all the way from its record to a commit, which applies it
or counts it as rejected. -/
def Settled (base : DurableDocument) (before after : List JournalRecord) (record : JournalRecord) :
    Prop :=
  ∃ mid commit rest, after = mid ++ commit :: rest ∧
    commit.type = .commit ∧ commit.header.transaction = record.header.transaction ∧
    (∀ part, part <+: mid →
      waitingFor (replayFrom base (before ++ record :: part)) ⟨record.header.transaction⟩ =
        some record.payload) ∧
    (Gains (replayFrom base (before ++ record :: mid)) record.payload
        (replayFrom base (before ++ record :: mid ++ [commit])) ∨
      (replayFrom base (before ++ record :: mid ++ [commit])).report.recordsRejected =
        (replayFrom base (before ++ record :: mid)).report.recordsRejected + 1)

/-- The payload still waits at the end, and its transaction is listed as ambiguous. -/
def Listed (base : DurableDocument) (records : List JournalRecord) (record : JournalRecord) : Prop :=
  waitingFor (replayFrom base records) ⟨record.header.transaction⟩ = some record.payload ∧
    ∃ attempt ∈ ambiguousAttempts (replayFrom base records),
      attempt.transaction = ⟨record.header.transaction⟩ ∧ attempt.state = .ambiguous

/-- Every payload applied was properly committed, and every Payload record is applied, counted as
rejected or listed as ambiguous. -/
structure AppliesProperly (base : DurableDocument) (records : List JournalRecord) : Prop where
  proper : ∀ before record after, records = before ++ record :: after →
    Keeps (replayFrom base before) (replayFrom base (before ++ [record])) ∨
      ∃ payload, Gains (replayFrom base before) payload (replayFrom base (before ++ [record])) ∧
        ProperlyCommitted before record payload
  accounted : ∀ before record after, records = before ++ record :: after →
    record.type = .payload → Settled base before after record ∨ Listed base records record

/-- A record that comes as the commit protocol writes it: a payload is not covered, nothing but its
commit comes for a transaction while its payload waits, and a commit that finds a payload to apply
agrees with it and with the intent. -/
structure Orderly (r : Recovery) (record : JournalRecord) : Prop where
  uncovered : record.type = .payload → r.document.lastSequence < record.header.sequence
  alone : r.document.lastSequence < record.header.sequence →
    record.type = .intent ∨ record.type = .payload ∨ record.type = .abort →
    waitingFor r ⟨record.header.transaction⟩ = none
  agrees : r.document.lastSequence < record.header.sequence → record.type = .commit →
    ∀ slot payload kind body mutation,
      r.pending.find? ⟨record.header.transaction⟩ = some slot → slot.payload = some payload →
      unframeBody payload = .ok (kind, body) → decodeBody kind body = .ok mutation →
      slot.kind = kind ∧ commitBody kind payload <+: record.payload

/-- Where the slot of a transaction comes from. -/
def Sourced (before : List JournalRecord) (transaction : TransactionId) (slot : PendingTransaction) :
    Prop :=
  match slot.payload with
  | none => slot.kind ≠ .unknown → ∃ intent ∈ before, Intends intent transaction.value slot.kind
  | some payload => ∃ front carrier back, before = front ++ carrier :: back ∧
      Brings carrier transaction.value payload ∧
      (slot.kind ≠ .unknown → ∃ intent ∈ front, Intends intent transaction.value slot.kind)

theorem Sourced.snoc {before : List JournalRecord} {transaction : TransactionId}
    {slot : PendingTransaction} (h : Sourced before transaction slot) (record : JournalRecord) :
    Sourced (before ++ [record]) transaction slot := by
  unfold Sourced at h ⊢
  split
  next =>
    intro hkind
    rename_i hnone
    rw [hnone] at h
    obtain ⟨intent, hi, hintends⟩ := h hkind
    exact ⟨intent, List.mem_append_left _ hi, hintends⟩
  next payload hsome =>
    rw [hsome] at h
    obtain ⟨front, carrier, back, rfl, hcarries, hintent⟩ := h
    exact ⟨front, carrier, back ++ [record], by simp, hcarries, hintent⟩

/-- Every slot comes from the records read so far. -/
def AllSourced (before : List JournalRecord) (r : Recovery) : Prop :=
  ∀ transaction slot, r.pending.find? transaction = some slot → Sourced before transaction slot

theorem AllSourced.step {before : List JournalRecord} {r r' : Recovery} {record : JournalRecord}
    (h : AllSourced before r) (horderly : Orderly r record) (hstep : Replayed r record r') :
    AllSourced (before ++ [record]) r' := by
  intro transaction slot hfind
  have hbefore : ∀ found, r.pending.find? transaction = some found →
      Sourced (before ++ [record]) transaction found := fun found hf => (h _ _ hf).snoc record
  cases hstep with
  | idle _ _ hpending =>
    rw [hpending] at hfind
    exact hbefore slot hfind
  | intent hnew htype kind hkind _ hpending =>
    rw [hpending, SortedMap.find?_insert] at hfind
    split_ifs at hfind with hsame
    · obtain rfl := Option.some.inj hfind
      subst hsame
      have hwait := horderly.alone hnew (.inl htype)
      have hnone : (r.pending.findD ⟨record.header.transaction⟩ {}).payload = none := by
        unfold waitingFor at hwait
        unfold SortedMap.findD
        cases hf : r.pending.find? ⟨record.header.transaction⟩ with
        | none => rfl
        | some found =>
          rw [hf] at hwait
          exact hwait
      unfold Sourced
      dsimp only
      rw [hnone]
      exact fun _ => ⟨record, List.mem_append_right _ (List.mem_singleton_self _), htype, rfl, hkind⟩
    · exact hbefore slot hfind
  | payload hnew htype sequence _ hpending =>
    rw [hpending, SortedMap.find?_insert] at hfind
    split_ifs at hfind with hsame
    · obtain rfl := Option.some.inj hfind
      subst hsame
      have hwait := horderly.alone hnew (.inr (.inl htype))
      refine ⟨before, record, [], rfl, ⟨htype, rfl, rfl⟩, ?_⟩
      intro hkind
      unfold waitingFor at hwait
      unfold SortedMap.findD at hkind ⊢
      cases hf : r.pending.find? ⟨record.header.transaction⟩ with
      | none =>
        rw [hf] at hkind
        exact absurd rfl hkind
      | some found =>
        rw [hf] at hkind hwait
        have hsourced := h _ _ hf
        unfold Sourced at hsourced
        rw [show found.payload = none from hwait] at hsourced
        exact hsourced hkind
    · exact hbefore slot hfind
  | commit _ _ _ _ _ hpending =>
    rw [hpending, SortedMap.find?_erase] at hfind
    split_ifs at hfind
    exact hbefore slot hfind
  | abort _ _ _ hpending =>
    rw [hpending, SortedMap.find?_erase] at hfind
    split_ifs at hfind
    exact hbefore slot hfind

variable {base : DurableDocument} {records : List JournalRecord}

theorem replayFrom_concat (base : DurableDocument) (before : List JournalRecord)
    (record : JournalRecord) : replayFrom base (before ++ [record]) =
      replayRecord (replayFrom base before) record := by
  unfold replayFrom
  rw [List.foldl_append]
  rfl

/-- The records come in order, each where the ones before it have brought replay. -/
def InOrder (base : DurableDocument) (records : List JournalRecord) : Prop :=
  ∀ before record after, records = before ++ record :: after →
    Orderly (replayFrom base before) record

theorem InOrder.nil : InOrder base [] := by
  intro before record after hsplit
  cases before <;> cases hsplit

theorem InOrder.snoc (h : InOrder base records) {record : JournalRecord}
    (horderly : Orderly (replayFrom base records) record) : InOrder base (records ++ [record]) := by
  intro before found after hsplit
  rcases List.eq_nil_or_concat after with rfl | ⟨after, last, rfl⟩
  · obtain ⟨rfl, hsame⟩ := List.append_inj' hsplit rfl
    obtain ⟨rfl, _⟩ := List.cons.inj hsame
    exact horderly
  · rw [List.concat_eq_append, ← List.cons_append, ← List.append_assoc] at hsplit
    obtain ⟨hfront, _⟩ := List.append_inj' hsplit rfl
    exact h before found after hfront

theorem InOrder.sourced (h : InOrder base records) {before after : List JournalRecord}
    (hsplit : records = before ++ after) : AllSourced before (replayFrom base before) := by
  induction before using List.reverseRecOn generalizing after with
  | nil => exact fun _ _ hfind => by cases hfind
  | append_singleton before record ih =>
    have hcons : records = before ++ record :: after := by
      rw [hsplit, List.append_assoc]
      rfl
    rw [replayFrom_concat]
    exact (ih hcons).step (h before record after hcons) (replayRecord_step _ _)

theorem unframeBody_ok {payload body : Bytes} {kind : MutationKind}
    (h : unframeBody payload = .ok (kind, body)) : kind = framedKind payload ∧ kind ≠ .unknown := by
  simp only [unframeBody, bind_ok, refuseIf_ok, exists_const] at h
  obtain ⟨_, hnamed, hp⟩ := h
  obtain ⟨rfl, _⟩ := Prod.mk.inj (Except.ok.inj hp)
  refine ⟨rfl, fun hunknown => ?_⟩
  rw [hunknown] at hnamed
  exact hnamed rfl

theorem waitingFor_some {r : Recovery} {transaction : TransactionId} {payload : Bytes}
    (h : waitingFor r transaction = some payload) :
    ∃ slot, r.pending.find? transaction = some slot ∧ slot.payload = some payload :=
  Option.bind_eq_some_iff.mp h

/-- What is applied in order was properly committed. -/
theorem InOrder.proper (h : InOrder base records) {before after : List JournalRecord}
    {record : JournalRecord} (hsplit : records = before ++ record :: after) :
    Keeps (replayFrom base before) (replayFrom base (before ++ [record])) ∨
      ∃ payload, Gains (replayFrom base before) payload (replayFrom base (before ++ [record])) ∧
        ProperlyCommitted before record payload := by
  have hsourced := h.sourced hsplit
  have horderly := h before record after hsplit
  rw [replayFrom_concat]
  cases replayRecord_step (replayFrom base before) record with
  | idle _ hkeeps _ => exact .inl hkeeps
  | intent _ _ _ _ hkeeps _ => exact .inl hkeeps
  | payload _ _ _ hkeeps _ => exact .inl hkeeps
  | abort _ _ hkeeps _ => exact .inl hkeeps
  | commit hnew htype payload hwait hdone _ =>
    rcases hdone with hgains | ⟨hkeeps, _⟩
    · right
      refine ⟨payload, hgains, htype, ?_⟩
      obtain ⟨⟨kind, body, document, _, hunframe, happly, _⟩, _⟩ := hgains
      obtain ⟨mutation, hdecode, _⟩ := bind_ok.mp happly
      obtain ⟨slot, hfind, hslot⟩ := waitingFor_some hwait
      obtain ⟨hkind, hbody⟩ :=
        horderly.agrees hnew htype slot payload kind body mutation hfind hslot hunframe hdecode
      obtain ⟨hframed, hknown⟩ := unframeBody_ok hunframe
      have hs := hsourced _ _ hfind
      unfold Sourced at hs
      rw [hslot] at hs
      obtain ⟨front, carrier, back, hbefore, hcarries, hintent⟩ := hs
      obtain ⟨intent, hi, hintends⟩ := hintent (hkind ▸ hknown)
      rw [hkind, hframed] at hintends
      exact ⟨hframed ▸ hbody, front, carrier, back, intent, hbefore, hcarries, hi, hintends⟩
    · exact .inl hkeeps

/-- A payload that waits is settled by a later commit or listed at the end. -/
theorem InOrder.settled_or_listed (h : InOrder base records) {before mid after : List JournalRecord}
    {record : JournalRecord} (hsplit : records = before ++ record :: (mid ++ after))
    (hwaits : ∀ part, part <+: mid →
      waitingFor (replayFrom base (before ++ record :: part)) ⟨record.header.transaction⟩ =
        some record.payload) :
    Settled base before (mid ++ after) record ∨ Listed base records record := by
  have hwait := hwaits mid List.prefix_rfl
  induction after generalizing mid with
  | nil =>
    right
    rw [List.append_nil] at hsplit
    rw [← hsplit] at hwait
    obtain ⟨slot, hfind, hslot⟩ := waitingFor_some hwait
    refine ⟨hwait, ambiguousAttempt (replayFrom base records).document.epoch
      ⟨record.header.transaction⟩ slot, ?_, rfl, rfl⟩
    refine List.mem_map.mpr ⟨(⟨record.header.transaction⟩, slot), ?_, rfl⟩
    exact List.mem_filter.mpr ⟨SortedMap.mem_entries_iff.mpr hfind, by simp [hslot]⟩
  | cons next after ih =>
    have hread : before ++ record :: (mid ++ next :: after) =
        (before ++ record :: mid) ++ next :: after := by simp
    have horderly := h _ next after (hsplit.trans hread)
    have hstep := replayRecord_step (replayFrom base (before ++ record :: mid)) next
    rw [← replayFrom_concat] at hstep
    have hnext : before ++ record :: mid ++ [next] = before ++ record :: (mid ++ [next]) := by simp
    have hrest : mid ++ next :: after = mid ++ [next] ++ after := by simp
    -- the payload waits on, unless this record is its commit
    have hon : waitingFor (replayFrom base (before ++ record :: (mid ++ [next])))
        ⟨record.header.transaction⟩ = some record.payload →
        Settled base before (mid ++ next :: after) record ∨ Listed base records record := by
      intro hw
      rw [hrest] at hsplit ⊢
      refine ih hsplit (fun part hpart => ?_) hw
      rcases List.prefix_concat_iff.mp hpart with rfl | hpart
      · exact hw
      · exact hwaits part hpart
    have halone : (⟨next.header.transaction⟩ : TransactionId) = ⟨record.header.transaction⟩ →
        waitingFor (replayFrom base (before ++ record :: mid)) ⟨next.header.transaction⟩ ≠
          none := by
      intro hsame hnone
      rw [hsame, hwait] at hnone
      cases hnone
    rw [hnext] at hstep
    cases hstep with
    | idle _ _ hpending =>
      apply hon
      unfold waitingFor at hwait ⊢
      rw [hpending, hwait]
    | intent hnew htype _ _ _ hpending =>
      apply hon
      have hother : (⟨record.header.transaction⟩ : TransactionId) ≠ ⟨next.header.transaction⟩ :=
        fun hsame => halone hsame.symm (horderly.alone hnew (.inl htype))
      unfold waitingFor at hwait ⊢
      rw [hpending, SortedMap.find?_insert_ne _ _ hother, hwait]
    | payload hnew htype _ _ hpending =>
      apply hon
      have hother : (⟨record.header.transaction⟩ : TransactionId) ≠ ⟨next.header.transaction⟩ :=
        fun hsame => halone hsame.symm (horderly.alone hnew (.inr (.inl htype)))
      unfold waitingFor at hwait ⊢
      rw [hpending, SortedMap.find?_insert_ne _ _ hother, hwait]
    | abort hnew htype _ hpending =>
      apply hon
      have hother : (⟨record.header.transaction⟩ : TransactionId) ≠ ⟨next.header.transaction⟩ :=
        fun hsame => halone hsame.symm (horderly.alone hnew (.inr (.inr htype)))
      unfold waitingFor at hwait ⊢
      rw [hpending, SortedMap.find?_erase_ne _ hother, hwait]
    | commit _ htype payload hfound hdone hpending =>
      by_cases hsame : next.header.transaction = record.header.transaction
      · left
        rw [hsame, hwait] at hfound
        obtain rfl := Option.some.inj hfound
        refine ⟨mid, next, after, rfl, htype, hsame, hwaits, ?_⟩
        rw [hnext]
        exact hdone.imp id And.right
      · apply hon
        have hother : (⟨record.header.transaction⟩ : TransactionId) ≠ ⟨next.header.transaction⟩ :=
          fun heq => hsame (StrongId.mk.inj heq).symm
        unfold waitingFor at hwait ⊢
        rw [hpending, SortedMap.find?_erase_ne _ hother, hwait]

theorem InOrder.applies_properly (h : InOrder base records) : AppliesProperly base records where
  proper := fun _ _ _ hsplit => h.proper hsplit
  accounted := by
    intro before record after hsplit htype
    have horderly := h before record after hsplit
    have hwait : waitingFor (replayFrom base (before ++ [record])) ⟨record.header.transaction⟩ =
        some record.payload := by
      have hstep := replayRecord_step (replayFrom base before) record
      rw [← replayFrom_concat] at hstep
      cases hstep with
      | idle hread _ _ => exact absurd (hread htype) (UInt64.not_le.mpr (horderly.uncovered htype))
      | payload _ _ _ _ hpending =>
        unfold waitingFor
        rw [hpending, SortedMap.find?_insert_self]
        rfl
      | intent _ hother => cases htype.symm.trans hother
      | commit _ hother => cases htype.symm.trans hother
      | abort _ hother => cases htype.symm.trans hother
    refine @InOrder.settled_or_listed base records h before [] after record hsplit ?_
    intro part hpart
    obtain rfl := List.prefix_nil.mp hpart
    exact hwait

/-- A directory whose journal comes in order opens, and its replay applies what was properly
committed and accounts for every other payload. -/
theorem open_applies_properly {disk : Disk} {options : StoreOptions} {report : StoreReplay}
    {journal : Journal} {replay : JournalReplay}
    (hload : loadSnapshot disk.snapshot options = .ok (base, report))
    (hjournal : JournalReadable disk.journal options journal replay)
    (horder : InOrder base replay.records) :
    ∃ store, openDisk disk options = .ok store ∧
      store.document = (retainAmbiguous (replayFrom base replay.records)).document ∧
      AppliesProperly base replay.records := by
  obtain ⟨store, hopen, hdocument, _⟩ := openDisk_loaded hload hjournal
  exact ⟨store, hopen, hdocument, horder.applies_properly⟩

/-- A journal of whole records is read as they are. -/
theorem journalReadable_whole {options : StoreOptions}
    (hsealed : ∀ record ∈ records, Sealed limits.kMaxJournalRecordBytes record)
    (hfit : (logOf JournalRecord.encode records).length ≤ limits.kMaxJournalBytes) :
    ∃ journal replay, JournalReadable (some (logOf JournalRecord.encode records)) options journal
      replay ∧ replay.records = records := by
  have hopen : Journal.openFile (some (logOf JournalRecord.encode records))
      (journalOptions options) = .ok {
        options := journalOptions options, file := logOf JournalRecord.encode records
        isOpen := true, size := (logOf JournalRecord.encode records).length } := rfl
  obtain ⟨replay, hreplay, hrecords, _, hclean, _⟩ := Journal.replay_torn {
      options := journalOptions options, file := logOf JournalRecord.encode records
      isOpen := true, size := (logOf JournalRecord.encode records).length }
    (List.append_nil _).symm rfl hfit hsealed (.inl rfl) (.inl rfl)
  exact ⟨_, replay, ⟨hopen, hreplay, hclean⟩, hrecords⟩

/-- The body of an epoch advance, and the payload it is framed as. -/
def advanceBody : Bytes := ByteWriter.u64 7 ++ ByteWriter.u64 9 ++ ByteWriter.u64 1

def advancePayload : Bytes := frameBody .epochAdvance advanceBody

/-- A payload without an intent, and a commit that carries nothing. -/
def bareCommit : List JournalRecord :=
  [Journal.recordOf .payload ⟨1⟩ 1 1 ⟨1⟩ advancePayload, Journal.recordOf .commit ⟨1⟩ 1 2 ⟨1⟩ []]

theorem bareCommit_sealed : ∀ record ∈ bareCommit, Sealed limits.kMaxJournalRecordBytes record := by
  intro record hr
  rcases List.mem_cons.mp hr with rfl | hr
  · exact recordOf_sealed (by decide) (by decide)
  · obtain rfl := List.mem_singleton.mp hr
    exact recordOf_sealed (by decide) (by decide)

theorem advancePayload_length : advancePayload.length = 26 := by
  decide

theorem recordOf_encode_length (type : RecordType) (epoch : EpochId)
    (generation sequence : UInt64) (transaction : TransactionId) (payload : Bytes) :
    (Journal.recordOf type epoch generation sequence transaction payload).encode.length =
      kRecordHeaderSize + payload.length := by
  rw [JournalRecord.encode, List.length_append, encodeHeader_length, Journal.recordOf_payload]

theorem bareCommit_fits :
    (logOf JournalRecord.encode bareCommit).length ≤ limits.kMaxJournalBytes := by
  unfold bareCommit
  rw [logOf_cons, logOf_cons, logOf_nil, List.append_nil, List.length_append,
    recordOf_encode_length, recordOf_encode_length, advancePayload_length]
  decide

/-- A payload that no intent names and whose commit does not agree with it is applied. -/
theorem bareCommit_applied :
    (∀ record ∈ bareCommit, Sealed limits.kMaxJournalRecordBytes record) ∧
    (∃ store, openDisk ⟨some (logOf JournalRecord.encode bareCommit), none⟩ {} = .ok store ∧
      store.document.epoch = ⟨7⟩) ∧ ¬AppliesProperly {} bareCommit := by
  refine ⟨bareCommit_sealed, ?_, ?_⟩
  · obtain ⟨journal, replay, hjournal, hrecords⟩ :=
      @journalReadable_whole bareCommit {} bareCommit_sealed bareCommit_fits
    obtain ⟨store, hopen, hdocument, _⟩ := @openDisk_loaded {}
      ⟨some (logOf JournalRecord.encode bareCommit), none⟩ {} {} journal replay rfl hjournal
    refine ⟨store, hopen, ?_⟩
    rw [hdocument, hrecords]
    decide +kernel
  · intro h
    rcases h.proper [Journal.recordOf .payload ⟨1⟩ 1 1 ⟨1⟩ advancePayload] _ [] rfl with
      hkeeps | ⟨_, _, hproper⟩
    · have happlied := hkeeps.2
      revert happlied
      decide +kernel
    · obtain ⟨_, _, front, carrier, back, intent, hsplit, _, hintent, _⟩ := hproper
      have hlen := congrArg List.length hsplit
      have hfront := List.length_pos_of_mem hintent
      simp only [List.length_append, List.length_cons, List.length_nil] at hlen
      omega

/-- The records of one commit of an epoch advance. -/
def advanceGroup : List JournalRecord := groupRecords .epochAdvance advanceBody {} 1

theorem advanceGroup_inOrder : InOrder {} advanceGroup := by
  have hintent : Orderly (replayFrom {} []) (intentRecord .epochAdvance {} 1) := by
    refine ⟨fun h => ?_, fun _ _ => rfl, fun _ h => ?_⟩ <;> cases h
  have hpayload : Orderly (replayFrom {} [intentRecord .epochAdvance {} 1])
      (payloadRecord .epochAdvance advanceBody {} 1) := by
    refine ⟨fun _ => by decide, fun _ _ => rfl, fun _ h => ?_⟩
    cases h
  have hcommit : Orderly (replayFrom {} [intentRecord .epochAdvance {} 1,
      payloadRecord .epochAdvance advanceBody {} 1]) (commitRecord .epochAdvance advanceBody {} 1) := by
    refine ⟨fun h => ?_, fun _ h => ?_, ?_⟩
    · cases h
    · rcases h with h | h | h <;> cases h
    · intro _ _ slot payload kind body mutation hfind hslot hunframe _
      obtain rfl := Option.some.inj hfind
      obtain rfl := Option.some.inj hslot
      obtain ⟨rfl, _⟩ := unframeBody_ok hunframe
      exact ⟨by decide +kernel, List.prefix_rfl⟩
  exact ((InOrder.nil.snoc hintent).snoc hpayload).snoc hcommit

theorem advanceGroup_sealed :
    ∀ record ∈ advanceGroup, Sealed limits.kMaxJournalRecordBytes record := by
  intro record hr
  rcases List.mem_cons.mp hr with rfl | hr
  · exact recordOf_sealed (by decide) (by decide)
  · rcases List.mem_cons.mp hr with rfl | hr
    · exact recordOf_sealed (by decide) (by decide)
    · obtain rfl := List.mem_singleton.mp hr
      exact recordOf_sealed (by decide) (by decide)

theorem open_applies_properly_group : ∃ store,
    openDisk ⟨some (logOf JournalRecord.encode advanceGroup), none⟩ {} = .ok store ∧
      store.document = (retainAmbiguous (replayFrom {} advanceGroup)).document ∧
      AppliesProperly {} advanceGroup := by
  have hfit : (logOf JournalRecord.encode advanceGroup).length ≤ limits.kMaxJournalBytes := by
    unfold advanceGroup groupRecords intentRecord payloadRecord commitRecord
    rw [logOf_cons, logOf_cons, logOf_cons, logOf_nil, List.append_nil, List.length_append,
      List.length_append, recordOf_encode_length, recordOf_encode_length, recordOf_encode_length]
    decide
  obtain ⟨journal, replay, hjournal, hrecords⟩ :=
    @journalReadable_whole advanceGroup {} advanceGroup_sealed hfit
  have horder : InOrder {} replay.records := hrecords ▸ advanceGroup_inOrder
  have hopens := @open_applies_properly {} ⟨some (logOf JournalRecord.encode advanceGroup), none⟩
    {} {} journal replay rfl hjournal horder
  rwa [hrecords] at hopens

end Store

end CongestionFabric
