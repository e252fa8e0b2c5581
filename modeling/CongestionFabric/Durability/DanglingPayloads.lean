import CongestionFabric.Durability.Retention
import Mathlib.Data.List.Nodup

namespace CongestionFabric

/-- A record of a journal with the number of the call that wrote it. -/
structure JournalEntry where
  record : JournalRecord
  author : Nat

/-- The entry is the payload of the transaction that an attempt is named after. -/
def JournalEntry.pays (entry : JournalEntry) (id : AttemptId) : Bool :=
  entry.record.type = .payload ∧ entry.record.header.transaction = id.value

/-- An attempt that an open reported ambiguous, with the call whose payload was left waiting. -/
structure AttemptReport where
  attempt : AttemptId
  author : Option Nat
  deriving DecidableEq

namespace Store

/-- The records of a journal without their authors. -/
def recordsOf (entries : List JournalEntry) : List JournalRecord := entries.map (·.record)

/-- A payload waits under the transaction that an attempt would be reported as. -/
def waits (r : Recovery) (id : AttemptId) : Bool := (waitingFor r ⟨id.value⟩).isSome

/-- How many attempts of a document are ambiguous under an identity. -/
def ambiguousCount (d : DurableDocument) (id : AttemptId) : Nat :=
  d.attempts.countP fun record => record.state = .ambiguous ∧ record.attempt = id

/-- The call that wrote the last payload of a transaction. -/
def authorOf (entries : List JournalEntry) (id : AttemptId) : Option Nat :=
  (entries.reverse.find? fun entry => entry.pays id).map (·.author)

/-- What an open of a snapshot and a journal reports ambiguous. -/
def reportsOf (base : DurableDocument) (entries : List JournalEntry) : List AttemptReport :=
  (ambiguousAttempts (replayFrom base (recordsOf entries))).map fun found =>
    ⟨found.attempt, authorOf entries found.attempt⟩

/-- The identities that opens have reported. -/
def identities (reports : List AttemptReport) : List AttemptId := reports.map (·.attempt)

variable {r : Recovery} {base : DurableDocument} {entries : List JournalEntry}
  {reports : List AttemptReport} {n : UInt64} {kind : MutationKind} {body : Bytes}
  {stamp : MutationStamp} {author : Nat} {id : AttemptId}

/-! ### Counting attempts -/

theorem mem_ambiguousAttempts :
    id ∈ (ambiguousAttempts r).map (·.attempt) ↔ waits r id = true := by
  unfold ambiguousAttempts waits waitingFor
  constructor
  · intro h
    obtain ⟨found, hfound, rfl⟩ := List.mem_map.mp h
    obtain ⟨slot, hslot, rfl⟩ := List.mem_map.mp hfound
    obtain ⟨hmem, hpayload⟩ := List.mem_filter.mp hslot
    have hfind := SortedMap.mem_entries_iff.mp (show (slot.1, slot.2) ∈ r.pending.entries from hmem)
    show ((r.pending.find? slot.1).bind (·.payload)).isSome = true
    rw [hfind]
    exact hpayload
  · intro h
    cases hfind : r.pending.find? ⟨id.value⟩ with
    | none =>
      rw [hfind] at h
      cases h
    | some slot =>
      rw [hfind] at h
      refine List.mem_map.mpr ⟨ambiguousAttempt r.document.epoch ⟨id.value⟩ slot, ?_, rfl⟩
      exact List.mem_map.mpr ⟨(⟨id.value⟩, slot),
        List.mem_filter.mpr ⟨SortedMap.mem_entries_iff.mpr hfind, h⟩, rfl⟩

theorem ambiguousAttempts_nodup (r : Recovery) :
    ((ambiguousAttempts r).map (·.attempt)).Nodup := by
  have hkeys : (r.pending.entries.map Prod.fst).Nodup :=
    r.pending.sorted.imp fun hlt => ne_of_lt hlt
  have hfound : ((r.pending.entries.filter fun e => e.2.payload.isSome).map Prod.fst).Nodup :=
    hkeys.sublist (List.filter_sublist.map _)
  have hmap : (ambiguousAttempts r).map (·.attempt) =
      ((r.pending.entries.filter fun e => e.2.payload.isSome).map Prod.fst).map
        fun transaction => (⟨transaction.value⟩ : AttemptId) := by
    unfold ambiguousAttempts
    rw [List.map_map, List.map_map]
    rfl
  rw [hmap]
  refine List.Nodup.map (fun t t' h => ?_) hfound
  have hvalue : t.value = t'.value := congrArg (fun i : AttemptId => i.value) h
  cases t
  cases t'
  exact congrArg StrongId.mk hvalue

/-- Every attempt an open reports is in its document just once on account of that open. -/
theorem count_ambiguousAttempts (r : Recovery) (id : AttemptId) :
    ((ambiguousAttempts r).countP fun record => record.state = .ambiguous ∧ record.attempt = id) =
      if waits r id then 1 else 0 := by
  have hcount : ((ambiguousAttempts r).countP fun record =>
      record.state = .ambiguous ∧ record.attempt = id) =
        ((ambiguousAttempts r).map (·.attempt)).count id := by
    rw [List.count_eq_countP, List.countP_map]
    refine List.countP_congr fun found hfound => ?_
    have hstate := ambiguousAttempts_state r found hfound
    simp [hstate]
  rw [hcount, (ambiguousAttempts_nodup r).count]
  simp only [mem_ambiguousAttempts]

/-! ### What the records of a journal account for -/

/-- What replay makes of a journal, against the attempts reported so far. -/
structure Traced (base : DurableDocument) (entries : List JournalEntry)
    (reports : List AttemptReport) : Prop where
  once : ∀ id ∈ identities reports,
    ambiguousCount (replayFrom base (recordsOf entries)).document id +
      (if waits (replayFrom base (recordsOf entries)) id then 1 else 0) = 1
  free : ∀ id ∉ identities reports,
    ambiguousCount (replayFrom base (recordsOf entries)).document id ≠ 0 →
      id.value ≤ (replayFrom base (recordsOf entries)).document.lastSequence ∧
        waits (replayFrom base (recordsOf entries)) id = false
  owners : ∀ report ∈ reports,
    waits (replayFrom base (recordsOf entries)) report.attempt = true →
      authorOf entries report.attempt = report.author
  owned : ∀ id, waits (replayFrom base (recordsOf entries)) id = true →
    (authorOf entries id).isSome = true
  held : ∀ entry ∈ entries, ∀ id, entry.pays id = true →
    (replayFrom base (recordsOf entries)).document.lastSequence < entry.record.header.sequence →
      waits (replayFrom base (recordsOf entries)) id = true
  numbered : ∀ entry ∈ entries, ∀ id, entry.pays id = true →
    entry.record.header.sequence = id.value + 1
  behind : ∀ entry ∈ entries, entry.record.type = .intent ∨ entry.record.type = .payload ∨
    entry.record.header.sequence ≤ (replayFrom base (recordsOf entries)).document.lastSequence

theorem authorOf_concat (entries : List JournalEntry) (entry : JournalEntry) (id : AttemptId) :
    authorOf (entries ++ [entry]) id =
      if entry.pays id then some entry.author else authorOf entries id := by
  unfold authorOf
  rw [List.reverse_append, List.reverse_singleton, List.singleton_append, List.find?_cons]
  cases entry.pays id <;> rfl

/-- A record that is no payload pays for nothing. -/
theorem not_pays {entry : JournalEntry} (h : entry.record.type ≠ .payload) (id : AttemptId) :
    entry.pays id = false := by
  unfold JournalEntry.pays
  exact decide_eq_false fun hpays => h hpays.1

theorem pays_payloadRecord : (⟨payloadRecord kind body stamp n, author⟩ : JournalEntry).pays id =
    true ↔ id = ⟨n⟩ := by
  have htype : (payloadRecord kind body stamp n).type = .payload := Journal.recordOf_type (n + 1)
  have htransaction : (payloadRecord kind body stamp n).header.transaction = n := rfl
  unfold JournalEntry.pays
  rw [decide_eq_true_iff, htransaction]
  constructor
  · intro h
    rw [h.2]
  · intro h
    rw [h]
    exact ⟨htype, rfl⟩

/-- What a record of the group of transaction `n` does to a replay. -/
structure Noted (r : Recovery) (entry : JournalEntry) (n : UInt64) (added : AttemptId → Nat)
    (r' : Recovery) : Prop where
  counts : ∀ id, ambiguousCount r'.document id = ambiguousCount r.document id + added id
  others : ∀ id, id ≠ ⟨n⟩ → waits r' id = waits r id
  forward : r.document.lastSequence ≤ r'.document.lastSequence
  source : waits r' ⟨n⟩ = true → waits r ⟨n⟩ = true ∨ entry.pays ⟨n⟩ = true
  still : r'.document.lastSequence < n + 1 → waits r ⟨n⟩ = true ∨ entry.pays ⟨n⟩ = true →
    waits r' ⟨n⟩ = true
  names : ∀ id, entry.pays id = true → id = ⟨n⟩ ∧ entry.record.header.sequence = n + 1
  place : entry.record.type = .intent ∨ entry.record.type = .payload ∨
    entry.record.header.sequence ≤ r'.document.lastSequence

theorem ne_of_id_ne (hid : id ≠ ⟨n⟩) : (⟨id.value⟩ : TransactionId) ≠ ⟨n⟩ := by
  intro hsame
  have hvalue : id.value = n := congrArg (fun t : TransactionId => t.value) hsame
  exact hid (by rw [← hvalue])

variable (r stamp author) in
theorem Noted.intent (hk : kind.named = true) (hn : r.document.lastSequence < n) :
    Noted r ⟨intentRecord kind stamp n, author⟩ n (fun _ => 0)
      (replayRecord r (intentRecord kind stamp n)) := by
  have htype : (intentRecord kind stamp n).type = .intent := Journal.recordOf_type n
  have hpays : ∀ id, (⟨intentRecord kind stamp n, author⟩ : JournalEntry).pays id = false :=
    not_pays (by rw [htype]; nofun)
  have hdocument := (replay_intent stamp hk hn).1
  have hwaits : ∀ id, waits (replayRecord r (intentRecord kind stamp n)) id = waits r id := by
    intro id
    unfold waits
    rw [waitingFor_intent hk hn]
  refine ⟨fun id => ?_, fun id _ => hwaits id, ?_, fun h => ?_, fun _ h => ?_, fun id h => ?_,
    .inl htype⟩
  · rw [hdocument]
    rfl
  · rw [hdocument]
    exact UInt64.le_refl _
  · exact .inl (hwaits _ ▸ h)
  · rw [hpays] at h
    rw [hwaits]
    exact h.resolve_right Bool.false_ne_true
  · rw [hpays] at h
    cases h

variable (r stamp author) in
theorem Noted.payload (kind : MutationKind) (body : Bytes)
    (hn : r.document.lastSequence < n + 1) :
    Noted r ⟨payloadRecord kind body stamp n, author⟩ n (fun _ => 0)
      (replayRecord r (payloadRecord kind body stamp n)) := by
  have hdocument := (@replay_payload r kind body stamp n hn).1
  have hwaiting := @waitingFor_payload r n kind body stamp hn
  refine ⟨fun id => ?_, fun id hid => ?_, ?_, fun _ => .inr (pays_payloadRecord.mpr rfl),
    fun _ _ => ?_, fun id h => ⟨pays_payloadRecord.mp h, rfl⟩,
    .inr (.inl (Journal.recordOf_type (n + 1)))⟩
  · rw [hdocument]
    rfl
  · unfold waits
    rw [hwaiting, if_neg (ne_of_id_ne hid)]
  · rw [hdocument]
    exact UInt64.le_refl _
  · unfold waits
    rw [hwaiting, if_pos rfl]
    rfl

variable (author) in
theorem Noted.commit {mutation : Mutation} {added : AttemptId → Nat} (hk : kind.named = true)
    (hn : r.document.lastSequence < n) (hcounter : n.toNat + 3 < 2 ^ 64)
    (hwait : waitingFor r ⟨n⟩ = some (frameBody kind body))
    (hm : decodeBody kind body = .ok mutation)
    (hadded : ∀ id, ambiguousCount (r.document.applyMutation mutation) id =
      ambiguousCount r.document id + added id) :
    Noted r ⟨commitRecord kind body stamp n, author⟩ n added
        (replayRecord r (commitRecord kind body stamp n)) ∧
      (replayRecord r (commitRecord kind body stamp n)).document =
        { r.document.applyMutation mutation with lastSequence := n + 1 + 1 } := by
  obtain ⟨hone, htwo, _⟩ := toNat_next hcounter
  have hlast := UInt64.lt_iff_toNat_lt.mp hn
  have hlast' : r.document.lastSequence < n + 1 + 1 := by
    rw [UInt64.lt_iff_toNat_lt]
    omega
  have happly : r.document.apply kind body = .ok (r.document.applyMutation mutation) :=
    bind_ok.mpr ⟨mutation, hm, rfl⟩
  have hdocument := (@replay_commit r kind body stamp n _ hk hlast' hwait happly).1
  have hwaiting := @waitingFor_commit r n kind body stamp _ hk hlast' hwait happly
  have hnone : waits (replayRecord r (commitRecord kind body stamp n)) ⟨n⟩ = false := by
    unfold waits
    rw [hwaiting, if_pos rfl]
    rfl
  have hpays : ∀ id, (⟨commitRecord kind body stamp n, author⟩ : JournalEntry).pays id = false :=
    not_pays (by rw [show (commitRecord kind body stamp n).type = .commit from
      Journal.recordOf_type (n + 1 + 1)]; nofun)
  refine ⟨⟨fun id => ?_, fun id hid => ?_, ?_, fun h => ?_, fun h _ => ?_, fun id h => ?_,
    .inr (.inr ?_)⟩, hdocument⟩
  · rw [hdocument]
    exact hadded id
  · unfold waits
    rw [hwaiting, if_neg (ne_of_id_ne hid)]
  · rw [hdocument]
    exact UInt64.le_of_lt hlast'
  · rw [hnone] at h
    cases h
  · rw [hdocument, UInt64.lt_iff_toNat_lt] at h
    have hbad : (n + 1 + 1).toNat < (n + 1).toNat := h
    omega
  · rw [hpays] at h
    cases h
  · rw [hdocument]
    exact UInt64.le_refl _

/-- One more record of a transaction that was never reported. -/
theorem Traced.snoc {entry : JournalEntry} {added : AttemptId → Nat}
    (h : Traced base entries reports)
    (hn : (replayFrom base (recordsOf entries)).document.lastSequence < n)
    (hfresh : ⟨n⟩ ∉ identities reports)
    (hnoted : Noted (replayFrom base (recordsOf entries)) entry n added
      (replayRecord (replayFrom base (recordsOf entries)) entry.record))
    (hadded : ∀ id, added id ≠ 0 → id ∉ identities reports ∧ id.value < n ∧
      id.value ≤ (replayRecord (replayFrom base (recordsOf entries))
        entry.record).document.lastSequence ∧
      waits (replayFrom base (recordsOf entries)) id = false) :
    Traced base (entries ++ [entry]) reports := by
  have hrecords : recordsOf (entries ++ [entry]) = recordsOf entries ++ [entry.record] :=
    List.map_append
  rw [← replayFrom_concat, ← hrecords] at hnoted hadded
  have hother : ∀ id ∈ identities reports, id ≠ ⟨n⟩ := fun id hid hsame => hfresh (hsame ▸ hid)
  have hbefore : ∀ id : AttemptId, id.value < n → id ≠ ⟨n⟩ := by
    intro id hlt hsame
    rw [hsame] at hlt
    exact absurd hlt (UInt64.lt_irrefl n)
  have hauthor : ∀ id, id ≠ ⟨n⟩ → authorOf (entries ++ [entry]) id = authorOf entries id := by
    intro id hid
    rw [authorOf_concat, if_neg fun hpays => hid (hnoted.names id hpays).1]
  refine ⟨?_, ?_, ?_, ?_, ?_, ?_, ?_⟩
  · intro id hid
    have hnone : added id = 0 := by
      by_contra hsome
      exact (hadded id hsome).1 hid
    rw [hnoted.counts, hnone, hnoted.others id (hother id hid)]
    exact h.once id hid
  · intro id hid hcount
    rw [hnoted.counts] at hcount
    by_cases hsome : added id = 0
    · obtain ⟨hle, hwait⟩ := h.free id hid (by omega)
      rw [hnoted.others id (hbefore id (UInt64.lt_of_le_of_lt hle hn))]
      exact ⟨UInt64.le_trans hle hnoted.forward, hwait⟩
    · obtain ⟨_, hlt, hle, hwait⟩ := hadded id hsome
      rw [hnoted.others id (hbefore id hlt)]
      exact ⟨hle, hwait⟩
  · intro report hreport hwait
    have hne := hother report.attempt (List.mem_map_of_mem hreport)
    rw [hnoted.others _ hne] at hwait
    rw [hauthor _ hne]
    exact h.owners report hreport hwait
  · intro id hwait
    by_cases hid : id = ⟨n⟩
    · rw [hid] at hwait ⊢
      rw [authorOf_concat]
      split_ifs with hpays
      · rfl
      · exact h.owned _ ((hnoted.source hwait).resolve_right hpays)
    · rw [hnoted.others id hid] at hwait
      rw [hauthor id hid]
      exact h.owned id hwait
  · intro found hfound id hpay hlast
    rcases List.mem_append.mp hfound with hold | hnew
    · have hwait := h.held found hold id hpay (UInt64.lt_of_le_of_lt hnoted.forward hlast)
      by_cases hid : id = ⟨n⟩
      · rw [h.numbered found hold id hpay, hid] at hlast
        rw [hid] at hwait ⊢
        exact hnoted.still hlast (.inl hwait)
      · rw [hnoted.others id hid]
        exact hwait
    · rw [List.mem_singleton.mp hnew] at hpay hlast
      obtain ⟨hid, hsequence⟩ := hnoted.names id hpay
      rw [hsequence] at hlast
      rw [hid] at hpay ⊢
      exact hnoted.still hlast (.inr hpay)
  · intro found hfound id hpay
    rcases List.mem_append.mp hfound with hold | hnew
    · exact h.numbered found hold id hpay
    · rw [List.mem_singleton.mp hnew] at hpay ⊢
      obtain ⟨hid, hsequence⟩ := hnoted.names id hpay
      rw [hsequence, hid]
  · intro found hfound
    rcases List.mem_append.mp hfound with hold | hnew
    · rcases h.behind found hold with hintent | hpayload | hle
      · exact .inl hintent
      · exact .inr (.inl hpayload)
      · exact .inr (.inr (UInt64.le_trans hle hnoted.forward))
    · rw [List.mem_singleton.mp hnew]
      exact hnoted.place

theorem replayFrom_entry (base : DurableDocument) (entries : List JournalEntry)
    (entry : JournalEntry) : replayFrom base (recordsOf (entries ++ [entry])) =
      replayRecord (replayFrom base (recordsOf entries)) entry.record := by
  rw [← replayFrom_concat]
  exact congrArg _ List.map_append

variable (stamp author) in
theorem Traced.noteIntent (h : Traced base entries reports) (hk : kind.named = true)
    (hn : (replayFrom base (recordsOf entries)).document.lastSequence < n)
    (hfresh : ⟨n⟩ ∉ identities reports) :
    Traced base (entries ++ [⟨intentRecord kind stamp n, author⟩]) reports ∧
      (replayFrom base (recordsOf (entries ++ [⟨intentRecord kind stamp n, author⟩]))).document =
        (replayFrom base (recordsOf entries)).document := by
  refine ⟨h.snoc hn hfresh (.intent _ stamp author hk hn) fun _ hadded => absurd rfl hadded, ?_⟩
  rw [replayFrom_entry]
  exact (replay_intent stamp hk hn).1

variable (kind body stamp author) in
theorem Traced.notePayload (h : Traced base entries reports)
    (hn : (replayFrom base (recordsOf entries)).document.lastSequence < n)
    (hnext : n.toNat + 1 < 2 ^ 64) (hfresh : ⟨n⟩ ∉ identities reports) :
    Traced base (entries ++ [⟨payloadRecord kind body stamp n, author⟩]) reports ∧
      (replayFrom base (recordsOf
        (entries ++ [⟨payloadRecord kind body stamp n, author⟩]))).document =
          (replayFrom base (recordsOf entries)).document ∧
      waitingFor (replayFrom base (recordsOf
        (entries ++ [⟨payloadRecord kind body stamp n, author⟩]))) ⟨n⟩ =
          some (frameBody kind body) := by
  have hlast := UInt64.lt_trans hn (lt_succ hnext)
  refine ⟨h.snoc hn hfresh (.payload _ stamp author kind body hlast) fun _ hadded =>
    absurd rfl hadded, ?_, ?_⟩
  · rw [replayFrom_entry]
    exact replay_payload hlast |>.1
  · rw [replayFrom_entry, waitingFor_payload hlast]
    exact if_pos rfl

theorem Traced.noteCommit {mutation : Mutation} {added : AttemptId → Nat}
    (h : Traced base entries reports) (hk : kind.named = true)
    (hn : (replayFrom base (recordsOf entries)).document.lastSequence < n)
    (hcounter : n.toNat + 3 < 2 ^ 64) (hfresh : ⟨n⟩ ∉ identities reports)
    (hwait : waitingFor (replayFrom base (recordsOf entries)) ⟨n⟩ = some (frameBody kind body))
    (hm : decodeBody kind body = .ok mutation)
    (hcounts : ∀ d id, ambiguousCount (d.applyMutation mutation) id =
      ambiguousCount d id + added id)
    (hadded : ∀ id, added id ≠ 0 → id ∉ identities reports ∧ id.value < n ∧
      waits (replayFrom base (recordsOf entries)) id = false) :
    Traced base (entries ++ [⟨commitRecord kind body stamp n, author⟩]) reports ∧
      (replayFrom base (recordsOf
        (entries ++ [⟨commitRecord kind body stamp n, author⟩]))).document =
          { (replayFrom base (recordsOf entries)).document.applyMutation mutation with
            lastSequence := n + 1 + 1 } := by
  obtain ⟨hnoted, hdocument⟩ := @Noted.commit _ n kind body stamp author mutation added hk hn
    hcounter hwait hm (hcounts _)
  have htwo := (toNat_next hcounter).2.1
  refine ⟨h.snoc hn hfresh hnoted fun id hsome => ?_, ?_⟩
  · obtain ⟨hid, hlt, hfree⟩ := hadded id hsome
    have hvalue := UInt64.lt_iff_toNat_lt.mp hlt
    refine ⟨hid, hlt, ?_, hfree⟩
    rw [hdocument, UInt64.le_iff_toNat_le]
    show id.value.toNat ≤ (n + 1 + 1).toNat
    omega
  · rw [replayFrom_entry]
    exact hdocument

/-- The entries of a commit group. -/
def groupEntries (kind : MutationKind) (body : Bytes) (stamp : MutationStamp) (n : UInt64)
    (author : Nat) : List JournalEntry :=
  (groupRecords kind body stamp n).map fun record => ⟨record, author⟩

variable (kind body stamp author) in
/-- What an unfinished group leaves waiting under other identities. -/
theorem waits_unfinished (hk : kind.named = true)
    (hn : (replayFrom base (recordsOf entries)).document.lastSequence < n)
    (hnext : n.toNat + 1 < 2 ^ 64) (hid : id ≠ ⟨n⟩) :
    waits (replayFrom base (recordsOf (entries ++ [⟨intentRecord kind stamp n, author⟩] ++
      [⟨payloadRecord kind body stamp n, author⟩]))) id =
        waits (replayFrom base (recordsOf entries)) id := by
  have hintent := (replay_intent stamp hk hn).1
  have hlast := UInt64.lt_trans (hintent ▸ hn) (lt_succ hnext)
  rw [replayFrom_entry, replayFrom_entry]
  have hpayload := (Noted.payload _ stamp author kind body hlast).others id hid
  exact hpayload.trans ((Noted.intent _ stamp author hk hn).others id hid)

/-- A group of a transaction that was never reported, stopped early or whole. -/
theorem Traced.group (h : Traced base entries reports) (hk : kind.named = true)
    (hn : (replayFrom base (recordsOf entries)).document.lastSequence < n)
    (hcounter : n.toNat + 3 < 2 ^ 64) (hfresh : ⟨n⟩ ∉ identities reports) :
    (∀ k ≤ 2, Traced base (entries ++ (groupEntries kind body stamp n author).take k) reports ∧
      (replayFrom base (recordsOf
        (entries ++ (groupEntries kind body stamp n author).take k))).document =
          (replayFrom base (recordsOf entries)).document) ∧
    ∀ mutation (added : AttemptId → Nat), decodeBody kind body = .ok mutation →
      (∀ d id, ambiguousCount (d.applyMutation mutation) id = ambiguousCount d id + added id) →
      (∀ id, added id ≠ 0 → id ∉ identities reports ∧ id.value < n ∧
        waits (replayFrom base (recordsOf entries)) id = false) →
      Traced base (entries ++ groupEntries kind body stamp n author) reports ∧
        (replayFrom base (recordsOf
          (entries ++ groupEntries kind body stamp n author))).document =
          { (replayFrom base (recordsOf entries)).document.applyMutation mutation with
            lastSequence := n + 1 + 1 } := by
  obtain ⟨h₁, hdocument₁⟩ := h.noteIntent stamp author hk hn hfresh
  have hn₁ := hdocument₁ ▸ hn
  obtain ⟨h₂, hdocument₂, hwait₂⟩ := h₁.notePayload kind body stamp author hn₁ (by omega) hfresh
  have hn₂ := hdocument₂ ▸ hn₁
  rw [List.append_assoc] at h₂ hdocument₂ hwait₂ hn₂
  refine ⟨fun k hk => ?_, fun mutation added hm hcounts hadded => ?_⟩
  · match k with
    | 0 =>
      rw [List.take_zero, List.append_nil]
      exact ⟨h, rfl⟩
    | 1 => exact ⟨h₁, hdocument₁⟩
    | 2 => exact ⟨h₂, hdocument₂.trans hdocument₁⟩
  · obtain ⟨h₃, hdocument₃⟩ := @Traced.noteCommit _ _ _ n kind body stamp author mutation added h₂
      hk hn₂ hcounter hfresh hwait₂ hm hcounts fun id hsome => by
        obtain ⟨hid, hlt, hfree⟩ := hadded id hsome
        have hne : id ≠ ⟨n⟩ := by
          intro hsame
          rw [hsame] at hlt
          exact absurd hlt (UInt64.lt_irrefl n)
        have hsame := @waits_unfinished base entries n kind body stamp author id hk hn (by omega) hne
        rw [List.append_assoc] at hsame
        exact ⟨hid, hlt, hsame.trans hfree⟩
    rw [List.append_assoc] at h₃ hdocument₃
    refine ⟨h₃, hdocument₃.trans ?_⟩
    rw [hdocument₂, hdocument₁]

/-! ### What an open reports -/

theorem identities_reportsOf (base : DurableDocument) (entries : List JournalEntry) :
    identities (reportsOf base entries) =
      (ambiguousAttempts (replayFrom base (recordsOf entries))).map (·.attempt) :=
  List.map_map

theorem mem_identities_append :
    id ∈ identities (reports ++ reportsOf base entries) ↔
      id ∈ identities reports ∨ waits (replayFrom base (recordsOf entries)) id = true := by
  have happend : identities (reports ++ reportsOf base entries) =
      identities reports ++ identities (reportsOf base entries) := List.map_append
  rw [happend, List.mem_append, identities_reportsOf, mem_ambiguousAttempts]

/-- The document of an open has what replay recovered and what the open reports. -/
theorem count_retainAmbiguous (r : Recovery) (id : AttemptId) :
    ambiguousCount (retainAmbiguous r).document id =
      ambiguousCount r.document id + if waits r id then 1 else 0 := by
  rw [← count_ambiguousAttempts r id]
  exact List.countP_append

/-- Reports that are authored, and under one identity by one author. -/
structure Told (reports : List AttemptReport) : Prop where
  authored : ∀ report ∈ reports, report.author.isSome = true
  apart : ∀ report ∈ reports, ∀ other ∈ reports,
    report.attempt = other.attempt → report.author = other.author

theorem Traced.reported (h : Traced base entries reports) :
    Traced base entries (reports ++ reportsOf base entries) := by
  refine ⟨fun id hid => ?_, fun id hid => ?_, fun report hreport => ?_, h.owned, h.held,
    h.numbered, h.behind⟩
  · by_cases hknown : id ∈ identities reports
    · exact h.once id hknown
    · have hwait := (mem_identities_append.mp hid).resolve_left hknown
      have hnone : ambiguousCount (replayFrom base (recordsOf entries)).document id = 0 := by
        by_contra hsome
        have hfree := (h.free id hknown hsome).2
        rw [hwait] at hfree
        cases hfree
      rw [hnone, if_pos hwait]
  · exact h.free id fun hknown => hid (mem_identities_append.mpr (.inl hknown))
  · rcases List.mem_append.mp hreport with hold | hnew
    · exact h.owners report hold
    · obtain ⟨found, _, rfl⟩ := List.mem_map.mp hnew
      exact fun _ => rfl

theorem Told.reported (h : Told reports) (htraced : Traced base entries reports) :
    Told (reports ++ reportsOf base entries) := by
  have hnew : ∀ report ∈ reportsOf base entries,
      waits (replayFrom base (recordsOf entries)) report.attempt = true ∧
        report.author = authorOf entries report.attempt := by
    intro report hreport
    have hattempt : report.attempt ∈ identities (reportsOf base entries) :=
      List.mem_map_of_mem hreport
    rw [identities_reportsOf, mem_ambiguousAttempts] at hattempt
    obtain ⟨found, _, rfl⟩ := List.mem_map.mp hreport
    exact ⟨hattempt, rfl⟩
  refine ⟨fun report hreport => ?_, fun report hreport other hother hsame => ?_⟩
  · rcases List.mem_append.mp hreport with hold | hfound
    · exact h.authored report hold
    · obtain ⟨hwait, hauthor⟩ := hnew report hfound
      rw [hauthor]
      exact htraced.owned _ hwait
  · rcases List.mem_append.mp hreport with hold | hfound
    · rcases List.mem_append.mp hother with hold' | hfound'
      · exact h.apart report hold other hold' hsame
      · obtain ⟨hwait, hauthor⟩ := hnew other hfound'
        rw [← hsame] at hwait hauthor
        rw [hauthor]
        exact (htraced.owners report hold hwait).symm
    · obtain ⟨hwait, hauthor⟩ := hnew report hfound
      rcases List.mem_append.mp hother with hold' | hfound'
      · rw [hsame] at hwait hauthor
        rw [hauthor]
        exact htraced.owners other hold' hwait
      · rw [hauthor, (hnew other hfound').2, hsame]

/-! ### A new snapshot under an old journal -/

theorem replayRecord_covered {record : JournalRecord}
    (h : record.header.sequence ≤ r.document.lastSequence) :
    (replayRecord r record).document = r.document ∧
      (replayRecord r record).pending = r.pending := by
  unfold replayRecord
  dsimp only
  rw [if_pos h]
  exact ⟨rfl, rfl⟩

theorem waits_of_pending {r' : Recovery} (h : r'.pending = r.pending) (id : AttemptId) :
    waits r' id = waits r id := by
  unfold waits waitingFor
  rw [h]

/-- An intent or a payload beyond the position of a replay leaves the document. -/
theorem replayRecord_unfinished {entry : JournalEntry}
    (hnew : r.document.lastSequence < entry.record.header.sequence)
    (htype : entry.record.type = .intent ∨ entry.record.type = .payload) :
    (replayRecord r entry.record).document = r.document ∧
      ∀ id, waits (replayRecord r entry.record) id = (entry.pays id || waits r id) := by
  have hstep : replayRecord r entry.record = match entry.record.type with
      | .intent => noteIntent { r with report := { r.report with
          recordsRead := r.report.recordsRead + 1 } } entry.record
      | _ => notePayload { r with report := { r.report with
          recordsRead := r.report.recordsRead + 1 } } entry.record := by
    unfold replayRecord
    dsimp only
    rw [if_neg (UInt64.not_le.mpr hnew)]
    rcases htype with htype | htype <;> rw [htype]
  rw [hstep]
  rcases htype with htype | htype
  · rw [htype]
    dsimp only [noteIntent]
    have hpays := @not_pays entry (by rw [htype]; nofun)
    cases hkind : decodeIntentKind entry.record.payload with
    | none =>
      refine ⟨rfl, fun id => ?_⟩
      rw [hpays, Bool.false_or]
      exact waits_of_pending rfl id
    | some kind =>
      refine ⟨rfl, fun id => ?_⟩
      rw [hpays, Bool.false_or]
      unfold waits waitingFor
      dsimp only
      rw [SortedMap.find?_insert]
      split_ifs with hid
      · rw [hid, SortedMap.findD]
        cases r.pending.find? ⟨entry.record.header.transaction⟩ <;> rfl
      · rfl
  · rw [htype]
    dsimp only [notePayload]
    refine ⟨rfl, fun id => ?_⟩
    unfold waits waitingFor
    dsimp only
    have hpays : entry.pays id = decide (entry.record.header.transaction = id.value) := by
      unfold JournalEntry.pays
      simp [htype]
    rw [hpays, SortedMap.find?_insert]
    by_cases hid : entry.record.header.transaction = id.value
    · rw [hid, if_pos rfl, decide_eq_true rfl]
      rfl
    · have hne : (⟨id.value⟩ : TransactionId) ≠ ⟨entry.record.header.transaction⟩ :=
        fun hsame => hid (congrArg (fun t : TransactionId => t.value) hsame).symm
      rw [if_neg hne, decide_eq_false hid, Bool.false_or]

/-- A replay that meets only intents and payloads beyond its position keeps its document. -/
theorem replay_quiet (hquiet : ∀ entry ∈ entries, entry.record.type = .intent ∨
      entry.record.type = .payload ∨ entry.record.header.sequence ≤ base.lastSequence) :
    (replayFrom base (recordsOf entries)).document = base ∧
      ∀ id, waits (replayFrom base (recordsOf entries)) id = true ↔
        ∃ entry ∈ entries, entry.pays id = true ∧
          base.lastSequence < entry.record.header.sequence := by
  induction entries using List.reverseRecOn with
  | nil =>
    refine ⟨rfl, fun id => ⟨fun hwait => ?_, fun ⟨_, hentry, _⟩ => ?_⟩⟩
    · cases hwait
    · cases hentry
  | append_singleton entries entry ih =>
    obtain ⟨hdocument, hwaits⟩ := ih fun found hfound => hquiet found (List.mem_append_left _ hfound)
    have hentry := hquiet entry (List.mem_append_right _ List.mem_cons_self)
    have hsplit : ∀ id, (∃ found ∈ entries ++ [entry], found.pays id = true ∧
        base.lastSequence < found.record.header.sequence) ↔
          waits (replayFrom base (recordsOf entries)) id = true ∨ entry.pays id = true ∧
            base.lastSequence < entry.record.header.sequence := by
      intro id
      rw [hwaits]
      simp only [List.mem_append, List.mem_singleton, or_and_right, exists_or, exists_eq_left]
    rw [replayFrom_entry]
    by_cases hcovered : entry.record.header.sequence ≤ base.lastSequence
    · obtain ⟨hsame, hpending⟩ := replayRecord_covered
        (r := replayFrom base (recordsOf entries)) (hdocument.symm ▸ hcovered)
      refine ⟨hsame.trans hdocument, fun id => ?_⟩
      rw [waits_of_pending hpending, hsplit]
      have hpast := UInt64.not_lt.mpr hcovered
      simp [hpast]
    · have hnew := UInt64.not_le.mp hcovered
      have htype : entry.record.type = .intent ∨ entry.record.type = .payload := by
        rcases hentry with hintent | hpayload | hle
        · exact .inl hintent
        · exact .inr hpayload
        · exact absurd hle hcovered
      obtain ⟨hsame, hwait⟩ := replayRecord_unfinished
        (r := replayFrom base (recordsOf entries)) (hdocument.symm ▸ hnew) htype
      refine ⟨hsame.trans hdocument, fun id => ?_⟩
      rw [hwait, hsplit, Bool.or_eq_true, or_comm]
      simp [hnew]

/-- Where a document stands in the replay of its journal: at its end, or before the record of a
rebase that is all that replay has gone over. -/
def Placed (d : DurableDocument) (position : UInt64) (entries : List JournalEntry) : Prop :=
  d.lastSequence = position ∨ ∃ first rest, entries = first :: rest ∧
    first.record.type = .rebase ∧ first.record.header.sequence = position ∧
    d.lastSequence < position

variable {position : UInt64}

theorem Placed.le (h : Placed base position entries) : base.lastSequence ≤ position := by
  rcases h with hsame | ⟨_, _, _, _, _, hlt⟩
  · exact hsame ▸ UInt64.le_refl _
  · exact UInt64.le_of_lt hlt

theorem Placed.append (h : Placed base position entries) (written : List JournalEntry) :
    Placed base position (entries ++ written) := by
  rcases h with hsame | ⟨first, rest, rfl, htype, hsequence, hlt⟩
  · exact .inl hsame
  · exact .inr ⟨first, rest ++ written, rfl, htype, hsequence, hlt⟩

/-- An old journal over a new snapshot leaves the document of the snapshot, and only payloads beyond
its end wait. -/
theorem Placed.replay (h : Placed base position entries)
    (hquiet : ∀ entry ∈ entries, entry.record.type = .intent ∨ entry.record.type = .payload ∨
      entry.record.header.sequence ≤ position) :
    (replayFrom base (recordsOf entries)).document = { base with lastSequence := position } ∧
      ∀ id, waits (replayFrom base (recordsOf entries)) id = true ↔
        ∃ entry ∈ entries, entry.pays id = true ∧ position < entry.record.header.sequence := by
  rcases h with rfl | ⟨first, rest, rfl, htype, rfl, hlt⟩
  · exact replay_quiet hquiet
  · obtain ⟨hfirst, hnone⟩ := replayFrom_rebase htype hlt
    have hstart : replayFrom base [first.record] =
        { ({ document := { base with lastSequence := first.record.header.sequence } } : Recovery) with
          report := (replayFrom base [first.record]).report } :=
      Recovery.ext hfirst hnone rfl
    have hsplit : replayFrom base (recordsOf (first :: rest)) =
        (recordsOf rest).foldl replayRecord (replayFrom base [first.record]) := rfl
    obtain ⟨hdocument, hpending⟩ := foldl_replayRecord_report (recordsOf rest)
      { document := { base with lastSequence := first.record.header.sequence } }
      (replayFrom base [first.record]).report
    rw [← hstart, ← hsplit] at hdocument hpending
    obtain ⟨hquietly, hwaits⟩ := @replay_quiet
      { base with lastSequence := first.record.header.sequence } rest
      fun entry hentry => hquiet entry (List.mem_cons_of_mem _ hentry)
    refine ⟨hdocument.trans hquietly, fun id => ?_⟩
    have hpays : first.pays id = false := not_pays (by rw [htype]; nofun) id
    rw [waits_of_pending hpending]
    refine (hwaits id).trans ⟨?_, ?_⟩
    · intro ⟨entry, hentry, hfound⟩
      exact ⟨entry, List.mem_cons_of_mem _ hentry, hfound⟩
    · intro ⟨entry, hentry, hpay, hbeyond⟩
      rcases List.mem_cons.mp hentry with rfl | hrest
      · rw [hpays] at hpay
        cases hpay
      · exact ⟨entry, hrest, hpay, hbeyond⟩

/-- A snapshot with all that was reported, over a journal that holds no payload of it beyond the
position of the snapshot. -/
theorem Traced.compacted {saved : DurableDocument} (h : Traced base entries reports)
    (hplaced : Placed saved (replayFrom base (recordsOf entries)).document.lastSequence entries)
    (honce : ∀ id ∈ identities reports, ambiguousCount saved id = 1)
    (hsame : ∀ id ∉ identities reports, ambiguousCount saved id =
      ambiguousCount (replayFrom base (recordsOf entries)).document id)
    (hcovered : ∀ entry ∈ entries, ∀ id ∈ identities reports, entry.pays id = true →
      entry.record.header.sequence ≤ saved.lastSequence) :
    Traced saved entries reports ∧
      (replayFrom saved (recordsOf entries)).document = { saved with
        lastSequence := (replayFrom base (recordsOf entries)).document.lastSequence } := by
  obtain ⟨hdocument, hwaits⟩ := hplaced.replay h.behind
  have hless : ∀ id, waits (replayFrom saved (recordsOf entries)) id = true →
      waits (replayFrom base (recordsOf entries)) id = true := by
    intro id hwait
    obtain ⟨entry, hentry, hpay, hbeyond⟩ := (hwaits id).mp hwait
    exact h.held entry hentry id hpay hbeyond
  have hcount : ∀ id, ambiguousCount (replayFrom saved (recordsOf entries)).document id =
      ambiguousCount saved id := by
    intro id
    rw [hdocument]
    rfl
  refine ⟨⟨fun id hid => ?_, fun id hid hsome => ?_, fun report hreport hwait => ?_,
    fun id hwait => h.owned id (hless id hwait), fun entry hentry id hpay hlast => ?_, h.numbered,
    fun entry hentry => ?_⟩, hdocument⟩
  · have hnone : waits (replayFrom saved (recordsOf entries)) id ≠ true := by
      intro hwait
      obtain ⟨entry, hentry, hpay, hbeyond⟩ := (hwaits id).mp hwait
      have hle := UInt64.le_trans (hcovered entry hentry id hid hpay) hplaced.le
      exact absurd (UInt64.lt_of_lt_of_le hbeyond hle) (UInt64.lt_irrefl _)
    rw [hcount, honce id hid, if_neg hnone]
  · rw [hcount, hsame id hid] at hsome
    obtain ⟨hle, hwait⟩ := h.free id hid hsome
    rw [hdocument]
    refine ⟨hle, Bool.eq_false_iff.mpr fun hagain => ?_⟩
    rw [hless id hagain] at hwait
    cases hwait
  · exact h.owners report hreport (hless _ hwait)
  · rw [hdocument] at hlast
    exact (hwaits id).mpr ⟨entry, hentry, hpay, hlast⟩
  · rw [hdocument]
    exact h.behind entry hentry

/-- A snapshot with all that was reported, and a journal without records. -/
theorem Traced.emptied (honce : ∀ id ∈ identities reports, ambiguousCount base id = 1)
    (hbelow : ∀ id ∉ identities reports, ambiguousCount base id ≠ 0 →
      id.value ≤ base.lastSequence) : Traced base [] reports := by
  refine ⟨fun id hid => ?_, fun id hid hsome => ⟨hbelow id hid hsome, rfl⟩, ?_, ?_, ?_, ?_, ?_⟩
  · exact (Nat.add_zero _).trans (honce id hid)
  · intro report _ hwait
    cases hwait
  · intro id hwait
    cases hwait
  · intro entry hentry
    cases hentry
  · intro entry hentry
    cases hentry
  · intro entry hentry
    cases hentry

/-- A snapshot with all that was reported, and the record of its rebase. -/
theorem Traced.rebased {entry : JournalEntry}
    (honce : ∀ id ∈ identities reports, ambiguousCount base id = 1)
    (hbelow : ∀ id ∉ identities reports, ambiguousCount base id ≠ 0 →
      id.value ≤ base.lastSequence)
    (htype : entry.record.type = .rebase)
    (hlast : base.lastSequence < entry.record.header.sequence) :
    Traced base [entry] reports ∧ (replayFrom base (recordsOf [entry])).document =
      { base with lastSequence := entry.record.header.sequence } := by
  obtain ⟨hdocument, hpending⟩ := replayFrom_rebase htype hlast
  have hnone : ∀ id, waits (replayFrom base (recordsOf [entry])) id = false := by
    intro id
    show waits (replayFrom base [entry.record]) id = false
    unfold waits waitingFor
    rw [hpending]
    rfl
  have hcount : ∀ id, ambiguousCount (replayFrom base (recordsOf [entry])).document id =
      ambiguousCount base id := by
    intro id
    show ambiguousCount (replayFrom base [entry.record]).document id = _
    rw [hdocument]
    rfl
  have hpays := @not_pays entry (by rw [htype]; nofun)
  refine ⟨⟨fun id hid => ?_, fun id hid hsome => ?_, fun report _ hwait => ?_, fun id hwait => ?_,
    fun found hfound id hpay => ?_, fun found hfound id hpay => ?_, fun found hfound => ?_⟩,
    hdocument⟩
  · rw [hcount, hnone, honce id hid]
    rfl
  · rw [hcount] at hsome
    refine ⟨?_, hnone id⟩
    show id.value ≤ (replayFrom base [entry.record]).document.lastSequence
    rw [hdocument]
    exact UInt64.le_trans (hbelow id hid hsome) (UInt64.le_of_lt hlast)
  · rw [hnone] at hwait
    cases hwait
  · rw [hnone] at hwait
    cases hwait
  · rw [List.mem_singleton.mp hfound, hpays] at hpay
    cases hpay
  · rw [List.mem_singleton.mp hfound, hpays] at hpay
    cases hpay
  · rw [List.mem_singleton.mp hfound]
    refine .inr (.inr ?_)
    show _ ≤ (replayFrom base [entry.record]).document.lastSequence
    rw [hdocument]
    exact UInt64.le_refl _

end Store

end CongestionFabric
