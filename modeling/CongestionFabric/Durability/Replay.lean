import CongestionFabric.Durability.CommitGroup

namespace CongestionFabric

/-- Applying a mutation reads and writes nothing of the replay position. -/
theorem DurableDocument.apply_lastSequence {document document' : DurableDocument}
    {kind : MutationKind} {payload : Bytes} (h : document.apply kind payload = .ok document')
    (sequence : UInt64) :
    ({ document with lastSequence := sequence } : DurableDocument).apply kind payload =
      .ok { document' with lastSequence := sequence } := by
  obtain ⟨mutation, hm, hd⟩ := bind_ok.mp h
  cases hd
  refine bind_ok.mpr ⟨mutation, hm, ?_⟩
  cases mutation <;> rfl

theorem DurableDocument.apply_of_validateBody {kind : MutationKind} {payload : Bytes}
    (h : validateBody kind payload = .ok ()) (document : DurableDocument) :
    ∃ document', document.apply kind payload = .ok document' := by
  obtain ⟨mutation, hm, _⟩ := bind_ok.mp h
  exact ⟨_, bind_ok.mpr ⟨mutation, hm, rfl⟩⟩

namespace Store

variable {r : Recovery} {kind : MutationKind} {payload : Bytes} {stamp : MutationStamp}
  {n : UInt64}

variable (stamp) in
theorem replay_intent (hk : kind.named = true) (hn : r.document.lastSequence < n) :
    (replayRecord r (intentRecord kind stamp n)).document = r.document ∧
      (replayRecord r (intentRecord kind stamp n)).pending =
        r.pending.insert ⟨n⟩ { r.pending.findD ⟨n⟩ {} with kind, sequence := n } := by
  have hs : ¬(intentRecord kind stamp n).header.sequence ≤ r.document.lastSequence :=
    UInt64.not_le.mpr hn
  have ht : (intentRecord kind stamp n).type = .intent := Journal.recordOf_type n
  have hp : decodeIntentKind (intentRecord kind stamp n).payload = some kind :=
    decodeIntentKind_intentBody hk stamp
  simp only [replayRecord, if_neg hs, ht, noteIntent, hp]
  exact ⟨trivial, rfl⟩

theorem replay_payload (hn : r.document.lastSequence < n + 1) :
    (replayRecord r (payloadRecord kind payload stamp n)).document = r.document ∧
      ∃ slot : PendingTransaction, slot.payload = some (frameBody kind payload) ∧
        (replayRecord r (payloadRecord kind payload stamp n)).pending =
          r.pending.insert ⟨n⟩ slot := by
  have hs : ¬(payloadRecord kind payload stamp n).header.sequence ≤ r.document.lastSequence :=
    UInt64.not_le.mpr hn
  have ht : (payloadRecord kind payload stamp n).type = .payload := Journal.recordOf_type (n + 1)
  simp only [replayRecord, if_neg hs, ht, notePayload]
  exact ⟨trivial, _, rfl, rfl⟩

theorem replay_commit {document : DurableDocument} (hk : kind.named = true)
    (hn : r.document.lastSequence < n + 1 + 1)
    (hp : (r.pending.find? ⟨n⟩).bind (·.payload) = some (frameBody kind payload))
    (hd : r.document.apply kind payload = .ok document) :
    (replayRecord r (commitRecord kind payload stamp n)).document =
        { document with lastSequence := n + 1 + 1 } ∧
      (replayRecord r (commitRecord kind payload stamp n)).pending = r.pending.erase ⟨n⟩ := by
  have hs : ¬(commitRecord kind payload stamp n).header.sequence ≤ r.document.lastSequence :=
    UInt64.not_le.mpr hn
  have ht : (commitRecord kind payload stamp n).type = .commit :=
    Journal.recordOf_type (n + 1 + 1)
  have htx : (commitRecord kind payload stamp n).header.transaction = n := rfl
  simp only [replayRecord, if_neg hs, ht, noteCommit, htx, hp, unframeBody_frameBody hk, hd]
  exact ⟨rfl, trivial⟩

/-- The sequence numbers of a group, when they do not wrap. -/
theorem toNat_next {s : UInt64} (h : s.toNat + 3 < 2 ^ 64) :
    (s + 1).toNat = s.toNat + 1 ∧ (s + 1 + 1).toNat = s.toNat + 2 ∧
      (s + 1 + 1 + 1).toNat = s.toNat + 3 := by
  have hone : (1 : UInt64).toNat = 1 := rfl
  have h₁ : (s + 1).toNat = s.toNat + 1 := by
    rw [UInt64.toNat_add, hone, Nat.mod_eq_of_lt (by omega)]
  have h₂ : (s + 1 + 1).toNat = s.toNat + 2 := by
    rw [UInt64.toNat_add, hone, h₁, Nat.mod_eq_of_lt (by omega)]
  refine ⟨h₁, h₂, ?_⟩
  rw [UInt64.toNat_add, hone, h₂, Nat.mod_eq_of_lt (by omega)]

variable (stamp) in
/-- What a whole group does to the document and to the pending transactions, record by record. -/
theorem replay_group_records {document : DurableDocument} (hk : kind.named = true)
    (hroom : r.document.lastSequence.toNat + 3 < 2 ^ 64)
    (hd : r.document.apply kind payload = .ok document) :
    let n := r.document.lastSequence + 1
    let r₁ := replayRecord r (intentRecord kind stamp n)
    let r₂ := replayRecord r₁ (payloadRecord kind payload stamp n)
    let r₃ := replayRecord r₂ (commitRecord kind payload stamp n)
    (r₁.document = r.document ∧ r₁.pending =
      r.pending.insert ⟨n⟩ { r.pending.findD ⟨n⟩ {} with kind, sequence := n }) ∧
    (r₂.document = r.document ∧ ∃ slot : PendingTransaction,
      slot.payload = some (frameBody kind payload) ∧ r₂.pending = r₁.pending.insert ⟨n⟩ slot) ∧
    (r₃.document = { document with lastSequence := n + 1 + 1 } ∧
      r₃.pending = r₂.pending.erase ⟨n⟩) := by
  intro n r₁ r₂ r₃
  have hlt : ∀ k : UInt64, k.toNat = r.document.lastSequence.toNat + 1 ∨
      k.toNat = r.document.lastSequence.toNat + 2 ∨
      k.toNat = r.document.lastSequence.toNat + 3 → r.document.lastSequence < k := fun k hk => by
    rw [UInt64.lt_iff_toNat_lt]
    omega
  obtain ⟨hn, hn₁, hn₂⟩ : n.toNat = r.document.lastSequence.toNat + 1 ∧
      (n + 1).toNat = r.document.lastSequence.toNat + 2 ∧
      (n + 1 + 1).toNat = r.document.lastSequence.toNat + 3 := toNat_next hroom
  obtain ⟨d₁, p₁⟩ : r₁.document = r.document ∧ r₁.pending = _ :=
    replay_intent stamp hk (hlt n (.inl hn))
  obtain ⟨d₂, slot, hslot, p₂⟩ : r₂.document = r₁.document ∧ ∃ slot : PendingTransaction,
      slot.payload = some (frameBody kind payload) ∧ r₂.pending = _ :=
    replay_payload (d₁ ▸ hlt (n + 1) (.inr (.inl hn₁)))
  have hp : (r₂.pending.find? ⟨n⟩).bind (·.payload) = some (frameBody kind payload) := by
    rw [p₂, SortedMap.find?_insert_self]
    exact hslot
  obtain ⟨d₃, p₃⟩ : r₃.document = { document with lastSequence := n + 1 + 1 } ∧
      r₃.pending = r₂.pending.erase ⟨n⟩ :=
    replay_commit hk (d₂ ▸ d₁ ▸ hlt (n + 1 + 1) (.inr (.inr hn₂))) hp (d₂ ▸ d₁ ▸ hd)
  exact ⟨⟨d₁, p₁⟩, ⟨d₂.trans d₁, slot, hslot, p₂⟩, d₃, p₃⟩

/-- A payload waiting for the commit of the next transaction. -/
def waiting (r : Recovery) : Bool :=
  (r.pending.find? ⟨r.document.lastSequence + 1⟩).any (·.payload.isSome)

/-- Nothing is pending but, possibly, the transaction the next commit will take over. -/
def NextOnly (r : Recovery) : Prop :=
  ∀ transaction slot, r.pending.find? transaction = some slot →
    transaction = ⟨r.document.lastSequence + 1⟩

variable (stamp) in
/-- A whole group commits its mutation, whatever an earlier attempt under the same number left. -/
theorem replay_group {document : DurableDocument} (hk : kind.named = true)
    (hroom : r.document.lastSequence.toNat + 3 < 2 ^ 64) (hnext : NextOnly r)
    (hd : r.document.apply kind payload = .ok document) :
    let n := r.document.lastSequence + 1
    let r₁ := replayRecord r (intentRecord kind stamp n)
    let r₂ := replayRecord r₁ (payloadRecord kind payload stamp n)
    let r₃ := replayRecord r₂ (commitRecord kind payload stamp n)
    (r₁.document = r.document ∧ NextOnly r₁ ∧ waiting r₁ = waiting r) ∧
      (r₂.document = r.document ∧ NextOnly r₂ ∧ waiting r₂ = true) ∧
      (r₃.document = { document with lastSequence := n + 1 + 1 } ∧ r₃.pending = ∅) := by
  intro n r₁ r₂ r₃
  obtain ⟨⟨d₁, p₁⟩, ⟨d₂, slot, hslot, p₂⟩, d₃, p₃⟩ :
      (r₁.document = r.document ∧ r₁.pending = _) ∧ (r₂.document = r.document ∧
        ∃ slot : PendingTransaction, slot.payload = _ ∧ r₂.pending = _) ∧ (r₃.document = _ ∧
        r₃.pending = _) :=
    replay_group_records stamp hk hroom hd
  have hnext₁ : NextOnly r₁ := fun transaction found hf => by
    rw [p₁, SortedMap.find?_insert] at hf
    rw [d₁]
    split_ifs at hf with h
    · exact h
    · exact hnext transaction found hf
  have hnext₂ : NextOnly r₂ := fun transaction found hf => by
    rw [p₂, SortedMap.find?_insert] at hf
    rw [d₂]
    split_ifs at hf with h
    · exact h
    · exact d₁ ▸ hnext₁ transaction found hf
  refine ⟨⟨d₁, hnext₁, ?_⟩, ⟨d₂, hnext₂, ?_⟩, d₃, ?_⟩
  · rw [waiting, waiting, d₁, p₁, SortedMap.find?_insert_self, SortedMap.findD]
    cases r.pending.find? ⟨n⟩ <;> rfl
  · rw [waiting, d₂, p₂, SortedMap.find?_insert_self]
    simp [hslot]
  · rw [p₃]
    ext transaction : 1
    rw [SortedMap.find?_erase]
    split_ifs with h
    · rfl
    · cases hf : r₂.pending.find? transaction with
      | none => rfl
      | some found =>
        have heq := hnext₂ transaction found hf
        rw [d₂] at heq
        exact absurd heq h

variable (stamp) in
/-- A whole group forgets what was pending under its number and keeps the rest. -/
theorem replay_group_pending {document : DurableDocument} (hk : kind.named = true)
    (hroom : r.document.lastSequence.toNat + 3 < 2 ^ 64)
    (hd : r.document.apply kind payload = .ok document) :
    let n := r.document.lastSequence + 1
    let r₃ := (groupRecords kind payload stamp n).foldl replayRecord r
    r₃.document = { document with lastSequence := n + 1 + 1 } ∧
      ∀ transaction slot, r₃.pending.find? transaction = some slot →
        r.pending.find? transaction = some slot := by
  intro n r₃
  obtain ⟨⟨_, p₁⟩, ⟨_, slot, _, p₂⟩, d₃, p₃⟩ := replay_group_records stamp hk hroom hd
  refine ⟨d₃, fun transaction found hf => ?_⟩
  have hf' : (SortedMap.erase _ _).find? transaction = some found := p₃ ▸ hf
  rw [SortedMap.find?_erase] at hf'
  split_ifs at hf' with h
  rw [p₂, SortedMap.find?_insert_ne _ _ h, p₁, SortedMap.find?_insert_ne _ _ h] at hf'
  exact hf'

theorem ambiguousAttempts_nil :
    ambiguousAttempts r = [] ↔
      ∀ transaction slot, r.pending.find? transaction = some slot → slot.payload = none := by
  unfold ambiguousAttempts
  rw [List.map_eq_nil_iff, List.filter_eq_nil_iff]
  constructor
  · intro h transaction slot hf
    simpa using h (transaction, slot) (SortedMap.mem_entries_iff.mpr hf)
  · intro h e he
    simp [h e.1 e.2 (SortedMap.mem_entries_iff.mp he)]

theorem ambiguousAttempts_state (r : Recovery) :
    ∀ attempt ∈ ambiguousAttempts r, attempt.state = .ambiguous := by
  intro attempt ha
  obtain ⟨_, _, rfl⟩ := List.mem_map.mp ha
  rfl

theorem ambiguousAttempts_length (hnext : NextOnly r) :
    (ambiguousAttempts r).length = if waiting r then 1 else 0 := by
  rw [ambiguousAttempts, SortedMap.entries_of_single hnext, waiting]
  cases r.pending.find? ⟨r.document.lastSequence + 1⟩ with
  | none => rfl
  | some slot =>
    cases hp : slot.payload <;> simp [hp]

end Store

end CongestionFabric
