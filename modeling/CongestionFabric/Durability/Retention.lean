import CongestionFabric.Durability.Checkpoint
import CongestionFabric.Durability.ProperReplay

namespace CongestionFabric

/-- The bounded lists of a document. -/
@[ext]
structure Retained where
  history : List HistoryEntry := []
  interventions : List InterventionRecord := []
  fences : List FenceRecord := []
  attempts : List AttemptRecord := []
  provenance : List Provenance := []
  revalidations : List RevalidationRecord := []

def DurableDocument.retained (d : DurableDocument) : Retained :=
  ⟨d.history, d.interventions, d.fences, d.attempts, d.provenance, d.revalidations⟩

/-- A length is within a bound of a store, where zero is no bound. -/
def Within (limit : UInt64) (length : Nat) : Prop := limit = 0 ∨ length ≤ limit.toNat

instance (limit : UInt64) (length : Nat) : Decidable (Within limit length) :=
  inferInstanceAs (Decidable (_ ∨ _))

namespace Retained

/-- The lists after a mutation that nothing trims. -/
def record (lists : Retained) : Mutation → Retained
  | .intervention record =>
    { lists with
      interventions := pushUnless (fun found => found.id = record.id) lists.interventions record }
  | .fence record =>
    { lists with fences := pushUnless (fun found => found.id = record.id) lists.fences record }
  | .revalidation record => { lists with revalidations := lists.revalidations ++ [record] }
  | .historyAppend entry => { lists with history := lists.history ++ [entry] }
  | .attemptRecord record => { lists with attempts := lists.attempts ++ [record] }
  | .provenanceAppend provenance =>
    { lists with
      provenance := pushUnless (fun found => found.id = provenance.id) lists.provenance provenance }
  | _ => lists

/-- The lists with more attempts. -/
def reporting (lists : Retained) (found : List AttemptRecord) : Retained :=
  { lists with attempts := lists.attempts ++ found }

/-- Every list is within the bound of the options. -/
structure Fits (options : StoreOptions) (lists : Retained) : Prop where
  history : Within options.maxHistoryEntries lists.history.length
  interventions : Within options.maxInterventionRecords lists.interventions.length
  fences : Within options.maxFences lists.fences.length
  attempts : Within options.maxAttempts lists.attempts.length
  provenance : Within options.maxProvenance lists.provenance.length
  revalidations : Within options.maxAttempts lists.revalidations.length

variable {options : StoreOptions} {lists : Retained}

theorem within_mono {limit : UInt64} {n m : Nat} (h : Within limit m) (hle : n ≤ m) : Within limit n :=
  h.imp_right hle.trans

theorem length_le_pushUnless {α : Type} (duplicate : α → Bool) (records : List α) (record : α) :
    records.length ≤ (pushUnless duplicate records record).length := by
  unfold pushUnless
  split_ifs
  · exact Nat.le_refl _
  · rw [List.length_append]
    exact Nat.le_add_right _ _

/-- What fits after a mutation fitted before it. -/
theorem Fits.of_record {mutation : Mutation} (h : (lists.record mutation).Fits options) :
    lists.Fits options := by
  obtain ⟨hh, hi, hf, ha, hp, hr⟩ := h
  cases mutation with
  | intervention record => exact ⟨hh, within_mono hi (length_le_pushUnless _ _ _), hf, ha, hp, hr⟩
  | fence record => exact ⟨hh, hi, within_mono hf (length_le_pushUnless _ _ _), ha, hp, hr⟩
  | provenanceAppend record =>
    exact ⟨hh, hi, hf, ha, within_mono hp (length_le_pushUnless _ _ _), hr⟩
  | historyAppend entry => exact ⟨within_mono hh (by simp [record]), hi, hf, ha, hp, hr⟩
  | attemptRecord entry => exact ⟨hh, hi, hf, within_mono ha (by simp [record]), hp, hr⟩
  | revalidation entry => exact ⟨hh, hi, hf, ha, hp, within_mono hr (by simp [record])⟩
  | _ => exact ⟨hh, hi, hf, ha, hp, hr⟩

theorem Fits.reporting_iff {found : List AttemptRecord} :
    (lists.reporting found).Fits options ↔ lists.Fits options ∧
      Within options.maxAttempts (lists.attempts.length + found.length) := by
  have hlength : (lists.reporting found).attempts.length =
      lists.attempts.length + found.length := List.length_append
  constructor
  · intro h
    have hattempts := h.attempts
    rw [hlength] at hattempts
    exact ⟨⟨h.history, h.interventions, h.fences, within_mono hattempts (Nat.le_add_right _ _),
      h.provenance, h.revalidations⟩, hattempts⟩
  · rintro ⟨h, hattempts⟩
    exact ⟨h.history, h.interventions, h.fences, hlength ▸ hattempts, h.provenance,
      h.revalidations⟩

end Retained

namespace DurableDocument

theorem retained_applyMutation (d : DurableDocument) (mutation : Mutation) :
    (d.applyMutation mutation).retained = d.retained.record mutation := by
  cases mutation <;> rfl

theorem retained_of_content {d d' : DurableDocument} (h : d.content = d'.content) :
    d.retained = d'.retained := by
  change d.content.retained = d'.content.retained
  rw [h]

end DurableDocument

/-- The mutation that a body decodes to does to the lists what the mutation of its call does. -/
theorem StoreCall.record_decodeBody {c : StoreCall} {payload : Bytes} {mutation : Mutation}
    (hencoded : c.encoded = .ok payload) (hlen : payload.length < 2 ^ 64)
    (hm : decodeBody c.kind payload = .ok mutation) (lists : Retained) :
    lists.record mutation = lists.record c.mutation := by
  cases c with
  | setPolicy policy =>
    obtain ⟨_, _, hp⟩ := bind_ok.mp hm
    obtain rfl := Except.ok.inj hp
    rfl
  | _ =>
    refine congrArg lists.record (StoreCall.Stable.decodeBody ?_ hencoded hlen hm)
    trivial

namespace Store

variable {r r' : Recovery} {records : List JournalRecord} {base : DurableDocument}
  {report : StoreReplay} {store store' : Store} {options : StoreOptions}

theorem trim_of_within {α : Type} {records : List α} {limit : UInt64}
    (h : Within limit records.length) : trim records limit = records := by
  unfold trim
  split_ifs with hzero
  · rfl
  · rw [Nat.sub_eq_zero_of_le (h.resolve_left hzero), List.drop_zero]

theorem pruneDocument_retained (h : store.document.retained.Fits store.options) :
    (pruneDocument store).document.retained = store.document.retained :=
  Retained.ext (trim_of_within h.history) (trim_of_within h.interventions)
    (trim_of_within h.fences) (trim_of_within h.attempts) (trim_of_within h.provenance)
    (trim_of_within h.revalidations)

/-! ### Payloads that wait -/

/-- The slots whose payload waits for its commit. -/
def owed (r : Recovery) : SortedMap TransactionId PendingTransaction :=
  r.pending.filter fun _ slot => slot.payload.isSome

theorem contains_owed (r : Recovery) (transaction : TransactionId) :
    (owed r).contains transaction = (waitingFor r transaction).isSome := by
  unfold owed waitingFor SortedMap.contains
  rw [SortedMap.find?_filter]
  cases r.pending.find? transaction with
  | none => rfl
  | some slot => cases h : slot.payload <;> simp [h]

theorem ambiguousAttempts_owed (r : Recovery) : (ambiguousAttempts r).length = (owed r).size :=
  List.length_map _

/-- A payload that starts to wait is one more unfinished attempt. -/
theorem ambiguousAttempts_more {transaction : TransactionId} {payload : Bytes}
    (hfree : waitingFor r transaction = none)
    (h : ∀ t, waitingFor r' t = if t = transaction then some payload else waitingFor r t) :
    (ambiguousAttempts r').length = (ambiguousAttempts r).length + 1 := by
  have hmap : (owed r').mapVal (fun _ _ => ()) =
      ((owed r).mapVal fun _ _ => ()).insert transaction () := by
    ext t : 1
    have hcontains := contains_owed r' t
    have hbefore := contains_owed r t
    rw [h] at hcontains
    unfold SortedMap.contains at hcontains hbefore
    rw [SortedMap.find?_insert, SortedMap.find?_mapVal, SortedMap.find?_mapVal]
    split_ifs at hcontains ⊢ with ht
    · obtain ⟨slot, hslot⟩ := Option.isSome_iff_exists.mp hcontains
      rw [hslot]
      rfl
    · rw [← hbefore] at hcontains
      cases hr' : (owed r').find? t <;> cases hr : (owed r).find? t <;> simp_all
  have hnone : ((owed r).mapVal fun _ _ => ()).contains transaction = false := by
    have hcontains := contains_owed r transaction
    rw [hfree] at hcontains
    unfold SortedMap.contains at hcontains ⊢
    rw [SortedMap.find?_mapVal, Option.isSome_map]
    exact hcontains
  have hsize := congrArg SortedMap.size hmap
  rw [SortedMap.size_mapVal, SortedMap.size_insert, hnone, SortedMap.size_mapVal] at hsize
  rw [ambiguousAttempts_owed, ambiguousAttempts_owed]
  exact hsize

theorem ambiguousAttempts_same (h : ∀ t, waitingFor r' t = waitingFor r t) :
    (ambiguousAttempts r').length = (ambiguousAttempts r).length := by
  have hmap : (owed r').mapVal (fun _ _ => ()) = (owed r).mapVal fun _ _ => () := by
    ext t : 1
    have hcontains := contains_owed r' t
    rw [h, ← contains_owed] at hcontains
    unfold SortedMap.contains at hcontains
    rw [SortedMap.find?_mapVal, SortedMap.find?_mapVal]
    cases hr' : (owed r').find? t <;> cases hr : (owed r).find? t <;> simp_all
  have hsize := congrArg SortedMap.size hmap
  rw [SortedMap.size_mapVal, SortedMap.size_mapVal] at hsize
  rw [ambiguousAttempts_owed, ambiguousAttempts_owed]
  exact hsize

/-! ### Replaying a group -/

/-- Where replay stands before a sequence number: the lists, how many payloads wait, and all of them
under earlier numbers. -/
structure Stands (r : Recovery) (lists : Retained) (unfinished : Nat) (next : UInt64) : Prop where
  lists : r.document.retained = lists
  unfinished : (ambiguousAttempts r).length = unfinished
  behind : r.document.lastSequence < next
  earlier : ∀ transaction payload, waitingFor r transaction = some payload →
    transaction.value < next

variable {lists : Retained} {unfinished : Nat} {n : UInt64} {kind : MutationKind} {payload : Bytes}
  {stamp : MutationStamp} {mutation : Mutation}

/-- An intent leaves what waits. -/
theorem waitingFor_intent (hk : kind.named = true) (hn : r.document.lastSequence < n)
    (transaction : TransactionId) :
    waitingFor (replayRecord r (intentRecord kind stamp n)) transaction =
      waitingFor r transaction := by
  obtain ⟨_, hpending⟩ := replay_intent stamp hk hn
  unfold waitingFor
  rw [hpending, SortedMap.find?_insert]
  split_ifs with ht
  · rw [ht, SortedMap.findD]
    cases r.pending.find? ⟨n⟩ <;> rfl
  · rfl

/-- A payload waits from its record on. -/
theorem waitingFor_payload (hn : r.document.lastSequence < n + 1) (transaction : TransactionId) :
    waitingFor (replayRecord r (payloadRecord kind payload stamp n)) transaction =
      if transaction = ⟨n⟩ then some (frameBody kind payload) else waitingFor r transaction := by
  obtain ⟨_, slot, hslot, hpending⟩ := @replay_payload r kind payload stamp n hn
  unfold waitingFor
  rw [hpending, SortedMap.find?_insert]
  split_ifs with ht
  · exact hslot
  · rfl

/-- A commit takes its payload from those that wait. -/
theorem waitingFor_commit {document : DurableDocument} (hk : kind.named = true)
    (hn : r.document.lastSequence < n + 1 + 1)
    (hwait : waitingFor r ⟨n⟩ = some (frameBody kind payload))
    (happly : r.document.apply kind payload = .ok document) (transaction : TransactionId) :
    waitingFor (replayRecord r (commitRecord kind payload stamp n)) transaction =
      if transaction = ⟨n⟩ then none else waitingFor r transaction := by
  obtain ⟨_, hpending⟩ := @replay_commit r kind payload stamp n _ hk hn hwait happly
  unfold waitingFor
  rw [hpending, SortedMap.find?_erase]
  split_ifs <;> rfl

theorem lt_succ (hn : n.toNat + 1 < 2 ^ 64) : n < n + 1 := by
  have hone : (1 : UInt64).toNat = 1 := rfl
  rw [UInt64.lt_iff_toNat_lt, UInt64.toNat_add, hone, Nat.mod_eq_of_lt hn]
  exact Nat.lt_succ_self _

theorem Stands.free (h : Stands r lists unfinished n) : waitingFor r ⟨n⟩ = none := by
  cases hwait : waitingFor r ⟨n⟩ with
  | none => rfl
  | some payload => exact absurd (h.earlier _ _ hwait) (UInt64.lt_irrefl _)

theorem Stands.noteIntent (h : Stands r lists unfinished n) (hk : kind.named = true)
    (hn : n.toNat + 1 < 2 ^ 64) :
    Stands (replayRecord r (intentRecord kind stamp n)) lists unfinished (n + 1) ∧
      waitingFor (replayRecord r (intentRecord kind stamp n)) ⟨n⟩ = none := by
  obtain ⟨hdocument, _⟩ := replay_intent stamp hk h.behind
  have hsame : ∀ t, waitingFor (replayRecord r (intentRecord kind stamp n)) t = waitingFor r t :=
    waitingFor_intent hk h.behind
  have hlt := lt_succ hn
  refine ⟨⟨?_, ?_, ?_, ?_⟩, (hsame _).trans h.free⟩
  · rw [hdocument]
    exact h.lists
  · rw [ambiguousAttempts_same hsame]
    exact h.unfinished
  · rw [hdocument]
    exact UInt64.lt_trans h.behind hlt
  · intro t found hwait
    rw [hsame] at hwait
    exact UInt64.lt_trans (h.earlier t found hwait) hlt

theorem Stands.notePayload (h : Stands r lists unfinished (n + 1)) (hfree : waitingFor r ⟨n⟩ = none)
    (hn : n.toNat + 2 < 2 ^ 64) :
    Stands (replayRecord r (payloadRecord kind payload stamp n)) lists (unfinished + 1) (n + 1 + 1) ∧
      waitingFor (replayRecord r (payloadRecord kind payload stamp n)) ⟨n⟩ =
        some (frameBody kind payload) := by
  obtain ⟨hdocument, _⟩ := @replay_payload r kind payload stamp n h.behind
  have hwaits : ∀ t, waitingFor (replayRecord r (payloadRecord kind payload stamp n)) t =
      if t = ⟨n⟩ then some (frameBody kind payload) else waitingFor r t :=
    waitingFor_payload h.behind
  have hone : (1 : UInt64).toNat = 1 := rfl
  have hlt₁ : n < n + 1 := lt_succ (by omega)
  have hlt₂ : n + 1 < n + 1 + 1 := by
    refine lt_succ ?_
    rw [UInt64.toNat_add, hone, Nat.mod_eq_of_lt (by omega)]
    omega
  refine ⟨⟨?_, ?_, ?_, ?_⟩, ?_⟩
  · rw [hdocument]
    exact h.lists
  · rw [ambiguousAttempts_more hfree hwaits, h.unfinished]
  · rw [hdocument]
    exact UInt64.lt_trans h.behind hlt₂
  · intro t found hwait
    rw [hwaits] at hwait
    split_ifs at hwait with ht
    · rw [ht]
      exact UInt64.lt_trans hlt₁ hlt₂
    · exact UInt64.lt_trans (h.earlier t found hwait) hlt₂
  · rw [hwaits, if_pos rfl]

theorem Stands.noteCommit (h : Stands r lists (unfinished + 1) (n + 1 + 1)) (hk : kind.named = true)
    (hwait : waitingFor r ⟨n⟩ = some (frameBody kind payload))
    (hm : decodeBody kind payload = .ok mutation) (hn : n.toNat + 3 < 2 ^ 64) :
    Stands (replayRecord r (commitRecord kind payload stamp n)) (lists.record mutation) unfinished
      (n + 1 + 1 + 1) := by
  have happly : r.document.apply kind payload = .ok (r.document.applyMutation mutation) :=
    bind_ok.mpr ⟨mutation, hm, rfl⟩
  obtain ⟨hdocument, _⟩ := @replay_commit r kind payload stamp n _ hk h.behind hwait happly
  have hwaits : ∀ t, waitingFor (replayRecord r (commitRecord kind payload stamp n)) t =
      if t = ⟨n⟩ then none else waitingFor r t :=
    waitingFor_commit hk h.behind hwait happly
  obtain ⟨_, h₂, h₃⟩ := toNat_next hn
  have hlt : n + 1 + 1 < n + 1 + 1 + 1 := by
    rw [UInt64.lt_iff_toNat_lt]
    omega
  refine ⟨?_, ?_, ?_, ?_⟩
  · rw [hdocument]
    change (r.document.applyMutation mutation).retained = _
    rw [DurableDocument.retained_applyMutation, h.lists]
  · have hbefore : ∀ t, waitingFor r t = if t = ⟨n⟩ then some (frameBody kind payload)
        else waitingFor (replayRecord r (commitRecord kind payload stamp n)) t := by
      intro t
      rw [hwaits]
      split_ifs with ht
      · rw [ht, hwait]
      · rfl
    have hmore := ambiguousAttempts_more ((hwaits _).trans (if_pos rfl)) hbefore
    have hunfinished := h.unfinished
    omega
  · rw [hdocument]
    exact hlt
  · intro t found hfound
    rw [hwaits] at hfound
    split_ifs at hfound
    exact UInt64.lt_trans (h.earlier t found hfound) hlt

/-! ### Lists that nothing trimmed -/

/-- A store with its lists as they would be had nothing been trimmed since its last checkpoint, the
payloads that its journal has without a commit, and whether an open has reported such payloads that
no checkpoint has saved. -/
structure Untrimmed where
  store : Store
  recorded : Retained := {}
  unfinished : Nat := 0
  unsaved : Bool := false

inductive Keeping where
  | call (stamp : MutationStamp) (c : StoreCall)
  | checkpoint
  | reopen

/-- Calls with any outcome, checkpoints of a document that an open admits whole, and opens of the same
directory under the same options. A call comes while no reported attempt is unsaved, and a group that
stopped after its payload has left that payload unfinished. -/
inductive Untrimmed.Step (w : Untrimmed) : Keeping → Untrimmed → Prop where
  | committed {stamp : MutationStamp} {c : StoreCall} {store : Store} (hsaved : w.unsaved = false)
      (hcounter : w.store.journal.nextSequence.toNat + 3 < 2 ^ 64)
      (hcall : w.store.call stamp c = (store, .ok ())) :
      Step w (.call stamp c) { w with store, recorded := w.recorded.record c.mutation }
  | failed {stamp : MutationStamp} {c : StoreCall} {store : Store} {status : Status}
      (hsaved : w.unsaved = false) (hcounter : w.store.journal.nextSequence.toNat + 3 < 2 ^ 64)
      (hcall : w.store.call stamp c = (store, .error status)) :
      Step w (.call stamp c) { w with
        store
        unfinished := w.unfinished +
          if store.journal.nextSequence = w.store.journal.nextSequence + 1 + 1 then 1 else 0 }
  | checkpoint {store : Store} (hcounter : w.store.journal.nextSequence.toNat + 3 < 2 ^ 64)
      (hcount : w.store.document.compactCalls.length ≤ (snapshotOptions w.store.options).maxRecords)
      (hcheckpoint : w.store.checkpoint = (store, .ok ())) :
      Step w .checkpoint { store, recorded := w.store.document.retained }
  | refused (hcheckpoint : w.store.checkpoint.1 = w.store) : Step w .checkpoint w
  | reopen {store : Store} (hopen : openDisk w.store.disk w.store.options = .ok store) :
      Step w .reopen { w with store, unsaved := w.unfinished ≠ 0 }

/-- Reopening under the same options gives the lists back, up to attempts newly reported ambiguous,
and every list within its bound. -/
def Survives (store : Store) : Prop :=
  ∃ second newly, openDisk store.disk store.options = .ok second ∧
    (∀ attempt ∈ newly, attempt.state = .ambiguous) ∧
    second.document.retained = store.document.retained.reporting newly ∧
    second.document.retained.Fits second.options

/-- The journal over the snapshot replays to the untrimmed lists, and the document has them too while
they fit. -/
structure Accounted (base : DurableDocument) (report : StoreReplay) (records : List JournalRecord)
    (w : Untrimmed) : Prop where
  holds : Holds w.store.journal records
  loads : loadSnapshot w.store.snapshot w.store.options = .ok (base, report)
  founded : DurableDocument.Normal base
  normal : DurableDocument.Normal w.store.document
  position : w.store.document.lastSequence < w.store.journal.nextSequence
  lists : (replayFrom base records).document.retained = w.recorded
  unfinished : (ambiguousAttempts (replayFrom base records)).length = w.unfinished
  behind : (replayFrom base records).document.lastSequence < w.store.journal.nextSequence
  earlier : w.unsaved = false → ∀ transaction payload,
    waitingFor (replayFrom base records) transaction = some payload →
      transaction.value < w.store.journal.nextSequence
  live : w.recorded.Fits w.store.options → w.store.document.retained =
    w.recorded.reporting (if w.unsaved then ambiguousAttempts (replayFrom base records) else [])

variable {w w' : Untrimmed} {c : StoreCall}

theorem Accounted.stands (h : Accounted base report records w) (hsaved : w.unsaved = false) :
    Stands (replayFrom base records) w.recorded w.unfinished w.store.journal.nextSequence :=
  ⟨h.lists, h.unfinished, h.behind, h.earlier hsaved⟩

theorem reporting_nil (lists : Retained) : lists.reporting [] = lists :=
  Retained.ext rfl rfl rfl (List.append_nil _) rfl rfl

/-- What the three records of a group do to where replay stands. -/
theorem Stands.group (h : Stands (replayFrom base records) lists unfinished n)
    (hk : kind.named = true) (hn : n.toNat + 3 < 2 ^ 64) :
    Stands (replayFrom base (records ++ [intentRecord kind stamp n])) lists unfinished (n + 1) ∧
      Stands (replayFrom base
        (records ++ [intentRecord kind stamp n] ++ [payloadRecord kind payload stamp n])) lists
        (unfinished + 1) (n + 1 + 1) ∧
      (decodeBody kind payload = .ok mutation →
        Stands (replayFrom base (records ++ groupRecords kind payload stamp n))
          (lists.record mutation) unfinished (n + 1 + 1 + 1)) := by
  obtain ⟨h₁, hfree⟩ := @Stands.noteIntent _ _ _ n kind stamp h hk (by omega)
  rw [← replayFrom_concat] at h₁ hfree
  obtain ⟨h₂, hwait⟩ := @Stands.notePayload _ _ _ n kind payload stamp h₁ hfree (by omega)
  rw [← replayFrom_concat] at h₂ hwait
  refine ⟨h₁, h₂, fun hm => ?_⟩
  have h₃ := @Stands.noteCommit _ _ _ n kind payload stamp mutation h₂ hk hwait hm hn
  rw [← replayFrom_concat, List.append_assoc, List.append_assoc] at h₃
  exact h₃

/-- The document keeps to its shape, and to a place before the next sequence number. -/
theorem Accounted.document (h : Accounted base report records w) (stamp : MutationStamp)
    (c : StoreCall) (hle : w.store.journal.nextSequence ≤
      (w.store.call stamp c).1.journal.nextSequence) :
    DurableDocument.Normal (w.store.call stamp c).1.document ∧
      (w.store.call stamp c).1.document.lastSequence <
        (w.store.call stamp c).1.journal.nextSequence := by
  have hposition := UInt64.lt_of_lt_of_le h.position hle
  rcases call_document w.store stamp c with hsame | ⟨hnormal, hlast⟩
  · rw [hsame]
    exact ⟨h.normal, hposition⟩
  · refine ⟨hnormal h.normal, ?_⟩
    rw [hlast]
    have hpos := UInt64.lt_iff_toNat_lt.mp hposition
    have hone : (1 : UInt64).toNat = 1 := rfl
    have hle' : (1 : UInt64) ≤ (w.store.call stamp c).1.journal.nextSequence :=
      UInt64.le_iff_toNat_le.mpr (by omega)
    rw [UInt64.lt_iff_toNat_lt, UInt64.toNat_sub_of_le _ _ hle', hone]
    omega

theorem Accounted.committed (h : Accounted base report records w) (hsaved : w.unsaved = false)
    (hcounter : w.store.journal.nextSequence.toNat + 3 < 2 ^ 64)
    (hcall : w.store.call stamp c = (store', .ok ())) :
    ∃ records', Accounted base report records'
      { w with store := store', recorded := w.recorded.record c.mutation } := by
  obtain ⟨payload, hencoded, hcommit⟩ := call_ok hcall
  obtain ⟨hadmitted, journal, mutation, hgroup, hm, rfl⟩ := commit_recorded hcommit
  obtain ⟨_, hkind, _⟩ := admitMutation_ok hadmitted
  have hlength := admitMutation_length hadmitted
  have hsame := StoreCall.record_decodeBody hencoded hlength hm w.recorded
  obtain ⟨hholds, hnext, _, _⟩ := appendGroup_ok h.holds hgroup
  obtain ⟨_, _, hgrown⟩ := @Stands.group _ _ _ _ _ c.kind payload (c.stamped stamp) mutation
    (h.stands hsaved) hkind hcounter
  have hstands := hgrown hm
  rw [hsame, ← hnext] at hstands
  have hle : w.store.journal.nextSequence ≤ (w.store.call stamp c).1.journal.nextSequence := by
    obtain ⟨_, _, hthree⟩ := toNat_next hcounter
    rw [hcall]
    change _ ≤ journal.nextSequence
    rw [hnext, UInt64.le_iff_toNat_le, hthree]
    omega
  obtain ⟨hnormal, hposition⟩ := h.document stamp c hle
  rw [hcall] at hnormal hposition
  refine ⟨_, hholds, h.loads, h.founded, hnormal, hposition, hstands.lists, hstands.unfinished,
    hstands.behind, fun _ => hstands.earlier, fun hfits => ?_⟩
  have hlive := h.live hfits.of_record
  rw [hsaved] at hlive
  have hbefore : w.store.document.retained = w.recorded := hlive.trans (reporting_nil _)
  have hafter : (w.store.recorded journal (w.store.document.applyMutation mutation)
      (c.stamped stamp).generation).document.retained = w.recorded.record c.mutation := by
    change (w.store.document.applyMutation mutation).retained = _
    rw [DurableDocument.retained_applyMutation, hbefore, hsame]
  have hpruned := @pruneDocument_retained (w.store.recorded journal
    (w.store.document.applyMutation mutation) (c.stamped stamp).generation) (hafter ▸ hfits)
  dsimp only
  rw [hsaved, hpruned, hafter]
  exact (reporting_nil _).symm

theorem Accounted.failed (h : Accounted base report records w) (hsaved : w.unsaved = false)
    (hcounter : w.store.journal.nextSequence.toNat + 3 < 2 ^ 64) {status : Status}
    (hcall : w.store.call stamp c = (store', .error status)) :
    ∃ records', Accounted base report records' { w with
      store := store'
      unfinished := w.unfinished +
        if store'.journal.nextSequence = w.store.journal.nextSequence + 1 + 1 then 1 else 0 } := by
  obtain ⟨hone, htwo, _⟩ := toNat_next hcounter
  have hunchanged : w.store.journal.nextSequence ≠ w.store.journal.nextSequence + 1 + 1 := by
    intro hsame
    have hcount := congrArg UInt64.toNat hsame
    omega
  rcases w.store.call_cases stamp c with ⟨_, hr⟩ | ⟨payload, _, hc⟩
  · obtain ⟨rfl, _⟩ := Prod.mk.inj (hcall.symm.trans hr)
    rw [if_neg hunchanged]
    exact ⟨records, h⟩
  · rcases commit_error (hc.symm.trans hcall) with rfl | ⟨hkind, journal, hgroup, rfl⟩
    · rw [if_neg hunchanged]
      exact ⟨records, h⟩
    · obtain ⟨h₁, h₂, _⟩ := @Stands.group _ _ _ _ _ c.kind payload (c.stamped stamp)
        c.mutation (h.stands hsaved) hkind hcounter
      have hstep : ∀ records' unfinished, Holds journal records' →
          w.store.journal.nextSequence ≤ journal.nextSequence →
          Stands (replayFrom base records') w.recorded unfinished journal.nextSequence →
          Accounted base report records'
            { w with store := { w.store with journal }, unfinished } := by
        intro records' unfinished hholds hle hstands
        refine ⟨hholds, h.loads, h.founded, h.normal, UInt64.lt_of_lt_of_le h.position hle,
          hstands.lists, hstands.unfinished, hstands.behind, fun _ => hstands.earlier, ?_⟩
        intro hfits
        have hlive := h.live hfits
        rw [hsaved] at hlive
        dsimp only
        rw [hsaved]
        exact hlive
      rcases appendGroup_cases h.holds c.kind payload (c.stamped stamp) with ⟨_, he⟩ |
        ⟨_, after, he, hholds, hnext⟩ | ⟨_, after, he, hholds, hnext⟩ | ⟨_, he, _⟩
      · obtain ⟨rfl, _⟩ := Prod.mk.inj (hgroup.symm.trans he)
        rw [if_neg hunchanged]
        exact ⟨records, h⟩
      · obtain ⟨rfl, _⟩ := Prod.mk.inj (hgroup.symm.trans he)
        have hne : journal.nextSequence ≠ w.store.journal.nextSequence + 1 + 1 := by
          intro hsame
          have hcount := congrArg UInt64.toNat (hnext.symm.trans hsame)
          omega
        rw [if_neg hne]
        refine ⟨_, hstep _ _ hholds ?_ (hnext ▸ h₁)⟩
        rw [hnext, UInt64.le_iff_toNat_le]
        omega
      · obtain ⟨rfl, _⟩ := Prod.mk.inj (hgroup.symm.trans he)
        rw [if_pos hnext]
        refine ⟨_, hstep _ _ hholds ?_ (hnext ▸ h₂)⟩
        rw [hnext, UInt64.le_iff_toNat_le]
        omega
      · cases (Prod.mk.inj (hgroup.symm.trans he)).2

/-- Opening gives the untrimmed lists, with every payload that waits reported. -/
theorem Accounted.reopened (h : Accounted base report records w) :
    ∃ second, openDisk w.store.disk w.store.options = .ok second ∧ Holds second.journal records ∧
      second.document = (retainAmbiguous (replayFrom base records)).document ∧
      second.snapshot = w.store.snapshot ∧ second.options = w.store.options ∧
      (replayFrom base records).document.lastSequence < second.journal.nextSequence ∧
      second.document.retained =
        w.recorded.reporting (ambiguousAttempts (replayFrom base records)) := by
  have hlog : (logOf JournalRecord.encode records ++ []).length ≤ limits.kMaxJournalBytes := by
    rw [List.append_nil, ← h.holds.file, ← h.holds.size]
    exact h.holds.fits
  have hfile : w.store.disk.journal = some (logOf JournalRecord.encode records ++ []) := by
    rw [List.append_nil, ← h.holds.file]
    rfl
  have hload : loadSnapshot w.store.disk.snapshot w.store.options = .ok (base, report) := h.loads
  obtain ⟨second, hopen, hholds, hdocument, hsnapshot, hoptions, hresume⟩ :=
    openDisk_torn hload hfile hlog h.holds.whole (.inl rfl) (.inl rfl) (.inl rfl)
  have hbehind := UInt64.lt_iff_toNat_lt.mp h.behind
  have hbound := w.store.journal.nextSequence.toNat_lt
  have hlt := lt_succ (n := (replayFrom base records).document.lastSequence) (by omega)
  have hnext : (replayFrom base records).document.lastSequence + 1 ≠ 0 := by
    intro hzero
    rw [hzero] at hlt
    exact absurd (UInt64.lt_iff_toNat_lt.mp hlt) (Nat.not_lt_zero _)
  refine ⟨second, hopen, hholds, hdocument, hsnapshot, hoptions, ?_, ?_⟩
  · rw [hresume hnext]
    exact hlt
  · rw [hdocument, ← h.lists]
    rfl

theorem Accounted.reopen (h : Accounted base report records w)
    (hopen : openDisk w.store.disk w.store.options = .ok store') :
    Accounted base report records { w with store := store', unsaved := w.unfinished ≠ 0 } := by
  obtain ⟨second, hopen', hholds, hdocument, hsnapshot, hoptions, hbehind, hlists⟩ := h.reopened
  obtain rfl := Except.ok.inj (hopen.symm.trans hopen')
  have hnormal := replayFrom_normal h.founded records
  refine ⟨hholds, ?_, h.founded, ?_, ?_, h.lists, h.unfinished, hbehind, ?_, ?_⟩
  · dsimp only
    rw [hsnapshot, hoptions]
    exact h.loads
  · dsimp only
    rw [hdocument]
    exact ⟨hnormal.policy, hnormal.keyed, hnormal.interventions, hnormal.fences,
      hnormal.provenance⟩
  · dsimp only
    rw [hdocument, retainAmbiguous_last]
    exact hbehind
  · intro hsaved transaction payload hwait
    have hnone : w.unfinished = 0 := by simpa using hsaved
    have hempty := List.length_eq_zero_iff.mp (h.unfinished.trans hnone)
    unfold waitingFor at hwait
    obtain ⟨slot, hslot, hpayload⟩ := Option.bind_eq_some_iff.mp hwait
    rw [ambiguousAttempts_nil.mp hempty transaction slot hslot] at hpayload
    cases hpayload
  · intro _
    rw [hlists]
    dsimp only
    by_cases hnone : w.unfinished = 0
    · have hempty := List.length_eq_zero_iff.mp (h.unfinished.trans hnone)
      rw [hempty, ite_self]
    · rw [decide_eq_true hnone, if_pos rfl]

theorem Accounted.checkpoint (h : Accounted base report records w)
    (hcounter : w.store.journal.nextSequence.toNat + 3 < 2 ^ 64)
    (hcount : w.store.document.compactCalls.length ≤ (snapshotOptions w.store.options).maxRecords)
    (hcheckpoint : w.store.checkpoint = (store', .ok ())) :
    ∃ base' report' records', Accounted base' report' records'
      { store := store', recorded := w.store.document.retained } := by
  obtain ⟨container, _, _, rebased, hcompact, rfl, hholds, hnext⟩ :=
    checkpoint_ok h.holds hcheckpoint
  obtain ⟨hfits, _⟩ := loadSnapshot_compact h.normal hcompact w.store.options
  obtain ⟨loaded, hload, hcontent, hlast⟩ := hfits hcount
  have hlt : w.store.journal.nextSequence < w.store.journal.nextSequence + 1 := lt_succ (by omega)
  have hahead : loaded.lastSequence < w.store.journal.nextSequence := hlast ▸ h.position
  obtain ⟨hdocument, hpending⟩ :=
    replayFrom_rebase (Journal.recordOf_type w.store.journal.nextSequence) hahead
  refine ⟨loaded, _, _, hholds, hload, h.normal.congr hcontent, h.normal, ?_, ?_, ?_, ?_, ?_, ?_⟩
  · dsimp only
    rw [hnext]
    exact UInt64.lt_trans h.position hlt
  · rw [hdocument]
    exact DurableDocument.retained_of_content hcontent
  · rw [ambiguousAttempts_empty hpending]
    rfl
  · rw [hdocument]
    dsimp only
    rw [hnext]
    exact hlt
  · intro _ transaction payload hwait
    unfold waitingFor at hwait
    rw [hpending] at hwait
    cases hwait
  · intro _
    exact (reporting_nil _).symm

theorem writable_of_openDisk (hopen : openDisk {} options = .ok store) :
    options.readOnly = false := by
  cases hread : options.readOnly with
  | false => rfl
  | true =>
    obtain ⟨_, _, hjournal⟩ := bind_ok.mp hopen
    obtain ⟨_, hfile, _⟩ := bind_ok.mp hjournal
    have hoptions : (journalOptions options).readOnly = true := hread
    change Journal.openFile none (journalOptions options) = _ at hfile
    unfold Journal.openFile at hfile
    rw [hoptions] at hfile
    cases hfile

theorem Accounted.start (hopen : openDisk {} options = .ok store) :
    Accounted {} {} [] { store } ∧ store.options = options := by
  have hwritable := writable_of_openDisk hopen
  have hload : loadSnapshot ({ journal := some [] } : Disk).snapshot options = .ok ({}, {}) := rfl
  have hfile : ({ journal := some [] } : Disk).journal =
      some (logOf JournalRecord.encode [] ++ []) := rfl
  obtain ⟨found, hfound, hholds, hdocument, hsnapshot, hoptions, hresume⟩ :=
    openDisk_torn hload hfile (by decide) (fun _ hr => absurd hr List.not_mem_nil)
      (.inl rfl) (.inl rfl) (.inl rfl)
  obtain rfl := Except.ok.inj (hopen.symm.trans ((openDisk_none hwritable).trans hfound))
  have hnext : store.journal.nextSequence = 1 := hresume (by decide)
  refine ⟨⟨hholds, ?_, .empty, ?_, ?_, rfl, rfl, ?_, ?_, ?_⟩, hoptions⟩
  · dsimp only
    rw [hsnapshot]
    rfl
  · dsimp only
    rw [hdocument]
    exact .empty
  · dsimp only
    rw [hdocument, hnext]
    decide
  · dsimp only
    rw [hnext]
    decide
  · intro _ transaction payload hwait
    cases hwait
  · intro _
    dsimp only
    rw [hdocument]
    rfl

theorem Accounted.step {keeping : Keeping} (h : Accounted base report records w)
    (hstep : w.Step keeping w') :
    (∃ base' report' records', Accounted base' report' records' w') ∧
      w'.store.options = w.store.options := by
  cases hstep with
  | @committed stamp c store hsaved hcounter hcall =>
    have hframe := (call_frame w.store stamp c).1
    rw [hcall] at hframe
    obtain ⟨records', h'⟩ := h.committed hsaved hcounter hcall
    exact ⟨⟨_, _, records', h'⟩, hframe⟩
  | @failed stamp c store status hsaved hcounter hcall =>
    have hframe := (call_frame w.store stamp c).1
    rw [hcall] at hframe
    obtain ⟨records', h'⟩ := h.failed hsaved hcounter hcall
    exact ⟨⟨_, _, records', h'⟩, hframe⟩
  | checkpoint hcounter hcount hcheckpoint =>
    refine ⟨h.checkpoint hcounter hcount hcheckpoint, ?_⟩
    obtain ⟨_, _, _, _, _, rfl, _⟩ := checkpoint_ok h.holds hcheckpoint
    rfl
  | refused => exact ⟨⟨_, _, _, h⟩, rfl⟩
  | reopen hopen =>
    obtain ⟨second, hopen', _, _, _, hoptions, _⟩ := h.reopened
    obtain rfl := Except.ok.inj (hopen.symm.trans hopen')
    exact ⟨⟨_, _, _, h.reopen hopen⟩, hoptions⟩

/-- The lists survive just when they would fit had nothing been trimmed since the last checkpoint. -/
theorem Accounted.survives_iff (h : Accounted base report records w) :
    Survives w.store ↔ w.recorded.Fits w.store.options ∧
      Within w.store.options.maxAttempts (w.recorded.attempts.length + w.unfinished) := by
  obtain ⟨second, hopen, _, _, _, hoptions, _, hlists⟩ := h.reopened
  rw [← h.unfinished, ← Retained.Fits.reporting_iff]
  constructor
  · rintro ⟨found, newly, hfound, _, _, hfits⟩
    obtain rfl := Except.ok.inj (hfound.symm.trans hopen)
    rw [hlists, hoptions] at hfits
    exact hfits
  · intro hfits
    have hlive := h.live (Retained.Fits.reporting_iff.mp hfits).1
    have hsecond : second.document.retained.Fits second.options := by
      rw [hlists, hoptions]
      exact hfits
    cases hsaved : w.unsaved with
    | false =>
      rw [hsaved] at hlive
      have hsame : w.store.document.retained = w.recorded := hlive.trans (reporting_nil _)
      exact ⟨second, _, hopen, ambiguousAttempts_state _, hsame ▸ hlists, hsecond⟩
    | true =>
      rw [hsaved] at hlive
      have hsame : second.document.retained = w.store.document.retained :=
        hlists.trans hlive.symm
      exact ⟨second, [], hopen, fun _ ha => absurd ha List.not_mem_nil,
        hsame.trans (reporting_nil _).symm, hsecond⟩

/-- In every run from an empty directory the lists survive a reopening just when those recorded since
the last checkpoint, over the lists of that checkpoint, fit without a trim. -/
theorem retention_survives_iff {first : Store} {es : List (Event Untrimmed Keeping)}
    (hopen : openDisk {} options = .ok first) (run : Run Untrimmed.Step { store := first } es w) :
    Survives w.store ↔ w.recorded.Fits options ∧
      Within options.maxAttempts (w.recorded.attempts.length + w.unfinished) := by
  obtain ⟨hstart, hoptions⟩ := Accounted.start hopen
  have hinvariant : (∃ base report records, Accounted base report records w) ∧
      w.store.options = options :=
    run.invariant (P := fun w => (∃ base report records, Accounted base report records w) ∧
      w.store.options = options) ⟨⟨_, _, _, hstart⟩, hoptions⟩ fun s keeping s' hs hstep => by
        obtain ⟨⟨base, report, records, h⟩, hconfigured⟩ := hs
        obtain ⟨h', hsame⟩ := h.step hstep
        exact ⟨h', hsame.trans hconfigured⟩
  obtain ⟨⟨base, report, records, h⟩, hconfigured⟩ := hinvariant
  rw [← hconfigured]
  exact h.survives_iff

/-- Room for one history entry. -/
def brief : StoreOptions := { maxHistoryEntries := 1 }

/-- A store with room for one history entry, after some entries. -/
def entered : Nat → Store
  | 0 =>
    match openDisk {} brief with
    | .ok store => store
    | .error _ => {}
  | n + 1 => ((entered n).call {} (.appendHistory {})).1

theorem entered_opens : openDisk {} brief = .ok (entered 0) := rfl

set_option maxRecDepth 100000 in
theorem entered_reopens : ((openDisk (entered 2).disk (entered 2).options).toOption.map fun second =>
      (second.document.history.length, second.options.maxHistoryEntries)) = some (2, 1) ∧
    ((entered 0).call {} (.appendHistory {})).2 = .ok () ∧
    (entered 0).journal.nextSequence.toNat + 3 < 2 ^ 64 := by
  decide +kernel

theorem retention_survives_iff_entered : Survives (entered 1) := by
  obtain ⟨_, hcall, hcounter⟩ := entered_reopens
  have hstep : Untrimmed.Step { store := entered 0 } (.call {} (.appendHistory {}))
      { store := entered 1, recorded := Retained.record {} (.historyAppend {}) } :=
    .committed rfl hcounter (Prod.ext rfl hcall)
  refine (retention_survives_iff entered_opens (Run.start.next hstep)).mpr ⟨?_, .inr (by decide)⟩
  exact ⟨.inr (by decide), .inr (by decide), .inr (by decide), .inr (by decide), .inr (by decide),
    .inr (by decide)⟩

/-- Two entries where there is room for one: both are there after a reopening. -/
theorem reopening_exceeds_bound : ∃ es, Run Serviced (entered 0) es (entered 2) ∧
    ¬Survives (entered 2) := by
  refine ⟨_, (Run.start.next (.call {} (.appendHistory {}))).next (.call {} (.appendHistory {})), ?_⟩
  rintro ⟨second, newly, hopen, _, _, hfits⟩
  obtain ⟨hreopens, _⟩ := entered_reopens
  rw [hopen] at hreopens
  obtain ⟨hlength, hbound⟩ := Prod.mk.inj (Option.some.inj hreopens)
  have hhistory := hfits.history
  change Within second.options.maxHistoryEntries second.document.history.length at hhistory
  rw [hbound, hlength] at hhistory
  exact absurd hhistory (by decide)

end Store

end CongestionFabric
