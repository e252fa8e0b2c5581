import CongestionFabric.Durability.Persistable
import CongestionFabric.Durability.Room

namespace CongestionFabric.Store

variable {store store' : Store} {state : DomainState} {stamp : MutationStamp}
  {kind : MutationKind} {payload : Bytes} {calls : List (DomainState × MutationStamp)}

/-- The answer to a mutation that is refused on account of the domain bound. -/
def atDomainBound : VoidResult := fail .limitExceeded "durable domain count is at its bound"

theorem error_ne_atDomainBound {status : Status}
    (h : status.message ≠ "durable domain count is at its bound") :
    (.error status : VoidResult) ≠ atDomainBound := by
  intro heq
  exact h (congrArg Status.message (Except.error.inj heq))

theorem succeed_ne_atDomainBound : succeed ≠ atDomainBound := by
  simp [succeed, atDomainBound, fail]

/-! ### What can refuse a domain -/

theorem append_ne_atDomainBound (journal : Journal) (type : RecordType) (epoch : EpochId)
    (generation : UInt64) (transaction : TransactionId) (body : Bytes) :
    (journal.append type epoch generation transaction body).2 ≠ atDomainBound := by
  unfold Journal.append
  dsimp only
  split
  · exact error_ne_atDomainBound (by decide)
  · split
    · exact error_ne_atDomainBound (by decide)
    · split
      · exact error_ne_atDomainBound (by decide)
      · split
        · exact error_ne_atDomainBound (by decide)
        · split
          · exact error_ne_atDomainBound (by decide)
          · exact error_ne_atDomainBound (by decide)
          · exact error_ne_atDomainBound (by decide)
          · exact succeed_ne_atDomainBound

theorem appendGroup_ne_atDomainBound (journal : Journal) (kind : MutationKind) (payload : Bytes)
    (stamp : MutationStamp) : (appendGroup journal kind payload stamp).2 ≠ atDomainBound := by
  have happend := append_ne_atDomainBound
  unfold appendGroup
  dsimp only
  split
  next journal₁ status hfirst =>
    exact fun heq => happend _ _ _ _ _ _ ((congrArg Prod.snd hfirst).trans heq)
  next =>
    split
    next journal₂ status hsecond =>
      exact fun heq => happend _ _ _ _ _ _ ((congrArg Prod.snd hsecond).trans heq)
    next => exact happend _ _ _ _ _ _

theorem encodeDomainState_length (state : DomainState) :
    ∃ payload, encodeDomainState state = .ok payload ∧
      payload.length + kMutationPrefix ≤ limits.kMaxJournalRecordBytes := by
  refine ⟨_, rfl, ?_⟩
  have hmax : 200 ≤ limits.kMaxJournalRecordBytes := by decide
  have hprefix : kMutationPrefix = 2 := rfl
  simp only [List.length_append, ByteWriter.put_length, ByteWriter.u64_length,
    ByteWriter.u32_length, ByteWriter.u8_length, ByteWriter.boolean_length]
  omega

/-- A body that does not decode is refused for what it holds. -/
theorem validateDomainState_ne_atDomainBound (h : encodeDomainState state = .ok payload)
    (hlen : payload.length < 2 ^ 64) : validateBody .domainState payload ≠ atDomainBound := by
  have hread : ByteReader.decode readDomainState payload = .ok state :=
    ((recovers_domainState h).decode_iff hlen).mpr ⟨trivial, rfl⟩
  have hbody : validateBody .domainState payload =
      (refuseIf (¬state.domain.valid) .malformed "durable domain state has no domain identity") := by
    unfold validateBody decodeBody decodeDomainState
    rw [hread]
    by_cases hvalid : state.domain.valid = true
    · simp [refuseIf, hvalid, succeed, bind, Except.bind, pure, Except.pure]
    · simp [refuseIf, hvalid, fail, bind, Except.bind]
  rw [hbody]
  unfold refuseIf
  split
  · exact error_ne_atDomainBound (by decide)
  · exact succeed_ne_atDomainBound

/-! ### One put -/

/-- The second test of the bound looks at the count alone. -/
theorem putDomainState_refused_iff (hopen : store.isOpen = true) :
    (store.putDomainState state stamp).2 = atDomainBound ↔
      store.document.domains.size ≥ store.options.maxDomains.toNat := by
  obtain ⟨payload, hencoded, hlen⟩ := encodeDomainState_length state
  have hmax : limits.kMaxJournalRecordBytes < 2 ^ 64 := by decide
  unfold putDomainState
  split
  next hfull => exact iff_of_true rfl hfull.2
  next =>
    rw [hencoded]
    change (store.commit .domainState payload stamp).2 = atDomainBound ↔ _
    by_cases hfull : store.document.domains.size ≥ store.options.maxDomains.toNat
    · refine iff_of_true ?_ hfull
      have hadmitted : store.admitMutation .domainState payload = atDomainBound := by
        unfold admitMutation enforceGrowthLimits
        simp [hopen, hfull, not_lt.mpr hlen, refuseIf, succeed, MutationKind.named, bind,
          Except.bind, fail, atDomainBound]
      unfold commit
      rw [hadmitted]
      rfl
    · refine iff_of_false ?_ hfull
      have hadmitted : store.admitMutation .domainState payload = validateBody .domainState payload := by
        unfold admitMutation enforceGrowthLimits
        simp [hopen, hfull, not_lt.mpr hlen, refuseIf, succeed, MutationKind.named, bind,
          Except.bind]
      have hbody := validateDomainState_ne_atDomainBound hencoded (by omega)
      unfold commit
      rw [hadmitted]
      split
      next status hinvalid =>
        intro heq
        exact hbody (hinvalid.trans heq)
      next hvalid =>
        split
        next journal status hgroup =>
          intro heq
          exact appendGroup_ne_atDomainBound _ _ _ _ ((congrArg Prod.snd hgroup).trans heq)
        next journal hgroup =>
          obtain ⟨document, hdocument⟩ :=
            DurableDocument.apply_of_validateBody hvalid store.document
          rw [hdocument]
          exact succeed_ne_atDomainBound

theorem commit_failed {status : Status}
    (h : store.commit kind payload stamp = (store', .error status)) :
    store'.document = store.document ∧ store'.options = store.options ∧
      store'.isOpen = store.isOpen := by
  rcases commit_error h with rfl | ⟨_, _, _, rfl⟩ <;> exact ⟨rfl, rfl, rfl⟩

/-- A put leaves the domains, or writes its own where there is room. -/
theorem putDomainState_domains (store : Store) (state : DomainState) (stamp : MutationStamp) :
    let store' := (store.putDomainState state stamp).1
    (store'.document.domains = store.document.domains ∨
      store.document.domains.size < store.options.maxDomains.toNat ∧
        store'.document.domains = store.document.domains.insert state.domain state) ∧
    store'.options = store.options ∧ store'.isOpen = store.isOpen := by
  intro store'
  obtain ⟨answered, result, hcall⟩ : ∃ answered result,
      store.call stamp (.putDomainState state) = (answered, result) := ⟨_, _, rfl⟩
  have hanswered : store' = answered := congrArg Prod.fst hcall
  rw [hanswered]
  rcases store.call_cases stamp (.putDomainState state) with ⟨status, hr⟩ | ⟨payload, hencoded, hc⟩
  · rw [hr] at hcall
    obtain ⟨rfl, _⟩ := Prod.mk.inj hcall
    exact ⟨.inl rfl, rfl, rfl⟩
  · rw [hc] at hcall
    cases result with
    | error status =>
      obtain ⟨hdocument, hoptions, hopen⟩ := commit_failed hcall
      exact ⟨.inl (congrArg DurableDocument.domains hdocument), hoptions, hopen⟩
    | ok u =>
      obtain ⟨hadmitted, journal, mutation, _, hm, rfl⟩ := commit_recorded hcall
      obtain rfl := StoreCall.Stable.decodeBody (c := .putDomainState state) trivial hencoded
        (admitMutation_length hadmitted) hm
      refine ⟨.inr ⟨?_, rfl⟩, rfl, rfl⟩
      simp only [admitMutation, bind_ok, refuseIf_ok, exists_const, enforceGrowthLimits] at hadmitted
      exact not_le.mp fun hfull => hadmitted.2.2.2.1 ⟨rfl, hfull⟩

theorem putDomainState_size
    (h : store.document.domains.size ≤ store.options.maxDomains.toNat) :
    (store.putDomainState state stamp).1.document.domains.size ≤
      (store.putDomainState state stamp).1.options.maxDomains.toNat := by
  obtain ⟨hdomains, hoptions, _⟩ := store.putDomainState_domains state stamp
  rw [hoptions]
  rcases hdomains with hkept | ⟨hroom, hput⟩
  · rw [hkept]
    exact h
  · rw [hput, SortedMap.size_insert]
    split
    · exact h
    · exact hroom

/-! ### Calls on a full store -/

theorem applyMutation_size (d : DurableDocument) (mutation : Mutation) :
    d.domains.size ≤ (d.applyMutation mutation).domains.size := by
  cases mutation with
  | domainState state =>
    refine le_of_le_of_eq ?_ (SortedMap.size_insert d.domains state.domain state).symm
    split
    · exact le_refl _
    · exact Nat.le_succ _
  | _ => exact le_refl _

/-- A full store: open, with as many domains as its bound allows, or more. -/
structure Full (store : Store) : Prop where
  isOpen : store.isOpen = true
  domains : store.options.maxDomains.toNat ≤ store.document.domains.size

theorem Full.call {c : StoreCall} (h : store.Full) (hcall : store.call stamp c = (store', .ok ())) :
    store'.Full := by
  obtain ⟨payload, _, hcommit⟩ := call_ok hcall
  obtain ⟨_, journal, mutation, _, _, rfl⟩ := commit_recorded hcommit
  exact ⟨h.isOpen, h.domains.trans (applyMutation_size store.document mutation)⟩

/-- Calls that put a domain anywhere do not all succeed on a full store. -/
theorem Full.callAll {calls : List StoreCall} (h : store.Full) (stamp : MutationStamp)
    (hput : .putDomainState state ∈ calls) :
    ∃ store' status, store.callAll stamp calls = (store', .error status) := by
  induction calls generalizing store with
  | nil => exact absurd hput List.not_mem_nil
  | cons c rest ih =>
    unfold Store.callAll
    obtain ⟨store₁, result, hcall⟩ : ∃ store₁ result, store.call stamp c = (store₁, result) :=
      ⟨_, _, rfl⟩
    rw [hcall]
    cases result with
    | error status => exact ⟨store₁, status, rfl⟩
    | ok u =>
      rcases List.mem_cons.mp hput with rfl | hrest
      · have hrefused : (store.putDomainState state stamp).2 = atDomainBound :=
          (putDomainState_refused_iff h.isOpen).mpr h.domains
        rw [show store.putDomainState state stamp = (store₁, .ok u) from hcall] at hrefused
        cases hrefused
      · exact ih (h.call hcall) hrest

/-! ### Runs of puts -/

/-- The store after a run of puts, whatever each of them answers. -/
def putAll (store : Store) (calls : List (DomainState × MutationStamp)) : Store :=
  calls.foldl (fun s call => (s.putDomainState call.1 call.2).1) store

theorem putAll_open : (store.putAll calls).isOpen = store.isOpen := by
  induction calls generalizing store with
  | nil => rfl
  | cons call rest ih => exact ih.trans (store.putDomainState_domains call.1 call.2).2.2

theorem putAll_size (h : store.document.domains.size ≤ store.options.maxDomains.toNat) :
    (store.putAll calls).document.domains.size ≤ (store.putAll calls).options.maxDomains.toNat := by
  induction calls generalizing store with
  | nil => exact h
  | cons call rest ih => exact ih (putDomainState_size h)

/-- How a bound on domains is kept along a run: never exceeded, no update refused for it, and a new
domain refused for it exactly when as many as it allows are stored. -/
structure KeepsBound (store : Store) (calls : List (DomainState × MutationStamp)) : Prop where
  within : ∀ before after, calls = before ++ after →
    (store.putAll before).document.domains.size ≤ (store.putAll before).options.maxDomains.toNat
  fresh : ∀ before state stamp after, calls = before ++ (state, stamp) :: after →
    (store.putAll before).document.domains.contains state.domain = false →
      (((store.putAll before).putDomainState state stamp).2 = atDomainBound ↔
        (store.putAll before).document.domains.size = (store.putAll before).options.maxDomains.toNat)
  known : ∀ before state stamp after, calls = before ++ (state, stamp) :: after →
    (store.putAll before).document.domains.contains state.domain = true →
      ((store.putAll before).putDomainState state stamp).2 ≠ atDomainBound

/-- A run keeps the bound exactly when it starts within it and updates no domain of a full store. -/
theorem puts_keep_bound_iff (hopen : store.isOpen = true) : store.KeepsBound calls ↔
    store.document.domains.size ≤ store.options.maxDomains.toNat ∧
      ∀ before state stamp after, calls = before ++ (state, stamp) :: after →
        (store.putAll before).document.domains.contains state.domain = true →
          (store.putAll before).document.domains.size <
            (store.putAll before).options.maxDomains.toNat := by
  have hrefused : ∀ before state stamp,
      ((store.putAll before).putDomainState state stamp).2 = atDomainBound ↔
        (store.putAll before).document.domains.size ≥
          (store.putAll before).options.maxDomains.toNat :=
    fun before state stamp => putDomainState_refused_iff (putAll_open.trans hopen)
  constructor
  · intro h
    refine ⟨h.within [] calls rfl, fun before state stamp after heq hknown => ?_⟩
    have hanswer := h.known before state stamp after heq hknown
    rw [ne_eq, hrefused] at hanswer
    exact not_le.mp hanswer
  · rintro ⟨hstart, hroom⟩
    refine ⟨fun before after _ => putAll_size hstart, ?_, ?_⟩
    · intro before state stamp after _ _
      rw [hrefused]
      exact ⟨fun hfull => le_antisymm (putAll_size hstart) hfull, fun heq => heq.ge⟩
    · intro before state stamp after heq hknown
      rw [ne_eq, hrefused]
      exact not_le.mpr (hroom before state stamp after heq hknown)

end CongestionFabric.Store
