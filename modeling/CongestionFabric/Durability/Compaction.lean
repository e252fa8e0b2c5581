import CongestionFabric.Durability.Room
import CongestionFabric.Durability.SnapshotFraming
import Mathlib.Data.List.Forall2

namespace CongestionFabric

namespace DurableDocument

/-- The calls that write a document out in snapshot order. -/
def compactCalls (d : DurableDocument) : List StoreCall :=
  d.policy.toList.map .setPolicy ++ (d.topology.toList.map .setTopology ++
    (d.capacity.toList.map .setCapacity ++
    ((Store.epochMarkOf d).map (fun m => .advanceEpoch m.epoch m.boot m.counter) ++
    (d.domains.values.map .putDomainState ++ (d.interventions.map .appendIntervention ++
    (d.fences.map .appendFence ++ (d.history.map .appendHistory ++
    (d.attempts.map .appendAttempt ++ (d.provenance.map .appendProvenance ++
    d.revalidations.map .writeRevalidation)))))))))

/-- What mutations keep of a document: an accepted policy, domains under their own identities, and
no two records of one identity where they are told apart. -/
structure Normal (d : DurableDocument) : Prop where
  policy : ∀ policy, d.policy = some policy → validatePolicy policy = .ok policy
  keyed : ∀ domain s, d.domains.find? domain = some s → s.domain = domain
  interventions : (d.interventions.map (·.id)).Nodup
  fences : (d.fences.map (·.id)).Nodup
  provenance : (d.provenance.map (·.id)).Nodup

variable {d : DurableDocument}

theorem Normal.stable (h : Normal d) : ∀ c ∈ d.compactCalls, c.Stable := by
  intro c hc
  simp only [compactCalls, List.mem_append, List.mem_map, Option.mem_toList] at hc
  rcases hc with ⟨policy, hp, rfl⟩ | ⟨_, _, rfl⟩ | ⟨_, _, rfl⟩ | ⟨_, _, rfl⟩ | ⟨_, _, rfl⟩ |
    ⟨_, _, rfl⟩ | ⟨_, _, rfl⟩ | ⟨_, _, rfl⟩ | ⟨_, _, rfl⟩ | ⟨_, _, rfl⟩ | ⟨_, _, rfl⟩
  · exact h.policy policy hp
  all_goals trivial

theorem Normal.congr (h : Normal d) {d' : DurableDocument} (hd : d'.content = d.content) :
    Normal d' := by
  have hpolicy : d'.policy = d.policy := congrArg (·.policy) hd
  have hdomains : d'.domains = d.domains := congrArg (·.domains) hd
  have hinterventions : d'.interventions = d.interventions := congrArg (·.interventions) hd
  have hfences : d'.fences = d.fences := congrArg (·.fences) hd
  have hprovenance : d'.provenance = d.provenance := congrArg (·.provenance) hd
  obtain ⟨h₁, h₂, h₃, h₄, h₅⟩ := h
  exact ⟨by rwa [hpolicy], by rwa [hdomains], by rwa [hinterventions], by rwa [hfences],
    by rwa [hprovenance]⟩

/-! ### Writing a document out and in again -/

theorem recording_lastSequence (d : DurableDocument) (calls : List StoreCall) :
    (d.recording calls).lastSequence = d.lastSequence := by
  induction calls generalizing d with
  | nil => rfl
  | cons c rest ih =>
    refine (ih (d.applyMutation c.mutation)).trans ?_
    cases c <;> rfl

theorem pushUnless_nodup {α ι : Type} [DecidableEq ι] (id : α → ι) {known : List α} (record : α)
    (h : (known.map id).Nodup) :
    ((pushUnless (fun found => id found = id record) known record).map id).Nodup := by
  unfold pushUnless
  split_ifs with hdup
  · exact h
  · rw [List.map_append, List.map_singleton]
    refine List.nodup_append.mpr ⟨h, List.pairwise_singleton _ _, ?_⟩
    intro i hi j hj hij
    rw [List.mem_singleton.mp hj] at hij
    obtain ⟨found, hfound, rfl⟩ := List.mem_map.mp hi
    exact hdup (List.any_eq_true.mpr ⟨found, hfound, decide_eq_true hij⟩)

/-- Records of distinct identities are all pushed. -/
theorem pushAll_nodup {α ι : Type} [DecidableEq ι] (id : α → ι) {known records : List α}
    (h : ((known ++ records).map id).Nodup) :
    records.foldl (fun known record => pushUnless (fun found => id found = id record) known record)
      known = known ++ records := by
  induction records generalizing known with
  | nil => exact (List.append_nil known).symm
  | cons record rest ih =>
    have hfresh : ¬known.any (fun found => id found = id record) = true := by
      intro hany
      obtain ⟨found, hfound, hid⟩ := List.any_eq_true.mp hany
      rw [List.map_append, List.map_cons] at h
      have hdisjoint := (List.nodup_append.mp h).2.2
      exact hdisjoint _ (List.mem_map_of_mem hfound) _ List.mem_cons_self (of_decide_eq_true hid)
    have hrest : ((known ++ [record] ++ rest).map id).Nodup := by
      rwa [List.append_assoc]
    rw [List.foldl_cons, pushUnless, if_neg hfresh, ih hrest, List.append_assoc]
    rfl

theorem recording_pushInterventions (d : DurableDocument) (records : List InterventionRecord) :
    d.recording (records.map .appendIntervention) = { d with
      interventions := records.foldl (fun known record =>
        pushUnless (fun found => found.id = record.id) known record) d.interventions } := by
  induction records generalizing d with
  | nil => rfl
  | cons record rest ih => exact ih _

theorem recording_provenance (d : DurableDocument) (records : List Provenance) :
    d.recording (records.map .appendProvenance) = { d with
      provenance := records.foldl (fun known record =>
        pushUnless (fun found => found.id = record.id) known record) d.provenance } := by
  induction records generalizing d with
  | nil => rfl
  | cons record rest ih => exact ih _

theorem recording_history (d : DurableDocument) (entries : List HistoryEntry) :
    d.recording (entries.map .appendHistory) = { d with history := d.history ++ entries } := by
  induction entries generalizing d with
  | nil => rw [List.append_nil]; rfl
  | cons entry rest ih =>
    rw [List.append_cons]
    exact ih _

theorem recording_attempts (d : DurableDocument) (attempts : List AttemptRecord) :
    d.recording (attempts.map .appendAttempt) = { d with attempts := d.attempts ++ attempts } := by
  induction attempts generalizing d with
  | nil => rw [List.append_nil]; rfl
  | cons attempt rest ih =>
    rw [List.append_cons]
    exact ih _

theorem recording_revalidations (d : DurableDocument) (records : List RevalidationRecord) :
    d.recording (records.map .writeRevalidation) = { d with
      revalidations := d.revalidations ++ records } := by
  induction records generalizing d with
  | nil => rw [List.append_nil]; rfl
  | cons record rest ih =>
    rw [List.append_cons]
    exact ih _

theorem recording_policy (d : DurableDocument) (policy : Option CongestionPolicy) :
    d.recording (policy.toList.map .setPolicy) = { d with policy := policy.or d.policy } := by
  cases policy <;> rfl

theorem recording_topology (d : DurableDocument) (topology : Option TopologySnapshot) :
    d.recording (topology.toList.map .setTopology) =
      { d with topology := topology.or d.topology } := by
  cases topology <;> rfl

theorem recording_capacity (d : DurableDocument) (capacity : Option CapacitySnapshot) :
    d.recording (capacity.toList.map .setCapacity) =
      { d with capacity := capacity.or d.capacity } := by
  cases capacity <;> rfl

/-- The epoch mark says again what the base of a snapshot says. -/
theorem recording_epochMark (base : DurableDocument) (hepoch : base.epoch = d.epoch)
    (hboot : base.coordinatorBoot = d.coordinatorBoot)
    (hcounter : base.coordinatorBootCounter = d.coordinatorBootCounter) :
    base.recording ((Store.epochMarkOf d).map fun m => .advanceEpoch m.epoch m.boot m.counter) =
      base := by
  unfold Store.epochMarkOf
  split_ifs
  · change ({ base with
      epoch := d.epoch
      coordinatorBoot := d.coordinatorBoot
      coordinatorBootCounter := d.coordinatorBootCounter } : DurableDocument) = base
    rw [← hepoch, ← hboot, ← hcounter]
  · rfl

/-- A normal document is written back whole over the marks of its snapshot. -/
theorem Normal.recording_compact (h : Normal d) (sequence : UInt64) :
    (({ epoch := d.epoch, coordinatorBoot := d.coordinatorBoot
        coordinatorBootCounter := d.coordinatorBootCounter
        lastSequence := sequence } : DurableDocument).recording d.compactCalls).content =
      d.content := by
  have hdomains : d.domains.values.foldl (fun m s => m.insert s.domain s) ∅ = d.domains := by
    refine SortedMap.ext fun k => ?_
    rw [SortedMap.find?_foldl_values DomainState.domain (fun s => s) h.keyed, SortedMap.find?_empty]
    cases d.domains.find? k <;> rfl
  have hmark : ∀ policy topology capacity, ({
      epoch := d.epoch, coordinatorBoot := d.coordinatorBoot
      coordinatorBootCounter := d.coordinatorBootCounter, lastSequence := sequence
      policy, topology, capacity } : DurableDocument).recording
        ((Store.epochMarkOf d).map fun m => .advanceEpoch m.epoch m.boot m.counter) = {
      epoch := d.epoch, coordinatorBoot := d.coordinatorBoot
      coordinatorBootCounter := d.coordinatorBootCounter, lastSequence := sequence
      policy, topology, capacity } :=
    fun _ _ _ => recording_epochMark _ rfl rfl rfl
  rw [compactCalls, recording_append, recording_policy, recording_append, recording_topology,
    recording_append, recording_capacity, recording_append]
  dsimp only
  rw [hmark,
    recording_append, recording_domains, recording_append, recording_pushInterventions,
    recording_append, recording_fences, recording_append, recording_history, recording_append,
    recording_attempts, recording_append, recording_provenance, recording_revalidations]
  dsimp only
  rw [hdomains, pushAll_nodup InterventionRecord.id (by simpa using h.interventions),
    pushAll_nodup FenceRecord.id (by simpa using h.fences),
    pushAll_nodup Provenance.id (by simpa using h.provenance), Option.or_none, Option.or_none,
    Option.or_none]
  rfl

end DurableDocument

namespace Store

open DurableDocument

variable {d : DurableDocument} {options : SnapshotOptions} {container : Bytes} {count : Nat}

/-- A body is what a call encodes. -/
def Writes (c : StoreCall) (body : MutationKind × Bytes) : Prop :=
  body.1 = c.kind ∧ c.encoded = .ok body.2

theorem encodeAll_writes {α : Type} {kind : MutationKind} {encode : α → Result Bytes}
    (call : α → StoreCall) (hkind : ∀ a, (call a).kind = kind)
    (hencode : ∀ a, (call a).encoded = encode a) {records : List α}
    {bodies : List (MutationKind × Bytes)} (h : encodeAll kind encode records = .ok bodies) :
    List.Forall₂ Writes (records.map call) bodies := by
  induction records generalizing bodies with
  | nil =>
    obtain rfl := Except.ok.inj h
    exact .nil
  | cons record rest ih =>
    obtain ⟨body, hbody, h⟩ := bind_ok.mp h
    obtain ⟨tail, htail, h⟩ := bind_ok.mp h
    obtain rfl := Except.ok.inj h
    exact .cons ⟨(hkind record).symm, (hencode record).trans hbody⟩ (ih htail)

/-- A document is compacted into the bodies of its calls. -/
theorem documentBodies_writes {bodies : List (MutationKind × Bytes)}
    (h : documentBodies d = .ok bodies) : List.Forall₂ Writes d.compactCalls bodies := by
  simp only [documentBodies, bind_ok] at h
  obtain ⟨policy, hpolicy, topology, htopology, capacity, hcapacity, epoch, hepoch, domains,
    hdomains, interventions, hinterventions, fences, hfences, history, hhistory, attempts, hattempts,
    provenance, hprovenance, revalidations, hrevalidations, h⟩ := h
  obtain rfl := Except.ok.inj h
  simp only [List.append_assoc]
  refine List.rel_append (encodeAll_writes .setPolicy (fun _ => rfl) (fun _ => rfl) hpolicy) ?_
  refine List.rel_append (encodeAll_writes .setTopology (fun _ => rfl) (fun _ => rfl) htopology) ?_
  refine List.rel_append (encodeAll_writes .setCapacity (fun _ => rfl) (fun _ => rfl) hcapacity) ?_
  refine List.rel_append (encodeAll_writes (fun m : EpochMark => .advanceEpoch m.epoch m.boot m.counter)
    (fun _ => rfl) (fun _ => rfl) hepoch) ?_
  refine List.rel_append (encodeAll_writes .putDomainState (fun _ => rfl) (fun _ => rfl) hdomains) ?_
  refine List.rel_append
    (encodeAll_writes .appendIntervention (fun _ => rfl) (fun _ => rfl) hinterventions) ?_
  refine List.rel_append (encodeAll_writes .appendFence (fun _ => rfl) (fun _ => rfl) hfences) ?_
  refine List.rel_append (encodeAll_writes .appendHistory (fun _ => rfl) (fun _ => rfl) hhistory) ?_
  refine List.rel_append (encodeAll_writes .appendAttempt (fun _ => rfl) (fun _ => rfl) hattempts) ?_
  refine List.rel_append
    (encodeAll_writes .appendProvenance (fun _ => rfl) (fun _ => rfl) hprovenance) ?_
  exact encodeAll_writes .writeRevalidation (fun _ => rfl) (fun _ => rfl) hrevalidations

theorem validateBodies_mem {bodies : List (MutationKind × Bytes)}
    (h : validateBodies bodies = .ok ()) : ∀ body ∈ bodies, validateBody body.1 body.2 = .ok () := by
  induction bodies with
  | nil => exact fun _ hb => absurd hb List.not_mem_nil
  | cons body rest ih =>
    obtain ⟨_, hbody, hrest⟩ := bind_ok.mp h
    intro b hb
    rcases List.mem_cons.mp hb with rfl | hb
    · exact hbody
    · exact ih hrest b hb

/-- A snapshot record holds the body of a call. -/
def Carries (c : StoreCall) (record : JournalRecord) : Prop :=
  ∃ body, record.payload = frameBody c.kind body ∧ decodeBody c.kind body = .ok c.mutation

/-- Records that carry calls are applied as the calls are recorded. -/
theorem loadRecords_carried {calls : List StoreCall} {records : List JournalRecord}
    (h : List.Forall₂ Carries calls records) (document : DurableDocument) (report : StoreReplay) :
    loadRecords records (document, report) = (document.recording calls, report) := by
  induction h generalizing document with
  | nil => rfl
  | @cons c record calls records hc _ ih =>
    obtain ⟨body, hpayload, hdecode⟩ := hc
    have happly : document.apply c.kind body = .ok (document.applyMutation c.mutation) :=
      bind_ok.mpr ⟨_, hdecode, rfl⟩
    rw [loadRecords, hpayload, unframeBody_frameBody c.kind_named]
    dsimp only
    rw [happly]
    exact ih _

theorem forall₂_zipIdx {α β γ : Type} {R : α → β → Prop} {S : α → γ → Prop} {as : List α}
    {bs : List β} (h : List.Forall₂ R as bs) (f : β × Nat → γ)
    (hS : ∀ a ∈ as, ∀ b ∈ bs, ∀ n, R a b → S a (f (b, n))) (n : Nat) :
    List.Forall₂ S as ((bs.zipIdx n).map f) := by
  induction h generalizing n with
  | nil => exact .nil
  | @cons a b as bs hab _ ih =>
    refine .cons (hS a List.mem_cons_self b List.mem_cons_self n hab) (ih (fun a ha b hb => ?_) (n + 1))
    exact hS a (List.mem_cons_of_mem _ ha) b (List.mem_cons_of_mem _ hb)

/-- The container of a normal document: its records carry the calls that write the document. -/
theorem compact_ok (hnormal : Normal d) (h : compact d = .ok (container, options, count)) :
    ∃ header records footer, container = containerOf header records footer ∧
      container.length ≤ limits.kMaxSnapshotBytes ∧ Agrees header records footer ∧
      header.epoch = d.epoch.value ∧ header.coordinatorBoot = d.coordinatorBoot.value ∧
      header.coordinatorBootCounter = d.coordinatorBootCounter ∧
      header.lastSequence = d.lastSequence ∧ List.Forall₂ Carries d.compactCalls records := by
  simp only [compact, bind_ok] at h
  obtain ⟨bodies, hbodies, _, hvalid, written, hwritten, h⟩ := h
  obtain ⟨rfl, rfl, rfl⟩ := Prod.mk.inj (Except.ok.inj h) |>.imp id Prod.mk.inj
  have hwrites := documentBodies_writes hbodies
  have hvalid := validateBodies_mem hvalid
  obtain ⟨header, footer, hcontainer, hfits, hagrees, hepoch, hboot, hcounter, hsequence, hbounded⟩ :=
    writeSnapshot_ok (show limits.kMaxSnapshotBytes < 2 ^ 64 by decide) hwritten
  refine ⟨header, _, footer, hcontainer, hfits, hagrees, hepoch, hboot, hcounter, hsequence, ?_⟩
  rw [List.map_map]
  refine forall₂_zipIdx hwrites _ (fun c hc body hbody n hwrite => ?_) 0
  obtain ⟨hkind, hencoded⟩ := hwrite
  have hlength : body.2.length < 2 ^ 64 := by
    obtain ⟨i, hi⟩ := List.getElem?_of_mem hbody
    have hmem : snapshotRecord d.epoch i body ∈ bodies.zipIdx.map fun e =>
        snapshotRecord d.epoch e.2 e.1 :=
      List.mem_map.mpr ⟨(body, i), List.mk_mem_zipIdx_iff_getElem?.mpr hi, rfl⟩
    have hpayload := hbounded _ hmem
    have hmax : limits.kMaxJournalRecordBytes = 4194304 := rfl
    simp only [snapshotRecord, frameBody, List.length_append] at hpayload
    omega
  obtain ⟨mutation, hdecode, _⟩ := bind_ok.mp (hvalid body hbody)
  rw [hkind] at hdecode
  have hmutation := (hnormal.stable c hc).decodeBody hencoded hlength hdecode
  refine ⟨body.2, ?_, hmutation ▸ hdecode⟩
  rw [← hkind]
  rfl

/-- The snapshot of a normal document loads as one document wherever an open admits its number of
records. -/
theorem compact_loads (hnormal : Normal d) (h : compact d = .ok (container, options, count)) :
    ∃ loaded : DurableDocument, loaded.content = d.content ∧ loaded.lastSequence = d.lastSequence ∧
      ∀ storeOptions : StoreOptions,
        d.compactCalls.length ≤ (snapshotOptions storeOptions).maxRecords →
          loadSnapshot (some container) storeOptions =
            .ok (loaded, { snapshotPresent := true, snapshotLoaded := true }) := by
  obtain ⟨header, records, footer, hcontainer, hfits, hagrees, hepoch, hboot, hcounter, hsequence,
    hcarried⟩ := compact_ok hnormal h
  have hbase : ({ lastSequence := header.lastSequence, epoch := ⟨header.epoch⟩
                  coordinatorBoot := ⟨header.coordinatorBoot⟩
                  coordinatorBootCounter := header.coordinatorBootCounter } : DurableDocument) =
      { epoch := d.epoch, coordinatorBoot := d.coordinatorBoot
        coordinatorBootCounter := d.coordinatorBootCounter, lastSequence := d.lastSequence } := by
    rw [hepoch, hboot, hcounter, hsequence]
  refine ⟨_, hnormal.recording_compact d.lastSequence, recording_lastSequence _ _, ?_⟩
  intro storeOptions hcount
  have hread := @Agrees.read _ _ _ hagrees (snapshotOptions storeOptions) (hcontainer ▸ hfits)
  rw [← hcontainer, ← hcarried.length_eq, if_pos hcount] at hread
  unfold loadSnapshot
  dsimp only
  rw [hread]
  dsimp only
  rw [hbase, loadRecords_carried hcarried]
  rfl

/-- The snapshot of a normal document loads whole when an open admits its number of records, and is
refused otherwise. -/
theorem loadSnapshot_compact (hnormal : Normal d) (h : compact d = .ok (container, options, count))
    (storeOptions : StoreOptions) :
    (d.compactCalls.length ≤ (snapshotOptions storeOptions).maxRecords →
      ∃ loaded, loadSnapshot (some container) storeOptions =
          .ok (loaded, { snapshotPresent := true, snapshotLoaded := true }) ∧
        loaded.content = d.content ∧ loaded.lastSequence = d.lastSequence) ∧
    ((snapshotOptions storeOptions).maxRecords < d.compactCalls.length →
      ∀ loaded report, loadSnapshot (some container) storeOptions = .ok (loaded, report) →
        report.integrityFailure = true) := by
  constructor
  · intro hcount
    obtain ⟨loaded, hcontent, hlast, hloads⟩ := compact_loads hnormal h
    exact ⟨loaded, hloads storeOptions hcount, hcontent, hlast⟩
  · intro hcount loaded report hload
    obtain ⟨header, records, footer, hcontainer, hfits, hagrees, _, _, _, _, hcarried⟩ :=
      compact_ok hnormal h
    have hread := @Agrees.read _ _ _ hagrees (snapshotOptions storeOptions) (hcontainer ▸ hfits)
    rw [← hcontainer, ← hcarried.length_eq, if_neg (not_le.mpr hcount)] at hread
    unfold loadSnapshot at hload
    dsimp only at hload
    rw [hread] at hload
    dsimp only [fail] at hload
    split_ifs at hload
    obtain ⟨_, rfl⟩ := Prod.mk.inj (Except.ok.inj hload)
    rfl

/-! ### Reading a new snapshot back -/

/-- Records that carry calls are recovered as the calls are recorded. -/
theorem recoverScratch_carried {calls : List StoreCall} {records : List JournalRecord}
    (h : List.Forall₂ Carries calls records) (document : DurableDocument) :
    recoverScratch records document = .ok (document.recording calls) := by
  induction h generalizing document with
  | nil => rfl
  | @cons c record calls records hc _ ih =>
    obtain ⟨body, hpayload, hdecode⟩ := hc
    have happly : document.apply c.kind body = .ok (document.applyMutation c.mutation) :=
      bind_ok.mpr ⟨_, hdecode, rfl⟩
    rw [recoverScratch, hpayload, unframeBody_frameBody c.kind_named]
    dsimp only
    rw [happly]
    exact ih _

/-- What a checkpoint compares of two documents. -/
def Alike (d d' : DurableDocument) : Prop :=
  d.policy = d'.policy ∧ d.domains = d'.domains ∧ d.fences = d'.fences

theorem Alike.of_content {d' : DurableDocument} (h : d.content = d'.content) : Alike d d' := by
  have hpolicy : d.policy = d'.policy := congrArg (·.policy) h
  have hdomains : d.domains = d'.domains := congrArg (·.domains) h
  have hfences : d.fences = d'.fences := congrArg (·.fences) h
  exact ⟨hpolicy, hdomains, hfences⟩

theorem Alike.recording {d' : DurableDocument} (h : Alike d d') (calls : List StoreCall) :
    Alike (d.recording calls) (d'.recording calls) := by
  induction calls generalizing d d' with
  | nil => exact h
  | cons c rest ih =>
    obtain ⟨hpolicy, hdomains, hfences⟩ := h
    refine ih ?_
    cases c with
    | setPolicy policy => exact ⟨rfl, hdomains, hfences⟩
    | putDomainState state =>
      exact ⟨hpolicy, congrArg (fun domains => domains.insert state.domain state) hdomains, hfences⟩
    | appendFence record =>
      exact ⟨hpolicy, hdomains, congrArg (fun known : List FenceRecord =>
        pushUnless (fun found : FenceRecord => found.id = record.id) known record) hfences⟩
    | _ => exact ⟨hpolicy, hdomains, hfences⟩

/-- The snapshot of a normal document always reads back. -/
theorem verifySnapshot_compact (hnormal : Normal d)
    (h : compact d = .ok (container, options, count)) :
    verifySnapshot d container options count = .ok () := by
  obtain ⟨header, records, footer, hcontainer, hfits, hagrees, _, _, _, _, hcarried⟩ :=
    compact_ok hnormal h
  have hlength : records.length = count ∧ options.maxRecords = count + 1 ∧
      options.maxBytes = limits.kMaxSnapshotBytes := by
    simp only [compact, bind_ok] at h
    obtain ⟨bodies, hbodies, _, _, _, _, h⟩ := h
    obtain ⟨rfl, rfl, rfl⟩ := Prod.mk.inj (Except.ok.inj h) |>.imp id Prod.mk.inj
    have hbodies := (documentBodies_writes hbodies).length_eq
    have hrecords := hcarried.length_eq
    refine ⟨?_, rfl, rfl⟩
    rw [List.length_map, List.length_zipIdx]
    omega
  obtain ⟨hcount, hmax, hbytes⟩ := hlength
  have hread := @Agrees.read _ _ _ hagrees options (by rw [hbytes, ← hcontainer]; exact hfits)
  rw [← hcontainer, if_pos (by omega)] at hread
  have hscratch := recoverScratch_carried hcarried {}
  have hbase : Alike {} ({
      epoch := d.epoch, coordinatorBoot := d.coordinatorBoot
      coordinatorBootCounter := d.coordinatorBootCounter } : DurableDocument) := ⟨rfl, rfl, rfl⟩
  obtain ⟨hpolicy, hdomains, hfences⟩ := hbase.recording d.compactCalls
  obtain ⟨hpolicy', hdomains', hfences'⟩ := Alike.of_content (hnormal.recording_compact 0)
  refine bind_ok.mpr ⟨_, hread, bind_ok.mpr ⟨(), ?_, bind_ok.mpr ⟨_, hscratch, ?_⟩⟩⟩
  · exact refuseIf_ok.mpr fun hne => hne hcount
  · refine refuseIf_ok.mpr ?_
    rw [hpolicy, hpolicy', hdomains, hdomains', hfences, hfences']
    simp

end Store

end CongestionFabric
