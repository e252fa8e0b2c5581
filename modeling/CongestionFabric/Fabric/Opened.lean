import CongestionFabric.Fabric.Effect

namespace CongestionFabric

namespace Fabric

variable {f g : Fabric} {publisher : PublisherId} {boot : BootId}

theorem isFenced_noteFence (f : Fabric) (record : FenceRecord) (publisher : PublisherId)
    (boot : BootId) : (f.noteFence record).isFenced publisher boot = true ↔
      f.isFenced publisher boot = true ∨ (publisher, boot) = (record.publisher, record.boot) := by
  unfold isFenced noteFence SortedMap.findD SortedMap.contains
  dsimp only
  rw [SortedMap.find?_insert]
  by_cases hp : publisher = record.publisher
  · subst hp
    rw [if_pos rfl, Option.getD_some, SortedMap.find?_insert]
    by_cases hb : boot = record.boot
    · simp [hb]
    · simp [hb]
  · rw [if_neg hp]
    simp [hp]

theorem isFenced_foldl_noteFence (records : List FenceRecord) (f : Fabric)
    (publisher : PublisherId) (boot : BootId) :
    (records.foldl noteFence f).isFenced publisher boot = true ↔
      f.isFenced publisher boot = true ∨
        (publisher, boot) ∈ records.map fun r => (r.publisher, r.boot) := by
  induction records generalizing f with
  | nil => simp
  | cons record rest ih =>
    rw [List.foldl_cons, ih, isFenced_noteFence, List.map_cons, List.mem_cons, or_assoc]

theorem foldl_noteFence_eq (records : List FenceRecord) (f : Fabric) :
    ∃ fences, records.foldl noteFence f = { f with fences } := by
  induction records generalizing f with
  | nil => exact ⟨f.fences, rfl⟩
  | cons record rest ih =>
    obtain ⟨fences, h⟩ := ih (f.noteFence record)
    exact ⟨fences, h⟩

/-- What a new incarnation takes from the document it opened, and what it starts without. -/
structure Opened (options : FabricOptions) (clock : Tick) (document : DurableDocument)
    (f : Fabric) : Prop where
  options : f.options = options
  clock : f.clock = clock
  epoch : f.epoch = (nextIncarnation document).1
  bootCounter : f.openReport.bootCounter = (nextIncarnation document).2
  generation : f.authorityGeneration = ⟨f.epoch.value⟩
  topology : f.topology = restoreTopology document
  capacity : f.capacity = document.capacity
  policy : document.policy = some f.policy ∨
    document.policy = none ∧ validatePolicy makeDefaultPolicy = .ok f.policy
  fences : ∀ publisher boot, f.isFenced publisher boot = true ↔
    (publisher, boot) ∈ document.fences.map fun r => (r.publisher, r.boot)
  publishers : f.publishers = ∅
  evidence : f.evidence = ∅
  intents : f.intents = ∅
  lastOutcomes : f.lastOutcomes = ∅
  closed : f.closed = false

theorem Opened.congr {options : FabricOptions} {clock : Tick} {document : DurableDocument}
    (h : Opened options clock document f) (store : Option Store)
    (domains : SortedMap DomainId DomainState) {report : FabricOpenReport}
    (hreport : report.bootCounter = f.openReport.bootCounter) :
    Opened options clock document { f with store, domains, openReport := report } :=
  ⟨h.options, h.clock, h.epoch, hreport.trans h.bootCounter, h.generation, h.topology, h.capacity,
    h.policy, h.fences, h.publishers, h.evidence, h.intents, h.lastOutcomes, h.closed⟩

/-- The document of a store; a fabric without one starts from the empty document. -/
def documentOf (store : Option Store) : DurableDocument := (store.map (·.document)).getD {}

theorem incarnate_ok {options : FabricOptions} {clock : Tick} {store : Option Store}
    (h : incarnate options clock store = .ok f) :
    Opened options clock (documentOf store) f ∧ f.store = store ∧
      f.domains = ∅ ∧
      f.openReport.policyRestored = (documentOf store).policy.isSome := by
  unfold incarnate at h
  rw [← documentOf] at h
  generalize documentOf store = document at h ⊢
  dsimp only at h
  generalize hbase : ({ options, clock, store, epoch := _, topology := _, capacity := _, boot := _
                        authorityGeneration := _, openReport := _ } : Fabric) = base at h
  obtain ⟨fences, hf⟩ := foldl_noteFence_eq document.fences base
  have hfenced : ∀ publisher boot, (List.foldl noteFence base document.fences).isFenced publisher
      boot = true ↔ (publisher, boot) ∈ document.fences.map fun r => (r.publisher, r.boot) := by
    intro publisher boot
    rw [isFenced_foldl_noteFence, ← hbase]
    exact or_iff_right fun he => nomatch he
  rw [hf] at h hfenced
  subst hbase
  split at h
  next policy hp =>
    cases h
    exact ⟨⟨rfl, rfl, rfl, rfl, rfl, rfl, rfl, .inl hp, hfenced, rfl, rfl, rfl, rfl, rfl⟩, rfl, rfl,
      rfl⟩
  next hp =>
    split at h
    next => cases h
    next policy hv =>
      cases h
      exact ⟨⟨rfl, rfl, rfl, rfl, rfl, rfl, rfl, .inr ⟨hp, hv⟩, hfenced, rfl, rfl, rfl, rfl, rfl⟩,
        rfl, rfl, rfl⟩

theorem restore_ok (h : f.restore = .ok g) :
    (f.store = none ∧ g = f) ∨ ∃ store persisted, f.store = some store ∧
      f.persist (f.makeStamp .coordinatorBoot)
        (f.bootCalls ++ f.restoreCalls (f.makeStamp .coordinatorBoot)
          store.document.domains.values) = ({ f with store := some persisted }, .ok ()) ∧
      g = { f with store := some persisted }.restoreDomains store.document.domains.values := by
  unfold restore at h
  split at h
  next hs => exact .inl ⟨hs, (Except.ok.inj h).symm⟩
  next store hs =>
    dsimp only at h
    split at h
    next => cases h
    next f' u hp =>
      refine .inr ?_
      have hpersist := hp
      unfold persist at hp
      rw [hs] at hp
      obtain ⟨rfl, _⟩ := Prod.mk.inj hp
      exact ⟨store, _, hs, hpersist, (Except.ok.inj h).symm⟩

/-- A fabric opens over what its store recovers, or over nothing. -/
theorem openOn_ok {options : FabricOptions} {clock : Tick} {disk : Disk}
    (h : openOn options clock disk = .ok f) : ∃ store : Option Store,
      (if options.durable then ∃ s, store = some s ∧ Store.openDisk disk options.store = .ok s
        else store = none) ∧
      Opened options clock (documentOf store) f := by
  have hopened : ∀ {store : Option Store}, (do
      let fresh ← incarnate options clock store
      fresh.restore) = .ok f → Opened options clock (documentOf store) f := by
    intro store h
    obtain ⟨fresh, hfresh, hrestore⟩ := bind_ok.mp h
    obtain ⟨hopened, _⟩ := incarnate_ok hfresh
    rcases restore_ok hrestore with ⟨_, rfl⟩ | ⟨_, persisted, _, _, rfl⟩
    · exact hopened
    · exact hopened.congr _ _ rfl
  unfold openOn at h
  split_ifs at h with hdurable
  · obtain ⟨store, hstore, h⟩ := bind_ok.mp h
    obtain ⟨s, hs, rfl⟩ := map_ok.mp hstore
    refine ⟨some s, ?_, hopened h⟩
    rw [if_pos hdurable]
    exact ⟨s, rfl, hs⟩
  · obtain ⟨store, hstore, h⟩ := bind_ok.mp h
    cases hstore
    refine ⟨none, ?_, hopened h⟩
    rw [if_neg hdurable]

end Fabric

end CongestionFabric
