import CongestionFabric.Fabric.Enacted
import CongestionFabric.Eval.Recovery

namespace CongestionFabric

namespace FenceRecord

def incarnation (record : FenceRecord) : PublisherId × BootId := (record.publisher, record.boot)

/-- Records of one id fence one incarnation. -/
def Collisionless (records : List FenceRecord) : Prop :=
  ∀ r ∈ records, ∀ r' ∈ records, r.id = r'.id → r.incarnation = r'.incarnation

end FenceRecord

namespace DurableDocument

open FenceRecord

variable {d : DurableDocument} {calls calls' : List StoreCall}

theorem recording_interventions (d : DurableDocument) (records : List InterventionRecord) :
    ∃ interventions,
      d.recording (records.map .appendIntervention) = { d with interventions } := by
  induction records generalizing d with
  | nil => exact ⟨d.interventions, rfl⟩
  | cons record rest ih =>
    obtain ⟨interventions, he⟩ := ih (d.applyMutation (.intervention record))
    exact ⟨interventions, he⟩

/-- A deduplicated list fences what the records that went into it fence. -/
theorem mem_pushFences {known records : List FenceRecord}
    (h : Collisionless (known ++ records)) (i : PublisherId × BootId) :
    i ∈ (records.foldl (fun known record =>
        pushUnless (fun found => found.id = record.id) known record) known).map incarnation ↔
      i ∈ known.map incarnation ∨ i ∈ records.map incarnation := by
  induction records generalizing known with
  | nil => simp
  | cons record rest ih =>
    rw [List.foldl_cons, List.map_cons, List.mem_cons]
    by_cases hdup : known.any (fun found => found.id = record.id) = true
    · have hrest : Collisionless (known ++ rest) := fun r hr r' hr' =>
        h r (by simp at hr ⊢; tauto) r' (by simp at hr' ⊢; tauto)
      rw [pushUnless, if_pos hdup, ih hrest]
      obtain ⟨found, hfound, hid⟩ := List.any_eq_true.mp hdup
      have hsame : found.incarnation = record.incarnation :=
        h found (List.mem_append_left _ hfound) record (by simp) (by simpa using hid)
      constructor
      · rintro (hk | hr)
        · exact .inl hk
        · exact .inr (.inr hr)
      · rintro (hk | rfl | hr)
        · exact .inl hk
        · exact .inl (hsame ▸ List.mem_map_of_mem hfound)
        · exact .inr hr
    · have hrest : Collisionless (known ++ [record] ++ rest) := by
        rwa [List.append_assoc]
      rw [pushUnless, if_neg hdup, ih hrest, List.map_append, List.mem_append, List.map_singleton, List.mem_singleton,
        or_assoc]

end DurableDocument

namespace Fabric

open DurableDocument FenceRecord

/-- A domain state without the flag that only the memory keeps. -/
def flagged (s : DomainState) : DomainState := { s with requiresRevalidation := true }

/-- A domain is kept under its own valid identity, and a determinate state has its tick. -/
structure Keyed (domain : DomainId) (s : DomainState) : Prop where
  named : s.domain = domain
  valid : domain.valid = true
  dated : HysteresisEngine.Dated s

/-- The durable document says what the memory of the fabric says. -/
structure Mirrors (f : Fabric) (d : DurableDocument) : Prop where
  policy : d.policy = some f.policy
  accepted : validatePolicy f.policy = .ok f.policy
  topology : d.topology = f.topology.map (·.snapshot)
  built : ∀ index, f.topology = some index → TopologyIndex.build index.snapshot = .ok index
  capacity : d.capacity = f.capacity
  epoch : d.epoch = f.epoch
  fences : ∀ publisher boot, f.isFenced publisher boot = true ↔
    (publisher, boot) ∈ d.fences.map incarnation
  domains : ∀ domain, (d.domains.find? domain).map flagged = (f.domains.find? domain).map flagged
  keyed : ∀ domain s, f.domains.find? domain = some s → Keyed domain s

variable {f g : Fabric} {d d' : DurableDocument} {records : List FenceRecord}
  {calls : List StoreCall}

theorem Mirrors.congr (h : Mirrors f d) (hd : d'.content = d.content) : Mirrors f d' := by
  have hpolicy : d'.policy = d.policy := congrArg (·.policy) hd
  have htopology : d'.topology = d.topology := congrArg (·.topology) hd
  have hcapacity : d'.capacity = d.capacity := congrArg (·.capacity) hd
  have hepoch : d'.epoch = d.epoch := congrArg (·.epoch) hd
  have hfences : d'.fences = d.fences := congrArg (·.fences) hd
  have hdomains : d'.domains = d.domains := congrArg (·.domains) hd
  obtain ⟨h₁, h₂, h₃, h₄, h₅, h₆, h₇, h₈, h₉⟩ := h
  refine ⟨hpolicy.trans h₁, h₂, htopology.trans h₃, h₄, hcapacity.trans h₅, hepoch.trans h₆, ?_, ?_,
    h₉⟩
  · rwa [hfences]
  · rwa [hdomains]

theorem flagged_flagDomain (s : DomainState) : flagged (flagDomain s) = flagged s := by
  unfold flagDomain
  split <;> rfl

theorem Keyed.flagDomain {domain : DomainId} {s : DomainState} (h : Keyed domain s) :
    Keyed domain (flagDomain s) := by
  unfold Fabric.flagDomain
  split
  · exact ⟨h.named, h.valid, h.dated⟩
  · exact h

/-- Generations are invalidated in memory only. -/
theorem Mirrors.invalidateGenerations (h : Mirrors f d) : Mirrors f.invalidateGenerations d := by
  refine ⟨h.policy, h.accepted, h.topology, h.built, h.capacity, h.epoch, h.fences, ?_, ?_⟩
  · intro domain
    have hfind : f.invalidateGenerations.domains.find? domain =
        (f.domains.find? domain).map Fabric.flagDomain := SortedMap.find?_mapVal ..
    rw [hfind, Option.map_map, h.domains]
    cases f.domains.find? domain with
    | none => rfl
    | some s => exact congrArg some (flagged_flagDomain s).symm
  · intro domain s hs
    have hfind : (f.domains.find? domain).map Fabric.flagDomain = some s :=
      (SortedMap.find?_mapVal ..).symm.trans hs
    obtain ⟨s₀, hs₀, rfl⟩ := Option.map_eq_some_iff.mp hfind
    exact (h.keyed domain s₀ hs₀).flagDomain

theorem outcome_keyed {domain : DomainId} {batch : EvidenceBatch} {token : CancellationToken}
    {outcome : EvaluationOutcome} (hf : ∀ domain s, f.domains.find? domain = some s → Keyed domain s)
    (ho : f.outcomeOf domain batch token = .ok outcome) : Keyed domain outcome.updated := by
  obtain ⟨policy, _, assessed, _, hvalid, hnow, _, _, rfl⟩ :=
    CongestionEvaluator.evaluate_ok (outcomeOf_ok ho)
  have hprior : HysteresisEngine.Dated (f.domainState domain) := by
    unfold domainState SortedMap.findD
    cases hs : f.domains.find? domain with
    | none => exact nofun
    | some s => exact (hf domain s hs).dated
  refine ⟨(HysteresisEngine.step_carries _ _ _).1, hvalid, ?_⟩
  exact HysteresisEngine.dated_step (s := CongestionEvaluator.prepare _ policy _ _) hnow hprior

theorem fenced_durable (record : FenceRecord) : (f.fenced record).domains = f.domains ∧
    (f.fenced record).policy = f.policy ∧ (f.fenced record).topology = f.topology ∧
    (f.fenced record).capacity = f.capacity ∧ (f.fenced record).epoch = f.epoch := by
  unfold fenced forgetPublisher
  split <;> exact ⟨rfl, rfl, rfl, rfl, rfl⟩

theorem demoteDomain_keyed {domain : DomainId} {s : DomainState} (h : Keyed domain s)
    (epoch : EpochId) (generation : AuthorityGeneration) :
    Keyed domain (demoteDomain epoch generation s) := by
  refine ⟨h.named, h.valid, fun ha => ?_⟩
  have hstate : (demoteDomain epoch generation s).state =
      if isAuthoritative s.state then .stale else s.state := rfl
  rw [hstate] at ha
  split at ha
  · cases ha
  · contradiction

theorem recording_epoch (f : Fabric) (d : DurableDocument) (reason : FenceReason) :
    d.recording (f.epochCalls (f.nextEpoch reason) reason) = { d with
      epoch := (f.nextEpoch reason).epoch
      coordinatorBoot := (f.nextEpoch reason).boot
      coordinatorBootCounter := (f.nextEpoch reason).openReport.bootCounter
      fences := (f.publishers.entries.map (f.epochFence reason)).foldl (fun known record =>
        pushUnless (fun found => found.id = record.id) known record) d.fences
      domains := (f.nextEpoch reason).domains.values.foldl (fun m s => m.insert s.domain s)
        d.domains } := by
  have hmap : f.publishers.entries.map (fun e => StoreCall.appendFence (f.epochFence reason e)) =
      (f.publishers.entries.map (f.epochFence reason)).map .appendFence := by
    rw [List.map_map]
    rfl
  rw [epochCalls, hmap, show ∀ (c : StoreCall) rest, d.recording (c :: rest) =
    (d.applyMutation c.mutation).recording rest from fun _ _ => rfl, recording_append,
    recording_fences, recording_domains]
  rfl

/-- The calls of an operation carry policies as they were accepted. -/
theorem Enacted.stable (h : Enacted f records calls g) : ∀ c ∈ calls, c.Stable := by
  intro c hc
  cases h with
  | quiet => cases hc
  | policy hv =>
    rw [List.mem_singleton.mp hc]
    exact validatePolicy_again hv
  | topology | capacity | fenced =>
    rw [List.mem_singleton.mp hc]
    trivial
  | evaluated =>
    unfold outcomeCalls at hc
    rcases List.mem_cons.mp hc with rfl | hc
    · trivial
    · split at hc
      · rw [List.mem_singleton.mp hc]
        trivial
      · cases hc
  | planned =>
    obtain ⟨_, _, rfl⟩ := List.mem_map.mp hc
    trivial
  | epoch reason =>
    unfold epochCalls at hc
    rcases List.mem_cons.mp hc with rfl | hc
    · trivial
    · rcases List.mem_append.mp hc with hc | hc
      · obtain ⟨_, _, rfl⟩ := List.mem_map.mp hc
        trivial
      · obtain ⟨_, _, rfl⟩ := List.mem_map.mp hc
        trivial

/-- An operation that succeeds leaves the document it made durable in step with the memory. -/
theorem Enacted.mirrors (h : Enacted f records calls g) (hm : Mirrors f d)
    (hids : Collisionless (d.fences ++ records)) : Mirrors g (d.recording calls) := by
  cases h with
  | quiet h =>
    refine ⟨?_, ?_, ?_, ?_, ?_, ?_, ?_, ?_, ?_⟩
    · exact h.policy ▸ hm.policy
    · rw [h.policy]; exact hm.accepted
    · rw [h.topology]; exact hm.topology
    · rw [h.topology]; exact hm.built
    · rw [h.capacity]; exact hm.capacity
    · rw [h.epoch]; exact hm.epoch
    · unfold isFenced; rw [h.fences]; exact hm.fences
    · rw [h.domains]; exact hm.domains
    · rw [h.domains]; exact hm.keyed
  | @policy _ accepted hv =>
    have haccepted := validatePolicy_again hv
    have hset : Mirrors { f with policy := accepted, hasPolicy := true }
        (d.recording [.setPolicy accepted]) :=
      ⟨rfl, haccepted, hm.topology, hm.built, hm.capacity, hm.epoch, hm.fences, hm.domains, hm.keyed⟩
    exact hset.invalidateGenerations
  | @topology _ index hb =>
    have hset : Mirrors { f with topology := some index }
        (d.recording [.setTopology index.snapshot]) := by
      refine ⟨hm.policy, hm.accepted, rfl, ?_, hm.capacity, hm.epoch, hm.fences, hm.domains,
        hm.keyed⟩
      intro found hfound
      rw [← Option.some.inj hfound]
      exact TopologyIndex.build_again hb
    exact hset.invalidateGenerations
  | capacity capacity =>
    exact ⟨hm.policy, hm.accepted, hm.topology, hm.built, rfl, hm.epoch, hm.fences, hm.domains,
      hm.keyed⟩
  | fenced record =>
    obtain ⟨hdomains, hpolicy, htopology, hcapacity, hepoch⟩ := fenced_durable (f := f) record
    have hrecorded := recording_fences d [record]
    rw [List.map_singleton] at hrecorded
    rw [hrecorded]
    refine ⟨?_, ?_, ?_, ?_, ?_, ?_, ?_, ?_, ?_⟩
    · rw [hpolicy]; exact hm.policy
    · rw [hpolicy]; exact hm.accepted
    · rw [htopology]; exact hm.topology
    · rw [htopology]; exact hm.built
    · rw [hcapacity]; exact hm.capacity
    · rw [hepoch]; exact hm.epoch
    · intro publisher boot
      rw [isFenced_fenced, hm.fences, mem_pushFences hids]
      simp [incarnation]
    · rw [hdomains]; exact hm.domains
    · rw [hdomains]; exact hm.keyed
  | @evaluated domain batch token outcome ho =>
    have hkeyed := outcome_keyed hm.keyed ho
    have hcalls : d.recording (f.outcomeCalls domain outcome) = { d with
        domains := d.domains.insert domain outcome.updated
        history := (d.recording (f.outcomeCalls domain outcome)).history } := by
      unfold outcomeCalls
      split <;> simp [recording, applyMutation, StoreCall.mutation, hkeyed.named]
    rw [hcalls]
    refine ⟨hm.policy, hm.accepted, hm.topology, hm.built, hm.capacity, hm.epoch, hm.fences, ?_, ?_⟩
    · intro k
      change Option.map flagged ((d.domains.insert domain outcome.updated).find? k) =
        Option.map flagged ((f.domains.insert domain outcome.updated).find? k)
      rw [SortedMap.find?_insert, SortedMap.find?_insert]
      split_ifs
      · rfl
      · exact hm.domains k
    · intro k s hs
      have hs : (f.domains.insert domain outcome.updated).find? k = some s := hs
      rw [SortedMap.find?_insert] at hs
      split_ifs at hs with hk
      · rw [hk, ← Option.some.inj hs]
        exact hkeyed
      · exact hm.keyed k s hs
  | planned domain plan =>
    obtain ⟨interventions, he⟩ :=
      recording_interventions d ((f.boundIntents plan).map interventionRecordOf)
    rw [he]
    exact ⟨hm.policy, hm.accepted, hm.topology, hm.built, hm.capacity, hm.epoch, hm.fences,
      hm.domains, hm.keyed⟩
  | epoch reason =>
    obtain ⟨fences, he⟩ := nextEpoch_eq f reason
    have hkeyed : ∀ domain s, (f.nextEpoch reason).domains.find? domain = some s →
        Keyed domain s := by
      intro domain s hs
      rw [he] at hs
      obtain ⟨s₀, hs₀, rfl⟩ := Option.map_eq_some_iff.mp ((SortedMap.find?_mapVal ..).symm.trans hs)
      exact demoteDomain_keyed (hm.keyed domain s₀ hs₀) _ _
    rw [recording_epoch]
    refine ⟨?_, ?_, ?_, ?_, ?_, rfl, ?_, ?_, hkeyed⟩
    · rw [he]; exact hm.policy
    · rw [he]; exact hm.accepted
    · rw [he]; exact hm.topology
    · rw [he]; exact hm.built
    · rw [he]; exact hm.capacity
    · intro publisher boot
      rw [isFenced_nextEpoch, hm.fences, mem_pushFences hids, List.map_map]
      rfl
    · intro k
      dsimp only
      rw [SortedMap.find?_foldl_values DomainState.domain (fun s => s)
        fun k s hs => (hkeyed k s hs).named]
      cases hk : (f.nextEpoch reason).domains.find? k with
      | some s => rfl
      | none =>
        have hnone : f.domains.find? k = none := by
          rw [he] at hk
          exact Option.map_eq_none_iff.mp ((SortedMap.find?_mapVal ..).symm.trans hk)
        have hd := hm.domains k
        rw [hnone] at hd
        exact hd

/-! ### Opening -/

/-- What a document has to say to be restored whole. -/
structure Restorable (d : DurableDocument) : Prop where
  topology : ∀ snapshot, d.topology = some snapshot →
    ∃ index, TopologyIndex.build snapshot = .ok index ∧ index.snapshot = snapshot
  policy : ∀ policy, d.policy = some policy → validatePolicy policy = .ok policy
  keyed : ∀ domain s, d.domains.find? domain = some s → s.domain = domain ∧ domain.valid = true

theorem Restorable.empty : Restorable {} := by
  refine ⟨fun _ h => ?_, fun _ h => ?_, fun domain s h => ?_⟩
  · cases h
  · cases h
  · exact absurd (h.symm.trans (SortedMap.find?_empty domain)) (Option.some_ne_none s)

theorem Mirrors.restorable (h : Mirrors f d) : Restorable d := by
  refine ⟨fun snapshot hs => ?_, fun policy hp => ?_, fun domain s hs => ?_⟩
  · rw [h.topology] at hs
    obtain ⟨index, hindex, rfl⟩ := Option.map_eq_some_iff.mp hs
    exact ⟨index, h.built index hindex, rfl⟩
  · rw [h.policy] at hp
    rw [← Option.some.inj hp]
    exact h.accepted
  · have hd := h.domains domain
    rw [hs] at hd
    obtain ⟨s', hs', hflagged⟩ := Option.map_eq_some_iff.mp hd.symm
    have hkeyed := h.keyed domain s' hs'
    have hsame : (flagged s').domain = (flagged s).domain := congrArg DomainState.domain hflagged
    exact ⟨hsame.symm.trans hkeyed.named, hkeyed.valid⟩

theorem demoteAfterRecovery_not_authoritative (s : CongestionState) (tick : Tick) :
    isAuthoritative (demoteAfterRecovery s tick) = false := by
  unfold demoteAfterRecovery
  split_ifs with h
  · simpa using h
  · rfl
  · rfl

theorem restoreDomain_keyed (f : Fabric) {domain : DomainId} {s : DomainState}
    (hname : s.domain = domain) (hvalid : domain.valid = true) :
    Keyed domain (f.restoreDomain s) := by
  refine ⟨hname, hvalid, fun ha => ?_⟩
  have hnone := demoteAfterRecovery_not_authoritative s.state s.lastAuthoritativeTick
  exact absurd (hnone.symm.trans ha) Bool.false_ne_true

/-- What the calls that restore domains record. -/
theorem recording_restore (f : Fabric) (stamp : MutationStamp) (states : List DomainState)
    (d : DurableDocument) : ∃ revalidations, d.recording (f.restoreCalls stamp states) =
      { d with
        domains := states.foldl (fun m s => m.insert s.domain (f.restoreDomain s)) d.domains
        revalidations } := by
  induction states generalizing d with
  | nil => exact ⟨d.revalidations, rfl⟩
  | cons s rest ih =>
    obtain ⟨revalidations, he⟩ := ih ((d.applyMutation (.domainState (f.restoreDomain s))).applyMutation
      (.revalidation (f.revalidationOf stamp s)))
    exact ⟨revalidations, he⟩

theorem restoreCalls_stable (f : Fabric) (stamp : MutationStamp) (states : List DomainState) :
    ∀ c ∈ f.restoreCalls stamp states, c.Stable := by
  intro c hc
  obtain ⟨s, _, hc⟩ := List.mem_flatMap.mp hc
  rcases List.mem_cons.mp hc with rfl | hc
  · trivial
  · rw [List.mem_singleton.mp hc]
    trivial

variable {options : FabricOptions} {clock : Tick} {store : Store}

theorem Opened.recording_boot (h : Opened options clock d f)
    (hrestored : f.openReport.policyRestored = d.policy.isSome) : d.recording f.bootCalls = { d with
      policy := some f.policy
      epoch := f.epoch
      coordinatorBoot := f.boot
      coordinatorBootCounter := f.openReport.bootCounter } := by
  unfold bootCalls
  rw [hrestored]
  rcases h.policy with hp | ⟨hp, _⟩
  · rw [hp]
    exact congrArg (fun p => ({ d with
      policy := p
      epoch := f.epoch
      coordinatorBoot := f.boot
      coordinatorBootCounter := f.openReport.bootCounter } : DurableDocument)) hp
  · rw [hp]
    rfl

theorem Opened.stable (h : Opened options clock d f)
    (hrestored : f.openReport.policyRestored = d.policy.isSome) (stamp : MutationStamp)
    (states : List DomainState) : ∀ c ∈ f.bootCalls ++ f.restoreCalls stamp states, c.Stable := by
  intro c hc
  rcases List.mem_append.mp hc with hc | hc
  · unfold bootCalls at hc
    rw [hrestored] at hc
    rcases List.mem_append.mp hc with hc | hc
    · rcases h.policy with hp | ⟨hp, hv⟩
      · rw [hp] at hc
        cases hc
      · rw [hp] at hc
        rw [List.mem_singleton.mp hc]
        exact validatePolicy_again hv
    · rw [List.mem_singleton.mp hc]
      trivial
  · exact restoreCalls_stable f stamp _ c hc

/-- A new incarnation is in step with the document it opened, after its first writes. -/
theorem Opened.mirrors (h : Opened options clock d f) (hd : Restorable d)
    (hdomains : f.domains = ∅) (hrestored : f.openReport.policyRestored = d.policy.isSome)
    (stamp : MutationStamp) :
    Mirrors (f.restoreDomains d.domains.values)
      (d.recording (f.bootCalls ++ f.restoreCalls stamp d.domains.values)) := by
  have haccepted : validatePolicy f.policy = .ok f.policy := by
    rcases h.policy with hp | ⟨_, hv⟩
    · exact hd.policy _ hp
    · exact validatePolicy_again hv
  have hboot := h.recording_boot hrestored
  obtain ⟨revalidations, hrestore⟩ :=
    recording_restore f stamp d.domains.values (d.recording f.bootCalls)
  rw [recording_append, hrestore, hboot]
  refine ⟨rfl, haccepted, ?_, ?_, h.capacity.symm, rfl, h.fences, ?_, ?_⟩
  · change d.topology = f.topology.map (·.snapshot)
    rw [h.topology, restoreTopology]
    cases ht : d.topology with
    | none => rfl
    | some snapshot =>
      obtain ⟨index, hbuild, hsnapshot⟩ := hd.topology snapshot ht
      rw [Option.bind_some, hbuild]
      exact congrArg some hsnapshot.symm
  · intro index hindex
    have hindex : restoreTopology d = some index := h.topology.symm.trans hindex
    obtain ⟨snapshot, hsnapshot, hbuild⟩ := Option.bind_eq_some_iff.mp hindex
    obtain ⟨found, hfound, hsame⟩ := hd.topology snapshot hsnapshot
    rw [hfound] at hbuild
    obtain rfl := Option.some.inj hbuild
    rw [hsame]
    exact hfound
  · intro k
    change Option.map flagged (SortedMap.find? (List.foldl _ d.domains _) k) =
      Option.map flagged (SortedMap.find? (List.foldl _ f.domains _) k)
    have hkey : ∀ k s, d.domains.find? k = some s → s.domain = k := fun k s hs =>
      (hd.keyed k s hs).1
    rw [SortedMap.find?_foldl_values DomainState.domain f.restoreDomain hkey,
      SortedMap.find?_foldl_values DomainState.domain f.restoreDomain hkey, hdomains]
    cases d.domains.find? k <;> rfl
  · intro k s hs
    have hs : SortedMap.find? (List.foldl _ f.domains _) k = some s := hs
    rw [SortedMap.find?_foldl_values DomainState.domain f.restoreDomain
      (fun k s hs => (hd.keyed k s hs).1), hdomains] at hs
    cases hk : d.domains.find? k with
    | none =>
      rw [hk] at hs
      cases hs
    | some s₀ =>
      rw [hk] at hs
      obtain rfl := Option.some.inj hs
      obtain ⟨hname, hvalid⟩ := hd.keyed k s₀ hk
      exact restoreDomain_keyed f hname hvalid

end Fabric

end CongestionFabric
