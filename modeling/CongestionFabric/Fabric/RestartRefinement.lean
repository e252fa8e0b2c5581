import CongestionFabric.Fabric.FreshBasis
import CongestionFabric.Fabric.Restart

namespace CongestionFabric

namespace Fabric

open Store StoreCall

variable {f f' fresh : Fabric} {store second : Store} {ledger : Ledger} {written : List FenceRecord}
  {options : FabricOptions} {clock : Tick} {stamp : MutationStamp}

/-! ### The first writes of an incarnation fit -/

theorem deriveBoot_valid (epoch : EpochId) (tick : Tick) (counter : UInt64) :
    (deriveBoot epoch tick counter).valid = true := by
  unfold StrongId.valid deriveBoot
  exact decide_eq_true (Hasher.finish_ne_zero _)

theorem incarnate_boot {found : Option Store} (h : incarnate options clock found = .ok f) :
    f.boot.valid = true := by
  unfold incarnate at h
  dsimp only at h
  generalize hbase : ({ options, clock, store := found, epoch := _, topology := _, capacity := _
                        boot := _, authorityGeneration := _, openReport := _ } : Fabric) = base at h
  have hboot : base.boot.valid = true := by
    rw [← hbase]
    exact deriveBoot_valid _ _ _
  obtain ⟨fences, hf⟩ := foldl_noteFence_eq
    ((found.map (·.document)).getD ({} : DurableDocument)).fences base
  rw [hf] at h
  split at h
  next => rw [← Except.ok.inj h]; exact hboot
  next =>
    split at h
    next => cases h
    next => rw [← Except.ok.inj h]; exact hboot

theorem accepts_epoch {epoch : EpochId} {boot : BootId} (counter : UInt64)
    (hepoch : epoch.valid = true) (hboot : boot.valid = true) :
    (StoreCall.advanceEpoch epoch boot counter).Accepts 24 := by
  have hlength : (epoch.put ++ boot.put ++ ByteWriter.u64 counter).length = 24 := by
    simp [StrongId.put, ByteWriter.u64]
  refine ⟨_, rfl, ?_, hlength⟩
  refine bind_ok.mpr ⟨.epochAdvance ⟨epoch, boot, counter⟩, bind_ok.mpr ⟨_, ?_, rfl⟩, rfl⟩
  exact (decodeEpoch_encoded rfl (by rw [hlength]; decide)).mpr ⟨⟨hepoch, hboot⟩, rfl⟩

theorem accepts_domain {s : DomainState} (hvalid : s.domain.valid = true) :
    (StoreCall.putDomainState s).Accepts 120 := by
  obtain ⟨payload, hencoded, hlength⟩ : ∃ payload, encodeDomainState s = .ok payload ∧
      payload.length = 120 := by
    refine ⟨_, rfl, ?_⟩
    simp [StrongId.put, ByteWriter.u64, ByteWriter.u8, ByteWriter.u32, ByteWriter.boolean]
  refine ⟨payload, hencoded, ?_, hlength⟩
  refine bind_ok.mpr ⟨.domainState s, bind_ok.mpr ⟨s, ?_, rfl⟩, rfl⟩
  exact (decodeDomainState_encoded hencoded (by rw [hlength]; decide)).mpr ⟨hvalid, rfl⟩

theorem accepts_revalidation (f : Fabric) (stamp : MutationStamp) (s : DomainState) :
    (StoreCall.writeRevalidation (f.revalidationOf stamp s)).Accepts 115 := by
  have hnote : (f.revalidationOf stamp s).detail.length = 66 := by
    show (text "restart demotion: telemetry freshness is never restored as current").length = 66
    decide +kernel
  obtain ⟨payload, hencoded, hlength⟩ : ∃ payload,
      encodeRevalidation (f.revalidationOf stamp s) = .ok payload ∧ payload.length = 115 := by
    refine ⟨_, bind_ok.mpr ⟨_, if_neg ?_, rfl⟩, ?_⟩
    · rw [hnote]
      decide
    · simp [StrongId.put, ByteWriter.u64, ByteWriter.u8, ByteWriter.u32, ByteWriter.boolean, hnote]
  have hdecoded : decodeBody .revalidation payload =
      .ok (.revalidation (f.revalidationOf stamp s)) :=
    bind_ok.mpr ⟨_, (decodeRevalidation_encoded hencoded (by rw [hlength]; decide)).mpr rfl, rfl⟩
  exact ⟨payload, hencoded, bind_ok.mpr ⟨_, hdecoded, rfl⟩, hlength⟩

/-- The bytes the first writes of an incarnation that restores a policy take. -/
def incarnationBytes (domains : Nat) : Nat :=
  groupBytes 24 + domains * (groupBytes 120 + groupBytes 115)

theorem accepts_restore (f : Fabric) (stamp : MutationStamp) {states : List DomainState}
    (hvalid : ∀ s ∈ states, s.domain.valid = true) :
    List.Forall₂ StoreCall.Accepts (f.restoreCalls stamp states) (states.flatMap fun _ => [120, 115]) := by
  induction states with
  | nil => exact .nil
  | cons s rest ih =>
    have hdomain : (f.restoreDomain s).domain.valid = true := hvalid s List.mem_cons_self
    have hrest := ih fun s hs => hvalid s (List.mem_cons_of_mem _ hs)
    exact .cons (accepts_domain hdomain) (.cons (accepts_revalidation f stamp s) hrest)

theorem restore_lengths (states : List DomainState) :
    ((states.flatMap fun _ => [120, 115]).map groupBytes).sum =
      states.length * (groupBytes 120 + groupBytes 115) := by
  induction states with
  | nil => rfl
  | cons s rest ih =>
    have hstep : (((s :: rest).flatMap fun _ => [120, 115]).map groupBytes).sum =
        groupBytes 120 + (groupBytes 115 + ((rest.flatMap fun _ => [120, 115]).map groupBytes).sum) :=
      rfl
    rw [hstep, ih, List.length_cons, Nat.succ_mul]
    omega

/-- The domains that are written again are those of the document. -/
theorem restore_known {d : DurableDocument} (h : Restorable d) (f : Fabric) (stamp : MutationStamp) :
    ∀ c ∈ f.restoreCalls stamp d.domains.values, c.Known d := by
  intro c hc
  obtain ⟨s, hs, hc⟩ := List.mem_flatMap.mp hc
  rcases List.mem_cons.mp hc with rfl | hc
  · obtain ⟨k, hk⟩ := SortedMap.mem_values_iff.mp hs
    change d.domains.contains s.domain = true
    rw [(h.keyed k s hk).1, SortedMap.contains, hk]
    rfl
  · rw [List.mem_singleton.mp hc]
    trivial

theorem Restorable.values_valid {d : DurableDocument} (h : Restorable d) :
    ∀ s ∈ d.domains.values, s.domain.valid = true := by
  intro s hs
  obtain ⟨k, hk⟩ := SortedMap.mem_values_iff.mp hs
  obtain ⟨hname, hvalid⟩ := h.keyed k s hk
  rw [hname]
  exact hvalid

/-- No record of the first writes is too long. -/
theorem bootLengths_fit (states : List DomainState) :
    ∀ length ∈ 24 :: states.flatMap fun _ => [120, 115],
      length + 2 ≤ limits.kMaxJournalRecordBytes := by
  have hmax : 122 ≤ limits.kMaxJournalRecordBytes := by decide
  intro length hlength
  rcases List.mem_cons.mp hlength with rfl | hlength
  · omega
  · obtain ⟨_, _, hlength⟩ := List.mem_flatMap.mp hlength
    simp only [List.mem_cons, List.not_mem_nil, or_false] at hlength
    omega

/-- An incarnation whose first writes succeed is open. -/
theorem restore_persisted {persisted : Store} (hstore : fresh.store = some second)
    (hcalls : second.callAll (fresh.makeStamp .coordinatorBoot) (fresh.bootCalls ++
      fresh.restoreCalls (fresh.makeStamp .coordinatorBoot) second.document.domains.values) =
        (persisted, .ok ())) :
    fresh.restore = .ok ({ fresh with store := some persisted }.restoreDomains
      second.document.domains.values) := by
  unfold Fabric.restore
  rw [hstore]
  dsimp only
  unfold persist
  rw [hstore]
  dsimp only
  rw [hcalls]

/-- A directory that is in step with a fabric opens when the first writes fit. -/
theorem Durable.opens (h : Durable f written store ledger) (hdurable : options.durable = true)
    (hwritable : options.store.readOnly = false)
    (hdomains : ledger.document.domains.size < options.store.maxDomains.toNat)
    (hroom : store.journal.size + incarnationBytes ledger.document.domains.size ≤
      limits.kMaxJournalBytes) (clock : Tick) :
    ∃ f', openOn options clock store.disk = .ok f' := by
  obtain ⟨second, hopen, hrebuilt, hdocument, hfates, hsize⟩ := h.rebuilt.reopen options.store
  obtain ⟨hoptions, hisOpen, _, hjournal, hjournalOpen⟩ := openDisk_fields hopen
  have hwhole := h.mirrors.restorable
  have hpolicy : second.document.policy = some f.policy := by
    rw [hdocument]
    exact h.mirrors.policy
  obtain ⟨fresh, hfresh⟩ : ∃ fresh, incarnate options clock (some second) = .ok fresh := by
    unfold incarnate
    dsimp only [Option.map_some, Option.getD_some]
    rw [hpolicy]
    exact ⟨_, rfl⟩
  obtain ⟨hopened, hstore, _, hrestored⟩ := incarnate_ok hfresh
  have hread : documentOf (some second) = ledger.document := hdocument
  rw [hread] at hopened hrestored
  have hready : Ready second := by
    refine ⟨hisOpen, ⟨hfates, ?_, hjournalOpen, ?_, ?_⟩, ?_⟩
    · rw [hjournal]; exact hwritable
    · rw [hjournal]; rfl
    · rw [hjournal]; rfl
    · rw [hoptions, hdocument]; exact hdomains
  have hepoch : fresh.epoch.valid = true := by
    rw [hopened.epoch]
    exact valid_of_toNat (nextIncarnation_epoch (h.epoch ▸ h.epochs) h.rebuilt.sound.length_lt)
  have hboot : fresh.bootCalls = [.advanceEpoch fresh.epoch fresh.boot fresh.openReport.bootCounter] := by
    unfold bootCalls
    rw [hrestored, h.mirrors.policy]
    rfl
  have haccepts : List.Forall₂ StoreCall.Accepts (fresh.bootCalls ++ fresh.restoreCalls
      (fresh.makeStamp .coordinatorBoot) ledger.document.domains.values)
      (24 :: ledger.document.domains.values.flatMap fun _ => [120, 115]) := by
    rw [hboot]
    exact .cons (accepts_epoch _ hepoch (incarnate_boot hfresh))
      (accepts_restore fresh _ hwhole.values_valid)
  have hknown : ∀ c ∈ fresh.bootCalls ++ fresh.restoreCalls (fresh.makeStamp .coordinatorBoot)
      ledger.document.domains.values, c.Known second.document := by
    intro c hc
    rw [hboot] at hc
    rcases List.mem_cons.mp hc with rfl | hc
    · trivial
    · exact hdocument ▸ restore_known hwhole fresh _ c hc
  have hwritten : second.journal.size +
      ((24 :: ledger.document.domains.values.flatMap fun _ => [120, 115]).map groupBytes).sum ≤
        limits.kMaxJournalBytes := by
    have hcount : ledger.document.domains.values.length = ledger.document.domains.size :=
      List.length_map _
    rw [List.map_cons, List.sum_cons, restore_lengths, hsize, hcount]
    exact hroom
  obtain ⟨persisted, hcalls⟩ := hready.callAll (fresh.makeStamp .coordinatorBoot) haccepts
    (hopened.stable hrestored _ _) hknown (bootLengths_fit _) hwritten
  rw [← hdocument] at hcalls
  refine ⟨{ fresh with store := some persisted }.restoreDomains second.document.domains.values, ?_⟩
  unfold openOn
  rw [if_pos hdurable]
  refine bind_ok.mpr ⟨some second, map_ok.mpr ⟨second, hopen, rfl⟩, ?_⟩
  exact bind_ok.mpr ⟨fresh, hfresh, restore_persisted hstore hcalls⟩

/-! ### What the next incarnation is -/

/-- What the next incarnation keeps of a fabric, and what it starts without. -/
structure Restarted (f f' : Fabric) : Prop where
  policy : f'.policy = f.policy
  topology : f'.topology = f.topology
  capacity : f'.capacity = f.capacity
  fences : ∀ publisher boot, f'.isFenced publisher boot = f.isFenced publisher boot
  publishers : f'.publishers = ∅
  evidence : f'.evidence = ∅
  intents : f'.intents = ∅
  epoch : f.epoch.value < f'.epoch.value
  domains : ∀ domain, f'.domains.contains domain = f.domains.contains domain
  demoted : ∀ domain s, f'.domains.find? domain = some s →
    s.authoritative = false ∧ s.requiresRevalidation = true
  stale : ∀ domain s s', f.domains.find? domain = some s → isAuthoritative s.state = true →
    f'.domains.find? domain = some s' → s'.state = .stale

theorem restoreDomains_find? (f : Fabric) {d : DurableDocument} (hd : Restorable d)
    (hempty : f.domains = ∅) (domain : DomainId) :
    (f.restoreDomains d.domains.values).domains.find? domain =
      (d.domains.find? domain).map f.restoreDomain := by
  have hkey : ∀ k s, d.domains.find? k = some s → s.domain = k := fun k s hs =>
    (hd.keyed k s hs).1
  change SortedMap.find? (List.foldl _ f.domains _) domain = _
  rw [SortedMap.find?_foldl_values DomainState.domain f.restoreDomain hkey, hempty]
  cases d.domains.find? domain <;> rfl

theorem demoteAfterRecovery_stale {s : CongestionState} {tick : Tick}
    (hs : isAuthoritative s = true) (htick : tick ≠ kNoTick) :
    demoteAfterRecovery s tick = .stale := by
  unfold demoteAfterRecovery
  rw [hs, if_neg (by decide), if_neg htick]

/-- The domain a document holds has the state the memory has. -/
theorem Mirrors.state {d : DurableDocument} (h : Mirrors f d) {domain : DomainId} {s : DomainState}
    (hs : f.domains.find? domain = some s) :
    ∃ s', d.domains.find? domain = some s' ∧ flagged s' = flagged s := by
  have hmap := h.domains domain
  rw [hs] at hmap
  exact Option.map_eq_some_iff.mp hmap

theorem Mirrors.contains {d : DurableDocument} (h : Mirrors f d) (domain : DomainId) :
    (d.domains.find? domain).isSome = f.domains.contains domain := by
  have hmap := congrArg Option.isSome (h.domains domain)
  rwa [Option.isSome_map, Option.isSome_map] at hmap

/-- The directory a fabric leaves is opened by an incarnation that restarts it. -/
theorem Durable.restarted (h : Durable f written store ledger) (hdurable : options.durable = true)
    (hopen : openOn options clock f.disk = .ok f') : Restarted f f' := by
  obtain ⟨fresh, store', ledger', hfresh, hread, hjournaled, rfl, hepoch, _⟩ :=
    Journaled.opened hdurable hopen
      (fun _ hsecond => World.disk_reopens h.toJournaled options.store hsecond)
      (h.epoch ▸ h.epochs)
  obtain ⟨hopened, _, hempty, _⟩ := incarnate_ok hfresh
  rw [hread] at hopened
  have hfind := restoreDomains_find? { fresh with store := some store' } h.mirrors.restorable hempty
  refine ⟨?_, ?_, hopened.capacity.trans h.mirrors.capacity, ?_, hopened.publishers,
    hopened.evidence, hopened.intents, ?_, ?_, ?_, ?_⟩
  · change fresh.policy = f.policy
    rcases hopened.policy with hp | ⟨hp, _⟩
    · exact Option.some.inj (hp.symm.trans h.mirrors.policy)
    · rw [h.mirrors.policy] at hp
      cases hp
  · change fresh.topology = f.topology
    rw [hopened.topology, restoreTopology, h.mirrors.topology]
    cases ht : f.topology with
    | none => rfl
    | some index =>
      rw [Option.map_some, Option.bind_some, h.mirrors.built index ht]
      rfl
  · intro publisher boot
    have hiff := (hopened.fences publisher boot).trans (h.mirrors.fences publisher boot).symm
    exact Bool.eq_iff_iff.mpr hiff
  · rw [UInt64.lt_iff_toNat_lt, hepoch, h.epoch]
    exact Nat.lt_succ_self _
  · intro domain
    have hcontains := h.mirrors.contains domain
    change ((SortedMap.find? _ domain).isSome) = _
    rw [hfind, Option.isSome_map]
    exact hcontains
  · intro domain s hs
    rw [hfind] at hs
    obtain ⟨s₀, _, rfl⟩ := Option.map_eq_some_iff.mp hs
    exact ⟨Bool.and_false _, rfl⟩
  · intro domain s s' hs hstate hs'
    obtain ⟨s₀, hs₀, hsame⟩ := h.mirrors.state hs
    rw [hfind, hs₀] at hs'
    obtain rfl := Option.some.inj hs'
    have hstate₀ : (flagged s₀).state = (flagged s).state := congrArg _ hsame
    have htick : (flagged s₀).lastAuthoritativeTick = (flagged s).lastAuthoritativeTick :=
      congrArg _ hsame
    have hdated := (h.mirrors.keyed domain s hs).dated hstate
    change s₀.state = s.state at hstate₀
    change s₀.lastAuthoritativeTick = s.lastAuthoritativeTick at htick
    exact demoteAfterRecovery_stale (hstate₀ ▸ hstate) (htick ▸ hdated)

theorem Mirrors.size {d : DurableDocument} (h : Mirrors f d) :
    d.domains.size = f.domains.size := by
  have hflagged : d.domains.mapVal (fun _ s => flagged s) =
      f.domains.mapVal fun _ s => flagged s := by
    refine SortedMap.ext fun domain => ?_
    rw [SortedMap.find?_mapVal, SortedMap.find?_mapVal]
    exact h.domains domain
  have hsize := congrArg SortedMap.size hflagged
  rwa [SortedMap.size_mapVal, SortedMap.size_mapVal] at hsize

end Fabric

namespace World

open Fabric FenceRecord

variable {w : World} {es : List (Event World Input)} {f f' : Fabric}
  {options options' : FabricOptions} {clock clock' : Tick}

/-- What a durable run leaves opens when the first writes of the next incarnation fit. -/
theorem durable_run_opens (hdurable : options.durable = true)
    (hopen : openOn options clock {} = .ok f) (run : Run Step ⟨f, [], ∅⟩ es w)
    (hes : ∀ e ∈ es, e.before.Continues e.input) (hids : Collisionless (fencesMade es))
    (hdurable' : options'.durable = true) (hwritable : options'.store.readOnly = false)
    (hdomains : w.fabric.domains.size < options'.store.maxDomains.toNat)
    (hroom : ∀ store, w.fabric.store = some store →
      store.journal.size + incarnationBytes w.fabric.domains.size ≤ limits.kMaxJournalBytes) :
    ∃ f', openOn options' clock' w.fabric.disk = .ok f' := by
  obtain ⟨store, ledger, h⟩ := durable_run hdurable hopen run hes hids
  have hdisk : w.fabric.disk = store.disk := by
    rw [Fabric.disk, h.durable]
  rw [hdisk]
  rw [← h.mirrors.size] at hdomains hroom
  exact h.opens hdurable' hwritable hdomains (hroom store h.durable) clock'

/-- A durable run whose operations succeeded is restarted by the next incarnation, whatever number
of restarts it had: its epoch is later than every earlier one, and it opens when its first writes
fit in the directory. -/
theorem restart_restores (hdurable : options.durable = true)
    (hopen : openOn options clock {} = .ok f) (run : Run Step ⟨f, [], ∅⟩ es w)
    (hes : ∀ e ∈ es, e.before.Continues e.input) (hids : Collisionless (fencesMade es))
    (hdurable' : options'.durable = true) :
    (∀ f', openOn options' clock' w.fabric.disk = .ok f' → Restarted w.fabric f' ∧
      ∀ e ∈ es, e.before.fabric.epoch.value < f'.epoch.value) ∧
    (options'.store.readOnly = false →
      w.fabric.domains.size < options'.store.maxDomains.toNat →
      (∀ store, w.fabric.store = some store →
        store.journal.size + incarnationBytes w.fabric.domains.size ≤ limits.kMaxJournalBytes) →
      ∃ f', openOn options' clock' w.fabric.disk = .ok f') := by
  constructor
  · intro f' hopen'
    obtain ⟨store, ledger, h⟩ := durable_run hdurable hopen run hes hids
    have hrestarted := h.restarted hdurable' hopen'
    refine ⟨hrestarted, fun e he => ?_⟩
    have hle := journaled_run_epoch hdurable hopen run hes e he
    have hlt := UInt64.lt_iff_toNat_lt.mp hrestarted.epoch
    exact UInt64.lt_iff_toNat_lt.mpr (by omega)
  · intro hwritable hdomains hroom
    exact durable_run_opens hdurable hopen run hes hids hdurable' hwritable hdomains hroom

def durably : FabricOptions := { durable := true }

/-- A fabric on an empty directory, as it opens. -/
@[irreducible]
def durableFabric : Fabric :=
  match openOn durably 100 {} with
  | .ok f => f
  | .error _ => {}

set_option maxRecDepth 100000 in
theorem openOn_durable : openOn durably 100 {} = .ok durableFabric := by
  have hok : (openOn durably 100 {}).isOk = true := by decide +kernel
  obtain ⟨f, hf⟩ := Result.exists_of_isOk hok
  rw [hf, durableFabric, hf]

/-- A policy and a topology are installed, a publisher is fenced, and a domain is evaluated and
planned for. -/
def settling : List Action :=
  [.setPolicy briskPolicy, .setTopology CongestionEvaluator.pairSnapshot, expulsion,
    .evaluateRequest (reportNow 100), .planLast ⟨1⟩]

def settledWorld : World := settling.foldl act ⟨durableFabric, [], ∅⟩

def settledEvents : List (Event World Input) := actEvents ⟨durableFabric, [], ∅⟩ settling

theorem settled_run : Run Step ⟨durableFabric, [], ∅⟩ settledEvents settledWorld :=
  run_acts _ settling

def succeeded (e : Event World Input) : Bool :=
  match e.input with
  | .act a => (e.before.status a).isOk
  | .restart _ _ _ => false

set_option maxRecDepth 100000 in
theorem settledEvents_succeeded :
    (∀ e ∈ settledEvents, succeeded e = true) ∧ (fencesMade settledEvents).length = 1 := by
  decide +kernel

set_option maxRecDepth 100000 in
theorem settledWorld_holds :
    settledWorld.fabric.policy.fingerprint ≠ makeDefaultPolicy.fingerprint ∧
      settledWorld.fabric.topology.isSome = true ∧
      settledWorld.fabric.isFenced ⟨7⟩ ⟨9⟩ = true ∧
      (settledWorld.fabric.domains.find? ⟨1⟩).any (fun s => isAuthoritative s.state) = true ∧
      (settledWorld.fabric.activeIntents ⟨1⟩).length = 2 := by
  decide +kernel

set_option maxRecDepth 100000 in
/-- What is written leaves room for the next incarnation. -/
theorem settledWorld_room :
    settledWorld.fabric.domains.size < durably.store.maxDomains.toNat ∧
      (settledWorld.fabric.store.all fun store => decide (store.journal.size +
        incarnationBytes settledWorld.fabric.domains.size ≤ limits.kMaxJournalBytes)) = true := by
  decide +kernel

theorem settledEvents_continue : ∀ e ∈ settledEvents, e.before.Continues e.input := by
  intro e he
  obtain ⟨a, _, hinput⟩ := mem_actEvents he
  have hok := settledEvents_succeeded.1 e he
  unfold succeeded at hok
  rw [hinput] at hok ⊢
  obtain ⟨_, hsettled⟩ := Result.exists_of_isOk hok
  exact .inl hsettled

theorem settledEvents_collisionless : Collisionless (fencesMade settledEvents) := by
  obtain ⟨r, hr⟩ := List.length_eq_one_iff.mp settledEvents_succeeded.2
  rw [hr]
  intro r₁ hr₁ r₂ hr₂ _
  rw [List.mem_singleton.mp hr₁, List.mem_singleton.mp hr₂]

theorem settledWorld_opens : ∃ f', openOn durably 1 settledWorld.fabric.disk = .ok f' := by
  obtain ⟨hsize, hroom⟩ := settledWorld_room
  have hdurable : durably.durable = true := rfl
  refine @durable_run_opens settledWorld _ _ durably durably 100 1 hdurable openOn_durable settled_run
    settledEvents_continue settledEvents_collisionless hdurable rfl hsize fun store hstore => ?_
  rw [hstore, Option.all_some] at hroom
  exact of_decide_eq_true hroom

/-- The next incarnation has the policy, the topology and the fence of the last one, and its domain,
which had authority, is STALE. -/
theorem restart_restores_settled : ∃ f' s',
    openOn durably 1 settledWorld.fabric.disk = .ok f' ∧ Restarted settledWorld.fabric f' ∧
      durableFabric.epoch.value < f'.epoch.value ∧
      f'.policy.fingerprint ≠ makeDefaultPolicy.fingerprint ∧ f'.topology.isSome = true ∧
      f'.isFenced ⟨7⟩ ⟨9⟩ = true ∧ f'.domains.find? ⟨1⟩ = some s' ∧ s'.state = .stale ∧
      s'.authoritative = false := by
  obtain ⟨hpolicy, htopology, hfenced, hknown, _⟩ := settledWorld_holds
  have hdurable : durably.durable = true := rfl
  obtain ⟨f', hf'⟩ := settledWorld_opens
  obtain ⟨hrestarted, hepochs⟩ := (@restart_restores settledWorld _ _ durably durably 100 1 hdurable
    openOn_durable settled_run settledEvents_continue settledEvents_collisionless hdurable).1 f' hf'
  obtain ⟨s, hs, hauthority⟩ := (Option.any_eq_true _ _).mp hknown
  have hkept : f'.domains.contains ⟨1⟩ = settledWorld.fabric.domains.contains ⟨1⟩ :=
    hrestarted.domains ⟨1⟩
  unfold SortedMap.contains at hkept
  rw [hs] at hkept
  obtain ⟨s', hs'⟩ := Option.isSome_iff_exists.mp hkept
  refine ⟨f', s', hf', hrestarted, hepochs _ List.mem_cons_self, hrestarted.policy ▸ hpolicy,
    hrestarted.topology ▸ htopology, (hrestarted.fences _ _).trans hfenced, hs', ?_, ?_⟩
  · exact hrestarted.stale ⟨1⟩ s s' hs hauthority hs'
  · exact (hrestarted.demoted ⟨1⟩ s' hs').1

end World

end CongestionFabric
