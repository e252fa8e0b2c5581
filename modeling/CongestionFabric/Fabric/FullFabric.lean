import CongestionFabric.Durability.FullStore
import CongestionFabric.Fabric.Opened

namespace CongestionFabric

namespace Fabric

variable {f : Fabric} {store : Store} {options : FabricOptions} {clock : Tick} {disk : Disk}
  {domain : DomainId} {batch : EvidenceBatch} {token : CancellationToken}
  {state : DomainState} {calls : List StoreCall}

theorem persist_full (hstore : f.store = some store) (hfull : store.Full) (stamp : MutationStamp)
    (hput : .putDomainState state ∈ calls) : ∃ g status, f.persist stamp calls = (g, .error status) := by
  obtain ⟨store', status, hcalls⟩ := hfull.callAll stamp hput
  refine ⟨{ f with store := some store' }, status, ?_⟩
  unfold persist
  rw [hstore]
  dsimp only
  rw [hcalls]

/-- Over a full store no evaluation succeeds, not even of a domain that is stored. -/
theorem evaluate_full (hstore : f.store = some store) (hfull : store.Full)
    (outcome : EvaluationOutcome) :
    (f.evaluateCancellable domain token).2 ≠ .ok outcome := by
  unfold evaluateCancellable checked
  split
  next => exact nofun
  next =>
    unfold evaluateLocked checked
    split
    next => exact nofun
    next found _ =>
      have hput : StoreCall.putDomainState found.updated ∈
          (f.commitOutcome domain found).outcomeCalls domain found := List.mem_cons_self
      obtain ⟨g, status, hpersist⟩ := persist_full (f := f.commitOutcome domain found) hstore hfull
        ((f.commitOutcome domain found).makeStamp .localEvaluation) hput
      unfold commitEvaluation durably
      dsimp only
      rw [hpersist]
      exact nofun

/-- A directory that holds as many domains as its bound allows does not open. -/
theorem open_full (hdurable : options.durable = true)
    (hdisk : Store.openDisk disk options.store = .ok store) (hfull : store.Full)
    (hsome : 0 < store.document.domains.size) (f : Fabric) :
    openOn options clock disk ≠ .ok f := by
  intro h
  unfold openOn at h
  rw [if_pos hdurable] at h
  obtain ⟨opened, hopened, h⟩ := bind_ok.mp h
  obtain ⟨found, hfound, rfl⟩ := map_ok.mp hopened
  obtain rfl := Except.ok.inj (hdisk.symm.trans hfound)
  obtain ⟨fresh, hfresh, hrestore⟩ := bind_ok.mp h
  obtain ⟨_, hstore, _⟩ := incarnate_ok hfresh
  obtain ⟨state, hstate⟩ : ∃ state, state ∈ store.document.domains.values := by
    refine List.exists_mem_of_ne_nil _ (List.ne_nil_of_length_pos ?_)
    exact lt_of_lt_of_eq hsome (List.length_map ..).symm
  rcases restore_ok hrestore with ⟨hnone, _⟩ | ⟨again, persisted, hagain, hpersist, _⟩
  · rw [hstore] at hnone
    cases hnone
  · obtain rfl := Option.some.inj (hstore.symm.trans hagain)
    have hput : StoreCall.putDomainState (fresh.restoreDomain state) ∈ fresh.bootCalls ++
        fresh.restoreCalls (fresh.makeStamp .coordinatorBoot) store.document.domains.values := by
      refine List.mem_append_right _ (List.mem_flatMap.mpr ⟨state, hstate, ?_⟩)
      exact List.mem_cons_self
    obtain ⟨g, status, hrefused⟩ := persist_full (f := fresh) hstore hfull
      (fresh.makeStamp .coordinatorBoot) hput
    rw [hpersist] at hrefused
    cases (Prod.mk.inj hrefused).2

end Fabric

namespace Store

variable {store : Store} {calls : List (DomainState × MutationStamp)}

/-- A run of puts keeps the bound exactly when it starts within it and updates no domain of a full
store; a fabric over a store that is full evaluates nothing, and none opens over its directory. -/
theorem domain_bound_iff (hopen : store.isOpen = true) :
    (store.KeepsBound calls ↔ store.document.domains.size ≤ store.options.maxDomains.toNat ∧
      ∀ before state stamp after, calls = before ++ (state, stamp) :: after →
        (store.putAll before).document.domains.contains state.domain = true →
          (store.putAll before).document.domains.size <
            (store.putAll before).options.maxDomains.toNat) ∧
    (store.document.domains.size = store.options.maxDomains.toNat →
      (∀ (f : Fabric) domain token outcome, f.store = some store →
        (f.evaluateCancellable domain token).2 ≠ .ok outcome) ∧
      (0 < store.options.maxDomains.toNat → ∀ options clock disk f, options.durable = true →
        openDisk disk options.store = .ok store → Fabric.openOn options clock disk ≠ .ok f)) := by
  refine ⟨puts_keep_bound_iff hopen, fun heq => ?_⟩
  have hfull : store.Full := ⟨hopen, heq.ge⟩
  refine ⟨fun f domain token outcome hstore => Fabric.evaluate_full hstore hfull outcome, ?_⟩
  intro hpos options clock disk f hdurable hdisk
  exact Fabric.open_full hdurable hdisk hfull (heq ▸ hpos) f

/-- A store with room for one domain, on an empty directory. -/
def roomForOne : StoreOptions := { maxDomains := 1 }

/-- The directory after one domain was put there. -/
def fullDisk : Disk :=
  ((openDisk {} roomForOne).toOption.map fun store =>
    (store.putDomainState { domain := ⟨1⟩ } {}).1.disk).getD {}

set_option maxRecDepth 100000 in
theorem fullDisk_opens : ∃ store, openDisk fullDisk roomForOne = .ok store ∧ store.isOpen = true ∧
    store.document.domains.size = 1 ∧ store.options.maxDomains.toNat = 1 ∧
    store.document.domains.contains ⟨1⟩ = true ∧ store.document.domains.contains ⟨2⟩ = false := by
  have hopened : (openDisk fullDisk roomForOne).toOption.any (fun store =>
      store.isOpen = true ∧ store.document.domains.size = 1 ∧ store.options.maxDomains.toNat = 1 ∧
        store.document.domains.contains ⟨1⟩ = true ∧
        store.document.domains.contains ⟨2⟩ = false) = true := by
    decide +kernel
  obtain ⟨store, hstore, hfacts⟩ := (Option.any_eq_true _ _).mp hopened
  cases hopen : openDisk fullDisk roomForOne with
  | error status =>
    rw [hopen] at hstore
    cases hstore
  | ok found =>
    rw [hopen] at hstore
    obtain rfl := Option.some.inj hstore
    exact ⟨found, rfl, of_decide_eq_true hfacts⟩

theorem domain_bound_iff_one : ∃ store, openDisk fullDisk roomForOne = .ok store ∧
    store.KeepsBound [({ domain := ⟨2⟩ }, {})] ∧
    (({ store := some store } : Fabric).evaluateCancellable ⟨1⟩ {}).2.isOk = false ∧
    (Fabric.openOn { durable := true, store := roomForOne } 1 fullDisk).isOk = false := by
  obtain ⟨store, hstore, hopen, hsize, hmax, _, hnew⟩ := fullDisk_opens
  obtain ⟨hkeeps, hfull⟩ := @domain_bound_iff store [({ domain := ⟨2⟩ }, {})] hopen
  obtain ⟨hevaluate, hreopen⟩ := hfull (hsize.trans hmax.symm)
  refine ⟨store, hstore, hkeeps.mpr ⟨(hsize.trans hmax.symm).le, ?_⟩, ?_, ?_⟩
  · intro before state stamp after heq hknown
    rcases List.cons_eq_append_iff.mp heq with ⟨rfl, hcons⟩ | ⟨before', rfl, hrest⟩
    · obtain ⟨hpair, _⟩ := List.cons.inj hcons
      obtain ⟨rfl, _⟩ := Prod.mk.inj hpair
      exact absurd (hnew.symm.trans hknown) Bool.false_ne_true
    · exact absurd hrest.symm (by simp)
  · cases hresult : (({ store := some store } : Fabric).evaluateCancellable ⟨1⟩ {}).2 with
    | error status => rfl
    | ok outcome => exact absurd hresult (hevaluate _ _ _ outcome rfl)
  · cases hresult : Fabric.openOn { durable := true, store := roomForOne } 1 fullDisk with
    | error status => rfl
    | ok f => exact absurd hresult (hreopen (by omega) _ 1 fullDisk f rfl hstore)

/-- The only domain of a store that is full of it cannot be put again. -/
theorem full_store_refuses_update : ∃ store, openDisk fullDisk roomForOne = .ok store ∧
    ¬store.KeepsBound [({ domain := ⟨1⟩ }, {})] := by
  obtain ⟨store, hstore, hopen, hsize, hmax, hknown, _⟩ := fullDisk_opens
  refine ⟨store, hstore, fun h => ?_⟩
  have hrefused : (store.putDomainState { domain := ⟨1⟩ } {}).2 = atDomainBound :=
    (putDomainState_refused_iff hopen).mpr (hsize.trans hmax.symm).ge
  exact h.known [] _ _ [] rfl hknown hrefused

end Store

end CongestionFabric
