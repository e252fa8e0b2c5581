import CongestionFabric.Durability.Room
import CongestionFabric.Fabric.Mirror

namespace CongestionFabric

namespace Fabric

open DurableDocument FenceRecord Store

/-- The directory a fabric leaves. -/
def disk (f : Fabric) : Disk :=
  match f.store with
  | none => {}
  | some store => store.disk

variable {f f' g : Fabric} {store store₀ : Store} {ledger : Ledger}
  {records written : List FenceRecord} {calls : List StoreCall} {stamp : MutationStamp}
  {options : FabricOptions} {clock : Tick}

/-! ### The epoch on disk -/

/-- A durable fabric whose journal ends between two commits and knows the present epoch. -/
structure Journaled (f : Fabric) (store : Store) (ledger : Ledger) : Prop where
  durable : f.store = some store
  rebuilt : Rebuilt store ledger
  epoch : ledger.document.epoch = f.epoch
  epochs : f.epoch.value.toNat ≤ ledger.length
  started : f.epoch.valid = true

theorem toNat_succ {v : UInt64} {n : Nat} (h : v.toNat ≤ n) (hn : n + 3 < 2 ^ 64) :
    (v + 1).toNat = v.toNat + 1 := by
  have hone : (1 : UInt64).toNat = 1 := rfl
  rw [UInt64.toNat_add, hone, Nat.mod_eq_of_lt (by omega)]

theorem valid_of_toNat {tag : IdTag} {id : StrongId tag} {n : Nat} (h : id.value.toNat = n + 1) :
    id.valid = true := by
  have hne : id.value ≠ 0 := by
    intro hzero
    rw [hzero] at h
    exact absurd h.symm (Nat.succ_ne_zero n)
  simpa [StrongId.valid] using hne

theorem recording_epoch_of (d : DurableDocument) (hepoch : d.epoch = f.epoch)
    (h : Enacted f records calls g) : (d.recording calls).epoch = g.epoch := by
  cases h with
  | quiet h => exact hepoch.trans h.epoch.symm
  | fenced record => exact hepoch.trans (fenced_durable record).2.2.2.2.symm
  | evaluated =>
    unfold outcomeCalls
    split <;> exact hepoch
  | planned domain plan =>
    obtain ⟨interventions, he⟩ :=
      recording_interventions d ((f.boundIntents plan).map interventionRecordOf)
    rw [he]
    exact hepoch
  | epoch reason => rw [recording_epoch]
  | _ => exact hepoch

/-- The epoch stays, or advances by a committed call. -/
theorem Enacted.advances (h : Enacted f records calls g) :
    g.epoch = f.epoch ∨ g.epoch.value = f.epoch.value + 1 ∧ calls ≠ [] := by
  cases h with
  | quiet h => exact .inl h.epoch
  | fenced record => exact .inl (fenced_durable record).2.2.2.2
  | epoch reason =>
    obtain ⟨_, he⟩ := nextEpoch_eq f reason
    exact .inr ⟨by rw [he], by simp [epochCalls]⟩
  | _ => exact .inl rfl

/-- The journal keeps up with an operation that succeeds. -/
theorem Journaled.enacts (h : Journaled f store ledger) (hsteady : store₀.steady = store.steady)
    (he : Enacts f f' store₀ records) : ∃ calls g store' ledger', Enacted f records calls g ∧
      f' = { g with store := some store' } ∧ Journaled f' store' ledger' ∧
      ledger'.document.content = (ledger.document.recording calls).content ∧
      f.epoch.value.toNat ≤ f'.epoch.value.toNat := by
  obtain ⟨calls, g, henacted, stamp, store', hcalls, rfl⟩ := he
  have hrebuilt : Rebuilt store₀ ledger := ⟨hsteady ▸ h.rebuilt.sound, h.rebuilt.settled⟩
  obtain ⟨ledger', hrebuilt', hlength, hdocument⟩ := hrebuilt.callAll henacted.stable hcalls
  have hroom : ledger'.length + 3 < 2 ^ 64 := hrebuilt'.sound.length_lt
  have hepochs := h.epochs
  have hepoch : ledger'.document.epoch = g.epoch :=
    (congrArg (·.epoch) hdocument).trans (recording_epoch_of ledger.document h.epoch henacted)
  refine ⟨calls, g, store', ledger', henacted, rfl, ⟨rfl, hrebuilt', hepoch, ?_, ?_⟩, hdocument, ?_⟩
  · change g.epoch.value.toNat ≤ ledger'.length
    rcases henacted.advances with heq | ⟨heq, hne⟩
    · rw [heq]
      omega
    · have hpos := List.length_pos_iff.mpr hne
      rw [heq, toNat_succ hepochs (by omega)]
      omega
  · change g.epoch.valid = true
    rcases henacted.advances with heq | ⟨heq, _⟩
    · rw [heq]
      exact h.started
    · exact valid_of_toNat (n := f.epoch.value.toNat) (by rw [heq, toNat_succ hepochs (by omega)])
  · change f.epoch.value.toNat ≤ g.epoch.value.toNat
    rcases henacted.advances with heq | ⟨heq, hne⟩
    · rw [heq]
    · have hpos := List.length_pos_iff.mpr hne
      rw [heq, toNat_succ hepochs (by omega)]
      exact Nat.le_succ _

/-- What opening a directory does, once its store has opened. -/
theorem openOn_inv {disk : Disk} (hdurable : options.durable = true)
    (hopen : openOn options clock disk = .ok f) : ∃ second fresh persisted,
      Store.openDisk disk options.store = .ok second ∧
      incarnate options clock (some second) = .ok fresh ∧
      second.callAll (fresh.makeStamp .coordinatorBoot) (fresh.bootCalls ++
        fresh.restoreCalls (fresh.makeStamp .coordinatorBoot) second.document.domains.values) =
          (persisted, .ok ()) ∧
      f = { fresh with store := some persisted }.restoreDomains second.document.domains.values := by
  unfold openOn at hopen
  rw [if_pos hdurable] at hopen
  obtain ⟨store, hstore, hopen⟩ := bind_ok.mp hopen
  obtain ⟨second, hsecond, rfl⟩ := map_ok.mp hstore
  obtain ⟨fresh, hfresh, hrestore⟩ := bind_ok.mp hopen
  obtain ⟨_, hs, _⟩ := incarnate_ok hfresh
  rcases restore_ok hrestore with ⟨hnone, _⟩ | ⟨found, persisted, hfound, hpersist, rfl⟩
  · rw [hs] at hnone
    cases hnone
  · obtain rfl := Option.some.inj (hs.symm.trans hfound)
    obtain ⟨store', hcalls, heq⟩ := persist_ok hs hpersist
    obtain rfl : persisted = store' := by
      have hstores := congrArg (·.store) heq
      exact Option.some.inj hstores
    exact ⟨second, fresh, persisted, hsecond, hfresh, hcalls, rfl⟩

theorem nextIncarnation_epoch {d : DurableDocument} {n : Nat} (h : d.epoch.value.toNat ≤ n)
    (hn : n + 3 < 2 ^ 64) : (nextIncarnation d).1.value.toNat = d.epoch.value.toNat + 1 := by
  unfold nextIncarnation
  split_ifs with hvalid
  · exact toNat_succ h hn
  · have hzero : d.epoch.value = 0 := by simpa [StrongId.valid] using hvalid
    rw [hzero]
    rfl

/-- The epoch a document has after the first writes of an incarnation. -/
theorem recording_boot_epoch (f : Fabric) (stamp : MutationStamp) (states : List DomainState)
    (d : DurableDocument) : (d.recording (f.bootCalls ++ f.restoreCalls stamp states)).epoch =
      f.epoch := by
  obtain ⟨revalidations, he⟩ := recording_restore f stamp states (d.recording f.bootCalls)
  rw [recording_append, he]
  unfold bootCalls
  split <;> rfl

/-- A new incarnation over a journal that ends between two commits and has counted its epochs. -/
theorem Journaled.opened {disk : Disk} (hdurable : options.durable = true)
    (hopen : openOn options clock disk = .ok f)
    (hdisk : ∀ second, Store.openDisk disk options.store = .ok second →
      Rebuilt second ledger ∧ second.document = ledger.document)
    (hepochs : ledger.document.epoch.value.toNat ≤ ledger.length) :
    ∃ fresh store' ledger', incarnate options clock fresh.store = .ok fresh ∧
      documentOf fresh.store = ledger.document ∧ Journaled f store' ledger' ∧
      f = { fresh with store := some store' }.restoreDomains ledger.document.domains.values ∧
      f.epoch.value.toNat = ledger.document.epoch.value.toNat + 1 ∧
      ledger'.document.content = (ledger.document.recording (fresh.bootCalls ++
        fresh.restoreCalls (fresh.makeStamp .coordinatorBoot)
          ledger.document.domains.values)).content := by
  obtain ⟨second, fresh, persisted, hsecond, hfresh, hcalls, rfl⟩ := openOn_inv hdurable hopen
  obtain ⟨hrebuilt, hdocument⟩ := hdisk second hsecond
  obtain ⟨hopened, hstore, _, hrestored⟩ := incarnate_ok hfresh
  have hread : documentOf (some second) = ledger.document := hdocument
  rw [hread] at hopened hrestored
  rw [hdocument] at hcalls
  obtain ⟨ledger', hrebuilt', hlength, hcontent⟩ := hrebuilt.callAll
    (hopened.stable hrestored (fresh.makeStamp .coordinatorBoot) _) hcalls
  have hroom : ledger'.length + 3 < 2 ^ 64 := hrebuilt'.sound.length_lt
  have hnext : fresh.epoch.value.toNat = ledger.document.epoch.value.toNat + 1 := by
    rw [hopened.epoch]
    exact nextIncarnation_epoch hepochs (by omega)
  have hepoch : ledger'.document.epoch = fresh.epoch :=
    (congrArg (·.epoch) hcontent).trans (recording_boot_epoch fresh _ _ ledger.document)
  have hcount : 0 < (fresh.bootCalls ++ fresh.restoreCalls (fresh.makeStamp .coordinatorBoot)
      ledger.document.domains.values).length := by
    rw [List.length_append, bootCalls, List.length_append, List.length_singleton]
    omega
  refine ⟨fresh, persisted, ledger', hstore ▸ hfresh, hstore ▸ hread,
    ⟨rfl, hrebuilt', hepoch, ?_, valid_of_toNat hnext⟩, by rw [hdocument], hnext, hcontent⟩
  change fresh.epoch.value.toNat ≤ ledger'.length
  omega

/-! ### The whole document -/

/-- Moreover the journal replays to what the memory says, and every fence in it is among those that
were put. -/
structure Durable (f : Fabric) (written : List FenceRecord) (store : Store) (ledger : Ledger) :
    Prop extends Journaled f store ledger where
  mirrors : Mirrors f ledger.document
  written : ∀ r ∈ ledger.document.fences, r ∈ written

theorem Mirrors.onStore {d : DurableDocument} (h : Mirrors f d) (store : Option Store) :
    Mirrors { f with store } d :=
  ⟨h.policy, h.accepted, h.topology, h.built, h.capacity, h.epoch, h.fences, h.domains, h.keyed⟩

theorem Collisionless.mono {known : List FenceRecord} (h : Collisionless written)
    (hsub : ∀ r ∈ known, r ∈ written) : Collisionless known :=
  fun r hr r' hr' => h r (hsub r hr) r' (hsub r' hr')

theorem recording_mem_fences {d : DurableDocument} {r : FenceRecord}
    (h : r ∈ (d.recording calls).fences) : r ∈ d.fences ∨ .appendFence r ∈ calls := by
  induction calls generalizing d with
  | nil => exact .inl h
  | cons c rest ih =>
    rcases ih h with hr | hr
    · cases c with
      | appendFence record =>
        have hr : r ∈ pushUnless (fun found => found.id = record.id) d.fences record := hr
        unfold pushUnless at hr
        split_ifs at hr
        · exact .inl hr
        · rcases List.mem_append.mp hr with hr | hr
          · exact .inl hr
          · rw [List.mem_singleton.mp hr]
            exact .inr List.mem_cons_self
      | _ => exact .inl hr
    · exact .inr (List.mem_cons_of_mem _ hr)

theorem Enacted.fences {r : FenceRecord} (h : Enacted f records calls g)
    (hr : .appendFence r ∈ calls) : r ∈ records := by
  cases h with
  | quiet | policy | topology | capacity => simp at hr
  | fenced record => simpa using hr
  | evaluated =>
    unfold outcomeCalls at hr
    split at hr <;> simp at hr
  | planned => simp at hr
  | epoch reason =>
    unfold epochCalls at hr
    simpa using hr

theorem Durable.enacts (h : Durable f written store ledger) (hsteady : store₀.steady = store.steady)
    (he : Enacts f f' store₀ records) (hids : Collisionless (written ++ records)) :
    ∃ store' ledger', Durable f' (written ++ records) store' ledger' := by
  obtain ⟨calls, g, store', ledger', henacted, rfl, hjournaled, hcontent, _⟩ :=
    h.toJournaled.enacts hsteady he
  have hids' : Collisionless (ledger.document.fences ++ records) := by
    refine Collisionless.mono hids fun r hr => ?_
    rcases List.mem_append.mp hr with hr | hr
    · exact List.mem_append_left _ (h.written r hr)
    · exact List.mem_append_right _ hr
  have hmirrors := (henacted.mirrors h.mirrors hids').congr hcontent
  refine ⟨store', ledger', hjournaled, hmirrors.onStore _, fun r hr => ?_⟩
  have hfences : ledger'.document.fences = (ledger.document.recording calls).fences :=
    congrArg (·.fences) hcontent
  rw [hfences] at hr
  rcases recording_mem_fences hr with hr | hr
  · exact List.mem_append_left _ (h.written r hr)
  · exact List.mem_append_right _ (henacted.fences hr)

/-- What is kept of a document that is restored whole. -/
theorem Durable.opened {disk : Disk} (hdurable : options.durable = true)
    (hopen : openOn options clock disk = .ok f)
    (hdisk : ∀ second, Store.openDisk disk options.store = .ok second →
      Rebuilt second ledger ∧ second.document = ledger.document)
    (hepochs : ledger.document.epoch.value.toNat ≤ ledger.length)
    (hwhole : Restorable ledger.document) (hwritten : ∀ r ∈ ledger.document.fences, r ∈ written) :
    ∃ store' ledger', Durable f written store' ledger' := by
  obtain ⟨fresh, store', ledger', hfresh, hread, hjournaled, rfl, _, hcontent⟩ :=
    Journaled.opened hdurable hopen hdisk hepochs
  obtain ⟨hopened, _, hdomains, hrestored⟩ := incarnate_ok hfresh
  rw [hread] at hopened hrestored
  have hmirrors := (hopened.mirrors hwhole hdomains hrestored
    (fresh.makeStamp .coordinatorBoot)).congr hcontent
  refine ⟨store', ledger', hjournaled, hmirrors.onStore _, fun r hr => ?_⟩
  have hfences : ledger'.document.fences = (ledger.document.recording (fresh.bootCalls ++
      fresh.restoreCalls (fresh.makeStamp .coordinatorBoot)
        ledger.document.domains.values)).fences := congrArg (·.fences) hcontent
  rw [hfences] at hr
  rcases recording_mem_fences hr with hr | hr
  · exact hwritten r hr
  · rcases List.mem_append.mp hr with hr | hr
    · unfold bootCalls at hr
      split at hr <;> simp at hr
    · obtain ⟨s, _, hr⟩ := List.mem_flatMap.mp hr
      simp at hr

end Fabric

namespace World

open Fabric FenceRecord

variable {w w' : World} {store : Store} {ledger : Ledger} {written : List FenceRecord}
  {es : List (Event World Input)} {options : FabricOptions} {clock : Tick} {f : Fabric}

/-- Operations settle, and a restart opens the directory that was left. -/
def Continues (w : World) : Input → Prop
  | .act a => w.Settles a
  | .restart options _ disk => options.durable = true ∧ disk = w.fabric.disk

def fencesOf (w : World) : Input → List FenceRecord
  | .act a => w.fenceRecords a
  | .restart _ _ _ => []

/-- The fence records made on the way. -/
def fencesMade (es : List (Event World Input)) : List FenceRecord :=
  es.flatMap fun e => e.before.fencesOf e.input

theorem disk_reopens (h : Journaled f store ledger) (options : StoreOptions) {second : Store}
    (hopen : Store.openDisk f.disk options = .ok second) :
    second.Rebuilt ledger ∧ second.document = ledger.document := by
  obtain ⟨found, hfound, hrebuilt, hdocument, _⟩ := h.rebuilt.reopen options
  rw [Fabric.disk, h.durable] at hopen
  obtain rfl := Except.ok.inj (hopen.symm.trans hfound)
  exact ⟨hrebuilt, hdocument⟩

theorem Journaled.step {i : Input} (h : Journaled w.fabric store ledger) (hstep : Step w i w')
    (hcontinues : w.Continues i) : (∃ store' ledger', Journaled w'.fabric store' ledger') ∧
      w.fabric.epoch.value.toNat ≤ w'.fabric.epoch.value.toNat := by
  cases hstep with
  | act a =>
    rcases (hcontinues : w.Settles a) with hok | hsame
    · obtain ⟨store₀, hsteady, he⟩ := act_enacts h.durable hok
      obtain ⟨_, _, store', ledger', _, _, h', _, hepoch⟩ := h.enacts hsteady he
      exact ⟨⟨store', ledger', h'⟩, hepoch⟩
    · exact ⟨⟨store, ledger, hsame.symm ▸ h⟩, hsame.symm ▸ Nat.le_refl _⟩
  | @restart options clock disk fabric hopen =>
    obtain ⟨hdurable, rfl⟩ := (hcontinues : options.durable = true ∧ disk = w.fabric.disk)
    obtain ⟨_, store', ledger', _, _, h', _, hnext, _⟩ := Journaled.opened hdurable hopen
      (fun _ hsecond => disk_reopens h options.store hsecond) (h.epoch ▸ h.epochs)
    refine ⟨⟨store', ledger', h'⟩, ?_⟩
    change w.fabric.epoch.value.toNat ≤ fabric.epoch.value.toNat
    rw [hnext, h.epoch]
    exact Nat.le_succ _

theorem Durable.step {i : Input} (h : Durable w.fabric written store ledger)
    (hstep : Step w i w') (hcontinues : w.Continues i)
    (hids : Collisionless (written ++ w.fencesOf i)) :
    ∃ store' ledger', Durable w'.fabric (written ++ w.fencesOf i) store' ledger' := by
  cases hstep with
  | act a =>
    rcases (hcontinues : w.Settles a) with hok | hsame
    · obtain ⟨store₀, hsteady, he⟩ := act_enacts h.durable hok
      exact h.enacts hsteady he hids
    · refine ⟨store, ledger, hsame.symm ▸ h.toJournaled, hsame.symm ▸ h.mirrors, fun r hr => ?_⟩
      exact List.mem_append_left _ (h.written r hr)
  | @restart options clock disk fabric hopen =>
    obtain ⟨hdurable, rfl⟩ := (hcontinues : options.durable = true ∧ disk = w.fabric.disk)
    refine Durable.opened hdurable hopen
      (fun _ hsecond => disk_reopens h.toJournaled options.store hsecond) (h.epoch ▸ h.epochs)
      h.mirrors.restorable fun r hr => ?_
    exact List.mem_append_left _ (h.written r hr)

/-- The directory is empty before the first process. -/
theorem start_reopens {options : StoreOptions} {second : Store}
    (hopen : Store.openDisk {} options = .ok second) :
    second.Rebuilt [] ∧ second.document = Ledger.document [] := Store.Rebuilt.start hopen

theorem journaled_run (hdurable : options.durable = true) (hopen : openOn options clock {} = .ok f)
    (run : Run Step ⟨f, [], ∅⟩ es w) (hes : ∀ e ∈ es, e.before.Continues e.input) :
    ∃ store ledger, Journaled w.fabric store ledger := by
  induction run with
  | start =>
    obtain ⟨_, store', ledger', _, _, h', _⟩ :=
      Journaled.opened hdurable hopen (fun _ hsecond => start_reopens hsecond) (Nat.zero_le _)
    exact ⟨store', ledger', h'⟩
  | next _ hstep ih =>
    obtain ⟨store, ledger, h⟩ := ih fun e he => hes e (List.mem_append_left _ he)
    exact (Journaled.step h hstep (hes _ (List.mem_append_right _ List.mem_cons_self))).1

/-- No epoch on the way is later than the last one. -/
theorem journaled_run_epoch (hdurable : options.durable = true)
    (hopen : openOn options clock {} = .ok f) (run : Run Step ⟨f, [], ∅⟩ es w)
    (hes : ∀ e ∈ es, e.before.Continues e.input) :
    ∀ e ∈ es, e.before.fabric.epoch.value.toNat ≤ w.fabric.epoch.value.toNat := by
  induction run with
  | start => exact fun _ he => absurd he List.not_mem_nil
  | @next es w' w'' i hrun hstep ih =>
    have hbefore : ∀ e ∈ es, e.before.Continues e.input := fun e he =>
      hes e (List.mem_append_left _ he)
    have hlast : w'.Continues i := hes ⟨w', i, w''⟩ (List.mem_append_right _ List.mem_cons_self)
    obtain ⟨store, ledger, h⟩ := journaled_run hdurable hopen hrun hbefore
    obtain ⟨_, hle⟩ := Journaled.step h hstep hlast
    intro e he
    rcases List.mem_append.mp he with he | he
    · exact (ih hbefore e he).trans hle
    · rw [List.mem_singleton.mp he]
      exact hle

theorem durable_run (hdurable : options.durable = true) (hopen : openOn options clock {} = .ok f)
    (run : Run Step ⟨f, [], ∅⟩ es w) (hes : ∀ e ∈ es, e.before.Continues e.input)
    (hids : Collisionless (fencesMade es)) :
    ∃ store ledger, Durable w.fabric (fencesMade es) store ledger := by
  induction run with
  | start =>
    exact Durable.opened hdurable hopen (fun _ hsecond => start_reopens hsecond) (Nat.zero_le _)
      .empty nofun
  | @next es _ _ _ _ hstep ih =>
    have hsplit : ∀ e, fencesMade (es ++ [e]) = fencesMade es ++ e.before.fencesOf e.input := by
      simp [fencesMade]
    rw [hsplit] at hids ⊢
    obtain ⟨store, ledger, h⟩ := ih (fun e he => hes e (List.mem_append_left _ he))
      (Collisionless.mono hids fun r hr => List.mem_append_left _ hr)
    exact Durable.step h hstep (hes _ (List.mem_append_right _ List.mem_cons_self)) hids

end World

end CongestionFabric
