import CongestionFabric.Durability.Rebuilt
import CongestionFabric.Fabric.FenceSafety

namespace CongestionFabric

namespace World

/-- What an operation reports; the clock and the disk report nothing. -/
def status (w : World) (a : Fabric.Action) : VoidResult :=
  let f := w.fabric
  match a with
  | .setPolicy policy => (f.setPolicy policy).2
  | .setTopology topology => (f.setTopology topology).2
  | .setCapacity capacity => (f.setCapacity capacity).2
  | .registerPublisher publisher boot requested =>
    (f.registerPublisher publisher boot requested).2.map fun _ => ()
  | .unregisterPublisher publisher boot reason detail =>
    (f.unregisterPublisher publisher boot reason detail).2
  | .heartbeat publisher boot => (f.heartbeat publisher boot).2
  | .fencePublisher publisher boot reason detail =>
    (f.fencePublisher publisher boot reason detail).2.map fun _ => ()
  | .ingest batch => (f.ingest batch).2.map fun _ => ()
  | .evaluate domain token => (f.evaluateCancellable domain token).2.map fun _ => ()
  | .evaluateRequest request => (f.evaluateRequest request).2.map fun _ => ()
  | .planEvaluate domain token => (f.planEvaluate domain token).2.map fun _ => ()
  | .planCommit index =>
    match w.pending[index]? with
    | none => succeed
    | some b => (f.planCommit b.domain b.outcome).2.map fun _ => ()
  | .planLast domain => (f.planLast domain).2.map fun _ => ()
  | .advanceEpoch reason => (f.advanceEpoch reason).2.map fun _ => ()
  | .close | .readClock _ | .meetFates _ => succeed

/-- The fence records an operation makes. -/
def fenceRecords (w : World) : Fabric.Action → List FenceRecord
  | .fencePublisher publisher boot reason detail =>
    [w.fabric.fenceRecordOf publisher boot reason detail]
  | .unregisterPublisher publisher boot reason detail =>
    if reason = .none then [] else [w.fabric.fenceRecordOf publisher boot reason detail]
  | .advanceEpoch reason => w.fabric.publishers.entries.map (w.fabric.epochFence reason)
  | _ => []

/-- An operation succeeds, or is refused and leaves the fabric as it is. -/
def Settles (w : World) (a : Fabric.Action) : Prop :=
  w.status a = .ok () ∨ (w.act a).fabric = w.fabric

end World

namespace Fabric

/-- The fabrics agree on what is durable. -/
structure SameDurable (f g : Fabric) : Prop where
  topology : g.topology = f.topology
  capacity : g.capacity = f.capacity
  policy : g.policy = f.policy
  epoch : g.epoch = f.epoch
  generation : g.authorityGeneration = f.authorityGeneration
  domains : g.domains = f.domains
  fences : g.fences = f.fences
  openReport : g.openReport = f.openReport

theorem SameDurable.rfl {f : Fabric} : SameDurable f f := ⟨.refl _, .refl _, .refl _, .refl _, .refl _, .refl _, .refl _, .refl _⟩

/-- What an operation that succeeds makes of the memory of a fabric, with the fences it puts and
the calls that make it durable. -/
inductive Enacted (f : Fabric) : List FenceRecord → List StoreCall → Fabric → Prop where
  | quiet {g : Fabric} (h : SameDurable f g) : Enacted f [] [] g
  | policy {policy accepted : CongestionPolicy} (hv : validatePolicy policy = .ok accepted) :
      Enacted f [] [.setPolicy accepted]
        { f with policy := accepted, hasPolicy := true }.invalidateGenerations
  | topology {topology : TopologySnapshot} {index : TopologyIndex}
      (hb : TopologyIndex.build topology = .ok index) :
      Enacted f [] [.setTopology index.snapshot]
        { f with topology := some index }.invalidateGenerations
  | capacity (capacity : CapacitySnapshot) :
      Enacted f [] [.setCapacity capacity] { f with capacity := some capacity }
  | fenced (record : FenceRecord) :
      Enacted f [record] [.appendFence record] (f.fenced record)
  | evaluated {domain : DomainId} {batch : EvidenceBatch} {token : CancellationToken}
      {outcome : EvaluationOutcome} (ho : f.outcomeOf domain batch token = .ok outcome) :
      Enacted f [] (f.outcomeCalls domain outcome)
        ((f.commitOutcome domain outcome).publish domain outcome)
  | planned (domain : DomainId) (plan : InterventionPlan) :
      Enacted f [] (((f.boundIntents plan).map interventionRecordOf).map .appendIntervention)
        (f.withPlan domain plan)
  | epoch (reason : FenceReason) :
      Enacted f (f.publishers.entries.map (f.epochFence reason))
        (f.epochCalls (f.nextEpoch reason) reason) (f.nextEpoch reason)

variable {f g : Fabric} {store : Store} {stamp : MutationStamp} {calls : List StoreCall}

theorem persist_ok (hs : f.store = some store) (h : f.persist stamp calls = (g, .ok ())) :
    ∃ store', store.callAll stamp calls = (store', .ok ()) ∧ g = { f with store := some store' } := by
  unfold persist at h
  rw [hs] at h
  obtain ⟨rfl, hresult⟩ := Prod.mk.inj h
  exact ⟨_, Prod.ext rfl hresult, rfl⟩

/-- What follows a persist ran only if all its calls succeeded. -/
theorem durably_ok {α : Type} {next : Fabric → Fabric × Result α} {x : α}
    (hs : f.store = some store) (h : (f.durably stamp calls next).2 = .ok x) :
    ∃ store', store.callAll stamp calls = (store', .ok ()) ∧
      f.durably stamp calls next = next { f with store := some store' } := by
  unfold durably at h ⊢
  split at h
  next => cases h
  next g _ hp =>
    obtain ⟨store', hcalls, rfl⟩ := persist_ok hs hp
    exact ⟨store', hcalls, rfl⟩

/-- The fabric after calls that made it durable all succeeded. -/
def Written (store : Store) (calls : List StoreCall) (g g' : Fabric) : Prop :=
  ∃ stamp store', store.callAll stamp calls = (store', .ok ()) ∧
    g' = { g with store := some store' }

theorem Written.nil (hs : g.store = some store) : Written store [] g g :=
  ⟨{}, store, rfl, by rw [← hs]⟩

/-- What an operation that puts these fences makes of a durable fabric. -/
def Enacts (f f' : Fabric) (store : Store) (records : List FenceRecord) : Prop :=
  ∃ calls g, Enacted f records calls g ∧ Written store calls g f'

theorem Enacts.quiet (hs : g.store = some store) (h : SameDurable f g) : Enacts f g store [] :=
  ⟨[], g, .quiet h, .nil hs⟩

theorem enact_ok {staged : Result Staged} {kind : ProvenanceKind} {records : List FenceRecord}
    (hs : f.store = some store) (h : (f.enact staged kind).2 = .ok ())
    (hstaged : ∀ s, staged = .ok s →
      s.fabric.store = f.store ∧ Enacted f records s.calls s.fabric) :
    Enacts f (f.enact staged kind).1 store records := by
  cases staged with
  | error status => cases h
  | ok s =>
    obtain ⟨hsame, henacted⟩ := hstaged s rfl
    obtain ⟨store', hcalls, he⟩ := durably_ok (hsame.trans hs) h
    refine ⟨s.calls, s.fabric, henacted, s.fabric.makeStamp kind, store', hcalls, ?_⟩
    exact congrArg Prod.fst he

theorem forgetPublisher_durable (f : Fabric) (publisher : PublisherId) (boot : BootId) :
    SameDurable f (f.forgetPublisher publisher boot) ∧
      (f.forgetPublisher publisher boot).store = f.store := by
  unfold forgetPublisher
  split
  · exact ⟨⟨rfl, rfl, rfl, rfl, rfl, rfl, rfl, rfl⟩, rfl⟩
  · exact ⟨.rfl, rfl⟩

theorem fencePublisher_ok {publisher : PublisherId} {boot : BootId} {reason : FenceReason}
    {detail : Bytes} {record : FenceRecord} (hs : f.store = some store)
    (h : (f.fencePublisher publisher boot reason detail).2 = .ok record) :
    Enacts f (f.fencePublisher publisher boot reason detail).1 store
      [f.fenceRecordOf publisher boot reason detail] := by
  obtain ⟨_, hok, _⟩ := map_ok.mp h
  refine enact_ok hs hok fun s hstaged => ?_
  rw [admitFence_ok hstaged]
  exact ⟨(forgetPublisher_durable f _ _).2, .fenced _⟩

theorem evaluateLocked_ok {domain : DomainId} {batch : EvidenceBatch} {token : CancellationToken}
    {outcome : EvaluationOutcome} (hs : f.store = some store)
    (h : (f.evaluateLocked domain batch token).2 = .ok outcome) :
    Enacts f (f.evaluateLocked domain batch token).1 store [] := by
  unfold evaluateLocked checked at h ⊢
  split at h
  next => cases h
  next ho =>
    obtain ⟨store', hcalls, he⟩ := durably_ok (f := f.commitOutcome domain _) hs h
    refine ⟨_, _, .evaluated ho, _, store', hcalls, ?_⟩
    exact congrArg Prod.fst he

theorem planOutcome_ok {domain : DomainId} {outcome : EvaluationOutcome} {plan : InterventionPlan}
    (hs : f.store = some store) (h : (f.planOutcome domain outcome).2 = .ok plan) :
    Enacts f (f.planOutcome domain outcome).1 store [] := by
  unfold planOutcome checked at h ⊢
  split at h
  next => cases h
  next plan _ =>
    obtain ⟨store', hcalls, he⟩ := durably_ok hs h
    refine ⟨_, _, .planned domain plan, f.makeStamp .localEvaluation, store', ?_, ?_⟩
    · rw [List.map_map]
      exact hcalls
    · exact congrArg Prod.fst he

/-- A check that was passed, and what followed it. -/
theorem checked_ok {α β : Type} {check : Result α} {next : α → Fabric × Result β} {x : β}
    (h : (f.checked check next).2 = .ok x) :
    ∃ a, check = .ok a ∧ f.checked check next = next a := by
  cases check with
  | error status => cases h
  | ok a => exact ⟨a, rfl, rfl⟩

theorem admitToWindow_eq {sample : EvidenceSample} (h : f.admitToWindow sample = .ok g) :
    ∃ evidence, g = { f with evidence } := by
  unfold admitToWindow at h
  repeat' split at h
  all_goals cases h
  all_goals exact ⟨_, rfl⟩

theorem ingestSample_eq (f : Fabric) (report : IngestReport) (sample : EvidenceSample) :
    ∃ publishers evidence,
      (ingestSample (f, report) sample).1 = { f with publishers, evidence } := by
  rcases ingestSample_cases f report sample with he | ⟨_, _, registration, g, _, hadmit, he⟩
  · exact ⟨f.publishers, f.evidence, he⟩
  · obtain ⟨evidence, rfl⟩ := admitToWindow_eq hadmit
    exact ⟨_, evidence, he⟩

theorem ingestAll_eq (samples : List EvidenceSample) (f : Fabric) (report : IngestReport) :
    ∃ publishers evidence,
      (samples.foldl ingestSample (f, report)).1 = { f with publishers, evidence } := by
  induction samples generalizing f report with
  | nil => exact ⟨f.publishers, f.evidence, rfl⟩
  | cons sample rest ih =>
    obtain ⟨publishers, evidence, he⟩ := ingestSample_eq f report sample
    obtain ⟨publishers', evidence', he'⟩ :=
      ih (ingestSample (f, report) sample).1 (ingestSample (f, report) sample).2
    refine ⟨publishers', evidence', he'.trans ?_⟩
    rw [he]

end Fabric

namespace World

open Fabric

variable {w : World} {a : Action} {store : Store}

theorem moved_fabric (w : World) (a : Action) (f : Fabric) : (w.moved a f).fabric = f := rfl

theorem evaluated_fabric (finish : Action → Fabric → Basis → World)
    (hfinish : ∀ a f b, (finish a f b).fabric = f) (called : Fabric × Result EvaluationOutcome) :
    (w.evaluated a finish called).fabric = called.1 := by
  unfold World.evaluated
  split
  next => exact hfinish ..
  next => rfl

/-- An operation of a durable fabric that succeeds. -/
theorem act_enacts (hs : w.fabric.store = some store) (h : w.status a = .ok ()) :
    ∃ store₀, store₀.steady = store.steady ∧
      Enacts w.fabric (w.act a).fabric store₀ (w.fenceRecords a) := by
  cases a with
  | setPolicy policy =>
    refine ⟨store, rfl, enact_ok hs h fun s hstaged => ?_⟩
    obtain ⟨accepted, hv, rfl⟩ := stagePolicy_ok hstaged
    exact ⟨rfl, .policy hv⟩
  | setTopology topology =>
    refine ⟨store, rfl, enact_ok hs h fun s hstaged => ?_⟩
    obtain ⟨index, hb, rfl⟩ := stageTopology_ok hstaged
    exact ⟨rfl, .topology hb⟩
  | setCapacity capacity =>
    refine ⟨store, rfl, enact_ok hs h fun s hstaged => ?_⟩
    rw [stageCapacity_ok hstaged]
    exact ⟨rfl, .capacity capacity⟩
  | registerPublisher publisher boot requested =>
    obtain ⟨_, hr, _⟩ := map_ok.mp h
    obtain ⟨_, _, he⟩ := checked_ok hr
    refine ⟨store, rfl, ?_⟩
    rw [act, moved_fabric, registerPublisher, he]
    exact .quiet hs ⟨rfl, rfl, rfl, rfl, rfl, rfl, rfl, rfl⟩
  | unregisterPublisher publisher boot reason detail =>
    obtain ⟨_, _, he⟩ := checked_ok (show (w.fabric.unregisterPublisher publisher boot reason
      detail).2 = .ok () from h)
    refine ⟨store, rfl, ?_⟩
    rw [act, moved_fabric]
    simp only [World.status, fenceRecords, unregisterPublisher] at h ⊢
    rw [he] at h ⊢
    split_ifs at h ⊢ with hnone
    · obtain ⟨hsame, hstore⟩ := forgetPublisher_durable w.fabric publisher boot
      exact .quiet (hstore.trans hs) hsame
    · obtain ⟨record, hr, _⟩ := map_ok.mp h
      exact fencePublisher_ok hs hr
  | heartbeat publisher boot =>
    obtain ⟨_, _, he⟩ := checked_ok (show (w.fabric.heartbeat publisher boot).2 = .ok () from h)
    refine ⟨store, rfl, ?_⟩
    rw [act, moved_fabric, heartbeat, he]
    exact .quiet hs ⟨rfl, rfl, rfl, rfl, rfl, rfl, rfl, rfl⟩
  | fencePublisher publisher boot reason detail =>
    obtain ⟨record, hr, _⟩ := map_ok.mp h
    exact ⟨store, rfl, fencePublisher_ok hs hr⟩
  | ingest batch =>
    obtain ⟨_, hr, _⟩ := map_ok.mp h
    obtain ⟨_, _, he⟩ := checked_ok hr
    refine ⟨store, rfl, ?_⟩
    rw [act, moved_fabric, ingest, he]
    obtain ⟨publishers, evidence, hingested⟩ := ingestAll_eq batch.samples w.fabric {}
    dsimp only
    rw [hingested]
    exact .quiet hs ⟨rfl, rfl, rfl, rfl, rfl, rfl, rfl, rfl⟩
  | evaluate domain token =>
    obtain ⟨_, hr, _⟩ := map_ok.mp h
    obtain ⟨_, _, he⟩ := checked_ok hr
    refine ⟨store, rfl, ?_⟩
    rw [act, evaluated_fabric _ fun _ _ _ => rfl, evaluateCancellable, he]
    rw [evaluateCancellable, he] at hr
    exact evaluateLocked_ok hs hr
  | evaluateRequest request =>
    obtain ⟨_, hr, _⟩ := map_ok.mp h
    obtain ⟨_, _, he⟩ := checked_ok hr
    refine ⟨store, rfl, ?_⟩
    rw [act, evaluated_fabric _ fun _ _ _ => rfl, Fabric.evaluateRequest, he]
    rw [Fabric.evaluateRequest, he] at hr
    exact evaluateLocked_ok hs hr
  | planEvaluate domain token =>
    obtain ⟨_, hr, _⟩ := map_ok.mp h
    obtain ⟨_, _, he⟩ := checked_ok hr
    rw [planEvaluate, he] at hr
    obtain ⟨_, _, he'⟩ := checked_ok hr
    refine ⟨store, rfl, ?_⟩
    rw [act, evaluated_fabric _ fun _ _ _ => rfl, planEvaluate, he, evaluateCancellable, he']
    rw [evaluateCancellable, he'] at hr
    exact evaluateLocked_ok hs hr
  | planCommit index =>
    refine ⟨store, rfl, ?_⟩
    simp only [World.status, act] at h ⊢
    cases hb : w.pending[index]? with
    | none => exact .quiet hs .rfl
    | some b =>
      rw [hb] at h
      obtain ⟨_, hr, _⟩ := map_ok.mp h
      obtain ⟨_, _, he⟩ := checked_ok hr
      have he : w.fabric.planCommit b.domain b.outcome = w.fabric.planOutcome b.domain b.outcome :=
        he
      rw [he] at hr
      dsimp only [dropPending, moved]
      rw [he]
      exact planOutcome_ok hs hr
  | planLast domain =>
    obtain ⟨_, hr, _⟩ := map_ok.mp h
    obtain ⟨_, _, he⟩ := checked_ok hr
    refine ⟨store, rfl, ?_⟩
    rw [act, moved_fabric, planLast, he]
    rw [planLast, he] at hr
    cases ho : w.fabric.lastOutcomes.find? domain with
    | none =>
      rw [ho] at hr
      cases hr
    | some outcome =>
      rw [ho] at hr
      exact planOutcome_ok hs hr
  | advanceEpoch reason =>
    obtain ⟨_, hr, _⟩ := map_ok.mp h
    obtain ⟨_, hok, _⟩ := map_ok.mp hr
    refine ⟨store, rfl, enact_ok hs hok fun s hstaged => ?_⟩
    rw [stageEpoch_ok hstaged]
    obtain ⟨_, he⟩ := nextEpoch_eq w.fabric reason
    exact ⟨by rw [he], .epoch reason⟩
  | close => exact ⟨store, rfl, .quiet hs ⟨rfl, rfl, rfl, rfl, rfl, rfl, rfl, rfl⟩⟩
  | readClock now => exact ⟨store, rfl, .quiet hs ⟨rfl, rfl, rfl, rfl, rfl, rfl, rfl, rfl⟩⟩
  | meetFates fates =>
    refine ⟨{ store with journal := { store.journal with fates } }, rfl, ?_⟩
    refine .quiet ?_ ⟨rfl, rfl, rfl, rfl, rfl, rfl, rfl, rfl⟩
    rw [act, moved_fabric, hs]
    rfl

end World

end CongestionFabric
