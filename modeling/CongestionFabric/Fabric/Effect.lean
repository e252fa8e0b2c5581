import CongestionFabric.Fabric.World

namespace CongestionFabric

namespace Fabric

variable {f : Fabric} {stamp : MutationStamp} {calls : List StoreCall} {domain : DomainId}
  {outcome : EvaluationOutcome}

theorem persist_eq (f : Fabric) (stamp : MutationStamp) (calls : List StoreCall) :
    ∃ store, (f.persist stamp calls).1 = { f with store } := by
  unfold persist
  split
  next => exact ⟨f.store, rfl⟩
  next => exact ⟨_, rfl⟩

variable (f stamp calls) in
/-- Persisting fails, or what follows goes on with the same memory. -/
theorem durably_cases {α : Type} (next : Fabric → Fabric × Result α) :
    (∃ store status, f.durably stamp calls next = ({ f with store }, .error status)) ∨
      ∃ store, f.durably stamp calls next = next { f with store } := by
  obtain ⟨store, hp⟩ := f.persist_eq stamp calls
  unfold durably
  split
  next status he =>
    rw [he] at hp
    dsimp only at hp
    exact .inl ⟨store, status, by rw [hp]⟩
  next he =>
    rw [he] at hp
    dsimp only at hp
    exact .inr ⟨store, by rw [hp]⟩

/-- A staged change is refused, or made in memory whatever comes of persisting it. -/
theorem enact_cases (staged : Result Staged) (kind : ProvenanceKind) :
    (∃ status, staged = .error status ∧ f.enact staged kind = (f, .error status)) ∨
      ∃ s store result, staged = .ok s ∧
        f.enact staged kind = ({ s.fabric with store }, result) := by
  cases staged with
  | error status => exact .inl ⟨status, rfl, rfl⟩
  | ok s =>
    refine .inr ?_
    rcases durably_cases s.fabric (s.fabric.makeStamp kind) s.calls
      fun f => (f, succeed) with ⟨store, status, he⟩ | ⟨store, he⟩
    · exact ⟨s, store, _, rfl, he⟩
    · exact ⟨s, store, _, rfl, he⟩

theorem stagePolicy_ok {policy : CongestionPolicy} {s : Staged}
    (h : f.stagePolicy policy = .ok s) : ∃ accepted, validatePolicy policy = .ok accepted ∧
      s = ⟨{ f with policy := accepted, hasPolicy := true }.invalidateGenerations,
        [.setPolicy accepted]⟩ := by
  simp only [stagePolicy, bind_ok, refuseIf_ok] at h
  obtain ⟨accepted, hv, _, _, _, _, h⟩ := h
  exact ⟨accepted, hv, (Except.ok.inj h).symm⟩

theorem stageTopology_ok {topology : TopologySnapshot} {s : Staged}
    (h : f.stageTopology topology = .ok s) : ∃ index, TopologyIndex.build topology = .ok index ∧
      s = ⟨{ f with topology := some index }.invalidateGenerations,
        [.setTopology index.snapshot]⟩ := by
  simp only [stageTopology, bind_ok] at h
  obtain ⟨index, hb, _, _, h⟩ := h
  exact ⟨index, hb, (Except.ok.inj h).symm⟩

theorem stageCapacity_ok {capacity : CapacitySnapshot} {s : Staged}
    (h : f.stageCapacity capacity = .ok s) :
    s = ⟨{ f with capacity := some capacity }, [.setCapacity capacity]⟩ := by
  simp only [stageCapacity, bind_ok] at h
  obtain ⟨_, _, _, _, h⟩ := h
  exact (Except.ok.inj h).symm

theorem stageEpoch_ok {reason : FenceReason} {s : Staged} (h : f.stageEpoch reason = .ok s) :
    s = ⟨f.nextEpoch reason, f.epochCalls (f.nextEpoch reason) reason⟩ := by
  simp only [stageEpoch, bind_ok] at h
  obtain ⟨_, _, h⟩ := h
  exact (Except.ok.inj h).symm

theorem admitFence_ok {publisher : PublisherId} {boot : BootId} {reason : FenceReason}
    {detail : Bytes} {s : Staged} (h : f.admitFence publisher boot reason detail = .ok s) :
    s = ⟨f.fenced (f.fenceRecordOf publisher boot reason detail),
      [.appendFence (f.fenceRecordOf publisher boot reason detail)]⟩ := by
  simp only [admitFence, stageFence, bind_ok] at h
  obtain ⟨_, _, _, _, h⟩ := h
  exact (Except.ok.inj h).symm

theorem fencePublisher_cases (publisher : PublisherId) (boot : BootId) (reason : FenceReason)
    (detail : Bytes) :
    (f.fencePublisher publisher boot reason detail).1 = f ∨
      (f.admitFence publisher boot reason detail).isOk = true ∧
      ∃ store, (f.fencePublisher publisher boot reason detail).1 =
        { f.fenced (f.fenceRecordOf publisher boot reason detail) with store } := by
  unfold fencePublisher
  rcases enact_cases (f := f) (f.admitFence publisher boot reason detail) .fence with
    ⟨status, _, he⟩ | ⟨s, store, result, hs, he⟩
  · exact .inl (congrArg Prod.fst he)
  · refine .inr ⟨by rw [hs]; rfl, store, ?_⟩
    rw [admitFence_ok hs] at he
    exact congrArg Prod.fst he

/-- An evaluation is refused, committed in memory only, or committed and published. -/
theorem evaluateLocked_cases (domain : DomainId) (batch : EvidenceBatch)
    (token : CancellationToken) :
    (∃ status, f.evaluateLocked domain batch token = (f, .error status)) ∨
      ∃ outcome, f.outcomeOf domain batch token = .ok outcome ∧
        ((∃ store status, f.evaluateLocked domain batch token =
            ({ f.commitOutcome domain outcome with store }, .error status)) ∨
          ∃ store, f.evaluateLocked domain batch token =
            ({ (f.commitOutcome domain outcome).publish domain outcome with store },
              .ok outcome)) := by
  unfold evaluateLocked checked
  split
  next status _ => exact .inl ⟨status, rfl⟩
  next outcome ho => exact .inr ⟨outcome, ho, durably_cases _ _ _ _⟩

def enroll (f : Fabric) (publisher : PublisherId) (registration : PublisherRegistration) : Fabric :=
  { f with publishers := f.publishers.insert publisher registration }

/-- The fabric a plan leaves in memory. -/
def withPlan (f : Fabric) (domain : DomainId) (plan : InterventionPlan) : Fabric :=
  { f with
    intents := f.intents.insert domain (f.retainedIntents domain ++ f.boundIntents plan)
    explanations := f.explainPlan domain plan }

/-- The outstanding intents after a plan were outstanding before, or are newly bound. -/
theorem withPlan_intents {domain k : DomainId} {plan : InterventionPlan}
    {intent : InterventionIntent} (h : intent ∈ (f.withPlan domain plan).activeIntents k) :
    intent ∈ f.activeIntents k ∨ intent ∈ f.boundIntents plan := by
  unfold withPlan activeIntents SortedMap.findD at h
  dsimp only at h
  rw [SortedMap.find?_insert] at h
  split_ifs at h with hk
  · rw [hk]
    rcases List.mem_append.mp h with hretained | hbound
    · exact .inl (List.mem_filter.mp (List.mem_of_mem_drop hretained)).1
    · exact .inr hbound
  · exact .inl h

/-- A plan fails and leaves memory as it was, or is made from the outcome and returned. -/
theorem planOutcome_cases (domain : DomainId) (outcome : EvaluationOutcome) :
    (∃ store status, f.planOutcome domain outcome = ({ f with store }, .error status)) ∨
      ∃ plan store, InterventionPlanner.plan outcome f.planningContext (f.activeIntents domain) =
          .ok plan ∧
        f.planOutcome domain outcome = ({ f.withPlan domain plan with store }, .ok plan) := by
  unfold planOutcome checked
  split
  next status _ => exact .inl ⟨f.store, status, rfl⟩
  next plan hp =>
    rcases durably_cases f (f.makeStamp .localEvaluation)
      ((f.boundIntents plan).map fun intent =>
        .appendIntervention (interventionRecordOf intent)) fun g =>
        ({ g with
            intents := g.intents.insert domain (f.retainedIntents domain ++ f.boundIntents plan)
            explanations := g.explainPlan domain plan }, .ok plan) with
      ⟨store, status, he⟩ | ⟨store, he⟩
    · exact .inl ⟨store, status, he⟩
    · exact .inr ⟨plan, store, hp, he⟩

end Fabric

namespace World

open Fabric

/-- What an action can do to a world, up to the store. -/
inductive Effect (w : World) : Action → World → Prop where
  | kept (a : Action) : Effect w a (w.moved a w.fabric)
  | policy {policy accepted : CongestionPolicy} (hs : (w.fabric.stagePolicy policy).isOk = true)
      (hv : validatePolicy policy = .ok accepted) :
      Effect w (.setPolicy policy) (w.moved (.setPolicy policy)
        { w.fabric with policy := accepted, hasPolicy := true }.invalidateGenerations)
  | topology {topology : TopologySnapshot} {index : TopologyIndex}
      (hs : (w.fabric.stageTopology topology).isOk = true)
      (hb : TopologyIndex.build topology = .ok index) :
      Effect w (.setTopology topology) (w.moved (.setTopology topology)
        { w.fabric with topology := some index }.invalidateGenerations)
  | capacity (capacity : CapacitySnapshot) :
      Effect w (.setCapacity capacity) (w.moved (.setCapacity capacity)
        { w.fabric with capacity := some capacity })
  | registered {publisher : PublisherId} {boot : BootId} {requested : AuthoritySet}
      (h : w.fabric.admitPublisher publisher boot = .ok ()) :
      Effect w (.registerPublisher publisher boot requested)
        (w.moved (.registerPublisher publisher boot requested)
          (w.fabric.enroll publisher (w.fabric.registrationOf publisher boot requested)))
  | departed (publisher : PublisherId) (boot : BootId) (detail : Bytes) :
      Effect w (.unregisterPublisher publisher boot .none detail)
        (w.moved (.unregisterPublisher publisher boot .none detail)
          (w.fabric.forgetPublisher publisher boot))
  | alive {publisher : PublisherId} {boot : BootId} {registration : PublisherRegistration}
      (h : w.fabric.registered publisher boot = some registration) :
      Effect w (.heartbeat publisher boot) (w.moved (.heartbeat publisher boot)
        (w.fabric.enroll publisher
          { registration with lastSeenTick := w.fabric.clock, alive := true }))
  | fenced {a : Action} {record : FenceRecord}
      (h : w.fabric.fencing a = [(record.publisher, record.boot)]) :
      Effect w a (w.moved a (w.fabric.fenced record))
  | ingested (batch : EvidenceBatch) :
      Effect w (.ingest batch) (w.moved (.ingest batch)
        (batch.samples.foldl ingestSample (w.fabric, {})).1)
  | evaluated {a : Action} {b : Basis} (h : w.fabric.evaluation a = some b) :
      Effect w a (w.moved a (w.fabric.commitOutcome b.domain b.outcome))
  | published {a : Action} {b : Basis} (h : w.fabric.evaluation a = some b) :
      Effect w a (w.publishedAs a
        ((w.fabric.commitOutcome b.domain b.outcome).publish b.domain b.outcome) b)
  | carried {a : Action} {b : Basis} (h : w.fabric.evaluation a = some b) :
      Effect w a (w.carriedAs a
        ((w.fabric.commitOutcome b.domain b.outcome).publish b.domain b.outcome) b)
  | dropped (index : Nat) :
      Effect w (.planCommit index) ((w.moved (.planCommit index) w.fabric).dropPending index)
  | planned {index : Nat} {b : Basis} {plan : InterventionPlan}
      (hb : w.pending[index]? = some b)
      (hp : InterventionPlanner.plan b.outcome w.fabric.planningContext
        (w.fabric.activeIntents b.domain) = .ok plan) :
      Effect w (.planCommit index)
        ((w.moved (.planCommit index) (w.fabric.withPlan b.domain plan)).dropPending index)
  | plannedLast {domain : DomainId} {outcome : EvaluationOutcome} {plan : InterventionPlan}
      (ho : w.fabric.lastOutcomes.find? domain = some outcome)
      (hp : InterventionPlanner.plan outcome w.fabric.planningContext
        (w.fabric.activeIntents domain) = .ok plan) :
      Effect w (.planLast domain) (w.moved (.planLast domain) (w.fabric.withPlan domain plan))
  | epoch {reason : FenceReason} (h : (w.fabric.stageEpoch reason).isOk = true) :
      Effect w (.advanceEpoch reason) (w.moved (.advanceEpoch reason) (w.fabric.nextEpoch reason))
  | closed : Effect w .close (w.moved .close w.fabric.close)
  | clock (now : Tick) :
      Effect w (.readClock now) (w.moved (.readClock now) { w.fabric with clock := now })

variable {w : World} {a : Action}

/-- The effect of a call that evaluates, by the evaluation it commits. -/
theorem evaluation_effect {domain : DomainId} {batch : EvidenceBatch} {token : CancellationToken}
    (ha : w.fabric.evaluation a = w.fabric.assessed domain batch token)
    {finish : Action → Fabric → Basis → World}
    (hfinish : finish = w.publishedAs ∨ finish = w.carriedAs) :
    ∃ w' store, Effect w a w' ∧
      w.evaluated a finish (w.fabric.checked w.fabric.ensureOpen fun _ =>
        w.fabric.evaluateLocked domain batch token) = w'.onStore store := by
  cases hopen : w.fabric.ensureOpen with
  | error status => exact ⟨_, w.fabric.store, .kept a, rfl⟩
  | ok u =>
    rcases evaluateLocked_cases (f := w.fabric) domain batch token with
      ⟨status, he⟩ | ⟨outcome, ho, hcommit⟩
    · exact ⟨_, w.fabric.store, .kept a, congrArg (w.evaluated a finish) he⟩
    · have heval : w.fabric.evaluation a =
          some { domain, batch, outcome, fabric := w.fabric } := by
        rw [ha, assessed, hopen, ho]
        rfl
      rcases hcommit with ⟨store, status, he⟩ | ⟨store, he⟩
      · exact ⟨_, store, .evaluated heval, congrArg (w.evaluated a finish) he⟩
      · have hlast : w.evaluated a finish (w.fabric.evaluateLocked domain batch token) = finish a
            { (w.fabric.commitOutcome domain outcome).publish domain outcome with store }
            { domain, batch, outcome, fabric := w.fabric } := by
          rw [he]
          unfold World.evaluated
          rw [heval]
        rcases hfinish with rfl | rfl
        · exact ⟨_, store, .published heval, hlast⟩
        · exact ⟨_, store, .carried heval, hlast⟩

theorem enact_effect {staged : Result Staged} {kind : ProvenanceKind}
    (hs : ∀ s, staged = .ok s → Effect w a (w.moved a s.fabric)) :
    ∃ w' store, Effect w a w' ∧ w.moved a (w.fabric.enact staged kind).1 = w'.onStore store := by
  rcases enact_cases (f := w.fabric) staged kind with ⟨status, _, he⟩ | ⟨s, store, result, h, he⟩
  · exact ⟨_, w.fabric.store, .kept a, by rw [he]; rfl⟩
  · exact ⟨_, store, hs s h, by rw [he]; rfl⟩

theorem isOk_of_eq {α : Type} {r : Result α} {x : α} (h : r = .ok x) : r.isOk = true := by
  rw [h]
  rfl

theorem act_effect (w : World) (a : Action) :
    ∃ w' store, Effect w a w' ∧ w.act a = w'.onStore store := by
  have hkept : ∀ a, ∃ w' store, Effect w a w' ∧ w.moved a w.fabric = w'.onStore store :=
    fun a => ⟨_, w.fabric.store, .kept a, rfl⟩
  cases a with
  | setPolicy policy =>
    refine enact_effect fun s hs => ?_
    obtain ⟨accepted, hv, rfl⟩ := stagePolicy_ok hs
    exact .policy (isOk_of_eq hs) hv
  | setTopology topology =>
    refine enact_effect fun s hs => ?_
    obtain ⟨index, hb, rfl⟩ := stageTopology_ok hs
    exact .topology (isOk_of_eq hs) hb
  | setCapacity capacity =>
    refine enact_effect fun s hs => ?_
    rw [stageCapacity_ok hs]
    exact .capacity capacity
  | registerPublisher publisher boot requested =>
    simp only [act, registerPublisher, checked]
    split
    next => exact hkept _
    next h => exact ⟨_, w.fabric.store, .registered h, rfl⟩
  | unregisterPublisher publisher boot reason detail =>
    simp only [act, unregisterPublisher, checked]
    split
    next => exact hkept _
    next hchecks =>
      have hrestart : reason ≠ .coordinatorRestart := by
        obtain ⟨_, _, h⟩ := bind_ok.mp hchecks
        exact refuseIf_ok.mp h
      split_ifs with hnone
      · subst hnone
        exact ⟨_, (w.fabric.forgetPublisher publisher boot).store, .departed publisher boot detail, rfl⟩
      · rcases fencePublisher_cases (f := w.fabric) publisher boot reason detail with
          he | ⟨hadmitted, store, he⟩
        · exact ⟨_, w.fabric.store, .kept _, by rw [he]; rfl⟩
        · refine ⟨_, store, .fenced ?_, by rw [he]; rfl⟩
          exact if_pos ⟨hrestart, hnone, hadmitted⟩
  | heartbeat publisher boot =>
    simp only [act, heartbeat, checked]
    split
    next => exact hkept _
    next registration h =>
      obtain ⟨_, _, h⟩ := bind_ok.mp h
      unfold lookupPublisher at h
      split at h
      next => cases h
      next heq =>
        obtain rfl := Except.ok.inj h
        exact ⟨_, w.fabric.store, .alive heq, rfl⟩
  | fencePublisher publisher boot reason detail =>
    rcases fencePublisher_cases (f := w.fabric) publisher boot reason detail with
      he | ⟨hadmitted, store, he⟩
    · exact ⟨_, w.fabric.store, .kept _, by rw [act, he]; rfl⟩
    · refine ⟨_, store, .fenced ?_, by rw [act, he]; rfl⟩
      exact if_pos hadmitted
  | ingest batch =>
    simp only [act, ingest, checked]
    split
    next => exact hkept _
    next =>
      exact ⟨_, (batch.samples.foldl ingestSample (w.fabric, {})).1.store, .ingested batch, rfl⟩
  | evaluate domain token => exact evaluation_effect rfl (.inl rfl)
  | evaluateRequest request => exact evaluation_effect rfl (.inl rfl)
  | planEvaluate domain token =>
    simp only [act, planEvaluate, checked]
    split
    next => exact hkept _
    next hbefore =>
      have hgo : token.beforePlan = false := by simpa [refuseCancelled] using hbefore
      refine evaluation_effect ?_ (.inr rfl)
      rw [evaluation, hgo, if_neg Bool.false_ne_true]
  | planCommit index =>
    simp only [act]
    split
    next => exact hkept _
    next b hb =>
      unfold planCommit checked
      split
      next => exact ⟨_, w.fabric.store, .dropped index, rfl⟩
      next =>
        rcases planOutcome_cases (f := w.fabric) b.domain b.outcome with
          ⟨store, status, he⟩ | ⟨plan, store, hp, he⟩
        · exact ⟨_, store, .dropped index, by rw [he]; rfl⟩
        · exact ⟨_, store, .planned hb hp, by rw [he]; rfl⟩
  | planLast domain =>
    simp only [act, planLast, checked]
    split
    next => exact hkept _
    next =>
      split
      next => exact hkept _
      next outcome ho =>
        rcases planOutcome_cases (f := w.fabric) domain outcome with
          ⟨store, status, he⟩ | ⟨plan, store, hp, he⟩
        · exact ⟨_, store, .kept _, by rw [he]; rfl⟩
        · exact ⟨_, store, .plannedLast ho hp, by rw [he]; rfl⟩
  | advanceEpoch reason =>
    simp only [act, advanceEpoch]
    refine enact_effect fun s hs => ?_
    rw [stageEpoch_ok hs]
    exact .epoch (isOk_of_eq hs)
  | close => exact ⟨_, w.fabric.store, .closed, rfl⟩
  | readClock now => exact ⟨_, w.fabric.store, .clock now, rfl⟩
  | meetFates fates => exact ⟨_, _, .kept _, rfl⟩

end World

end CongestionFabric
