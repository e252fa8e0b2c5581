import CongestionFabric.Eval.Acceptance
import CongestionFabric.Fabric.Window

namespace CongestionFabric

open CongestionEvaluator

namespace Fabric

variable {f : Fabric} {domain : DomainId} {batch : EvidenceBatch} {publisher : PublisherId}
  {boot : BootId}

/-- The incarnations an evaluation of a batch keeps readings of. -/
def accepted (f : Fabric) (domain : DomainId) (batch : EvidenceBatch) :
    List (PublisherId × BootId) :=
  let request := f.evaluationRequest domain batch
  match scope request f.policy f.topology with
  | .error _ => []
  | .ok resources => incarnationsOf (admitSamples request f.policy f.evaluationContext resources).readings

def Basis.accepted (b : Basis) : List (PublisherId × BootId) := b.fabric.accepted b.domain b.batch

/-- A batch holds a sample of an incarnation that passes the evaluator's tests at its place. -/
def Offers (f : Fabric) (domain : DomainId) (batch : EvidenceBatch) (publisher : PublisherId)
    (boot : BootId) : Prop :=
  let request := f.evaluationRequest domain batch
  ∃ resources before sample after,
    scope request f.policy f.topology = .ok resources ∧
      batch.samples = before ++ sample :: after ∧ identity sample = (publisher, boot) ∧
      takes f.policy f.evaluationContext f.clock resources
        (before.foldl (admitSample f.policy f.evaluationContext f.clock resources)
          (emptyAdmission request)) sample = true

theorem mem_accepted_iff :
    (publisher, boot) ∈ f.accepted domain batch ↔ f.Offers domain batch publisher boot := by
  unfold accepted Offers
  dsimp only
  cases hs : scope (f.evaluationRequest domain batch) f.policy f.topology with
  | error status => simp
  | ok resources =>
    dsimp only
    rw [mem_incarnations_admitted]
    constructor
    · rintro ⟨before, sample, after, hsamples, hid, htakes⟩
      exact ⟨resources, before, sample, after, rfl, hsamples, hid, htakes⟩
    · rintro ⟨_, before, sample, after, heq, hsamples, hid, htakes⟩
      obtain rfl := Except.ok.inj heq
      exact ⟨before, sample, after, hsamples, hid, htakes⟩

/-- Whatever the window holds of an incarnation is why an evaluation of it accepts any. -/
theorem mem_accepted_window
    (h : (publisher, boot) ∈ f.accepted domain (f.collectEvidence domain)) :
    ∃ key sample, f.evidence.find? key = some sample ∧ sample.publisher = publisher ∧
      sample.publisherBoot = boot := by
  obtain ⟨_, before, sample, after, _, hsamples, hid, _⟩ := mem_accepted_iff.mp h
  have hmem : sample ∈ f.windowSamples domain := by
    rw [show f.windowSamples domain = before ++ sample :: after from hsamples]
    exact List.mem_append_right _ List.mem_cons_self
  obtain ⟨key, hfind⟩ := SortedMap.mem_values_iff.mp
    (List.mem_of_mem_filter (List.mem_of_mem_take hmem))
  obtain ⟨hp, hb⟩ := Prod.mk.inj hid
  exact ⟨key, sample, hfind, hp, hb⟩

theorem assessed_some {token : CancellationToken} {b : Basis}
    (h : f.assessed domain batch token = some b) :
    b.domain = domain ∧ b.batch = batch ∧ b.fabric = f ∧ b.invalidated = false ∧
      b.fencedSince = [] ∧ f.outcomeOf domain batch token = .ok b.outcome := by
  unfold assessed at h
  cases hopen : f.ensureOpen with
  | error status =>
    rw [hopen] at h
    cases h
  | ok u =>
    rw [hopen] at h
    cases ho : f.outcomeOf domain batch token with
    | error status =>
      rw [ho] at h
      cases h
    | ok outcome =>
      rw [ho] at h
      cases h
      exact ⟨rfl, rfl, rfl, rfl, rfl, rfl⟩

/-- Where the batch of an evaluation comes from: the window, or the caller. -/
theorem evaluation_cases {a : Action} {b : Basis} (h : f.evaluation a = some b) :
    b.fabric = f ∧ b.invalidated = false ∧ b.fencedSince = [] ∧
      (∃ token, f.outcomeOf b.domain b.batch token = .ok b.outcome) ∧
      ((b.batch = f.collectEvidence b.domain ∧ ∀ request, a ≠ .evaluateRequest request) ∨
        ∃ request, a = .evaluateRequest request ∧ b.domain = request.domain ∧
          b.batch = request.evidence) := by
  unfold evaluation at h
  split at h
  next domain token =>
    obtain ⟨rfl, hb, hf, hi, hs, ho⟩ := assessed_some h
    exact ⟨hf, hi, hs, ⟨token, hb ▸ ho⟩, .inl ⟨hb, nofun⟩⟩
  next request =>
    obtain ⟨hd, hb, hf, hi, hs, ho⟩ := assessed_some h
    exact ⟨hf, hi, hs, ⟨_, by rw [hd, hb]; exact ho⟩, .inr ⟨request, rfl, hd, hb⟩⟩
  next domain token =>
    split at h
    next => cases h
    next =>
      obtain ⟨rfl, hb, hf, hi, hs, ho⟩ := assessed_some h
      exact ⟨hf, hi, hs, ⟨token, hb ▸ ho⟩, .inl ⟨hb, nofun⟩⟩
  next => cases h

/-- A call that returned success and fences an incarnation. -/
def Expels (f : Fabric) (publisher : PublisherId) (boot : BootId) : Action → Prop
  | .fencePublisher p b reason detail =>
    (p, b) = (publisher, boot) ∧ (f.fencePublisher p b reason detail).2.isOk = true
  | .unregisterPublisher p b reason detail =>
    (p, b) = (publisher, boot) ∧ reason ≠ .none ∧
      (f.unregisterPublisher p b reason detail).2.isOk = true
  | .advanceEpoch reason =>
    (f.registered publisher boot).isSome = true ∧ (f.advanceEpoch reason).2.isOk = true
  | _ => False

theorem isOk_map {α β : Type} (r : Result α) (g : α → β) :
    Result.isOk (r.map g) = Result.isOk r := by
  cases r <;> rfl

theorem enact_isOk {staged : Result Staged} {kind : ProvenanceKind}
    (h : (f.enact staged kind).2.isOk = true) : staged.isOk = true := by
  cases staged with
  | error status => cases h
  | ok s => rfl

theorem Expels.fencing {a : Action} (h : f.Expels publisher boot a) :
    (publisher, boot) ∈ f.fencing a := by
  have hfence : ∀ {p b reason detail}, (f.fencePublisher p b reason detail).2.isOk = true →
      (f.admitFence p b reason detail).isOk = true := by
    intro p b reason detail h
    simp only [fencePublisher, isOk_map] at h
    exact enact_isOk h
  cases a with
  | fencePublisher p b reason detail =>
    obtain ⟨hid, hok⟩ := h
    cases hid
    rw [Fabric.fencing, if_pos (hfence hok)]
    exact List.mem_cons_self
  | unregisterPublisher p b reason detail =>
    obtain ⟨hid, hnone, hok⟩ := h
    cases hid
    unfold unregisterPublisher checked at hok
    split at hok
    next => cases hok
    next hchecks =>
      obtain ⟨_, _, hrestart⟩ := bind_ok.mp hchecks
      simp only [if_neg hnone, isOk_map] at hok
      rw [Fabric.fencing, if_pos ⟨refuseIf_ok.mp hrestart, hnone, hfence hok⟩]
      exact List.mem_cons_self
  | advanceEpoch reason =>
    obtain ⟨hreg, hok⟩ := h
    simp only [advanceEpoch, isOk_map] at hok
    have hstage := enact_isOk hok
    obtain ⟨registration, hr⟩ := Option.isSome_iff_exists.mp hreg
    obtain ⟨hfind, rfl⟩ := registered_find hr
    rw [Fabric.fencing, if_pos hstage]
    exact List.mem_map.mpr ⟨_, SortedMap.mem_entries_iff.mpr hfind, rfl⟩
  | _ => exact h.elim

end Fabric

namespace World

open Fabric

variable {w w' : World} {publisher : PublisherId} {boot : BootId} {a a' : Action} {b : Basis}

theorem enact_staged (f : Fabric) {staged : Result Staged} (kind : ProvenanceKind)
    (h : staged.isOk = true) : ∃ s store, staged = .ok s ∧
      (f.enact staged kind).1 = { s.fabric with store } := by
  rcases enact_cases (f := f) staged kind with ⟨status, hs, _⟩ | ⟨s, store, result, hs, he⟩
  · rw [hs] at h
    cases h
  · exact ⟨s, store, hs, congrArg Prod.fst he⟩

theorem fencePublisher_isFenced {f : Fabric} {reason : FenceReason} {detail : Bytes}
    (h : (f.admitFence publisher boot reason detail).isOk = true) :
    (f.fencePublisher publisher boot reason detail).1.isFenced publisher boot = true := by
  obtain ⟨s, store, hs, he⟩ := enact_staged f .fence h
  have heq : (f.fencePublisher publisher boot reason detail).1 = { s.fabric with store } := he
  rw [heq, admitFence_ok hs]
  exact (isFenced_fenced f (f.fenceRecordOf publisher boot reason detail) publisher boot).mpr
    (.inr rfl)

/-- What an action fences is fenced after it. -/
theorem act_fencing (w : World) (h : (publisher, boot) ∈ w.fabric.fencing a) :
    (w.act a).fabric.isFenced publisher boot = true := by
  cases a with
  | fencePublisher p b reason detail =>
    unfold fencing at h
    dsimp only at h
    split_ifs at h with hadmitted
    · cases List.mem_singleton.mp h
      exact fencePublisher_isFenced hadmitted
    · cases h
  | unregisterPublisher p b reason detail =>
    unfold fencing at h
    dsimp only at h
    split_ifs at h with hadmitted
    · obtain ⟨hrestart, hnone, hadmitted⟩ := hadmitted
      cases List.mem_singleton.mp h
      have hopen : w.fabric.ensureOpen = .ok () := by
        obtain ⟨s, hs⟩ := Result.exists_of_isOk hadmitted
        obtain ⟨_, hopen, _⟩ := bind_ok.mp hs
        exact hopen
      have hact : (w.act (.unregisterPublisher publisher boot reason detail)).fabric =
          (w.fabric.fencePublisher publisher boot reason detail).1 := by
        simp only [act, moved, Fabric.unregisterPublisher, checked, hopen, refuseIf, hrestart,
          hnone, bind, Except.bind, if_false, succeed]
      rw [hact]
      exact fencePublisher_isFenced hadmitted
    · cases h
  | advanceEpoch reason =>
    unfold fencing at h
    dsimp only at h
    split_ifs at h with hstage
    · obtain ⟨s, store, hs, he⟩ := enact_staged w.fabric .epochAdvance hstage
      have hact : (w.act (.advanceEpoch reason)).fabric = { s.fabric with store } := he
      rw [hact, stageEpoch_ok hs]
      exact (isFenced_nextEpoch w.fabric reason).mpr (.inr h)
    · cases h
  | _ => cases h

/-- After an incarnation was fenced, an evaluation accepts a reading of it exactly when the caller
of evaluate(request) offers one. -/
theorem fenced_unaccepted_iff {options : FabricOptions} {clock : Tick} {disk : Disk} {f : Fabric}
    {es es' : List (Event World Input)} (hopen : openOn options clock disk = .ok f)
    (run : Run Step ⟨f, [], ∅⟩ es w) (hfence : w.fabric.Expels publisher boot a)
    (run' : Run Step (w.act a) es' w') (hlive : OneProcess es')
    (heval : w'.fabric.evaluation a' = some b) :
    (publisher, boot) ∉ b.accepted ↔ ∀ request, a' = .evaluateRequest request →
      ¬w'.fabric.Offers request.domain request.evidence publisher boot := by
  obtain ⟨hb, _, _, _, hsource⟩ := evaluation_cases heval
  have hafter := run.next (.act a)
  have hguarded : Guarded w'.fabric := (hafter.append run').invariant (.of_openOn hopen)
    fun _ _ _ hs hstep => hstep.guarded hs
  have hfenced : w'.fabric.isFenced publisher boot = true :=
    isFenced_lasts run' hlive (act_fencing w hfence.fencing)
  rw [Basis.accepted, hb]
  rcases hsource with ⟨hbatch, hother⟩ | ⟨request, rfl, hdomain, hbatch⟩
  · refine iff_of_true (fun h => ?_) fun request hr => absurd hr (hother request)
    rw [hbatch] at h
    obtain ⟨key, sample, hfind, rfl, rfl⟩ := mem_accepted_window h
    exact Bool.false_ne_true ((hguarded.unfenced key sample hfind).symm.trans hfenced)
  · rw [hdomain, hbatch, mem_accepted_iff]
    constructor
    · intro h found hfound
      injection hfound with hfound
      exact hfound ▸ h
    · exact fun h => h request rfl

/-- A request whose batch is one fresh sample of a publisher. -/
def oneSample (publisher : PublisherId) : EvaluationRequest where
  domain := ⟨1⟩
  evidence := { samples := [{
    resource := ⟨5⟩, publisher, publisherBoot := ⟨9⟩, epoch := ⟨1⟩, generation := ⟨1⟩
    observedTick := 100, metrics := SortedMap.insert ∅ .utilizationPpm 990000 }] }

/-- The sample is of the incarnation that is fenced. -/
def lateRequest : EvaluationRequest := oneSample ⟨7⟩

def registeredWorld : World := (⟨memoryFabric, [], ∅⟩ : World).act registration

set_option maxRecDepth 100000 in
theorem lateRequest_accepted :
    (registeredWorld.fabric.fencePublisher ⟨7⟩ ⟨9⟩ .manual []).2.isOk = true ∧
      (expelledWorld.fabric.evaluation (.evaluateRequest lateRequest)).any
        (fun b => decide ((⟨7⟩, ⟨9⟩) ∈ b.accepted)) = true ∧
      (expelledWorld.fabric.evaluation (.evaluateRequest (oneSample ⟨8⟩))).any
        (fun b => decide ((⟨8⟩, ⟨9⟩) ∈ b.accepted)) = true := by
  decide +kernel

theorem expulsion_expels : registeredWorld.fabric.Expels ⟨7⟩ ⟨9⟩ expulsion := by
  have hok := lateRequest_accepted.1
  unfold Expels expulsion
  exact ⟨rfl, hok⟩

theorem fenced_reading_accepted : ∃ f w es b, openOn {} 100 {} = .ok f ∧
    Run Step ⟨f, [], ∅⟩ es w ∧ w.fabric.Expels ⟨7⟩ ⟨9⟩ expulsion ∧
    (w.act expulsion).fabric.evaluation (.evaluateRequest lateRequest) = some b ∧
    (⟨7⟩, ⟨9⟩) ∈ b.accepted := by
  obtain ⟨b, hb, haccepted⟩ := (Option.any_eq_true _ _).mp lateRequest_accepted.2.1
  exact ⟨memoryFabric, registeredWorld, _, b, openOn_memory,
    Run.start.next (.act registration), expulsion_expels, hb, of_decide_eq_true haccepted⟩

/-- A caller that offers a reading of the fenced incarnation gets it in, and one that offers another
publisher's reading does not. -/
theorem fenced_unaccepted_iff_late :
    expelledWorld.fabric.Offers ⟨1⟩ lateRequest.evidence ⟨7⟩ ⟨9⟩ ∧
      ∃ b, expelledWorld.fabric.evaluation (.evaluateRequest (oneSample ⟨8⟩)) = some b ∧
        (⟨8⟩, ⟨9⟩) ∈ b.accepted ∧ (⟨7⟩, ⟨9⟩) ∉ b.accepted := by
  obtain ⟨_, hlate, hother⟩ := lateRequest_accepted
  have run : Run Step ⟨memoryFabric, [], ∅⟩ _ registeredWorld :=
    Run.start.next (.act registration)
  constructor
  · obtain ⟨b, hb, haccepted⟩ := (Option.any_eq_true _ _).mp hlate
    have hiff := fenced_unaccepted_iff openOn_memory run expulsion_expels .start
      (fun _ he => (nomatch he)) hb
    by_contra hnone
    refine hiff.mpr (fun request hr => ?_) (of_decide_eq_true haccepted)
    injection hr with hr
    exact hr ▸ hnone
  · obtain ⟨b, hb, haccepted⟩ := (Option.any_eq_true _ _).mp hother
    have hiff := fenced_unaccepted_iff openOn_memory run expulsion_expels .start
      (fun _ he => (nomatch he)) hb
    refine ⟨b, hb, of_decide_eq_true haccepted, hiff.mpr fun request hr => ?_⟩
    injection hr with hr
    subst hr
    rintro ⟨_, before, sample, after, _, hsamples, hidentity, _⟩
    have hmem : sample ∈ (oneSample ⟨8⟩).evidence.samples :=
      hsamples ▸ List.mem_append_right _ List.mem_cons_self
    rw [List.mem_singleton.mp hmem] at hidentity
    exact absurd hidentity (by decide)

end World

end CongestionFabric
