import CongestionFabric.Fabric.Open

namespace CongestionFabric

namespace Fabric

/-- What a failed mutation would have to leave as it was. -/
structure InMemory where
  policy : CongestionPolicy
  topology : Option TopologyIndex
  capacity : Option CapacitySnapshot
  epoch : EpochId
  authorityGeneration : AuthorityGeneration
  fences : SortedMap PublisherId (SortedMap BootId FenceRecord)
  publishers : SortedMap PublisherId PublisherRegistration
  evidence : SortedMap WindowKey EvidenceSample
  domains : SortedMap DomainId DomainState
  outstanding : DomainId → List InterventionIntent

def inMemory (f : Fabric) : InMemory where
  policy := f.policy
  topology := f.topology
  capacity := f.capacity
  epoch := f.epoch
  authorityGeneration := f.authorityGeneration
  fences := f.fences
  publishers := f.publishers
  evidence := f.evidence
  domains := f.domains
  outstanding := f.activeIntents

/-- The calls that change memory and then persist the change. -/
inductive Change where
  | setPolicy (policy : CongestionPolicy)
  | setTopology (topology : TopologySnapshot)
  | setCapacity (capacity : CapacitySnapshot)
  | fencePublisher (publisher : PublisherId) (boot : BootId) (reason : FenceReason)
      (detail : Bytes)
  | advanceEpoch (reason : FenceReason)
  | evaluate (domain : DomainId) (token : CancellationToken)
  | evaluateRequest (request : EvaluationRequest)
  | plan (domain : DomainId) (token : CancellationToken)

/-- A call for its effect and its status only. -/
def discard {α : Type} (called : Fabric × Result α) : Fabric × VoidResult :=
  (called.1, called.2.map fun _ => ())

def change (f : Fabric) : Change → Fabric × VoidResult
  | .setPolicy policy => f.setPolicy policy
  | .setTopology topology => f.setTopology topology
  | .setCapacity capacity => f.setCapacity capacity
  | .fencePublisher publisher boot reason detail =>
    discard (f.fencePublisher publisher boot reason detail)
  | .advanceEpoch reason => discard (f.advanceEpoch reason)
  | .evaluate domain token => discard (f.evaluateCancellable domain token)
  | .evaluateRequest request => discard (f.evaluateRequest request)
  | .plan domain token => discard (f.planCancellable domain token)

/-- The checks of a call; with what it then has in memory when it begins to persist. -/
def prepare (f : Fabric) : Change → Result Fabric
  | .setPolicy policy => (·.fabric) <$> f.stagePolicy policy
  | .setTopology topology => (·.fabric) <$> f.stageTopology topology
  | .setCapacity capacity => (·.fabric) <$> f.stageCapacity capacity
  | .fencePublisher publisher boot reason detail => do
    f.ensureOpen
    (·.fabric) <$> f.stageFence publisher boot reason detail
  | .advanceEpoch reason => (·.fabric) <$> f.stageEpoch reason
  | .evaluate domain token => do
    f.ensureOpen
    f.commitOutcome domain <$> f.outcomeOf domain (f.collectEvidence domain) token
  | .evaluateRequest request => do
    f.ensureOpen
    f.commitOutcome request.domain <$> f.outcomeOf request.domain request.evidence {}
  | .plan domain token => do
    refuseCancelled token.beforePlan
    f.ensureOpen
    f.commitOutcome domain <$> f.outcomeOf domain (f.collectEvidence domain) token

variable {f g : Fabric} {status : Status}

theorem persist_inMemory (f : Fabric) (stamp : MutationStamp) (calls : List StoreCall) :
    (f.persist stamp calls).1.inMemory = f.inMemory := by
  unfold persist
  split <;> rfl

theorem durably_error {α : Type} {stamp : MutationStamp} {calls : List StoreCall}
    {next : Fabric → Fabric × Result α} (hnext : ∀ f, (next f).2.isOk = true)
    (h : (f.durably stamp calls next).2 = .error status) :
    (f.durably stamp calls next).1.inMemory = f.inMemory := by
  unfold durably at h ⊢
  have hp := f.persist_inMemory stamp calls
  split at h
  next heq =>
    rw [heq] at hp
    exact hp
  next f' _ heq =>
    have hok := hnext f'
    rw [h] at hok
    cases hok

theorem enact_error {staged : Staged} {kind : ProvenanceKind} {check : Result Staged}
    (hc : check = .ok staged) (h : (f.enact check kind).2 = .error status) :
    (f.enact check kind).1.inMemory = staged.fabric.inMemory := by
  subst hc
  exact durably_error (fun _ => rfl) h

theorem commitEvaluation_inMemory (domain : DomainId) (outcome : EvaluationOutcome) :
    (f.commitEvaluation domain outcome).1.inMemory =
      (f.commitOutcome domain outcome).inMemory := by
  unfold commitEvaluation
  dsimp only
  unfold durably
  have hp := (f.commitOutcome domain outcome).persist_inMemory
    ((f.commitOutcome domain outcome).makeStamp .localEvaluation)
    ((f.commitOutcome domain outcome).outcomeCalls domain outcome)
  split
  next heq =>
    rw [heq] at hp
    exact hp
  next heq =>
    rw [heq] at hp
    exact hp

theorem planCommit_error {domain : DomainId} {outcome : EvaluationOutcome}
    (h : (f.planCommit domain outcome).2 = .error status) :
    (f.planCommit domain outcome).1.inMemory = f.inMemory := by
  unfold planCommit checked at h ⊢
  split
  next => rfl
  next heq =>
    rw [heq] at h
    dsimp only at h
    unfold planOutcome checked at h ⊢
    split
    next => rfl
    next heq' =>
      rw [heq'] at h
      exact durably_error (fun _ => rfl) h

theorem map_error {α β : Type} {r : Result α} {g : α → β} (h : r.map g = .error status) :
    r = .error status := by
  cases r with
  | error s => exact congrArg Except.error (Except.error.inj h)
  | ok a => cases h

theorem evaluateLocked_inMemory {domain : DomainId} {batch : EvidenceBatch}
    {token : CancellationToken} {outcome : EvaluationOutcome}
    (ho : f.outcomeOf domain batch token = .ok outcome) :
    (f.evaluateLocked domain batch token).1.inMemory =
      (f.commitOutcome domain outcome).inMemory := by
  unfold evaluateLocked checked
  rw [ho]
  exact commitEvaluation_inMemory domain outcome

theorem evaluateCancellable_inMemory {domain : DomainId} {token : CancellationToken}
    {outcome : EvaluationOutcome} (hopen : f.ensureOpen = .ok ())
    (ho : f.outcomeOf domain (f.collectEvidence domain) token = .ok outcome) :
    (f.evaluateCancellable domain token).1.inMemory =
      (f.commitOutcome domain outcome).inMemory := by
  unfold evaluateCancellable checked
  rw [hopen]
  exact evaluateLocked_inMemory ho

/-- A call that passes its checks and fails has changed memory as if it had succeeded. -/
theorem change_error {c : Change} (hp : f.prepare c = .ok g)
    (h : (f.change c).2 = .error status) : (f.change c).1.inMemory = g.inMemory := by
  cases c with
  | setPolicy policy =>
    obtain ⟨staged, hs, rfl⟩ := map_ok.mp hp
    exact enact_error hs h
  | setTopology topology =>
    obtain ⟨staged, hs, rfl⟩ := map_ok.mp hp
    exact enact_error hs h
  | setCapacity capacity =>
    obtain ⟨staged, hs, rfl⟩ := map_ok.mp hp
    exact enact_error hs h
  | fencePublisher publisher boot reason detail =>
    obtain ⟨_, hopen, hstage⟩ := bind_ok.mp hp
    obtain ⟨staged, hs, rfl⟩ := map_ok.mp hstage
    exact enact_error (bind_ok.mpr ⟨_, hopen, hs⟩) (map_error (map_error h))
  | advanceEpoch reason =>
    obtain ⟨staged, hs, rfl⟩ := map_ok.mp hp
    exact enact_error hs (map_error (map_error h))
  | evaluate domain token =>
    obtain ⟨_, hopen, hout⟩ := bind_ok.mp hp
    obtain ⟨outcome, ho, rfl⟩ := map_ok.mp hout
    exact evaluateCancellable_inMemory hopen ho
  | evaluateRequest request =>
    obtain ⟨_, hopen, hout⟩ := bind_ok.mp hp
    obtain ⟨outcome, ho, rfl⟩ := map_ok.mp hout
    unfold change discard evaluateRequest checked
    rw [hopen]
    exact evaluateLocked_inMemory ho
  | plan domain token =>
    obtain ⟨_, hbefore, hp⟩ := bind_ok.mp hp
    obtain ⟨_, hopen, hout⟩ := bind_ok.mp hp
    obtain ⟨outcome, ho, rfl⟩ := map_ok.mp hout
    have hfirst := evaluateCancellable_inMemory hopen ho
    have hstart : f.planEvaluate domain token = f.evaluateCancellable domain token := by
      unfold planEvaluate checked
      rw [hbefore]
    have h := map_error h
    unfold change discard planCancellable at *
    dsimp only at h ⊢
    rw [hstart] at h ⊢
    split
    next heq =>
      rw [heq] at hfirst
      exact hfirst
    next heq =>
      rw [heq] at hfirst h
      exact (planCommit_error h).trans hfirst

/-- An evaluation that writes back the stored state, whose count is saturated, and takes no intent
away. -/
def Reproduced (f : Fabric) (domain : DomainId) (batch : EvidenceBatch) : Prop :=
  ∃ s, f.domains.find? domain = some s ∧ ¬s.evaluationCount < limits.kMaxU64 ∧
    ∀ outcome, f.assessDomain domain batch = .ok outcome →
      outcome.updated = s ∧ (outcome.authoritative = true ∨ f.activeIntents domain = [])

/-- A call whose change of memory is none. -/
def Unaffected (f : Fabric) : Change → Prop
  | .setPolicy _ | .setTopology _ | .advanceEpoch _ => False
  | .setCapacity capacity => f.capacity = some capacity
  | .fencePublisher publisher boot reason detail =>
    (f.fences.findD publisher ∅).find? boot =
        some (f.fenceRecordOf publisher boot reason detail) ∧
      f.registered publisher boot = none ∧
      ∀ key sample, f.evidence.find? key = some sample →
        ¬(sample.publisher = publisher ∧ sample.publisherBoot = boot)
  | .evaluate domain _ | .plan domain _ => f.Reproduced domain (f.collectEvidence domain)
  | .evaluateRequest request => f.Reproduced request.domain request.evidence

theorem succ_ne_self (v : UInt64) : v + 1 ≠ v := by
  intro h
  have hone : v + 1 - v = (1 : UInt64) := by rw [UInt64.add_comm, UInt64.add_sub_cancel]
  rw [h, UInt64.sub_self] at hone
  exact absurd hone (by decide)

theorem assessDomain_count {domain : DomainId} {batch : EvidenceBatch}
    {outcome : EvaluationOutcome} (h : f.assessDomain domain batch = .ok outcome) :
    outcome.updated.evaluationCount =
      if (f.domainState domain).evaluationCount < limits.kMaxU64 then
        (f.domainState domain).evaluationCount + 1
      else (f.domainState domain).evaluationCount := by
  obtain ⟨policy, _, assessed, _, _, _, _, _, rfl⟩ := CongestionEvaluator.evaluate_ok h
  exact (HysteresisEngine.step_carries _ _ _).2

theorem commitOutcome_inMemory_iff {domain : DomainId} {batch : EvidenceBatch}
    {token : CancellationToken} {outcome : EvaluationOutcome}
    (ho : f.outcomeOf domain batch token = .ok outcome) :
    (f.commitOutcome domain outcome).inMemory = f.inMemory ↔ f.Reproduced domain batch := by
  have hassess := outcomeOf_ok ho
  have hcount := assessDomain_count hassess
  constructor
  · intro h
    have hdomains : f.domains.insert domain outcome.updated = f.domains :=
      congrArg InMemory.domains h
    have hfind := SortedMap.insert_eq_self_iff.mp hdomains
    have hstate : f.domainState domain = outcome.updated := by
      rw [domainState, SortedMap.findD, hfind]
      rfl
    rw [hstate] at hcount
    refine ⟨outcome.updated, hfind, fun hlt => ?_, fun found hf => ?_⟩
    · rw [if_pos hlt] at hcount
      exact succ_ne_self _ hcount.symm
    · obtain rfl := Except.ok.inj (hassess.symm.trans hf)
      refine ⟨rfl, or_iff_not_imp_left.mpr fun hauth => ?_⟩
      have hintents := congrFun (congrArg InMemory.outstanding h) domain
      simp only [inMemory, activeIntents, commitOutcome, if_neg hauth, SortedMap.findD,
        SortedMap.find?_erase_self] at hintents
      exact hintents.symm
  · rintro ⟨s, hfind, _, hsame⟩
    obtain ⟨rfl, hintents⟩ := hsame outcome hassess
    have hdomains : f.domains.insert domain outcome.updated = f.domains :=
      SortedMap.insert_eq_self hfind
    have houtstanding : (f.commitOutcome domain outcome).activeIntents = f.activeIntents := by
      funext d
      unfold activeIntents commitOutcome SortedMap.findD
      dsimp only
      split_ifs with hauth
      · rfl
      · rw [SortedMap.find?_erase]
        split_ifs with hd
        · rw [hd]
          exact (hintents.resolve_left hauth).symm
        · rfl
    unfold inMemory
    rw [houtstanding]
    unfold commitOutcome
    rw [hdomains]

theorem noteFence_fences_iff (f : Fabric) (record : FenceRecord) :
    (f.noteFence record).fences = f.fences ↔
      (f.fences.findD record.publisher ∅).find? record.boot = some record := by
  unfold noteFence
  rw [SortedMap.insert_eq_self_iff]
  constructor
  · intro h
    rw [SortedMap.findD, h, Option.getD_some, SortedMap.find?_insert_self]
  · intro h
    rw [SortedMap.insert_eq_self h]
    unfold SortedMap.findD at h ⊢
    cases hp : f.fences.find? record.publisher with
    | none =>
      rw [hp] at h
      cases h
    | some boots => rfl

theorem forgetPublisher_publishers_iff (f : Fabric) (publisher : PublisherId) (boot : BootId) :
    (f.forgetPublisher publisher boot).publishers = f.publishers ↔
      f.registered publisher boot = none := by
  unfold forgetPublisher
  cases hr : f.registered publisher boot with
  | none => simp
  | some registration =>
    have hfind : f.publishers.find? publisher = some registration :=
      (Option.filter_eq_some_iff.mp hr).1
    simp only [Option.isSome_some, if_true, reduceCtorEq, iff_false]
    intro h
    rw [← h, SortedMap.find?_erase_self] at hfind
    cases hfind

theorem fenced_inMemory_iff (f : Fabric) (record : FenceRecord) :
    (f.fenced record).inMemory = f.inMemory ↔
      (f.fences.findD record.publisher ∅).find? record.boot = some record ∧
        f.registered record.publisher record.boot = none ∧
        ∀ key sample, f.evidence.find? key = some sample →
          ¬(sample.publisher = record.publisher ∧ sample.publisherBoot = record.boot) := by
  have hfences : (f.fenced record).fences = (f.noteFence record).fences := by
    unfold fenced forgetPublisher noteFence dropEvidence
    split <;> rfl
  have hpublishers : (f.fenced record).publishers =
      (f.forgetPublisher record.publisher record.boot).publishers := rfl
  have hevidence : (f.fenced record).evidence = f.evidence.filter fun _ sample =>
      !(sample.publisher = record.publisher && sample.publisherBoot = record.boot) := by
    unfold fenced forgetPublisher noteFence dropEvidence
    split <;> rfl
  have hrest : (f.fenced record).inMemory = { f.inMemory with
      fences := (f.fenced record).fences
      publishers := (f.fenced record).publishers
      evidence := (f.fenced record).evidence } := by
    unfold fenced forgetPublisher noteFence dropEvidence
    split <;> rfl
  have hdrop : (f.fenced record).evidence = f.evidence ↔
      ∀ key sample, f.evidence.find? key = some sample →
        ¬(sample.publisher = record.publisher ∧ sample.publisherBoot = record.boot) := by
    rw [hevidence, SortedMap.filter_eq_self_iff]
    simp [imp_iff_not_or]
  rw [← noteFence_fences_iff, ← forgetPublisher_publishers_iff, ← hfences, ← hpublishers, ← hdrop]
  constructor
  · intro h
    exact ⟨congrArg InMemory.fences h, congrArg InMemory.publishers h,
      congrArg InMemory.evidence h⟩
  · rintro ⟨h₁, h₂, h₃⟩
    rw [hrest, h₁, h₂, h₃]
    rfl

theorem invalidateGenerations_inMemory (f g : Fabric)
    (hg : g.authorityGeneration = f.authorityGeneration) :
    g.invalidateGenerations.inMemory ≠ f.inMemory := by
  intro h
  have hgen : (⟨g.authorityGeneration.value + 1⟩ : AuthorityGeneration) = f.authorityGeneration :=
    congrArg InMemory.authorityGeneration h
  rw [← hg] at hgen
  exact succ_ne_self _ (congrArg StrongId.value hgen)

theorem nextEpoch_epoch (f : Fabric) (reason : FenceReason) :
    (f.nextEpoch reason).epoch = ⟨f.epoch.value + 1⟩ := by
  have hfold : ∀ (records : List FenceRecord) (g : Fabric),
      (records.foldl noteFence g).epoch = g.epoch := by
    intro records
    induction records with
    | nil => exact fun _ => rfl
    | cons record rest ih => exact fun g => ih (g.noteFence record)
  exact hfold _ _

/-- A call that passed its checks and then failed to persist left memory as it was exactly when
its change was none. -/
theorem failed_change_unaffected_iff {c : Change} (hp : f.prepare c = .ok g)
    (h : (f.change c).2 = .error status) :
    (f.change c).1.inMemory = f.inMemory ↔ f.Unaffected c := by
  rw [change_error hp h]
  cases c with
  | setPolicy policy =>
    obtain ⟨staged, hs, rfl⟩ := map_ok.mp hp
    simp only [stagePolicy, bind_ok, refuseIf_ok] at hs
    obtain ⟨accepted, _, _, _, _, _, hs⟩ := hs
    cases hs
    exact iff_of_false (invalidateGenerations_inMemory f _ rfl) id
  | setTopology topology =>
    obtain ⟨staged, hs, rfl⟩ := map_ok.mp hp
    obtain ⟨index, _, hs⟩ := bind_ok.mp hs
    obtain ⟨_, _, hs⟩ := bind_ok.mp hs
    cases hs
    exact iff_of_false (invalidateGenerations_inMemory f _ rfl) id
  | setCapacity capacity =>
    obtain ⟨staged, hs, rfl⟩ := map_ok.mp hp
    obtain ⟨_, _, hs⟩ := bind_ok.mp hs
    obtain ⟨_, _, hs⟩ := bind_ok.mp hs
    cases hs
    constructor
    · exact fun h => (congrArg InMemory.capacity h).symm
    · intro h
      unfold Unaffected at h
      unfold inMemory
      rw [h]
      rfl
  | fencePublisher publisher boot reason detail =>
    obtain ⟨_, _, hp⟩ := bind_ok.mp hp
    obtain ⟨staged, hs, rfl⟩ := map_ok.mp hp
    obtain ⟨_, _, hs⟩ := bind_ok.mp hs
    cases hs
    exact fenced_inMemory_iff f (f.fenceRecordOf publisher boot reason detail)
  | advanceEpoch reason =>
    obtain ⟨staged, hs, rfl⟩ := map_ok.mp hp
    obtain ⟨_, _, hs⟩ := bind_ok.mp hs
    cases hs
    refine iff_of_false (fun h => ?_) id
    have hepoch : (f.nextEpoch reason).epoch = f.epoch := congrArg InMemory.epoch h
    rw [nextEpoch_epoch] at hepoch
    exact succ_ne_self _ (congrArg StrongId.value hepoch)
  | evaluate domain token =>
    obtain ⟨_, _, hp⟩ := bind_ok.mp hp
    obtain ⟨outcome, ho, rfl⟩ := map_ok.mp hp
    exact commitOutcome_inMemory_iff ho
  | evaluateRequest request =>
    obtain ⟨_, _, hp⟩ := bind_ok.mp hp
    obtain ⟨outcome, ho, rfl⟩ := map_ok.mp hp
    exact commitOutcome_inMemory_iff ho
  | plan domain token =>
    obtain ⟨_, _, hp⟩ := bind_ok.mp hp
    obtain ⟨_, _, hp⟩ := bind_ok.mp hp
    obtain ⟨outcome, ho, rfl⟩ := map_ok.mp hp
    exact commitOutcome_inMemory_iff ho

/-- A durable fabric over an empty directory. -/
@[irreducible]
def durableFabric : Fabric :=
  match openOn { durable := true } 100 {} with
  | .ok f => f
  | .error _ => {}

theorem openOn_durable (h : (openOn { durable := true } 100 {}).isOk = true) :
    openOn { durable := true } 100 {} = .ok durableFabric := by
  obtain ⟨f, hf⟩ := Result.exists_of_isOk h
  rw [hf, durableFabric, hf]

/-- Fencing with one byte of detail more than a durable text may have. -/
def overlongFence : Change :=
  .fencePublisher ⟨7⟩ ⟨9⟩ .manual (List.replicate (kMaxDurableNote + 1) 65)

set_option maxRecDepth 100000 in
theorem overlongFence_refused : (openOn { durable := true } 100 {}).isOk = true ∧
    (durableFabric.prepare overlongFence).isOk = true ∧
    (durableFabric.change overlongFence).2.code = .oversized ∧
    durableFabric.isFenced ⟨7⟩ ⟨9⟩ = false ∧
    (durableFabric.change overlongFence).1.isFenced ⟨7⟩ ⟨9⟩ = true := by
  decide +kernel

theorem error_of_code {α : Type} {r : Result α} (h : r.code ≠ .ok) : ∃ status, r = .error status := by
  cases r with
  | ok a => exact absurd rfl h
  | error status => exact ⟨status, rfl⟩

theorem failed_fence_kept_in_memory : ∃ f : Fabric,
    openOn { durable := true } 100 {} = .ok f ∧
      (f.change overlongFence).2.code = .oversized ∧
      (f.change overlongFence).1.inMemory ≠ f.inMemory := by
  obtain ⟨hopen, _, hcode, hbefore, hafter⟩ := overlongFence_refused
  refine ⟨durableFabric, openOn_durable hopen, hcode, fun h => ?_⟩
  have hfences : (durableFabric.change overlongFence).1.fences = durableFabric.fences :=
    congrArg InMemory.fences h
  rw [isFenced, hfences] at hafter
  exact absurd (hbefore.symm.trans hafter) (by decide)

/-- What the refused fence left in memory. -/
def refusedFabric : Fabric := (durableFabric.change overlongFence).1

set_option maxRecDepth 100000 in
theorem refusedFabric_unaffected : (refusedFabric.prepare overlongFence).isOk = true ∧
    (refusedFabric.change overlongFence).2.code = .oversized ∧
    (refusedFabric.fences.findD ⟨7⟩ ∅).find? ⟨9⟩ =
      some (refusedFabric.fenceRecordOf ⟨7⟩ ⟨9⟩ .manual (List.replicate (kMaxDurableNote + 1) 65)) ∧
    refusedFabric.registered ⟨7⟩ ⟨9⟩ = none ∧ refusedFabric.evidence.size = 0 ∧
    (durableFabric.fences.findD ⟨7⟩ ∅).find? ⟨9⟩ = none := by
  decide +kernel

/-- The refused fence is kept in memory, and once it is there another refusal changes nothing. -/
theorem failed_change_unaffected_iff_overlong :
    (durableFabric.change overlongFence).1.inMemory ≠ durableFabric.inMemory ∧
      (refusedFabric.change overlongFence).1.inMemory = refusedFabric.inMemory := by
  obtain ⟨_, hprepare, hcode, _⟩ := overlongFence_refused
  obtain ⟨hprepare', hcode', hkept, hregistered, hempty, hunfenced⟩ := refusedFabric_unaffected
  constructor
  · obtain ⟨g, hg⟩ := Result.exists_of_isOk hprepare
    obtain ⟨status, hstatus⟩ := error_of_code (r := (durableFabric.change overlongFence).2)
      (by rw [hcode]; decide)
    refine (failed_change_unaffected_iff hg hstatus).not.mpr fun hunaffected => ?_
    exact nomatch hunfenced.symm.trans hunaffected.1
  · obtain ⟨g, hg⟩ := Result.exists_of_isOk hprepare'
    obtain ⟨status, hstatus⟩ := error_of_code (r := (refusedFabric.change overlongFence).2)
      (by rw [hcode']; decide)
    refine (failed_change_unaffected_iff hg hstatus).mpr ⟨hkept, hregistered, fun key sample h => ?_⟩
    have hmem := SortedMap.mem_entries_iff.mpr h
    rw [List.length_eq_zero_iff.mp hempty] at hmem
    exact absurd hmem List.not_mem_nil

end Fabric

end CongestionFabric
