import CongestionFabric.Eval.SpentEvidence
import CongestionFabric.Fabric.Membership
import CongestionFabric.Fabric.RestartTicks

namespace CongestionFabric

namespace Fabric

open CongestionEvaluator HysteresisEngine

/-- An evaluation of the domain reads the sample from the window. -/
def Concerns (f : Fabric) (domain : DomainId) (sample : EvidenceSample) : Prop :=
  (f.topology.map (·.domainResources domain)).getD [] = [] ∨
    sample.resource ∈ (f.topology.map (·.domainResources domain)).getD []

/-- All the window has for the domain is too old. -/
def Silent (f : Fabric) (domain : DomainId) : Prop :=
  ∀ key sample, f.evidence.find? key = some sample → f.Concerns domain sample →
    Spent f.policy f.clock sample

/-- The clock is not behind the ticks of the domain. -/
def OnTime (f : Fabric) (domain : DomainId) : Prop :=
  tickRegressed (f.domainState domain) f.clock = false

/-- The domain has lost its evidence. -/
def Lost (f : Fabric) (domain : DomainId) : Prop :=
  (f.domainState domain).state = .stale ∨ (f.domainState domain).state = .unknown

/-- The action brings the domain no evidence, and no other policy or topology; the clock does not go
back. -/
def Unfed (f : Fabric) (domain : DomainId) : Action → Prop
  | .setPolicy policy => (f.stagePolicy policy).isOk = false
  | .setTopology topology => (f.stageTopology topology).isOk = false
  | .ingest batch => ∀ sample ∈ batch.samples, ¬f.Concerns domain sample
  | .evaluateRequest request => request.domain ≠ domain
  | .readClock now => f.clock ≤ now
  | _ => True

variable {f g : Fabric} {domain : DomainId} {a : Action} {b : Basis}

theorem Silent.samples (h : f.Silent domain) :
    ∀ sample ∈ f.windowSamples domain, Spent f.policy f.clock sample := by
  intro sample hsample
  have hmem := List.mem_of_mem_take hsample
  obtain ⟨hvalue, hconcerns⟩ := List.mem_filter.mp hmem
  obtain ⟨entry, hentry, rfl⟩ := List.mem_map.mp hvalue
  refine h entry.1 entry.2 (SortedMap.mem_entries_iff.mp hentry) ?_
  simpa [Concerns] using hconcerns

/-- Silence lasts while nothing that concerns the domain enters the window. -/
theorem Silent.keep (h : f.Silent domain) (hpolicy : g.policy = f.policy)
    (htopology : g.topology = f.topology) (hclock : f.clock ≤ g.clock)
    (hevidence : ∀ key sample, g.evidence.find? key = some sample →
      f.evidence.find? key = some sample ∨ ¬f.Concerns domain sample) : g.Silent domain := by
  intro key sample hfind hconcerns
  have hconcerned : f.Concerns domain sample := by
    unfold Concerns at hconcerns ⊢
    rwa [htopology] at hconcerns
  rcases hevidence key sample hfind with hold | hother
  · rw [hpolicy]
    exact (h key sample hold hconcerned).later hclock
  · exact absurd hconcerned hother

theorem forgetPublisher_eq (f : Fabric) (publisher : PublisherId) (boot : BootId) :
    ∃ publishers, f.forgetPublisher publisher boot = { f with publishers } := by
  unfold forgetPublisher
  split
  · exact ⟨_, rfl⟩
  · exact ⟨f.publishers, rfl⟩

/-- What is new in the window after a batch is of a resource of the batch. -/
theorem ingestAll_resources (samples : List EvidenceSample) (f : Fabric) (report : IngestReport)
    {key : WindowKey} {found : EvidenceSample}
    (h : (samples.foldl ingestSample (f, report)).1.evidence.find? key = some found) :
    f.evidence.find? key = some found ∨ ∃ sample ∈ samples, found.resource = sample.resource := by
  induction samples generalizing f report with
  | nil => exact .inl h
  | cons sample rest ih =>
    rcases ih (ingestSample (f, report) sample).1 (ingestSample (f, report) sample).2 h with
      hold | ⟨newer, hnewer, hresource⟩
    · rcases ingestSample_cases f report sample with he | ⟨_, _, registration, g, _, ha, he⟩
      · rw [he] at hold
        exact .inl hold
      · rw [he] at hold
        have hold : g.evidence.find? key = some found := hold
        rcases admitToWindow_cases ha with rfl | rfl
        · exact .inl hold
        · change (f.evidence.insert _ (f.received sample)).find? key = some found at hold
          rw [SortedMap.find?_insert] at hold
          split_ifs at hold
          · obtain rfl := Option.some.inj hold
            exact .inr ⟨sample, List.mem_cons_self, rfl⟩
          · exact .inl hold
    · exact .inr ⟨newer, List.mem_cons_of_mem _ hnewer, hresource⟩

/-- An evaluation of a silent domain in time loses it. -/
theorem Silent.evaluation (h : f.Silent domain) (htick : f.OnTime domain)
    (hunfed : f.Unfed domain a) (heval : f.evaluation a = some b) (hdomain : b.domain = domain) :
    (b.outcome.updated.state = .stale ∨ b.outcome.updated.state = .unknown) ∧
      b.outcome.authoritative = false := by
  obtain ⟨_, _, _, ⟨token, ho⟩, hbatch⟩ := evaluation_cases heval
  rcases hbatch with ⟨hbatch, _⟩ | ⟨request, rfl, hrequest, _⟩
  · have hassess := outcomeOf_ok ho
    rw [hbatch, hdomain] at hassess
    exact evaluate_spent rfl hassess h.samples htick
  · exact absurd (hrequest.symm.trans hdomain) hunfed

end Fabric

namespace World

open Fabric CongestionEvaluator HysteresisEngine

variable {w w' : World} {a : Action} {domain : DomainId} {es : List (Event World Input)}

/-- An action that does not feed the domain leaves the policy and the topology as they are, and the
clock goes on. -/
theorem Effect.still (h : Effect w a w') (hunfed : w.fabric.Unfed domain a) :
    w'.fabric.policy = w.fabric.policy ∧ w'.fabric.hasPolicy = w.fabric.hasPolicy ∧
      w'.fabric.topology = w.fabric.topology ∧ w.fabric.clock ≤ w'.fabric.clock := by
  have hsame : w.fabric.clock ≤ w.fabric.clock := UInt64.le_refl _
  cases h with
  | policy hs _ =>
    change (w.fabric.stagePolicy _).isOk = false at hunfed
    rw [hs] at hunfed
    cases hunfed
  | topology hs _ =>
    change (w.fabric.stageTopology _).isOk = false at hunfed
    rw [hs] at hunfed
    cases hunfed
  | departed p b =>
    obtain ⟨publishers, he⟩ := forgetPublisher_eq w.fabric p b
    show (w.fabric.forgetPublisher p b).policy = _ ∧ (w.fabric.forgetPublisher p b).hasPolicy = _ ∧
      (w.fabric.forgetPublisher p b).topology = _ ∧ _ ≤ (w.fabric.forgetPublisher p b).clock
    rw [he]
    exact ⟨rfl, rfl, rfl, hsame⟩
  | @fenced a record =>
    obtain ⟨publishers, he⟩ := forgetPublisher_eq w.fabric record.publisher record.boot
    show (w.fabric.forgetPublisher record.publisher record.boot).policy = _ ∧
      (w.fabric.forgetPublisher record.publisher record.boot).hasPolicy = _ ∧
      (w.fabric.forgetPublisher record.publisher record.boot).topology = _ ∧
      _ ≤ (w.fabric.forgetPublisher record.publisher record.boot).clock
    rw [he]
    exact ⟨rfl, rfl, rfl, hsame⟩
  | ingested batch =>
    obtain ⟨publishers, evidence, he⟩ := ingestAll_eq batch.samples w.fabric {}
    show (batch.samples.foldl ingestSample (w.fabric, {})).1.policy = _ ∧
      (batch.samples.foldl ingestSample (w.fabric, {})).1.hasPolicy = _ ∧
      (batch.samples.foldl ingestSample (w.fabric, {})).1.topology = _ ∧
      _ ≤ (batch.samples.foldl ingestSample (w.fabric, {})).1.clock
    rw [he]
    exact ⟨rfl, rfl, rfl, hsame⟩
  | @epoch reason =>
    obtain ⟨fences, he⟩ := nextEpoch_eq w.fabric reason
    show (w.fabric.nextEpoch reason).policy = _ ∧ (w.fabric.nextEpoch reason).hasPolicy = _ ∧
      (w.fabric.nextEpoch reason).topology = _ ∧ _ ≤ (w.fabric.nextEpoch reason).clock
    rw [he]
    exact ⟨rfl, rfl, rfl, hsame⟩
  | clock now => exact ⟨rfl, rfl, rfl, hunfed⟩
  | _ => exact ⟨rfl, rfl, rfl, hsame⟩

/-- An action that does not feed a silent domain keeps it silent. -/
theorem Effect.silent (h : Effect w a w') (hunfed : w.fabric.Unfed domain a)
    (hsilent : w.fabric.Silent domain) : w'.fabric.Silent domain := by
  obtain ⟨hpolicy, _, htopology, hclock⟩ := h.still hunfed
  refine hsilent.keep hpolicy htopology hclock fun key found hfind => ?_
  cases h with
  | departed p b =>
    obtain ⟨publishers, he⟩ := forgetPublisher_eq w.fabric p b
    change (w.fabric.forgetPublisher p b).evidence.find? key = some found at hfind
    rw [he] at hfind
    exact .inl hfind
  | @fenced a record =>
    obtain ⟨publishers, he⟩ := forgetPublisher_eq w.fabric record.publisher record.boot
    obtain ⟨hold, _⟩ := SortedMap.find?_filter_some.mp hfind
    change (w.fabric.forgetPublisher record.publisher record.boot).evidence.find? key =
      some found at hold
    rw [he] at hold
    exact .inl hold
  | ingested batch =>
    rcases ingestAll_resources batch.samples w.fabric {} hfind with hold | ⟨sample, hsample, hsame⟩
    · exact .inl hold
    · refine .inr fun hconcerns => hunfed sample hsample ?_
      unfold Concerns at hconcerns ⊢
      rwa [hsame] at hconcerns
  | @epoch reason =>
    obtain ⟨fences, he⟩ := nextEpoch_eq w.fabric reason
    change (w.fabric.nextEpoch reason).evidence.find? key = some found at hfind
    rw [he] at hfind
    exact absurd (hfind.symm.trans (SortedMap.find?_empty key)) (Option.some_ne_none found)
  | _ => exact .inl hfind

/-- What an action evaluates, it commits. -/
theorem mem_evaluationOf (h : w.evaluationOf domain a ≠ []) :
    ∃ b, w.fabric.evaluation a = some b ∧ b.domain = domain := by
  unfold evaluationOf at h
  split at h
  next => exact absurd rfl h
  next b heval =>
    split_ifs at h with hdomain
    · exact ⟨b, heval, hdomain⟩
    · exact absurd rfl h

theorem act_onTime (htick : w.fabric.OnTime domain)
    (hclock : w.fabric.clock ≤ (w.act a).fabric.clock) : (w.act a).fabric.OnTime domain := by
  unfold OnTime tickRegressed at htick ⊢
  have hle := UInt64.le_iff_toNat_le.mp hclock
  rcases act_evaluates w a domain with ⟨_, hsame⟩ | ⟨e, hone, hbefore, hafter, hmoved, hlast⟩
  · obtain ⟨hchange, hevaluated⟩ := Prod.mk.inj hsame
    rw [hchange, hevaluated]
    simp only [Bool.or_eq_false_iff, Bool.and_eq_false_iff, decide_eq_false_iff_not,
      UInt64.lt_iff_toNat_lt] at htick ⊢
    refine ⟨htick.1.imp_right fun hlt => ?_, htick.2.imp_right fun hlt => ?_⟩
    · omega
    · omega
  · have hnow : e.input.request.now = w.fabric.clock := by
      obtain ⟨b, heval, hdomain⟩ := mem_evaluationOf (by rw [hone]; simp)
      obtain ⟨hfabric, _⟩ := evaluation_cases heval
      unfold evaluationOf at hone
      rw [heval] at hone
      dsimp only at hone
      rw [if_pos hdomain] at hone
      obtain rfl := List.cons.inj hone |>.1.symm
      show b.fabric.clock = _
      rw [hfabric]
    rw [← hafter, hlast, hnow]
    rw [hbefore, hnow] at hmoved
    simp only [Bool.or_eq_false_iff, Bool.and_eq_false_iff, decide_eq_false_iff_not,
      UInt64.lt_iff_toNat_lt] at htick ⊢
    refine ⟨?_, .inr (by omega)⟩
    rcases hmoved with hkept | hnow
    · rw [hkept]
      refine htick.1.imp_right fun hlt => ?_
      omega
    · rw [hnow]
      exact .inr (by omega)

/-- What an evaluation commits in memory, the call that makes it leaves there. -/
theorem checked_intents (f : Fabric) (domain : DomainId) (batch : EvidenceBatch)
    (token : CancellationToken) {b : Basis} (h : f.assessed domain batch token = some b) :
    (f.checked f.ensureOpen fun _ => f.evaluateLocked domain batch token).1.intents =
      (f.commitOutcome domain b.outcome).intents := by
  obtain ⟨_, _, _, _, _, ho⟩ := assessed_some h
  have hopen : f.ensureOpen = .ok () := by
    unfold assessed at h
    cases hopen : f.ensureOpen with
    | error status =>
      rw [hopen] at h
      cases h
    | ok u => rfl
  unfold checked
  rw [hopen]
  show (f.evaluateLocked domain batch token).1.intents = _
  unfold evaluateLocked checked
  rw [ho]
  rcases durably_cases (f.commitOutcome domain b.outcome) (f.makeStamp .localEvaluation)
    (f.outcomeCalls domain b.outcome) fun g => (g.publish domain b.outcome, .ok b.outcome) with
    ⟨store, status, he⟩ | ⟨store, he⟩
  · exact congrArg (fun called => called.1.intents) he
  · exact congrArg (fun called => called.1.intents) he

theorem act_intents {b : Basis} (heval : w.fabric.evaluation a = some b) :
    (w.act a).fabric.intents = (w.fabric.commitOutcome b.domain b.outcome).intents := by
  cases a with
  | evaluate found token =>
    show (w.evaluated _ _ _).fabric.intents = _
    rw [evaluated_fabric _ fun _ _ _ => rfl, (assessed_some heval).1]
    exact checked_intents _ _ _ _ heval
  | evaluateRequest request =>
    show (w.evaluated _ _ _).fabric.intents = _
    rw [evaluated_fabric _ fun _ _ _ => rfl, (assessed_some heval).1]
    exact checked_intents _ _ _ _ heval
  | planEvaluate found token =>
    show (w.evaluated _ _ _).fabric.intents = _
    rw [evaluated_fabric _ fun _ _ _ => rfl]
    unfold evaluation at heval
    unfold planEvaluate
    cases hbefore : token.beforePlan with
    | true => simp [hbefore] at heval
    | false =>
      simp only [hbefore, Bool.false_eq_true, if_false] at heval
      rw [(assessed_some heval).1]
      exact checked_intents _ _ _ _ heval
  | _ => cases heval

/-- An evaluation of a silent domain loses it, and takes its intents away. -/
theorem act_evaluated (hsilent : w.fabric.Silent domain) (htick : w.fabric.OnTime domain)
    (hunfed : w.fabric.Unfed domain a) (hevaluated : w.evaluationOf domain a ≠ []) :
    (w.act a).fabric.Lost domain ∧ (w.act a).fabric.activeIntents domain = [] := by
  obtain ⟨b, heval, hdomain⟩ := mem_evaluationOf hevaluated
  obtain ⟨hstate, hauthoritative⟩ := hsilent.evaluation htick hunfed heval hdomain
  have hkept : ¬w.Renews (.act a) := by
    cases a with
    | setPolicy | setTopology | advanceEpoch => cases heval
    | _ => exact id
  constructor
  · have hdomains := act_domains hkept
    unfold Lost domainState
    rw [hdomains, heval]
    show ((w.fabric.domains.insert b.domain b.outcome.updated).findD domain {}).state = _ ∨
      ((w.fabric.domains.insert b.domain b.outcome.updated).findD domain {}).state = _
    unfold SortedMap.findD
    rw [SortedMap.find?_insert, if_pos hdomain.symm]
    exact hstate
  · have hintents := act_intents heval
    unfold activeIntents SortedMap.findD
    rw [hintents]
    unfold commitOutcome
    dsimp only
    rw [hauthoritative, if_neg Bool.false_ne_true, hdomain, SortedMap.find?_erase, if_pos rfl]
    rfl

/-- What is lost stays lost until the domain is evaluated. -/
theorem act_unevaluated (hunfed : w.fabric.Unfed domain a) (hnone : w.evaluationOf domain a = [])
    (hlost : w.fabric.Lost domain) : (w.act a).fabric.Lost domain := by
  by_cases hrenews : w.Renews (.act a)
  · cases a with
    | setPolicy policy =>
      change (w.fabric.stagePolicy policy).isOk = false at hunfed
      change (w.fabric.stagePolicy policy).isOk = true at hrenews
      rw [hunfed] at hrenews
      cases hrenews
    | setTopology topology =>
      change (w.fabric.stageTopology topology).isOk = false at hunfed
      change (w.fabric.stageTopology topology).isOk = true at hrenews
      rw [hunfed] at hrenews
      cases hrenews
    | advanceEpoch reason =>
      show ((w.fabric.advanceEpoch reason).1).Lost domain
      unfold advanceEpoch
      rcases enact_cases (f := w.fabric) (w.fabric.stageEpoch reason) .epochAdvance with
        ⟨_, _, he⟩ | ⟨next, store, _, hs, he⟩
      · rw [he]
        exact hlost
      · obtain ⟨fences, hnext⟩ := nextEpoch_eq w.fabric reason
        rw [he, stageEpoch_ok hs]
        unfold Lost domainState SortedMap.findD at hlost ⊢
        dsimp only
        rw [hnext, SortedMap.find?_mapVal]
        cases hfind : w.fabric.domains.find? domain with
        | none => exact .inr rfl
        | some s =>
          rw [hfind] at hlost
          change s.state = _ ∨ s.state = _ at hlost
          show (demoteDomain _ _ s).state = _ ∨ (demoteDomain _ _ s).state = _
          unfold demoteDomain
          rcases hlost with hstale | hunknown
          · rw [hstale]
            exact .inl rfl
          · rw [hunknown]
            exact .inr rfl
    | _ => exact hrenews.elim
  · have hdomains := act_domains hrenews
    unfold Lost domainState at hlost ⊢
    rw [hdomains]
    unfold withEvaluation
    unfold evaluationOf at hnone
    cases heval : w.fabric.evaluation a with
    | none => exact hlost
    | some b =>
      rw [heval] at hnone
      dsimp only at hnone ⊢
      have hother : b.domain ≠ domain := by
        intro hsame
        rw [if_pos hsame] at hnone
        cases hnone
      unfold SortedMap.findD at hlost ⊢
      rw [SortedMap.find?_insert, if_neg fun hsame => hother hsame.symm]
      exact hlost

/-- The events are of one process, and none feeds the domain. -/
def UnfedFor (domain : DomainId) (es : List (Event World Input)) : Prop :=
  ∀ e ∈ es, ∃ a, e.input = .act a ∧ e.before.fabric.Unfed domain a

theorem run_silent (run : Run Step w es w') (hunfed : UnfedFor domain es)
    (hsilent : w.fabric.Silent domain) (htick : w.fabric.OnTime domain) :
    w'.fabric.Silent domain ∧ w'.fabric.OnTime domain ∧
      (∀ e ∈ es, ∀ a, e.input = .act a → e.before.evaluationOf domain a ≠ [] →
        e.after.fabric.Lost domain ∧ e.after.fabric.activeIntents domain = []) ∧
      (evaluations domain es ≠ [] → w'.fabric.Lost domain) := by
  induction run with
  | start =>
    refine ⟨hsilent, htick, fun e he => absurd he List.not_mem_nil, fun hsome => absurd rfl hsome⟩
  | @next es w₁ w₂ i run hstep ih =>
    obtain ⟨hsilent₁, htick₁, hevents, hlost⟩ :=
      ih fun e he => hunfed e (List.mem_append_left _ he)
    obtain ⟨a, hinput, hunfed₁⟩ := hunfed _ (List.mem_append_right _ List.mem_cons_self)
    change i = .act a at hinput
    change w₁.fabric.Unfed domain a at hunfed₁
    subst hinput
    obtain rfl := hstep.act_eq
    obtain ⟨w', store, heffect, he⟩ := act_effect w₁ a
    have hsilent₂ : (w₁.act a).fabric.Silent domain := by
      rw [he]
      exact heffect.silent hunfed₁ hsilent₁
    have hclock : w₁.fabric.clock ≤ (w₁.act a).fabric.clock := by
      rw [he]
      exact (heffect.still hunfed₁).2.2.2
    refine ⟨hsilent₂, act_onTime htick₁ hclock, fun e hmem b hb hevaluated => ?_, fun hsome => ?_⟩
    · rcases List.mem_append.mp hmem with hold | hnew
      · exact hevents e hold b hb hevaluated
      · obtain rfl := List.mem_singleton.mp hnew
        obtain rfl := Input.act.inj hb
        exact act_evaluated hsilent₁ htick₁ hunfed₁ hevaluated
    · rw [evaluations_snoc] at hsome
      by_cases hnone : w₁.evaluationOf domain a = []
      · rw [hnone, List.append_nil] at hsome
        exact act_unevaluated hunfed₁ hnone (hlost hsome)
      · exact (act_evaluated hsilent₁ htick₁ hunfed₁ hnone).1

/-- Silence is committed and sticks. Over any run of one process that brings a domain no evidence and
no other policy or topology, and whose clock does not go back, from a window that has nothing for the
domain but what is too old: every evaluation of the domain leaves it STALE or UNKNOWN and takes its
intents away, and once it was evaluated it stays so. -/
theorem silence_loses (run : Run Step w es w') (hunfed : UnfedFor domain es)
    (hsilent : w.fabric.Silent domain) (htick : w.fabric.OnTime domain) :
    (∀ e ∈ es, ∀ a, e.input = .act a → e.before.evaluationOf domain a ≠ [] →
        e.after.fabric.Lost domain ∧ e.after.fabric.activeIntents domain = []) ∧
      (evaluations domain es ≠ [] → w'.fabric.Lost domain) :=
  (run_silent run hunfed hsilent htick).2.2

/-- Both resources of a domain have reported, the domain was evaluated, and nobody reports for twice the
age the policy allows. -/
def overdueWorld : World :=
  [.registerPublisher ⟨1⟩ ⟨1⟩ {}, .ingest (reportNow 100).evidence, .evaluate ⟨1⟩ {},
    .readClock 120].foldl act pairedWorld

set_option maxRecDepth 100000 in
theorem overdueWorld_overdue :
    isAuthoritative (overdueWorld.fabric.domainState ⟨1⟩).state = true ∧
      overdueWorld.fabric.evidence.size = 2 ∧
      (∀ sample ∈ overdueWorld.fabric.evidence.values,
        Spent overdueWorld.fabric.policy overdueWorld.fabric.clock sample) ∧
      tickRegressed (overdueWorld.fabric.domainState ⟨1⟩) overdueWorld.fabric.clock = false ∧
      (overdueWorld.evaluationOf ⟨1⟩ (.evaluate ⟨1⟩ {})).length = 1 := by
  decide +kernel

theorem silence_loses_overdue :
    isAuthoritative (overdueWorld.fabric.domainState ⟨1⟩).state = true ∧
      (overdueWorld.act (.evaluate ⟨1⟩ {})).fabric.Lost ⟨1⟩ := by
  obtain ⟨hauthoritative, _, hspent, htick, hone⟩ := overdueWorld_overdue
  have hsilent : overdueWorld.fabric.Silent ⟨1⟩ := by
    intro key sample hfind _
    exact hspent sample (List.mem_map.mpr ⟨_, SortedMap.mem_entries_iff.mpr hfind, rfl⟩)
  have run : Run Step overdueWorld [⟨overdueWorld, .act (.evaluate ⟨1⟩ {}), _⟩]
      (overdueWorld.act (.evaluate ⟨1⟩ {})) := Run.start.next (.act _)
  refine ⟨hauthoritative, (silence_loses run ?_ hsilent htick).2 ?_⟩
  · intro e he
    obtain rfl := List.mem_singleton.mp he
    exact ⟨_, rfl, trivial⟩
  · intro hnone
    have hevaluated : overdueWorld.evaluationOf ⟨1⟩ (.evaluate ⟨1⟩ {}) = [] := by
      simpa [evaluations] using hnone
    rw [hevaluated] at hone
    cases hone

end World

end CongestionFabric
