import CongestionFabric.Fabric.FreshBasis
import CongestionFabric.Model.Explanation

namespace CongestionFabric

/-- An explanation with the intents of a plan, if there is one. -/
def Explanation.planning (explanation : Explanation) : Option InterventionPlan → Explanation
  | none => explanation
  | some plan =>
    { explanation with authorized := plan.authorized, suppressed := plan.suppressed }

theorem Explanation.planning_planning (explanation : Explanation) (old : Option InterventionPlan)
    (plan : InterventionPlan) :
    (explanation.planning old).planning (some plan) = explanation.planning (some plan) := by
  cases old with
  | none => rfl
  | some _ => rfl

/-- The explanation as it is rendered, with the details of its reason. No evaluation marks a binding as
stale or from the future. -/
def Explanation.full (explanation : Explanation) (reasonDetail : List Bytes) : FullExplanation where
  domain := explanation.domain
  state := explanation.state
  previousState := explanation.previousState
  severity := explanation.severity
  transitioned := explanation.transitioned
  authoritative := explanation.authoritative
  requiresRevalidation := explanation.requiresRevalidation
  evaluation := explanation.evaluation
  epoch := explanation.epoch
  policy := explanation.policy
  policyFingerprint := explanation.policyFingerprint
  authority := explanation.authority
  authorityGeneration := explanation.authorityGeneration
  topologyGeneration := explanation.topologyGeneration
  capacityGeneration := explanation.capacityGeneration
  evaluatedTick := explanation.evaluatedTick
  reasonCode := text explanation.reasonCode.name
  reasonDetail
  samplesSeen := explanation.samplesSeen
  samplesAccepted := explanation.samplesAccepted
  samplesRejected := explanation.samplesRejected
  samplesDuplicate := explanation.samplesDuplicate
  resources := explanation.resources
  bindings := explanation.bindings.map fun binding => { binding with }
  conflicts := explanation.conflicts
  stale := explanation.stale
  propagation := explanation.propagation
  authorized := explanation.authorized
  suppressed := explanation.suppressed.map fun entry =>
    { kind := entry.kind, resource := entry.resource, reason := entry.reason
      detail := text entry.detail }
  truncatedSections := UInt64.ofNat explanation.truncatedSections

theorem Explanation.full_planning (explanation : Explanation) (plan : Option InterventionPlan)
    (reasonDetail : List Bytes) : ((explanation.planning plan).full reasonDetail).truncatedSections =
      UInt64.ofNat explanation.truncatedSections := by
  cases plan <;> rfl

namespace Fabric

variable {f : Fabric} {domain : DomainId}

/-- The explanation published with an evaluation; it names no intent. -/
def Basis.explained (b : Basis) : Explanation := b.fabric.explanationOf b.domain b.outcome

/-- What an action makes known: the evaluation it publishes, or the plan it returns. -/
inductive News where
  | nothing
  | published (b : Basis)
  | planned (domain : DomainId) (plan : InterventionPlan)

/-- The last plan of a domain since its evaluation was published. -/
def News.since (domain : DomainId) (plan : Option InterventionPlan) : News → Option InterventionPlan
  | .nothing => plan
  | .published b => if domain = b.domain then none else plan
  | .planned k new => if domain = k then some new else plan

/-- The explanations after some news. -/
def told (f : Fabric) : News → SortedMap DomainId Explanation
  | .nothing => f.explanations
  | .published b => insertBounded f.options.maxExplanations f.explanations b.domain b.explained
  | .planned domain plan => f.explainPlan domain plan

theorem find?_explainPlan (plan : InterventionPlan) (k : DomainId) :
    (f.explainPlan domain plan).find? k =
      if k = domain then (f.explanations.find? k).map (·.planning (some plan))
      else f.explanations.find? k := by
  unfold explainPlan
  split
  next hfind =>
    split_ifs with hk
    · rw [hk, hfind]
      rfl
    · rfl
  next explanation hfind =>
    rw [SortedMap.find?_insert]
    split_ifs with hk
    · rw [hk, hfind]
      rfl
    · rfl

/-- What a bounded insertion replaces does not matter. -/
theorem insertBounded_mapVal_congr {α β : Type} {bound : Nat} {m : SortedMap DomainId α}
    {f g : DomainId → α → β} {value : β} (hsame : ∀ k, k ≠ domain → ∀ a, f k a = g k a) :
    insertBounded bound (m.mapVal f) domain value = insertBounded bound (m.mapVal g) domain value := by
  have hinsert : ∀ m : SortedMap DomainId α,
      (m.mapVal f).insert domain value = (m.mapVal g).insert domain value := by
    intro m
    ext k : 1
    rw [SortedMap.find?_insert, SortedMap.find?_insert]
    split_ifs with hk
    · rfl
    · rw [SortedMap.find?_mapVal, SortedMap.find?_mapVal, funext (hsame k hk)]
  unfold insertBounded SortedMap.contains
  simp only [SortedMap.size_mapVal, SortedMap.find?_mapVal, Option.isSome_map]
  split_ifs
  · rw [SortedMap.eraseFirst_mapVal, SortedMap.eraseFirst_mapVal]
    exact hinsert _
  · exact hinsert m

/-- A bounded insertion makes room before it adds a key. -/
theorem size_insertBounded {α : Type} {bound : Nat} {m : SortedMap DomainId α} (value : α)
    (hbound : 0 < bound) (h : m.size ≤ bound) : (insertBounded bound m domain value).size ≤ bound := by
  unfold insertBounded
  by_cases hroom : m.size ≥ bound ∧ ¬m.contains domain
  · have hgone : m.eraseFirst.contains domain = false := by
      rw [← Bool.not_eq_true]
      intro hcontains
      obtain ⟨value', hfind⟩ := Option.isSome_iff_exists.mp hcontains
      have hentry := List.mem_of_mem_tail (SortedMap.mem_entries_iff.mpr hfind)
      exact hroom.2 (Option.isSome_iff_exists.mpr ⟨value', SortedMap.mem_entries_iff.mp hentry⟩)
    have hsize : m.eraseFirst.size = m.size - 1 := List.length_tail
    rw [if_pos hroom, SortedMap.size_insert, hgone, hsize]
    simp only [Bool.false_eq_true, if_false]
    omega
  · rw [if_neg hroom, SortedMap.size_insert]
    split_ifs with hknown
    · exact h
    · have hfree : ¬m.size ≥ bound := fun hfull => hroom ⟨hfull, hknown⟩
      omega

theorem foldl_noteFence_explanations (records : List FenceRecord) (f : Fabric) :
    (records.foldl noteFence f).explanations = f.explanations := by
  obtain ⟨fences, h⟩ := foldl_noteFence_eq records f
  rw [h]

theorem incarnate_explanations {options : FabricOptions} {clock : Tick} {store : Option Store}
    (h : incarnate options clock store = .ok f) : f.explanations = ∅ := by
  unfold incarnate at h
  dsimp only at h
  split at h
  · obtain rfl := Except.ok.inj h
    exact foldl_noteFence_explanations _ _
  · split at h
    · cases h
    · obtain rfl := Except.ok.inj h
      exact foldl_noteFence_explanations _ _

/-- A new incarnation has explained nothing yet. -/
theorem openOn_explanations {options : FabricOptions} {clock : Tick} {disk : Disk}
    (h : openOn options clock disk = .ok f) : f.explanations = ∅ := by
  have hopened : ∀ {store : Option Store}, (do
      let fresh ← incarnate options clock store
      fresh.restore) = .ok f → f.explanations = ∅ := by
    intro store h
    obtain ⟨fresh, hfresh, hrestore⟩ := bind_ok.mp h
    have hnone := incarnate_explanations hfresh
    rcases restore_ok hrestore with ⟨_, rfl⟩ | ⟨_, persisted, _, _, rfl⟩
    · exact hnone
    · exact hnone
  unfold openOn at h
  split_ifs at h
  · obtain ⟨_, _, h⟩ := bind_ok.mp h
    exact hopened h
  · obtain ⟨_, _, h⟩ := bind_ok.mp h
    exact hopened h

end Fabric

namespace World

open Fabric

variable {w w' : World} {a : Action}

/-! ### What actions make known -/

/-- An evaluation that is returned is published. -/
def publication (w : World) (a : Action) (returned : Result EvaluationOutcome) : News :=
  match returned, w.fabric.evaluation a with
  | .ok _, some b => .published b
  | _, _ => .nothing

def news (w : World) (a : Action) : News :=
  match a with
  | .evaluate domain token => w.publication a (w.fabric.evaluateCancellable domain token).2
  | .evaluateRequest request => w.publication a (w.fabric.evaluateRequest request).2
  | .planEvaluate domain token => w.publication a (w.fabric.planEvaluate domain token).2
  | .planCommit index =>
    match w.pending[index]?, w.planned a with
    | some b, some plan => .planned b.domain plan
    | _, _ => .nothing
  | .planLast domain =>
    match w.planned a with
    | some plan => .planned domain plan
    | none => .nothing
  | _ => .nothing

/-- The last evaluations after some news. -/
def lastTold (w : World) (a : Action) : News → SortedMap DomainId Basis
  | .published b => insertBounded w.fabric.options.maxExplanations
    (w.last.mapVal fun _ b => b.after w.fabric a) b.domain b
  | _ => w.last.mapVal fun _ b => b.after w.fabric a

/-- An action changes what is served as its news say, and no bound. -/
structure Tells (w : World) (a : Action) (news : News) (w' : World) : Prop where
  explanations : w'.fabric.explanations = w.fabric.told news
  last : w'.last = w.lastTold a news
  options : w'.fabric.options = w.fabric.options

theorem moved_tells (a : Action) {fabric : Fabric}
    (hexplanations : fabric.explanations = w.fabric.explanations)
    (hoptions : fabric.options = w.fabric.options) : Tells w a .nothing (w.moved a fabric) :=
  ⟨hexplanations, rfl, hoptions⟩

theorem Tells.of_onStore {news : News} {store : Option Store} (h : Tells w a news w') :
    Tells w a news (w'.onStore store) :=
  ⟨h.explanations, h.last, h.options⟩

/-- The effects that are neither evaluations nor plans make nothing known. -/
theorem Effect.tells (heffect : Effect w a w') (heval : w.fabric.evaluation a = none)
    (hplan : ∀ index, a ≠ .planCommit index) (hlast : ∀ domain, a ≠ .planLast domain) :
    Tells w a .nothing w' := by
  cases heffect with
  | departed publisher boot detail =>
    refine moved_tells _ ?_ ?_ <;> (unfold forgetPublisher; split <;> rfl)
  | @fenced _ record =>
    have hforget : (w.fabric.forgetPublisher record.publisher record.boot).explanations =
        w.fabric.explanations ∧
        (w.fabric.forgetPublisher record.publisher record.boot).options = w.fabric.options := by
      unfold forgetPublisher
      split <;> exact ⟨rfl, rfl⟩
    exact moved_tells _ hforget.1 hforget.2
  | ingested batch =>
    obtain ⟨publishers, evidence, he⟩ := ingestAll_eq batch.samples w.fabric {}
    exact moved_tells _ (by rw [he]) (by rw [he])
  | evaluated hb => cases heval.symm.trans hb
  | published hb => cases heval.symm.trans hb
  | carried hb => cases heval.symm.trans hb
  | dropped index => exact absurd rfl (hplan index)
  | planned => exact absurd rfl (hplan _)
  | plannedLast => exact absurd rfl (hlast _)
  | @epoch reason _ =>
    obtain ⟨fences, he⟩ := nextEpoch_eq w.fabric reason
    exact moved_tells _ (by rw [he]) (by rw [he])
  | _ => exact moved_tells _ rfl rfl

theorem evaluated_tells {domain : DomainId} {batch : EvidenceBatch} {token : CancellationToken}
    (ha : w.fabric.evaluation a = w.fabric.assessed domain batch token)
    {finish : Action → Fabric → Basis → World}
    (hfinish : finish = w.publishedAs ∨ finish = w.carriedAs)
    {called : Fabric × Result EvaluationOutcome} (hcalled : called =
      w.fabric.checked w.fabric.ensureOpen fun _ => w.fabric.evaluateLocked domain batch token) :
    Tells w a (w.publication a called.2) (w.evaluated a finish called) := by
  subst hcalled
  cases hopen : w.fabric.ensureOpen with
  | error status => exact moved_tells a rfl rfl
  | ok u =>
    show Tells w a (w.publication a (w.fabric.evaluateLocked domain batch token).2)
      (w.evaluated a finish (w.fabric.evaluateLocked domain batch token))
    rcases evaluateLocked_cases (f := w.fabric) domain batch token with
      ⟨status, he⟩ | ⟨outcome, ho, hcommit⟩
    · rw [he]
      exact moved_tells a rfl rfl
    · have heval : w.fabric.evaluation a =
          some { domain, batch, outcome, fabric := w.fabric } := by
        rw [ha, assessed, hopen, ho]
        rfl
      rcases hcommit with ⟨store, status, he⟩ | ⟨store, he⟩
      · rw [he]
        exact moved_tells a rfl rfl
      · have hnews : w.publication a (.ok outcome) =
            .published { domain, batch, outcome, fabric := w.fabric } := by
          unfold publication
          rw [heval]
        have hworld : w.evaluated a finish (w.fabric.evaluateLocked domain batch token) = finish a
            { (w.fabric.commitOutcome domain outcome).publish domain outcome with store }
            { domain, batch, outcome, fabric := w.fabric } := by
          rw [he]
          unfold World.evaluated
          rw [heval]
        rw [hworld, he, hnews]
        rcases hfinish with rfl | rfl
        · exact ⟨rfl, rfl, rfl⟩
        · exact ⟨rfl, rfl, rfl⟩

/-- A call that plans for a domain writes the plan it returns into the explanation. -/
structure PlansFor (f : Fabric) (domain : DomainId) (called : Fabric × Result InterventionPlan) :
    Prop where
  options : called.1.options = f.options
  explanations : called.1.explanations =
    match called.2.toOption with
    | some plan => f.explainPlan domain plan
    | none => f.explanations

theorem PlansFor.refused (f : Fabric) (domain : DomainId) (status : Status) :
    PlansFor f domain (f, .error status) := ⟨rfl, rfl⟩

theorem planOutcome_plansFor (f : Fabric) (domain : DomainId) (outcome : EvaluationOutcome) :
    PlansFor f domain (f.planOutcome domain outcome) := by
  rcases planOutcome_cases (f := f) domain outcome with ⟨store, status, he⟩ | ⟨plan, store, _, he⟩
  · rw [he]
    exact ⟨rfl, rfl⟩
  · rw [he]
    exact ⟨rfl, rfl⟩

theorem planCommit_plansFor (f : Fabric) (domain : DomainId) (outcome : EvaluationOutcome) :
    PlansFor f domain (f.planCommit domain outcome) := by
  unfold planCommit checked
  split
  next status _ => exact .refused f domain status
  next => exact planOutcome_plansFor f domain outcome

theorem planLast_plansFor (f : Fabric) (domain : DomainId) : PlansFor f domain (f.planLast domain) := by
  unfold planLast checked
  split
  next status _ => exact .refused f domain status
  next =>
    split
    next => exact .refused f domain _
    next outcome _ => exact planOutcome_plansFor f domain outcome

theorem act_tells (w : World) (a : Action) : Tells w a (w.news a) (w.act a) := by
  cases a with
  | evaluate domain token => exact evaluated_tells rfl (.inl rfl) rfl
  | evaluateRequest request => exact evaluated_tells rfl (.inl rfl) rfl
  | planEvaluate domain token =>
    unfold news act
    simp only [planEvaluate, checked]
    split
    next => exact moved_tells _ rfl rfl
    next hbefore =>
      have hgo : token.beforePlan = false := by simpa [refuseCancelled] using hbefore
      refine evaluated_tells ?_ (.inr rfl) rfl
      rw [evaluation, hgo, if_neg Bool.false_ne_true]
  | planCommit index =>
    unfold news act planned
    dsimp only
    cases hb : w.pending[index]? with
    | none => exact moved_tells _ rfl rfl
    | some b =>
      obtain ⟨hoptions, htold⟩ := planCommit_plansFor w.fabric b.domain b.outcome
      rw [Option.bind_some]
      cases hplan : (w.fabric.planCommit b.domain b.outcome).2.toOption with
      | none =>
        rw [hplan] at htold
        exact ⟨htold, rfl, hoptions⟩
      | some plan =>
        rw [hplan] at htold
        exact ⟨htold, rfl, hoptions⟩
  | planLast domain =>
    obtain ⟨hoptions, htold⟩ := planLast_plansFor w.fabric domain
    unfold news act planned
    dsimp only
    cases hplan : (w.fabric.planLast domain).2.toOption with
    | none =>
      rw [hplan] at htold
      exact ⟨htold, rfl, hoptions⟩
    | some plan =>
      rw [hplan] at htold
      exact ⟨htold, rfl, hoptions⟩
  | _ =>
    obtain ⟨w', store, heffect, he⟩ := act_effect w _
    rw [he]
    refine (heffect.tells rfl ?_ ?_).of_onStore
    · intro index h
      cases h
    · intro domain h
      cases h

/-! ### What is served -/

/-- The last plan of a domain that a run made since it last published an evaluation of it. -/
def plannedSince (domain : DomainId) (es : List (Event World Input)) : Option InterventionPlan :=
  es.foldl (fun plan e =>
    match e.input with
    | .act a => (e.before.news a).since domain plan
    | .restart .. => none) none

theorem plannedSince_act (es : List (Event World Input)) (domain : DomainId) :
    plannedSince domain (es ++ [⟨w, .act a, w'⟩]) =
      (w.news a).since domain (plannedSince domain es) := by
  rw [plannedSince, List.foldl_append]
  rfl

theorem plannedSince_restart (es : List (Event World Input)) (domain : DomainId)
    {options : FabricOptions} {clock : Tick} {disk : Disk} :
    plannedSince domain (es ++ [⟨w, .restart options clock disk, w'⟩]) = none := by
  rw [plannedSince, List.foldl_append]
  rfl

/-- What is served about the domains is what their last published evaluations found, with the last
plan since, within the bound on how many are kept. -/
structure Described (es : List (Event World Input)) (w : World) : Prop where
  explanations : w.fabric.explanations =
    w.last.mapVal fun domain b => b.explained.planning (plannedSince domain es)
  bounded : 0 < w.fabric.options.maxExplanations →
    w.last.size ≤ w.fabric.options.maxExplanations

variable {es : List (Event World Input)}

theorem Described.told (h : Described es w) (a : Action) (news : News) :
    w.fabric.told news = (w.lastTold a news).mapVal fun domain b =>
      b.explained.planning (news.since domain (plannedSince domain es)) := by
  cases news with
  | nothing =>
    ext k : 1
    show w.fabric.explanations.find? k = ((w.last.mapVal fun _ b => b.after w.fabric a).mapVal _).find? k
    rw [h.explanations, SortedMap.find?_mapVal, SortedMap.find?_mapVal, SortedMap.find?_mapVal,
      Option.map_map]
    rfl
  | published b =>
    have hother : ∀ k, k ≠ b.domain → ∀ b' : Basis,
        b'.explained.planning (plannedSince k es) =
          b'.explained.planning ((News.published b).since k (plannedSince k es)) := by
      intro k hk b'
      rw [News.since, if_neg hk]
    have hown : b.explained =
        b.explained.planning ((News.published b).since b.domain (plannedSince b.domain es)) := by
      rw [News.since, if_pos rfl]
      rfl
    have hafter : (w.last.mapVal fun k b => b.explained.planning (plannedSince k es)) =
        (w.last.mapVal fun _ b => b.after w.fabric a).mapVal fun k b =>
          b.explained.planning (plannedSince k es) := by
      ext k : 1
      rw [SortedMap.find?_mapVal, SortedMap.find?_mapVal, SortedMap.find?_mapVal, Option.map_map]
      rfl
    show insertBounded _ w.fabric.explanations b.domain b.explained =
      (insertBounded _ (w.last.mapVal fun _ b => b.after w.fabric a) b.domain b).mapVal _
    rw [← insertBounded_mapVal, ← hown, h.explanations, hafter]
    exact insertBounded_mapVal_congr hother
  | planned domain plan =>
    ext k : 1
    show (w.fabric.explainPlan domain plan).find? k =
      ((w.last.mapVal fun _ b => b.after w.fabric a).mapVal _).find? k
    rw [find?_explainPlan, h.explanations, SortedMap.find?_mapVal, SortedMap.find?_mapVal,
      SortedMap.find?_mapVal, Option.map_map, Option.map_map, News.since]
    split_ifs with hk
    · congr 1
      funext b
      exact b.explained.planning_planning _ plan
    · rfl

theorem Described.bounded_told (h : Described es w) (a : Action) (news : News)
    (hpos : 0 < w.fabric.options.maxExplanations) :
    (w.lastTold a news).size ≤ w.fabric.options.maxExplanations := by
  have hsame : (w.last.mapVal fun _ b => b.after w.fabric a).size ≤
      w.fabric.options.maxExplanations := by
    rw [SortedMap.size_mapVal]
    exact h.bounded hpos
  cases news with
  | published b => exact size_insertBounded b hpos hsame
  | nothing => exact hsame
  | planned _ _ => exact hsame

theorem described_opened {options : FabricOptions} {clock : Tick} {disk : Disk} {f : Fabric}
    (es : List (Event World Input)) (hopen : openOn options clock disk = .ok f) :
    Described es ⟨f, [], ∅⟩ := by
  refine ⟨?_, fun _ => Nat.zero_le _⟩
  rw [openOn_explanations hopen]
  rfl

theorem Step.described {i : Input} (hstep : Step w i w') (h : Described es w) :
    Described (es ++ [⟨w, i, w'⟩]) w' := by
  cases hstep with
  | act a =>
    obtain ⟨hexplanations, hlast, hoptions⟩ := act_tells w a
    constructor
    · rw [hexplanations, h.told a, hlast]
      simp only [plannedSince_act]
    · rw [hlast, hoptions]
      exact h.bounded_told a (w.news a)
  | restart hopen => exact described_opened _ hopen

theorem run_described {options : FabricOptions} {clock : Tick} {disk : Disk} {f : Fabric}
    (hopen : openOn options clock disk = .ok f) (run : Run Step ⟨f, [], ∅⟩ es w) :
    Described es w := by
  induction run with
  | start => exact described_opened [] hopen
  | next _ hstep ih => exact hstep.described ih

/-! ### Where the plan comes from -/

/-- An event of a run that returned a plan for a domain, made from a committed evaluation of it:
with `plan_last`, from the one that is served. -/
structure PlannedBy (domain : DomainId) (plan : InterventionPlan) (served : Basis)
    (e : Event World Input) (a : Action) (b : Basis) : Prop where
  input : e.input = .act a
  basis : e.before.basisOf a = some b
  domainOf : b.domain = domain
  committed : b.Committed
  planned : e.before.planned a = some plan
  current : a = .planLast domain → b.outcome = served.outcome

theorem news_planned {domain : DomainId} {plan : InterventionPlan}
    (h : w.news a = .planned domain plan) (hbased : Based w) :
    ∃ b, w.basisOf a = some b ∧ b.domain = domain ∧ b.Committed ∧ w.planned a = some plan := by
  have hpublication : ∀ returned, w.publication a returned ≠ .planned domain plan := by
    intro returned
    unfold publication
    split <;> simp
  cases a with
  | planCommit index =>
    unfold news at h
    dsimp only at h
    split at h
    next b plan' hb hplan =>
      obtain ⟨rfl, rfl⟩ := News.planned.inj h
      exact ⟨b, hb, rfl, hbased.pending b (List.mem_of_getElem? hb), hplan⟩
    next => cases h
  | planLast k =>
    unfold news at h
    dsimp only at h
    split at h
    next plan' hplan =>
      obtain ⟨rfl, rfl⟩ := News.planned.inj h
      obtain ⟨b, hb, hcommitted, _⟩ := planned_basis hbased hplan
      exact ⟨b, hb, (hbased.last _ b hb).2, hcommitted, hplan⟩
    next => cases h
  | evaluate => exact absurd h (hpublication _)
  | evaluateRequest => exact absurd h (hpublication _)
  | planEvaluate => exact absurd h (hpublication _)
  | _ => cases h

/-- A domain whose evaluation is not published keeps its last evaluation, or loses it. -/
theorem find?_lastTold {news : News} {domain : DomainId} {served : Basis}
    (hnews : ∀ b, news = .published b → b.domain ≠ domain)
    (h : (w.lastTold a news).find? domain = some served) :
    ∃ before, w.last.find? domain = some before ∧ served.outcome = before.outcome := by
  have hkept : (w.last.mapVal fun _ b => b.after w.fabric a).find? domain = some served := by
    cases news with
    | published b => exact (find?_insertBounded h).resolve_left fun hb => hnews b rfl hb.1.symm
    | nothing => exact h
    | planned _ _ => exact h
  rw [SortedMap.find?_mapVal] at hkept
  obtain ⟨before, hbefore, rfl⟩ := Option.map_eq_some_iff.mp hkept
  exact ⟨before, hbefore, rfl⟩

theorem plannedSince_plannedBy {options : FabricOptions} {clock : Tick} {disk : Disk} {f : Fabric}
    (hopen : openOn options clock disk = .ok f) (run : Run Step ⟨f, [], ∅⟩ es w)
    {domain : DomainId} {plan : InterventionPlan} {served : Basis}
    (hserved : w.last.find? domain = some served) (hplan : plannedSince domain es = some plan) :
    ∃ e ∈ es, ∃ a b, PlannedBy domain plan served e a b := by
  induction run generalizing served with
  | start => cases hplan
  | @next es w w' i run hstep ih =>
    cases hstep with
    | restart =>
      rw [plannedSince_restart] at hplan
      cases hplan
    | act a =>
      rw [(act_tells w a).last] at hserved
      rw [plannedSince_act] at hplan
      -- a plan of the domain made before this action
      have hearlier : (∀ b, w.news a = .published b → b.domain ≠ domain) →
          plannedSince domain es = some plan → ∃ e ∈ es ++ [⟨w, .act a, w.act a⟩], ∃ a' b,
            PlannedBy domain plan served e a' b := by
        intro hother hplan
        obtain ⟨before, hbefore, hsame⟩ := find?_lastTold hother hserved
        obtain ⟨e, he, a', b, hby⟩ := ih hbefore hplan
        exact ⟨e, List.mem_append_left _ he, a', b, { hby with
          current := fun ha => (hby.current ha).trans hsame.symm }⟩
      cases hnews : w.news a with
      | nothing =>
        rw [hnews] at hplan
        exact hearlier (by simp [hnews]) hplan
      | published b =>
        rw [hnews, News.since] at hplan
        split at hplan
        next => cases hplan
        next hne =>
          refine hearlier (fun b' hb' heq => hne ?_) hplan
          rw [hnews] at hb'
          rw [← heq, News.published.inj hb']
      | planned k new =>
        rw [hnews, News.since] at hplan
        split at hplan
        next heq =>
          subst heq
          obtain rfl := Option.some.inj hplan
          obtain ⟨before, hbefore, hsame⟩ := find?_lastTold (by simp [hnews]) hserved
          obtain ⟨b, hb, hdomain, hcommitted, hmade⟩ :=
            news_planned hnews (run_based hopen run).2
          refine ⟨_, List.mem_append_right _ (List.mem_singleton_self _), a, b, rfl, hb, hdomain,
            hcommitted, hmade, fun ha => ?_⟩
          subst ha
          have hbefore' : w.last.find? domain = some b := hb
          rw [hsame, Option.some.inj (hbefore.symm.trans hbefore')]
        next => exact hearlier (by simp [hnews]) hplan

/-- In every run, what `explain_last` serves about a domain is the account of its last published
evaluation as it was published, which names no intent, with the intents of the last plan of the domain
since then and nothing else changed; it is served as long as `plan_last` plans from that evaluation,
and neither cache outgrows its bound. -/
theorem explained_last {options : FabricOptions} {clock : Tick} {disk : Disk} {f : Fabric}
    (hopen : openOn options clock disk = .ok f) (run : Run Step ⟨f, [], ∅⟩ es w)
    (domain : DomainId) :
    (w.fabric.explainLast domain).toOption =
        (w.last.find? domain).map (fun b => b.explained.planning (plannedSince domain es)) ∧
      (∀ plan served, plannedSince domain es = some plan → w.last.find? domain = some served →
        ∃ e ∈ es, ∃ a b, PlannedBy domain plan served e a b) ∧
      w.fabric.lastOutcomes.find? domain = (w.last.find? domain).map (·.outcome) ∧
      (∀ b, w.last.find? domain = some b → b.domain = domain ∧ b.Committed ∧
        b.explained.authorized = [] ∧ b.explained.suppressed = []) ∧
      (0 < w.fabric.options.maxExplanations →
        w.fabric.explanations.size ≤ w.fabric.options.maxExplanations ∧
          w.fabric.lastOutcomes.size ≤ w.fabric.options.maxExplanations) := by
  have hdescribed := run_described hopen run
  have hbased := (run_based hopen run).2
  have hserved : (w.fabric.explainLast domain).toOption = w.fabric.explanations.find? domain := by
    unfold explainLast
    cases w.fabric.explanations.find? domain <;> rfl
  refine ⟨?_, fun plan served hplan hlast => plannedSince_plannedBy hopen run hlast hplan, ?_,
    fun b hb => ⟨(hbased.last domain b hb).2, (hbased.last domain b hb).1, rfl, rfl⟩,
    fun hpos => ?_⟩
  · rw [hserved, hdescribed.explanations, SortedMap.find?_mapVal]
  · rw [hbased.cached, SortedMap.find?_mapVal]
  · rw [hdescribed.explanations, hbased.cached, SortedMap.size_mapVal, SortedMap.size_mapVal]
    exact ⟨hdescribed.bounded hpos, hdescribed.bounded hpos⟩

/-- The text of what is served about a domain keeps to its bound, and ends with the notice when the
report of the evaluation left something out. -/
theorem explained_text {options : FabricOptions} {clock : Tick} {disk : Disk} {f : Fabric}
    (hopen : openOn options clock disk = .ok f) (run : Run Step ⟨f, [], ∅⟩ es w)
    {domain : DomainId} {explanation : Explanation} {b : Basis}
    (hserved : w.fabric.explanations.find? domain = some explanation)
    (hb : w.last.find? domain = some b) (hcut : 0 < b.outcome.evidence.truncatedSections)
    (hcount : b.outcome.evidence.truncatedSections < 2 ^ 64) (reasonDetail : List Bytes)
    {maxBytes : Nat}
    (hnotice : ((explanation.full reasonDetail).notice maxBytes).length < maxBytes) :
    ((explanation.full reasonDetail).render maxBytes).length ≤ maxBytes ∧
      ∃ kept, (explanation.full reasonDetail).render maxBytes =
        kept ++ (explanation.full reasonDetail).notice maxBytes := by
  have hdescribed := (run_described hopen run).explanations
  rw [hdescribed, SortedMap.find?_mapVal, hb] at hserved
  have hsections : 0 < (explanation.full reasonDetail).truncatedSections := by
    rw [← Option.some.inj hserved, Explanation.full_planning, UInt64.lt_iff_toNat_lt]
    change 0 < (UInt64.ofNat b.outcome.evidence.truncatedSections).toNat
    rwa [UInt64.toNat_ofNat', Nat.mod_eq_of_lt hcount]
  refine ⟨FullExplanation.render_length hnotice, ?_⟩
  obtain ⟨kept, hrendering, _⟩ := FullExplanation.rendering_noticed hnotice (.inr hsections)
  refine ⟨kept, ?_⟩
  unfold FullExplanation.render
  rw [hrendering]
  rfl

set_option maxRecDepth 100000 in
theorem reported_explained :
    ((reportedWorld.act (.planLast ⟨1⟩)).fabric.explainLast ⟨1⟩).toOption.any (fun e =>
      e.authorized.length = 2) = true := by
  decide +kernel

/-- Two intents planned after an evaluation are added to the account of it. -/
theorem explained_last_reported : ∃ explanation b,
    (reportedWorld.act (.planLast ⟨1⟩)).fabric.explainLast ⟨1⟩ = .ok explanation ∧
    explanation.authorized.length = 2 ∧
    (reportedWorld.act (.planLast ⟨1⟩)).last.find? ⟨1⟩ = some b ∧ b.Committed ∧
    ∃ plan, explanation = b.explained.planning (some plan) ∧
      ∃ e a b', PlannedBy ⟨1⟩ plan b e a b' := by
  obtain ⟨explanation, hserved, hauthorized⟩ := (Option.any_eq_true _ _).mp reported_explained
  obtain ⟨hlast, hplanned, _, hpublished, _⟩ :=
    explained_last openOn_memory (reported_run.next (.act (.planLast ⟨1⟩))) ⟨1⟩
  rw [hserved] at hlast
  obtain ⟨b, hb, hexplained⟩ := Option.map_eq_some_iff.mp hlast.symm
  obtain ⟨_, hcommitted, hnone, _⟩ := hpublished b hb
  have htwo := of_decide_eq_true hauthorized
  refine ⟨explanation, b, ?_, htwo, hb, hcommitted, ?_⟩
  · cases hresult : (reportedWorld.act (.planLast ⟨1⟩)).fabric.explainLast ⟨1⟩ with
    | error status => simp [hresult, Except.toOption] at hserved
    | ok found => simpa [hresult, Except.toOption] using hserved
  · generalize plannedSince _ _ = since at hexplained hplanned
    cases since with
    | none =>
      rw [← hexplained, Explanation.planning, hnone] at htwo
      cases htwo
    | some plan =>
      obtain ⟨e, _, a, b', hby⟩ := hplanned plan b rfl hb
      exact ⟨plan, hexplained.symm, e, a, b', hby⟩

end World

end CongestionFabric
