import CongestionFabric.Eval.RepeatGate
import CongestionFabric.Fabric.FreshBasis
import CongestionFabric.Fabric.LiveAuthority

namespace CongestionFabric

namespace Fabric

open InterventionPlanner CongestionEvaluator

variable {f g : Fabric} {domain : DomainId} {outcome : EvaluationOutcome} {plan : InterventionPlan}

/-- The domains of the installed topology list no resource twice. -/
def Listed (f : Fabric) : Prop :=
  ∀ index, f.topology = some index → ∀ domain, (index.domainResources domain).Nodup

/-- A basis reports on no resource twice. -/
def Basis.Listed (b : Basis) : Prop := (b.outcome.evidence.resources.map (·.resource)).Nodup

theorem Basis.Committed.listed {b : Basis} (h : b.Committed) (hlisted : b.fabric.Listed) :
    b.Listed := by
  refine evaluate_reports_nodup ?_ h
  exact hlisted

/-- The clock and the outstanding intents of two fabrics are the same. -/
structure SameIntents (f g : Fabric) : Prop where
  clock : g.clock = f.clock
  intents : g.intents = f.intents

theorem SameIntents.activeIntents (h : SameIntents f g) (domain : DomainId) :
    g.activeIntents domain = f.activeIntents domain := by
  unfold Fabric.activeIntents
  rw [h.intents]

theorem planOutcome_leaves (f : Fabric) (domain : DomainId) (outcome : EvaluationOutcome) :
    ((f.planOutcome domain outcome).2.toOption = none ∧
        SameIntents f (f.planOutcome domain outcome).1) ∨
      ∃ plan, (f.planOutcome domain outcome).2.toOption = some plan ∧
        InterventionPlanner.plan outcome f.planningContext (f.activeIntents domain) = .ok plan ∧
        SameIntents (f.withPlan domain plan) (f.planOutcome domain outcome).1 := by
  rcases planOutcome_cases (f := f) domain outcome with ⟨store, status, he⟩ | ⟨plan, store, hp, he⟩
  · rw [he]
    exact .inl ⟨rfl, rfl, rfl⟩
  · rw [he]
    exact .inr ⟨plan, rfl, hp, rfl, rfl⟩

theorem withPlan_activeIntents (f : Fabric) (domain k : DomainId) (plan : InterventionPlan) :
    (f.withPlan domain plan).activeIntents k =
      if k = domain then f.retainedIntents domain ++ f.boundIntents plan else f.activeIntents k := by
  unfold withPlan activeIntents SortedMap.findD
  dsimp only
  rw [SortedMap.find?_insert]
  split_ifs <;> rfl

/-- Every intent a plan authorizes is bound to the authority it was planned under. -/
theorem boundIntents_eq
    (h : InterventionPlanner.plan outcome f.planningContext (f.activeIntents domain) = .ok plan) :
    f.boundIntents plan = plan.authorized := by
  refine List.filter_eq_self.mpr fun intent hintent => ?_
  obtain ⟨_, _, _, hepoch, hgeneration, hpolicy, hfingerprint⟩ := plan_issued rfl h hintent
  unfold InterventionIntent.boundTo
  rw [hepoch, hgeneration, hpolicy, hfingerprint]
  simp [planningContext, authorityVector]

end Fabric

namespace World

open Fabric InterventionPlanner CongestionEvaluator

variable {w w' : World} {a : Action} {rule : InterventionRule} {past : List InterventionIntent}

/-! ### No target comes twice in a world -/

/-- The topology and the bases of a world name no resource twice. -/
structure Listed (w : World) : Prop where
  fabric : w.fabric.Listed
  pending : ∀ b ∈ w.pending, b.Listed
  last : ∀ domain b, w.last.find? domain = some b → b.Listed

theorem Listed.opened {options : FabricOptions} {clock : Tick} {disk : Disk} {f : Fabric}
    (hopen : openOn options clock disk = .ok f) : Listed ⟨f, [], ∅⟩ := by
  obtain ⟨store, _, hopened⟩ := openOn_ok hopen
  refine ⟨fun index hindex => ?_, by simp, by simp⟩
  have hindex : restoreTopology (documentOf store) = some index := hopened.topology.symm.trans hindex
  obtain ⟨topology, _, hbuilt⟩ := Option.bind_eq_some_iff.mp hindex
  cases hbuild : TopologyIndex.build topology with
  | error status =>
    rw [hbuild] at hbuilt
    cases hbuilt
  | ok built =>
    rw [hbuild] at hbuilt
    obtain rfl := Option.some.inj hbuilt
    exact TopologyIndex.build_nodup hbuild

theorem Listed.moved (h : Listed w) (a : Action) {fabric : Fabric} (hfabric : fabric.Listed) :
    Listed (w.moved a fabric) := by
  refine ⟨hfabric, fun b hb => ?_, fun domain b hfind => ?_⟩
  · obtain ⟨found, hfound, rfl⟩ := List.mem_map.mp hb
    exact h.pending found hfound
  · have hfind : (w.last.mapVal fun _ b => b.after w.fabric a).find? domain = some b := hfind
    rw [SortedMap.find?_mapVal, Option.map_eq_some_iff] at hfind
    obtain ⟨found, hfound, rfl⟩ := hfind
    exact h.last domain found hfound

theorem Listed.evaluation (h : Listed w) {b : Basis} (hb : w.fabric.evaluation a = some b) :
    b.Listed := by
  have hcommitted := evaluation_committed hb
  obtain ⟨hsame, _⟩ := evaluation_cases hb
  exact hcommitted.listed (hsame ▸ h.fabric)

theorem Listed.publishedAs (h : Listed w) {b : Basis} (hb : w.fabric.evaluation a = some b)
    {fabric : Fabric} (hfabric : fabric.Listed) : Listed (w.publishedAs a fabric b) := by
  have hmoved : Listed (w.moved a fabric) := h.moved a hfabric
  refine ⟨hfabric, hmoved.pending, fun domain found hfind => ?_⟩
  rcases find?_insertBounded hfind with ⟨rfl, rfl⟩ | hfind
  · exact h.evaluation hb
  · exact hmoved.last domain found hfind

theorem Listed.carriedAs (h : Listed w) {b : Basis} (hb : w.fabric.evaluation a = some b)
    {fabric : Fabric} (hfabric : fabric.Listed) : Listed (w.carriedAs a fabric b) := by
  have hpublished : Listed (w.publishedAs a fabric b) := h.publishedAs hb hfabric
  refine ⟨hfabric, fun found hfound => ?_, hpublished.last⟩
  rcases List.mem_append.mp hfound with hfound | hfound
  · exact hpublished.pending found hfound
  · rw [List.mem_singleton.mp hfound]
    exact h.evaluation hb

theorem Listed.dropPending (h : Listed w) (index : Nat) : Listed (w.dropPending index) :=
  ⟨h.fabric, fun b hb => h.pending b (List.mem_of_mem_eraseIdx hb), h.last⟩

theorem Effect.listed (heffect : Effect w a w') (h : Listed w) : Listed w' := by
  have hsame : ∀ {g : Fabric}, g.topology = w.fabric.topology → g.Listed := by
    intro g hg
    unfold Fabric.Listed
    rw [hg]
    exact h.fabric
  cases heffect with
  | kept | policy | capacity | registered | alive | evaluated | plannedLast | closed | clock =>
    exact h.moved _ (hsame rfl)
  | @topology _ index _ hb =>
    refine h.moved _ fun found hfound domain => ?_
    obtain rfl : index = found := Option.some.inj hfound
    exact TopologyIndex.build_nodup hb domain
  | departed publisher boot detail =>
    refine h.moved _ (hsame ?_)
    unfold forgetPublisher
    split <;> rfl
  | @fenced _ record =>
    refine h.moved _ (hsame ?_)
    show (w.fabric.forgetPublisher record.publisher record.boot).topology = _
    unfold forgetPublisher
    split <;> rfl
  | ingested batch =>
    obtain ⟨publishers, evidence, he⟩ := ingestAll_eq batch.samples w.fabric {}
    exact h.moved _ (hsame (by rw [he]))
  | published hb => exact h.publishedAs hb (hsame rfl)
  | carried hb => exact h.carriedAs hb (hsame rfl)
  | dropped index => exact (h.moved _ (hsame rfl)).dropPending index
  | @planned index b plan =>
    have hmoved : Listed (w.moved (.planCommit index) (w.fabric.withPlan b.domain plan)) :=
      h.moved _ (hsame rfl)
    exact hmoved.dropPending index
  | @epoch reason _ =>
    obtain ⟨fences, he⟩ := nextEpoch_eq w.fabric reason
    exact h.moved _ (hsame (by rw [he]))

theorem Step.listed {i : Input} (hstep : Step w i w') (h : Listed w) : Listed w' := by
  cases hstep with
  | act a =>
    obtain ⟨moved, store, heffect, he⟩ := act_effect w a
    rw [he]
    exact ⟨(heffect.listed h).fabric, (heffect.listed h).pending, (heffect.listed h).last⟩
  | restart hopen => exact .opened hopen

/-! ### Runs that keep what is outstanding -/

/-- The intents an input emits. -/
def emitted (w : World) : Input → List InterventionIntent
  | .act a => ((w.planned a).map (·.authorized)).getD []
  | .restart _ _ _ => []

theorem emitted_act (w : World) (a : Action) :
    w.emitted (.act a) = ((w.planned a).map (·.authorized)).getD [] := rfl

/-- The intents a run emits, in order. -/
def emissions (es : List (Event World Input)) : List InterventionIntent :=
  es.flatMap fun e => e.before.emitted e.input

/-- An action keeps what is outstanding for a rule: the clock does not go back, no evaluation that
leaves its domain without authority erases it, no plan trims it, and the plan is orderly. -/
structure KeepsIntents (w : World) (rule : InterventionRule) (a : Action) : Prop where
  clock : ∀ now, a = .readClock now → w.fabric.clock ≤ now
  erased : ∀ b, w.fabric.evaluation a = some b → b.outcome.authoritative = false →
    ∀ intent ∈ w.fabric.activeIntents b.domain, ¬rule.Outstanding w.fabric.clock intent
  trimmed : ∀ b, w.basisOf a = some b → ∀ intent ∈ w.fabric.activeIntents b.domain,
    rule.Outstanding w.fabric.clock intent → intent ∈ w.fabric.retainedIntents b.domain
  orderly : ∀ b, w.basisOf a = some b → Orderly w.fabric.policy w.fabric.planningContext
    (w.fabric.activeIntents b.domain) b.outcome rule

/-- Of the intents emitted so far, those of the rule's kind keep its interval, and those that are
outstanding for it are in memory. -/
structure Remembers (rule : InterventionRule) (past : List InterventionIntent) (f : Fabric) :
    Prop where
  spaced : past.Pairwise rule.KeepsInterval
  issued : ∀ intent ∈ past, intent.issuedTick ≤ f.clock ∧ intent.expiresTick = 0
  held : ∀ intent ∈ past, rule.Outstanding f.clock intent → intent ∈ f.activeIntents intent.domain

theorem Remembers.start (rule : InterventionRule) (f : Fabric) : Remembers rule [] f :=
  ⟨.nil, fun _ h => absurd h List.not_mem_nil, fun _ h => absurd h List.not_mem_nil⟩

theorem Remembers.later {f g : Fabric} (h : Remembers rule past f) (hclock : f.clock ≤ g.clock)
    (hheld : ∀ domain, ∀ intent ∈ f.activeIntents domain, rule.Outstanding f.clock intent →
      intent ∈ g.activeIntents domain) : Remembers rule past g := by
  refine ⟨h.spaced, fun intent hintent => ?_, fun intent hintent hout => ?_⟩
  · obtain ⟨hissued, hunexpiring⟩ := h.issued intent hintent
    exact ⟨UInt64.le_trans hissued hclock, hunexpiring⟩
  · have hbefore := hout.earlier (h.issued intent hintent).1 hclock
    exact hheld _ intent (h.held intent hintent hbefore) hbefore

theorem Remembers.same {f g : Fabric} (h : Remembers rule past f) (hsame : SameIntents f g) :
    Remembers rule past g := by
  refine h.later (hsame.clock ▸ UInt64.le_refl _) fun domain intent hintent _ => ?_
  rw [hsame.activeIntents]
  exact hintent

/-- A plan that keeps what is outstanding emits what keeps the interval. -/
theorem Remembers.plan {f g : Fabric} {b : Basis} {plan : InterventionPlan}
    (h : Remembers rule past f) (hlisted : f.Listed) (hreports : b.Listed)
    (hdomain : b.outcome.domain = b.domain)
    (hplan : InterventionPlanner.plan b.outcome f.planningContext (f.activeIntents b.domain) =
      .ok plan)
    (htrimmed : ∀ intent ∈ f.activeIntents b.domain, rule.Outstanding f.clock intent →
      intent ∈ f.retainedIntents b.domain)
    (horderly : Orderly f.policy f.planningContext (f.activeIntents b.domain) b.outcome rule)
    (hsame : SameIntents (f.withPlan b.domain plan) g) :
    Remembers rule (past ++ plan.authorized) g := by
  have hclock : g.clock = f.clock := hsame.clock
  have hactive : ∀ domain, g.activeIntents domain =
      if domain = b.domain then f.retainedIntents b.domain ++ plan.authorized
      else f.activeIntents domain := by
    intro domain
    rw [hsame.activeIntents, withPlan_activeIntents, boundIntents_eq hplan]
  have hissued : ∀ intent ∈ plan.authorized, intent.issuedTick = f.clock ∧ intent.expiresTick = 0 ∧
      intent.domain = b.domain := by
    intro intent hintent
    obtain ⟨htick, hunexpiring, hplanned, _⟩ := plan_issued rfl hplan hintent
    exact ⟨htick, hunexpiring, hplanned.trans hdomain⟩
  have hdistinct := horderly.distinct rfl hplan fun r => targetsOf_nodup hlisted hreports
  refine ⟨List.pairwise_append.mpr ⟨h.spaced, ?_, ?_⟩, ?_, ?_⟩
  · exact hdistinct.imp fun {_ _} hne hkind hequivalent => absurd hequivalent (hne hkind)
  · intro first hfirst second hsecond hkind hequivalent
    obtain ⟨htick, _, hin⟩ := hissued second hsecond
    obtain ⟨hbefore, hunexpiring⟩ := h.issued first hfirst
    refine InterventionRule.spaced_of_not_outstanding ?_ hkind (htick ▸ hbefore) hunexpiring
    rw [htick]
    intro hout
    have hheld := h.held first hfirst hout
    rw [hequivalent.2.1, hin] at hheld
    exact horderly.idle rfl hplan hheld hsecond hequivalent hout
  · intro intent hintent
    rw [hclock]
    rcases List.mem_append.mp hintent with hold | hnew
    · exact h.issued intent hold
    · obtain ⟨htick, hunexpiring, _⟩ := hissued intent hnew
      exact ⟨htick ▸ UInt64.le_refl _, hunexpiring⟩
  · intro intent hintent hout
    rw [hclock] at hout
    rw [hactive]
    rcases List.mem_append.mp hintent with hold | hnew
    · have hheld := h.held intent hold hout
      split_ifs with hin
      · rw [hin] at hheld
        exact List.mem_append_left _ (htrimmed intent hheld hout)
      · exact hheld
    · rw [if_pos (hissued intent hnew).2.2]
      exact List.mem_append_right _ hnew

/-- A planning action leaves the outstanding intents, or returns the plan it leaves them with. -/
theorem act_plans (hbased : Based w)
    (hplans : (∃ index, a = .planCommit index) ∨ ∃ domain, a = .planLast domain) :
    (w.planned a = none ∧ SameIntents w.fabric (w.act a).fabric) ∨
      ∃ b plan, w.basisOf a = some b ∧ b.Committed ∧ w.planned a = some plan ∧
        InterventionPlanner.plan b.outcome w.fabric.planningContext
          (w.fabric.activeIntents b.domain) = .ok plan ∧
        SameIntents (w.fabric.withPlan b.domain plan) (w.act a).fabric := by
  rcases hplans with ⟨index, rfl⟩ | ⟨domain, rfl⟩
  · unfold act planned basisOf
    dsimp only
    cases hb : w.pending[index]? with
    | none => exact .inl ⟨rfl, rfl, rfl⟩
    | some b =>
      have hcommitted := hbased.pending b (List.mem_of_getElem? hb)
      show ((w.fabric.planCommit b.domain b.outcome).2.toOption = none ∧
          SameIntents w.fabric (w.fabric.planCommit b.domain b.outcome).1) ∨
        ∃ b' plan, some b = some b' ∧ b'.Committed ∧
          (w.fabric.planCommit b.domain b.outcome).2.toOption = some plan ∧ _ ∧
          SameIntents (w.fabric.withPlan b'.domain plan)
            (w.fabric.planCommit b.domain b.outcome).1
      unfold planCommit checked
      split
      · exact .inl ⟨rfl, rfl, rfl⟩
      · rcases planOutcome_leaves w.fabric b.domain b.outcome with hnone | ⟨plan, hplan, hok, hsame⟩
        · exact .inl hnone
        · exact .inr ⟨b, plan, rfl, hcommitted, hplan, hok, hsame⟩
  · show ((w.fabric.planLast domain).2.toOption = none ∧
        SameIntents w.fabric (w.fabric.planLast domain).1) ∨
      ∃ b plan, w.last.find? domain = some b ∧ b.Committed ∧
        (w.fabric.planLast domain).2.toOption = some plan ∧ _ ∧
        SameIntents (w.fabric.withPlan b.domain plan) (w.fabric.planLast domain).1
    unfold planLast checked
    split
    · exact .inl ⟨rfl, rfl, rfl⟩
    · rw [hbased.cached, SortedMap.find?_mapVal]
      cases hlast : w.last.find? domain with
      | none => exact .inl ⟨rfl, rfl, rfl⟩
      | some b =>
        obtain ⟨hcommitted, rfl⟩ := hbased.last domain b hlast
        show ((w.fabric.planOutcome b.domain b.outcome).2.toOption = none ∧
            SameIntents w.fabric (w.fabric.planOutcome b.domain b.outcome).1) ∨
          ∃ b' plan, some b = some b' ∧ b'.Committed ∧
            (w.fabric.planOutcome b.domain b.outcome).2.toOption = some plan ∧ _ ∧
            SameIntents (w.fabric.withPlan b'.domain plan)
              (w.fabric.planOutcome b.domain b.outcome).1
        rcases planOutcome_leaves w.fabric b.domain b.outcome with hnone | ⟨plan, hplan, hok, hsame⟩
        · exact .inl hnone
        · exact .inr ⟨b, plan, rfl, hcommitted, hplan, hok, hsame⟩

/-- Any other action that does not renew the authority moves the clock, erases the intents of a domain
it leaves without authority, or leaves both. -/
theorem act_elsewhere (hstays : ¬w.Renews (.act a))
    (hplans : ¬((∃ index, a = .planCommit index) ∨ ∃ domain, a = .planLast domain)) :
    SameIntents w.fabric (w.act a).fabric ∨
      (∃ now, a = .readClock now ∧ (w.act a).fabric.clock = now ∧
        (w.act a).fabric.intents = w.fabric.intents) ∨
      ∃ b, w.fabric.evaluation a = some b ∧
        SameIntents (w.fabric.commitOutcome b.domain b.outcome) (w.act a).fabric := by
  obtain ⟨moved, store, heffect, he⟩ := act_effect w a
  rw [he]
  cases heffect with
  | kept | capacity | registered | alive | closed => exact .inl ⟨rfl, rfl⟩
  | policy hs | topology hs | epoch hs => exact absurd hs hstays
  | dropped index | @planned index => exact absurd (.inl ⟨index, rfl⟩) hplans
  | @plannedLast domain => exact absurd (.inr ⟨domain, rfl⟩) hplans
  | evaluated hb | published hb | carried hb => exact .inr (.inr ⟨_, hb, rfl, rfl⟩)
  | clock now => exact .inr (.inl ⟨now, rfl, rfl, rfl⟩)
  | departed publisher boot =>
    have hsame : SameIntents w.fabric (w.fabric.forgetPublisher publisher boot) := by
      unfold forgetPublisher
      split <;> exact ⟨rfl, rfl⟩
    exact .inl ⟨hsame.clock, hsame.intents⟩
  | @fenced _ record =>
    have hsame : SameIntents w.fabric (w.fabric.fenced record) := by
      unfold fenced forgetPublisher
      split <;> exact ⟨rfl, rfl⟩
    exact .inl ⟨hsame.clock, hsame.intents⟩
  | ingested batch =>
    obtain ⟨publishers, evidence, hi⟩ := ingestAll_eq batch.samples w.fabric {}
    have hsame : SameIntents w.fabric (batch.samples.foldl ingestSample (w.fabric, {})).1 := by
      rw [hi]
      exact ⟨rfl, rfl⟩
    exact .inl ⟨hsame.clock, hsame.intents⟩

/-- An action that keeps what is outstanding for a rule emits what keeps its interval. -/
theorem Remembers.act (h : Remembers rule past w.fabric) (hbased : Based w) (hlisted : Listed w)
    (hstays : ¬w.Renews (.act a)) (hkeeps : w.KeepsIntents rule a) :
    Remembers rule (past ++ w.emitted (.act a)) (w.act a).fabric := by
  by_cases hplans : (∃ index, a = .planCommit index) ∨ ∃ domain, a = .planLast domain
  · rcases act_plans hbased hplans with ⟨hnone, hsame⟩ | ⟨b, plan, hbasis, hcommitted, hplan, hok, hsame⟩
    · have hemitted : w.emitted (.act a) = [] := by
        rw [emitted_act, hnone]
        rfl
      rw [hemitted, List.append_nil]
      exact h.same hsame
    · have hemitted : w.emitted (.act a) = plan.authorized := by
        rw [emitted_act, hplan]
        rfl
      have hreports : b.Listed := by
        rcases hplans with ⟨index, rfl⟩ | ⟨domain, rfl⟩
        · exact hlisted.pending b (List.mem_of_getElem? hbasis)
        · exact hlisted.last domain b hbasis
      rw [hemitted]
      exact h.plan hlisted.fabric hreports hcommitted.domain_eq hok (hkeeps.trimmed b hbasis)
        (hkeeps.orderly b hbasis) hsame
  · have hemitted : w.emitted (.act a) = [] := by
      cases a with
      | planCommit index => exact absurd (.inl ⟨index, rfl⟩) hplans
      | planLast domain => exact absurd (.inr ⟨domain, rfl⟩) hplans
      | _ => rfl
    rw [hemitted, List.append_nil]
    rcases act_elsewhere hstays hplans with hsame | ⟨now, rfl, hclock, hintents⟩ | ⟨b, hb, hsame⟩
    · exact h.same hsame
    · refine h.later (hclock ▸ hkeeps.clock now rfl) fun domain intent hintent _ => ?_
      unfold activeIntents
      rw [hintents]
      exact hintent
    · refine h.later (hsame.clock ▸ UInt64.le_refl _) fun domain intent hintent hout => ?_
      rw [hsame.activeIntents]
      by_cases hauthoritative : b.outcome.authoritative = true
      · unfold commitOutcome activeIntents
        rw [if_pos hauthoritative]
        exact hintent
      · rw [Bool.not_eq_true] at hauthoritative
        by_cases hdomain : domain = b.domain
        · rw [hdomain] at hintent
          exact absurd hout (hkeeps.erased b hb hauthoritative intent hintent)
        · unfold commitOutcome activeIntents SortedMap.findD
          dsimp only
          rw [if_neg (by simp [hauthoritative]), SortedMap.find?_erase_ne _ hdomain]
          exact hintent

/-- Between two renewals of the authority, in a run whose actions all keep what is outstanding for a
rule, the intents of its kind for one target are issued at its interval. -/
theorem repeat_interval_kept {options : FabricOptions} {clock : Tick} {disk : Disk} {f : Fabric}
    {es es' : List (Event World Input)} (hopen : openOn options clock disk = .ok f)
    (run : Run Step ⟨f, [], ∅⟩ es w) (run' : Run Step w es' w')
    (hstays : ∀ e ∈ es', ¬e.before.Renews e.input) (rule : InterventionRule)
    (hkeeps : ∀ e ∈ es', ∀ a, e.input = .act a → e.before.KeepsIntents rule a) :
    (emissions es').Pairwise rule.KeepsInterval := by
  have hbased := (run_based hopen run).2
  have hlisted : Listed w := run.invariant (.opened hopen) fun _ _ _ hw hstep => hstep.listed hw
  have hremembers : Based w' ∧ Listed w' ∧ Remembers rule (emissions es') w'.fabric := by
    induction run' with
    | start => exact ⟨hbased, hlisted, .start rule w.fabric⟩
    | @next es' before after i _ hstep ih =>
      obtain ⟨hbased', hlisted', hpast⟩ := ih
        (fun e he => hstays e (List.mem_append_left _ he))
        (fun e he => hkeeps e (List.mem_append_left _ he))
      have hlast : ⟨before, i, after⟩ ∈ es' ++ [⟨before, i, after⟩] :=
        List.mem_append_right _ List.mem_cons_self
      refine ⟨hstep.based hbased', hstep.listed hlisted', ?_⟩
      have hemissions : emissions (es' ++ [⟨before, i, after⟩]) =
          emissions es' ++ before.emitted i := by
        unfold emissions
        rw [List.flatMap_append, List.flatMap_singleton]
      rw [hemissions]
      cases hstep with
      | act a => exact hpast.act hbased' hlisted' (hstays _ hlast) (hkeeps _ hlast a rfl)
      | restart => exact absurd trivial (hstays _ hlast)
  exact hremembers.2.2.spaced

/-- A plan under a policy with one rule for each kind keeps what is outstanding while there is room
for it. -/
theorem KeepsIntents.of_kinds
    (hplans : (∃ index, a = .planCommit index) ∨ ∃ domain, a = .planLast domain)
    (hkinds : (w.fabric.policy.interventions.map (·.kind)).Nodup)
    (hrule : rule ∈ w.fabric.policy.interventions)
    (hroom : ∀ b, w.basisOf a = some b →
      (w.fabric.activeIntents b.domain).length ≤ w.fabric.options.maxActiveInterventions) :
    w.KeepsIntents rule a := by
  refine ⟨?_, ?_, fun b hb intent hintent hout => ?_, fun _ _ => .of_kinds hkinds hrule⟩
  · rcases hplans with ⟨_, rfl⟩ | ⟨_, rfl⟩ <;> exact fun _ hnow => nomatch hnow
  · rcases hplans with ⟨_, rfl⟩ | ⟨_, rfl⟩ <;> exact fun _ hb => nomatch hb
  · have hlength := List.length_filter_le (fun intent => !intent.expiredAt w.fabric.clock)
      (w.fabric.activeIntents b.domain)
    have hfits := hroom b hb
    unfold retainedIntents
    dsimp only
    rw [Nat.sub_eq_zero_of_le (hlength.trans hfits), List.drop_zero]
    exact List.mem_filter.mpr ⟨hintent, by rw [hout.live]; rfl⟩

/-! ### A rule that waits five ticks -/

def pacedRule : InterventionRule where
  atLeast := .watch
  kind := .makeRecoveryPlanEligible
  parameterMin := 1
  parameterMax := 1
  parameterDefault := 1
  priority := 200
  minRepeatIntervalTicks := 5

/-- Another rule of the same kind, with another parameter. -/
def twinRule : InterventionRule := { pacedRule with parameterMax := 2, parameterDefault := 2 }

/-- The default policy with these interventions. -/
def intervening (rules : List InterventionRule) : CongestionPolicy :=
  let policy : CongestionPolicy := { makeDefaultPolicy with interventions := rules }
  { policy with fingerprint := fingerprintPolicy policy }

/-- A domain under pressure, and a policy with these interventions. -/
def intervenedWorld (rules : List InterventionRule) : World :=
  [.setPolicy (intervening rules), .setTopology pairSnapshot,
    .evaluateRequest (reportNow 100)].foldl act ⟨memoryFabric, [], ∅⟩

theorem intervened_run (rules : List InterventionRule) : ∃ es,
    Run Step ⟨memoryFabric, [], ∅⟩ es (intervenedWorld rules) := ⟨_, run_acts _ _⟩

/-- Two plans five ticks apart. -/
def unhurried : List Action := [.planLast ⟨1⟩, .readClock 105, .planLast ⟨1⟩]

set_option maxRecDepth 100000 in
theorem repeat_interval_kept_paced :
    (emissions (actEvents (intervenedWorld [pacedRule]) unhurried)).map (·.issuedTick) =
      [100, 100, 105, 105] ∧
    (emissions (actEvents (intervenedWorld [pacedRule]) unhurried)).Pairwise
      pacedRule.KeepsInterval := by
  refine ⟨by decide +kernel, ?_⟩
  obtain ⟨es, run⟩ := intervened_run [pacedRule]
  refine repeat_interval_kept openOn_memory run (run_acts _ unhurried) ?_ pacedRule ?_
  · intro e he
    obtain ⟨a, ha, hinput⟩ := mem_actEvents he
    rw [hinput]
    simp only [unhurried, List.mem_cons, List.not_mem_nil, or_false] at ha
    rcases ha with rfl | rfl | rfl <;> exact id
  · have hpolicy : ∀ w : World, w = intervenedWorld [pacedRule] ∨
        w = ((intervenedWorld [pacedRule]).act (.planLast ⟨1⟩)).act (.readClock 105) →
        w.fabric.policy.interventions = [pacedRule] ∧
          (w.basisOf (.planLast ⟨1⟩)).all (fun b => decide
            ((w.fabric.activeIntents b.domain).length ≤
              w.fabric.options.maxActiveInterventions)) = true := by
      rintro w (rfl | rfl)
      · exact ⟨by decide +kernel, by decide +kernel⟩
      · exact ⟨by decide +kernel, by decide +kernel⟩
    have hplan : ∀ w : World, w = intervenedWorld [pacedRule] ∨
        w = ((intervenedWorld [pacedRule]).act (.planLast ⟨1⟩)).act (.readClock 105) →
        w.KeepsIntents pacedRule (.planLast ⟨1⟩) := by
      intro w hw
      obtain ⟨hrules, hroom⟩ := hpolicy w hw
      refine .of_kinds (.inr ⟨⟨1⟩, rfl⟩) ?_ ?_ fun b hb => ?_
      · rw [hrules]
        decide
      · rw [hrules]
        exact List.mem_cons_self
      · rw [hb] at hroom
        exact of_decide_eq_true hroom
    intro e he a ha
    simp only [unhurried, actEvents, List.mem_cons, List.not_mem_nil, or_false] at he
    rcases he with rfl | rfl | rfl
    · obtain rfl := Input.act.inj ha
      exact hplan _ (.inl rfl)
    · obtain rfl := Input.act.inj ha
      refine ⟨fun now hnow => ?_, (fun _ hb => nomatch hb), (fun _ hb => nomatch hb),
        (fun _ hb => nomatch hb)⟩
      obtain rfl := Action.readClock.inj hnow
      decide +kernel
    · obtain rfl := Input.act.inj ha
      exact hplan _ (.inr rfl)

/-- The samples of both resources are gone. -/
def silentRequest : EvaluationRequest :=
  { reportNow 100 with evidence := { (reportNow 100).evidence with samples := [] } }

/-- A plan, an evaluation without evidence, one with the old evidence, and another plan. -/
def interrupted : List Action :=
  [.planLast ⟨1⟩, .evaluateRequest silentRequest, .evaluateRequest (reportNow 100), .planLast ⟨1⟩]

set_option maxRecDepth 100000 in
/-- An evaluation without authority erases what was emitted, and the same is emitted at the same tick
again; and two rules of one kind emit for the same targets in one plan. -/
theorem repeat_interval_broken : openOn {} 100 {} = .ok memoryFabric ∧
    (∃ es es' w', Run Step ⟨memoryFabric, [], ∅⟩ es (intervenedWorld [pacedRule]) ∧
      Run Step (intervenedWorld [pacedRule]) es' w' ∧
      (∀ e ∈ es', ¬e.before.Renews e.input) ∧
      pacedRule ∈ (intervenedWorld [pacedRule]).fabric.policy.interventions ∧
      ¬(emissions es').Pairwise pacedRule.KeepsInterval) ∧
    ∃ es es' w', Run Step ⟨memoryFabric, [], ∅⟩ es (intervenedWorld [pacedRule, twinRule]) ∧
      Run Step (intervenedWorld [pacedRule, twinRule]) es' w' ∧
      (∀ e ∈ es', ¬e.before.Renews e.input) ∧
      pacedRule ∈ (intervenedWorld [pacedRule, twinRule]).fabric.policy.interventions ∧
      ¬(emissions es').Pairwise pacedRule.KeepsInterval := by
  refine ⟨openOn_memory, ?_, ?_⟩
  · obtain ⟨es, run⟩ := intervened_run [pacedRule]
    refine ⟨es, _, _, run, run_acts _ interrupted, fun e he => ?_, ?_, by decide +kernel⟩
    · obtain ⟨a, ha, hinput⟩ := mem_actEvents he
      rw [hinput]
      simp only [interrupted, List.mem_cons, List.not_mem_nil, or_false] at ha
      rcases ha with rfl | rfl | rfl | rfl <;> exact id
    · have hrules : (intervenedWorld [pacedRule]).fabric.policy.interventions = [pacedRule] := by
        decide +kernel
      rw [hrules]
      exact List.mem_cons_self
  · obtain ⟨es, run⟩ := intervened_run [pacedRule, twinRule]
    refine ⟨es, _, _, run, run_acts _ [.planLast ⟨1⟩], fun e he => ?_, ?_, by decide +kernel⟩
    · obtain ⟨a, ha, hinput⟩ := mem_actEvents he
      rw [hinput, List.mem_singleton.mp ha]
      exact id
    · have hrules : (intervenedWorld [pacedRule, twinRule]).fabric.policy.interventions =
          [pacedRule, twinRule] := by
        decide +kernel
      rw [hrules]
      exact List.mem_cons_self

end World

end CongestionFabric
