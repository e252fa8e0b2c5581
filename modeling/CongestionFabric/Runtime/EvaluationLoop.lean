import CongestionFabric.Fabric.Silence

namespace CongestionFabric

namespace Fabric

open CongestionEvaluator HysteresisEngine

/-- Nothing stands in the way of an evaluation of the domain. -/
structure Evaluable (f : Fabric) (domain : DomainId) : Prop where
  hasPolicy : f.hasPolicy = true
  accepted : Accepted f.policy
  valid : domain.valid = true
  clock : f.clock ≠ kNoTick
  members : ∃ topology, f.topology = some topology ∧ topology.domainResources domain ≠ [] ∧
    (topology.domainResources domain).length ≤ f.policy.limits.maxResourcesPerDomain.toNat

variable {f g : Fabric} {domain : DomainId}

theorem Evaluable.keep (h : f.Evaluable domain) (hhas : g.hasPolicy = f.hasPolicy)
    (hpolicy : g.policy = f.policy) (htopology : g.topology = f.topology)
    (hclock : f.clock ≤ g.clock) : g.Evaluable domain := by
  obtain ⟨hasPolicy, haccepted, hvalid, htick, topology, hsome, hmembers, hcount⟩ := h
  have hnow : g.clock ≠ kNoTick := by
    intro hnone
    rw [hnone] at hclock
    exact htick (UInt64.le_antisymm hclock (UInt64.zero_le))
  refine ⟨hhas.trans hasPolicy, ?_, hvalid, hnow, topology, htopology.trans hsome, hmembers, ?_⟩
  · rwa [hpolicy]
  · rwa [hpolicy]

/-- An evaluation nothing stands in the way of is made. -/
theorem Evaluable.evaluates (h : f.Evaluable domain) (hopened : f.closed = false) :
    ∃ b, f.evaluation (.evaluate domain {}) = some b ∧ b.domain = domain := by
  obtain ⟨hasPolicy, haccepted, hvalid, htick, topology, hsome, hmembers, hcount⟩ := h
  have hscope : CongestionEvaluator.scope (f.evaluationRequest domain (f.collectEvidence domain))
      f.policy f.evaluationContext.topology = .ok (topology.domainResources domain) := by
    have htopology : f.evaluationContext.topology = some topology := hsome
    have hwhole : (f.evaluationRequest domain (f.collectEvidence domain)).onlyResource.valid =
        false := rfl
    have hsome : refuseIf (topology.domainResources domain = []) .notFound
        "domain has no resources in the installed topology" = .ok () := refuseIf_ok.mpr hmembers
    have hfew : refuseIf ((topology.domainResources domain).length >
        f.policy.limits.maxResourcesPerDomain.toNat) .limitExceeded
        "domain exceeds the permitted resource count" = .ok () := refuseIf_ok.mpr (not_lt.mpr hcount)
    unfold CongestionEvaluator.scope
    rw [htopology, hwhole]
    refine bind_ok.mpr ⟨(), hsome, bind_ok.mpr ⟨(), hfew, ?_⟩⟩
    refine bind_ok.mpr ⟨_, rfl, bind_ok.mpr ⟨_, rfl, ?_⟩⟩
    exact bind_ok.mpr ⟨(), refuseIf_ok.mpr hmembers, rfl⟩
  have hsamples : ¬(f.evaluationRequest domain (f.collectEvidence domain)).evidence.samples.length >
      f.evaluationContext.maxSamplesPerBatch := by
    have hwindow : (f.windowSamples domain).length ≤ limits.kMaxEvidencePerBatch := by
      unfold windowSamples
      dsimp only
      rw [List.length_take]
      exact Nat.min_le_left _ _
    exact not_lt.mpr hwindow
  obtain ⟨a, hassess, _⟩ := spreadPressure_neutral haccepted f.evaluationContext.topology
    (@classifyScope_grounded f.policy (topology.domainResources domain)
      (f.evaluationRequest domain (f.collectEvidence domain)) f.evaluationContext)
  have hevaluate : f.assessDomain domain (f.collectEvidence domain) =
      .ok (conclude (f.evaluationRequest domain (f.collectEvidence domain)) f.policy
        f.evaluationContext (f.domainState domain) a) := by
    unfold assessDomain CongestionEvaluator.evaluate
    refine bind_ok.mpr ⟨(), refuseIf_ok.mpr (not_not.mpr hvalid), ?_⟩
    refine bind_ok.mpr ⟨(), refuseIf_ok.mpr htick, ?_⟩
    refine bind_ok.mpr ⟨(), refuseIf_ok.mpr hsamples, ?_⟩
    exact bind_ok.mpr ⟨_, hscope, bind_ok.mpr ⟨a, hassess, rfl⟩⟩
  obtain ⟨outcome, houtcome⟩ := (⟨_, hevaluate⟩ : ∃ outcome,
    f.assessDomain domain (f.collectEvidence domain) = .ok outcome)
  have hopen : f.ensureOpen = .ok () := refuseIf_ok.mpr (by simp [hopened])
  have hoffered : f.outcomeOf domain (f.collectEvidence domain) {} = .ok outcome := by
    unfold outcomeOf
    refine bind_ok.mpr ⟨(), rfl, bind_ok.mpr ⟨(), refuseIf_ok.mpr (by simp [hasPolicy]), ?_⟩⟩
    exact bind_ok.mpr ⟨_, houtcome, bind_ok.mpr ⟨(), rfl, rfl⟩⟩
  have hassessed : f.assessed domain (f.collectEvidence domain) {} =
      some { domain, batch := f.collectEvidence domain, outcome, fabric := f } := by
    unfold assessed
    rw [hopen, hoffered]
    rfl
  exact ⟨_, hassessed, rfl⟩

/-- One round of `evaluation_loop`: every domain that has a state when the round begins, one call
each. -/
def evaluationPass (f : Fabric) : List Action :=
  f.domains.keys.map fun domain => .evaluate domain {}

end Fabric

namespace World

open Fabric

variable {w w' : World} {a : Action} {domain : DomainId} {es : List (Event World Input)}

/-- An action that does not feed the domain leaves an evaluation of it as possible as it was. -/
theorem Effect.evaluable (h : Effect w a w') (hunfed : w.fabric.Unfed domain a)
    (hevaluable : w.fabric.Evaluable domain) : w'.fabric.Evaluable domain := by
  obtain ⟨hpolicy, hhas, htopology, hclock⟩ := h.still hunfed
  exact hevaluable.keep hhas hpolicy htopology hclock

/-- A fabric that is open was open before. -/
theorem act_open (w : World) (a : Action) (h : (w.act a).fabric.closed = false) :
    w.fabric.closed = false := by
  by_cases ha : a = .close
  · subst ha
    exact Bool.noConfusion (show true = false from h)
  · exact (act_closed w ha).symm.trans h

theorem run_evaluates (run : Run Step w es w') (hunfed : UnfedFor domain es)
    (hevaluable : w.fabric.Evaluable domain) (hopen : w'.fabric.closed = false) :
    w'.fabric.Evaluable domain ∧
      (Input.act (.evaluate domain {}) ∈ es.map (·.input) → evaluations domain es ≠ []) := by
  induction run with
  | start => exact ⟨hevaluable, fun hmem => absurd hmem List.not_mem_nil⟩
  | @next es w₁ w₂ i run hstep ih =>
    obtain ⟨a, hinput, hunfed₁⟩ := hunfed _ (List.mem_append_right _ List.mem_cons_self)
    change i = .act a at hinput
    change w₁.fabric.Unfed domain a at hunfed₁
    subst hinput
    obtain rfl := hstep.act_eq
    have hopen₁ := act_open w₁ a hopen
    obtain ⟨hevaluable₁, hcalled⟩ := ih (fun e he => hunfed e (List.mem_append_left _ he)) hopen₁
    obtain ⟨w', store, heffect, he⟩ := act_effect w₁ a
    have hevaluable₂ : (w₁.act a).fabric.Evaluable domain := by
      rw [he]
      exact (heffect.evaluable hunfed₁ hevaluable₁).keep rfl rfl rfl (UInt64.le_refl _)
    refine ⟨hevaluable₂, fun hmem => ?_⟩
    rw [evaluations_snoc]
    intro hnone
    obtain ⟨hbefore, hnow⟩ := List.append_eq_nil_iff.mp hnone
    rw [List.map_append] at hmem
    rcases List.mem_append.mp hmem with hold | hnew
    · exact hcalled hold hbefore
    · obtain rfl : a = .evaluate domain {} := (Input.act.inj (List.mem_singleton.mp hnew)).symm
      obtain ⟨b, heval, hdomain⟩ := hevaluable₁.evaluates hopen₁
      change w₁.evaluationOf domain (.evaluate domain {}) = [] at hnow
      unfold evaluationOf at hnow
      rw [heval] at hnow
      dsimp only at hnow
      rw [if_pos hdomain] at hnow
      cases hnow

/-- Staleness is committed though nothing arrives. Whatever else goes on between its calls, once a round
of the evaluation loop is over, every domain that had a state when the round began, that nothing stands
in the way of evaluating and that nobody reported for since its evidence became too old, is STALE or
UNKNOWN. -/
theorem pass_loses (run : Run Step w es w') (hunfed : UnfedFor domain es)
    (hpass : (w.fabric.evaluationPass.map Input.act).Sublist (es.map (·.input)))
    (hknown : domain ∈ w.fabric.domains.keys) (hevaluable : w.fabric.Evaluable domain)
    (hopen : w'.fabric.closed = false) (hsilent : w.fabric.Silent domain)
    (htick : w.fabric.OnTime domain) : w'.fabric.Lost domain := by
  have hcalled : Input.act (.evaluate domain {}) ∈ es.map (·.input) :=
    hpass.subset (List.mem_map_of_mem (List.mem_map_of_mem hknown))
  exact (run_silent run hunfed hsilent htick).2.2.2
    ((run_evaluates run hunfed hevaluable hopen).2 hcalled)

/-- The round of the loop is under way, and the clock is read once more before its call. -/
def tickingWorld : World := overdueWorld.act (.readClock 130)

set_option maxRecDepth 100000 in
theorem overdueWorld_round :
    overdueWorld.fabric.domains.keys = [⟨1⟩] ∧
      validatePolicy briskPolicy = .ok overdueWorld.fabric.policy ∧
      overdueWorld.fabric.hasPolicy = true ∧ overdueWorld.fabric.clock = 120 ∧
      overdueWorld.fabric.topology.isSome = true ∧
      ((overdueWorld.fabric.topology.map (·.domainResources ⟨1⟩)).getD []).length = 2 ∧
      2 ≤ overdueWorld.fabric.policy.limits.maxResourcesPerDomain.toNat ∧
      (tickingWorld.act (.evaluate ⟨1⟩ {})).fabric.closed = false := by
  decide +kernel

theorem pass_loses_silent : (tickingWorld.act (.evaluate ⟨1⟩ {})).fabric.Lost ⟨1⟩ := by
  obtain ⟨_, _, hspent, htick, _⟩ := overdueWorld_overdue
  obtain ⟨hkeys, haccepted, hhas, hclock, hsome, hmembers, hlimit, hopen⟩ := overdueWorld_round
  have hsilent : overdueWorld.fabric.Silent ⟨1⟩ := by
    intro key sample hfind _
    exact hspent sample (List.mem_map.mpr ⟨_, SortedMap.mem_entries_iff.mpr hfind, rfl⟩)
  obtain ⟨topology, htopology⟩ := Option.isSome_iff_exists.mp hsome
  rw [htopology] at hmembers
  change (topology.domainResources ⟨1⟩).length = 2 at hmembers
  have hevaluable : overdueWorld.fabric.Evaluable ⟨1⟩ := by
    refine ⟨hhas, (validatePolicy_accepted haccepted).2, by decide, ?_, topology, htopology, ?_, ?_⟩
    · rw [hclock]
      decide
    · intro hnone
      rw [hnone] at hmembers
      cases hmembers
    · omega
  have hknown : (⟨1⟩ : DomainId) ∈ overdueWorld.fabric.domains.keys := by
    rw [hkeys]
    exact List.mem_cons_self
  have run : Run Step overdueWorld
      ([⟨overdueWorld, .act (.readClock 130), tickingWorld⟩] ++
        [⟨tickingWorld, .act (.evaluate ⟨1⟩ {}), _⟩]) (tickingWorld.act (.evaluate ⟨1⟩ {})) :=
    (Run.start.next (.act _)).next (.act _)
  refine pass_loses run ?_ ?_ hknown hevaluable hopen hsilent htick
  · intro e he
    rcases List.mem_append.mp he with he | he
    · obtain rfl := List.mem_singleton.mp he
      refine ⟨_, rfl, ?_⟩
      show overdueWorld.fabric.clock ≤ 130
      rw [hclock]
      decide
    · obtain rfl := List.mem_singleton.mp he
      exact ⟨_, rfl, trivial⟩
  · unfold evaluationPass
    rw [hkeys]
    exact List.sublist_append_right [Input.act (.readClock 130)] [Input.act (.evaluate ⟨1⟩ {})]

end World

end CongestionFabric
