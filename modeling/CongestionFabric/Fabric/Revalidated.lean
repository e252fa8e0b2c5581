import CongestionFabric.Eval.Revalidation
import CongestionFabric.Fabric.GuardedPlans
import CongestionFabric.Fabric.DomainHistory

namespace CongestionFabric

namespace World

open Fabric CongestionEvaluator HysteresisEngine

variable {w w' : World} {es : List (Event World Input)} {domain : DomainId}

/-- Evaluations on evidence that bears a value give a flagged domain its authority back exactly when
they complete a move to another state; confirming the state it has never does. -/
theorem revalidates_iff {requested : CongestionPolicy}
    (haccepted : validatePolicy requested = .ok w.fabric.policy)
    (hauthoritative : isAuthoritative (w.fabric.domainState domain).state = true)
    (hflag : (w.fabric.domainState domain).requiresRevalidation = true)
    (run : Run Step w es w') (hkept : ∀ e ∈ es, ¬e.before.Renews e.input)
    (hdwell : w.fabric.policy.hysteresis.minDwellTicks = 0)
    (hhold : w.fabric.policy.recovery.recoveringHoldTicks = 0)
    (hvalues : ∀ e ∈ evaluations domain es,
      ValueBearing w.fabric.policy (w.fabric.domainState domain) e.input)
    (hticks : CongestionEvaluator.InTime (w.fabric.domainState domain)
      ((evaluations domain es).map fun e => e.input.request.now)) :
    (w'.fabric.domainState domain).authoritative = true ↔
      Moved w.fabric.policy (w.fabric.domainState domain)
        ((evaluations domain es).map (·.input)) :=
  run_revalidates_iff (validatePolicy_accepted haccepted).2 hdwell hhold hauthoritative hflag
    (run_evaluations run hkept).2 hvalues hticks

/-- A domain at WATCH is flagged by a policy that is set once more. -/
def flaggedWorld : World :=
  [.setTopology pairSnapshot, .registerPublisher ⟨1⟩ ⟨1⟩ {}, .ingest (reportNow 100).evidence,
    .evaluate ⟨1⟩ {}, .setPolicy makeDefaultPolicy].foldl act ⟨memoryFabric, [], ∅⟩

/-- The queues of both resources fill up. -/
def fillingBatch : EvidenceBatch :=
  { (reportNow 101).evidence with
    samples := (reportNow 101).evidence.samples.map fun sample : EvidenceSample =>
      { sample with
        sequence := sample.sequence + 10
        metrics := sample.metrics.insert .queueOccupancyPpm 600000 } }

def rising : List Action := [.readClock 101, .ingest fillingBatch, .evaluate ⟨1⟩ {}]

def confirming : List Action :=
  [.readClock 101, .evaluate ⟨1⟩ {}, .readClock 102, .evaluate ⟨1⟩ {}, .readClock 103,
    .evaluate ⟨1⟩ {}]

theorem actEvents_kept (w : World) (actions : List Action)
    (h : ∀ a ∈ actions, ∀ w : World, ¬w.Renews (.act a)) :
    ∀ e ∈ actEvents w actions, ¬e.before.Renews e.input := by
  intro e he
  obtain ⟨a, ha, hinput⟩ := mem_actEvents he
  rw [hinput]
  exact h a ha e.before

set_option maxRecDepth 100000 in
theorem revalidates_iff_rising :
    ((rising.foldl act flaggedWorld).fabric.domainState ⟨1⟩).authoritative = true ∧
    Moved flaggedWorld.fabric.policy (flaggedWorld.fabric.domainState ⟨1⟩)
      ((evaluations ⟨1⟩ (actEvents flaggedWorld rising)).map (·.input)) := by
  have hauthoritative :
      ((rising.foldl act flaggedWorld).fabric.domainState ⟨1⟩).authoritative = true := by
    decide +kernel
  have haccepted : validatePolicy makeDefaultPolicy = .ok flaggedWorld.fabric.policy := by
    decide +kernel
  have hticks : (evaluations ⟨1⟩ (actEvents flaggedWorld rising)).map (·.input.request.now) = [101] := by
    decide +kernel
  have hregressed : tickRegressed (flaggedWorld.fabric.domainState ⟨1⟩) 101 = false := by
    decide +kernel
  refine ⟨hauthoritative, (revalidates_iff haccepted (by decide +kernel) (by decide +kernel)
    (run_acts flaggedWorld rising) (actEvents_kept _ _ ?_) (by decide +kernel) (by decide +kernel)
    (by decide +kernel) ?_).mp hauthoritative⟩
  · simp [rising, Renews]
  · rw [hticks]
    exact ⟨by simpa using hregressed, by simp⟩

set_option maxRecDepth 100000 in
theorem confirmed_domain_stays_flagged : ∃ f es,
    openOn {} 100 {} = .ok f ∧ Run Step ⟨f, [], ∅⟩ es flaggedWorld ∧
    Run Step flaggedWorld (actEvents flaggedWorld confirming) (confirming.foldl act flaggedWorld) ∧
    isAuthoritative (flaggedWorld.fabric.domainState ⟨1⟩).state = true ∧
    (flaggedWorld.fabric.domainState ⟨1⟩).requiresRevalidation = true ∧
    (∀ e ∈ evaluations ⟨1⟩ (actEvents flaggedWorld confirming),
      ValueBearing flaggedWorld.fabric.policy (flaggedWorld.fabric.domainState ⟨1⟩) e.input) ∧
    (evaluations ⟨1⟩ (actEvents flaggedWorld confirming)).map (·.input.request.now) =
      [101, 102, 103] ∧
    max (max (max (max flaggedWorld.fabric.policy.hysteresis.escalateSamples
      flaggedWorld.fabric.policy.hysteresis.deescalateSamples)
      flaggedWorld.fabric.policy.recovery.minImprovedSamples)
      flaggedWorld.fabric.policy.recovery.clearSamples) 2 = 3 ∧
    ((confirming.foldl act flaggedWorld).fabric.domainState ⟨1⟩).authoritative = false := by
  refine ⟨memoryFabric, _, openOn_memory, run_acts _ _, run_acts _ _, ?_⟩
  decide +kernel

end World

end CongestionFabric
