import CongestionFabric.Fabric.Enacted
import CongestionFabric.Fabric.FenceSafety

namespace CongestionFabric

theorem SortedMap.eraseFirst_mapVal {κ α β : Type} [LinearOrder κ] (m : SortedMap κ α)
    (f : κ → α → β) : (m.mapVal f).eraseFirst = m.eraseFirst.mapVal f := by
  unfold SortedMap.eraseFirst SortedMap.mapVal
  congr 1
  exact List.map_tail.symm

namespace Fabric

theorem insertBounded_mapVal {α β : Type} (bound : Nat) (m : SortedMap DomainId α)
    (f : DomainId → α → β) (domain : DomainId) (value : α) :
    insertBounded bound (m.mapVal f) domain (f domain value) =
      (insertBounded bound m domain value).mapVal f := by
  unfold insertBounded SortedMap.contains
  rw [SortedMap.size_mapVal, SortedMap.find?_mapVal, Option.isSome_map,
    SortedMap.mapVal_insert]
  split
  · rw [SortedMap.eraseFirst_mapVal]
  · rfl

/-- A key found after a bounded insertion is the one inserted, or was there before. -/
theorem find?_insertBounded {α : Type} {bound : Nat} {m : SortedMap DomainId α}
    {domain domain' : DomainId} {value value' : α}
    (h : (insertBounded bound m domain value).find? domain' = some value') :
    (domain' = domain ∧ value' = value) ∨ m.find? domain' = some value' := by
  unfold insertBounded at h
  rw [SortedMap.find?_insert] at h
  split at h
  next heq => exact .inl ⟨heq, (Option.some.inj h).symm⟩
  next =>
    refine .inr ?_
    split at h
    · exact SortedMap.mem_entries_iff.mp (List.mem_of_mem_tail (SortedMap.mem_entries_iff.mpr h))
    · exact h

/-- The outcome of a basis is what the evaluator made of its batch in its fabric. -/
def Basis.Committed (b : Basis) : Prop := b.fabric.assessDomain b.domain b.batch = .ok b.outcome

theorem Basis.Committed.domain_eq {b : Basis} (h : b.Committed) : b.outcome.domain = b.domain := by
  obtain ⟨_, _, _, _, _, _, _, _, houtcome⟩ := CongestionEvaluator.evaluate_ok h
  rw [houtcome]
  rfl

end Fabric

namespace World

open Fabric

/-- The evaluation a planning action plans from. -/
def basisOf (w : World) : Action → Option Basis
  | .planCommit index => w.pending[index]?
  | .planLast domain => w.last.find? domain
  | _ => none

/-- The plan a planning action returns. -/
def planned (w : World) : Action → Option InterventionPlan
  | .planCommit index =>
    w.pending[index]?.bind fun b => (w.fabric.planCommit b.domain b.outcome).2.toOption
  | .planLast domain => (w.fabric.planLast domain).2.toOption
  | _ => none

/-- Every basis is a committed evaluation, and the cached outcomes are those of the last bases. -/
structure Based (w : World) : Prop where
  pending : ∀ b ∈ w.pending, b.Committed
  last : ∀ domain b, w.last.find? domain = some b → b.Committed ∧ b.domain = domain
  cached : w.fabric.lastOutcomes = w.last.mapVal fun _ b => b.outcome

variable {w w' : World} {a : Action}

theorem evaluation_committed {f : Fabric} {b : Basis} (h : f.evaluation a = some b) :
    b.Committed := by
  obtain ⟨rfl, _, _, ⟨token, houtcome⟩, _⟩ := evaluation_cases h
  exact outcomeOf_ok houtcome

theorem Based.moved (h : Based w) (a : Action) {fabric : Fabric}
    (hcached : fabric.lastOutcomes = w.fabric.lastOutcomes) : Based (w.moved a fabric) := by
  constructor
  · intro b hb
    obtain ⟨b', hb', rfl⟩ := List.mem_map.mp hb
    exact h.pending b' hb'
  · intro domain b hfind
    have hfind : (w.last.mapVal fun _ b => b.after w.fabric a).find? domain = some b := hfind
    rw [SortedMap.find?_mapVal, Option.map_eq_some_iff] at hfind
    obtain ⟨b', hb', rfl⟩ := hfind
    exact h.last domain b' hb'
  · show fabric.lastOutcomes = (w.last.mapVal fun _ b => b.after w.fabric a).mapVal _
    rw [hcached, h.cached]
    ext domain outcome
    rw [SortedMap.find?_mapVal, SortedMap.find?_mapVal, SortedMap.find?_mapVal, Option.map_map]
    rfl

theorem Based.publishedAs (h : Based w) {b : Basis} (hb : w.fabric.evaluation a = some b) :
    Based (w.publishedAs a ((w.fabric.commitOutcome b.domain b.outcome).publish b.domain b.outcome)
      b) := by
  have hmoved : Based (w.moved a w.fabric) := h.moved a rfl
  constructor
  · exact hmoved.pending
  · intro domain b' hfind
    rcases find?_insertBounded hfind with ⟨rfl, rfl⟩ | hfind
    · exact ⟨evaluation_committed hb, rfl⟩
    · exact hmoved.last domain b' hfind
  · have hcached : insertBounded w.fabric.options.maxExplanations w.fabric.lastOutcomes b.domain
        b.outcome = (insertBounded w.fabric.options.maxExplanations (w.moved a w.fabric).last
          b.domain b).mapVal fun _ b => b.outcome := by
      rw [← insertBounded_mapVal, ← hmoved.cached]
      rfl
    exact hcached

theorem Based.carriedAs (h : Based w) {b : Basis} (hb : w.fabric.evaluation a = some b) :
    Based (w.carriedAs a ((w.fabric.commitOutcome b.domain b.outcome).publish b.domain b.outcome)
      b) := by
  have hpublished := h.publishedAs hb
  refine ⟨fun b' hb' => ?_, hpublished.last, hpublished.cached⟩
  rcases List.mem_append.mp hb' with hb' | hb'
  · exact hpublished.pending b' hb'
  · rw [List.mem_singleton.mp hb']
    exact evaluation_committed hb

theorem Based.dropPending (h : Based w) (index : Nat) : Based (w.dropPending index) :=
  ⟨fun b hb => h.pending b (List.mem_of_mem_eraseIdx hb), h.last, h.cached⟩

theorem Effect.based (heffect : Effect w a w') (h : Based w) : Based w' := by
  cases heffect with
  | kept => exact h.moved _ rfl
  | policy => exact h.moved _ rfl
  | topology => exact h.moved _ rfl
  | capacity => exact h.moved _ rfl
  | registered => exact h.moved _ rfl
  | departed publisher boot detail =>
    refine h.moved _ ?_
    unfold forgetPublisher
    split <;> rfl
  | alive => exact h.moved _ rfl
  | @fenced _ record =>
    refine h.moved _ ?_
    show (w.fabric.forgetPublisher record.publisher record.boot).lastOutcomes = _
    unfold forgetPublisher
    split <;> rfl
  | ingested batch =>
    obtain ⟨publishers, evidence, he⟩ := ingestAll_eq batch.samples w.fabric {}
    exact h.moved _ (by rw [he])
  | evaluated => exact h.moved _ rfl
  | published hb => exact h.publishedAs hb
  | carried hb => exact h.carriedAs hb
  | dropped index => exact (h.moved _ rfl).dropPending index
  | @planned index b plan =>
    have hmoved : Based (w.moved (.planCommit index) (w.fabric.withPlan b.domain plan)) :=
      h.moved _ rfl
    exact hmoved.dropPending index
  | plannedLast => exact h.moved _ rfl
  | @epoch reason _ =>
    obtain ⟨fences, he⟩ := nextEpoch_eq w.fabric reason
    exact h.moved _ (by rw [he])
  | closed => exact h.moved _ rfl
  | clock => exact h.moved _ rfl

theorem Step.based {i : Input} (hstep : Step w i w') (h : Based w) : Based w' := by
  cases hstep with
  | act a =>
    obtain ⟨moved, store, heffect, he⟩ := act_effect w a
    rw [he]
    exact ⟨(heffect.based h).pending, (heffect.based h).last, (heffect.based h).cached⟩
  | restart hopen =>
    obtain ⟨_, _, hopened⟩ := openOn_ok hopen
    refine ⟨by simp, by simp, ?_⟩
    rw [hopened.lastOutcomes]
    rfl

theorem run_based {options : FabricOptions} {clock : Tick} {disk : Disk} {f : Fabric}
    {es : List (Event World Input)} (hopen : openOn options clock disk = .ok f)
    (run : Run Step ⟨f, [], ∅⟩ es w) : (∀ e ∈ es, Based e.before) ∧ Based w := by
  obtain ⟨_, _, hopened⟩ := openOn_ok hopen
  have hstart : Based ⟨f, [], ∅⟩ := by
    refine ⟨by simp, by simp, ?_⟩
    show f.lastOutcomes = _
    rw [hopened.lastOutcomes]
    rfl
  have hstep : ∀ s i s', Based s → Step s i s' → Based s' := fun _ _ _ hs hstep => hstep.based hs
  exact ⟨fun e he => (run.invariant_at hstart hstep he).1, run.invariant hstart hstep⟩

theorem Based.basis (h : Based w) {b : Basis} (hb : w.basisOf a = some b) : b.Committed := by
  cases a with
  | planCommit index => exact h.pending b (List.mem_of_getElem? hb)
  | planLast domain => exact (h.last domain b hb).1
  | _ => cases hb

theorem planOutcome_planned {f : Fabric} {domain : DomainId} {outcome : EvaluationOutcome}
    {plan : InterventionPlan} (h : (f.planOutcome domain outcome).2.toOption = some plan) :
    InterventionPlanner.plan outcome f.planningContext (f.activeIntents domain) = .ok plan := by
  rcases planOutcome_cases (f := f) domain outcome with ⟨store, status, he⟩ | ⟨plan', store, hp, he⟩
  · rw [he] at h
    cases h
  · rw [he] at h
    obtain rfl := Option.some.inj h
    exact hp

/-- A plan that is returned was made from a committed evaluation. -/
theorem planned_basis (h : Based w) {plan : InterventionPlan} (hplan : w.planned a = some plan) :
    ∃ b, w.basisOf a = some b ∧ b.Committed ∧
      InterventionPlanner.plan b.outcome w.fabric.planningContext
        (w.fabric.activeIntents b.domain) = .ok plan := by
  cases a with
  | planCommit index =>
    obtain ⟨b, hb, hplan⟩ := Option.bind_eq_some_iff.mp hplan
    refine ⟨b, hb, h.pending b (List.mem_of_getElem? hb), ?_⟩
    unfold planCommit checked at hplan
    split at hplan
    · cases hplan
    · exact planOutcome_planned hplan
  | planLast domain =>
    change (w.fabric.planLast domain).2.toOption = some plan at hplan
    unfold planLast checked at hplan
    split at hplan
    · cases hplan
    · rw [h.cached, SortedMap.find?_mapVal] at hplan
      cases hlast : w.last.find? domain with
      | none =>
        rw [hlast] at hplan
        cases hplan
      | some b =>
        obtain ⟨hcommitted, rfl⟩ := h.last domain b hlast
        rw [hlast] at hplan
        exact ⟨b, hlast, hcommitted, planOutcome_planned hplan⟩
  | _ => cases hplan

end World

end CongestionFabric
