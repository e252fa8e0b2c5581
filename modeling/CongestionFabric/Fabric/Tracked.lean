import CongestionFabric.Fabric.Planned

namespace CongestionFabric

namespace Fabric

variable {f : Fabric} {a : Action} {b b' : Basis}

/-- An action that commits an evaluation invalidates what the evaluation leaves without authority. -/
theorem invalidates_evaluation (h : f.evaluation a = some b') (domain : DomainId) :
    f.invalidates domain a = (b'.domain = domain && !b'.outcome.updated.authoritative) := by
  cases a with
  | evaluate | evaluateRequest | planEvaluate =>
    exact congrArg (Option.any fun b : Basis =>
      decide (b.domain = domain) && !b.outcome.updated.authoritative) h
  | _ => cases h

end Fabric

namespace World

open Fabric

variable {w w' : World} {a : Action} {b : Basis}

/-- What is left of a basis in the fabric: until it is invalidated its epoch, generation and policy
are the present ones and its domain has what it committed or has authority since, and what is fenced
was fenced before or is recorded as fenced since. -/
structure Tracks (f : Fabric) (b : Basis) : Prop where
  kept : b.invalidated = false → f.epoch = b.fabric.epoch ∧
    f.authorityGeneration = b.fabric.authorityGeneration ∧ f.policy = b.fabric.policy ∧
    (f.domainState b.domain = b.outcome.updated ∨ (f.domainState b.domain).authoritative = true)
  fenced : ∀ publisher boot, f.isFenced publisher boot = true →
    b.fabric.isFenced publisher boot = true ∨ (publisher, boot) ∈ b.fencedSince

/-- What a fabric has to leave alone to keep track of every basis. -/
structure SameAuthority (f g : Fabric) : Prop where
  epoch : g.epoch = f.epoch
  generation : g.authorityGeneration = f.authorityGeneration
  policy : g.policy = f.policy
  domains : g.domains = f.domains
  fences : g.fences = f.fences

theorem Tracks.after_same {f g : Fabric} (h : Tracks f b) (hsame : SameAuthority f g)
    (a : Action) : Tracks g (b.after f a) := by
  constructor
  · intro hvalid
    obtain ⟨hvalid, _⟩ := Bool.or_eq_false_iff.mp hvalid
    unfold domainState
    rw [hsame.epoch, hsame.generation, hsame.policy, hsame.domains]
    exact h.kept hvalid
  · intro publisher boot hfenced
    have hfenced : f.isFenced publisher boot = true := by
      unfold isFenced at hfenced ⊢
      rwa [hsame.fences] at hfenced
    rcases h.fenced publisher boot hfenced with hbefore | hsince
    · exact .inl hbefore
    · exact .inr (List.mem_append_left _ hsince)

/-- An action that invalidates leaves only the fences to keep track of. -/
theorem Tracks.after_invalidated {f g : Fabric} (h : Tracks f b)
    (hinvalidates : f.invalidates b.domain a = true)
    (hfences : ∀ publisher boot, g.isFenced publisher boot = true →
      f.isFenced publisher boot = true ∨ (publisher, boot) ∈ f.fencing a) :
    Tracks g (b.after f a) := by
  constructor
  · intro hvalid
    obtain ⟨_, hstill⟩ := Bool.or_eq_false_iff.mp hvalid
    rw [hinvalidates] at hstill
    cases hstill
  · intro publisher boot hfenced
    rcases hfences publisher boot hfenced with hfenced | hnow
    · rcases h.fenced publisher boot hfenced with hbefore | hsince
      · exact .inl hbefore
      · exact .inr (List.mem_append_left _ hsince)
    · exact .inr (List.mem_append_right _ hnow)

theorem Tracks.after_evaluated {f : Fabric} {b' : Basis} (h : Tracks f b)
    (heval : f.evaluation a = some b') {g : Fabric}
    (hsame : SameAuthority (f.commitOutcome b'.domain b'.outcome) g) :
    Tracks g (b.after f a) := by
  constructor
  · intro hvalid
    obtain ⟨hvalid, hstill⟩ := Bool.or_eq_false_iff.mp hvalid
    rw [invalidates_evaluation heval] at hstill
    obtain ⟨hepoch, hgeneration, hpolicy, hdomain⟩ := h.kept hvalid
    refine ⟨hsame.epoch.trans hepoch, hsame.generation.trans hgeneration,
      hsame.policy.trans hpolicy, ?_⟩
    have hstate : g.domainState b.domain =
        (f.domains.insert b'.domain b'.outcome.updated).findD b.domain {} := by
      unfold domainState
      rw [hsame.domains]
      rfl
    show g.domainState b.domain = b.outcome.updated ∨ (g.domainState b.domain).authoritative = true
    rw [hstate]
    unfold SortedMap.findD
    rw [SortedMap.find?_insert]
    by_cases hdomains : b.domain = b'.domain
    · rw [if_pos hdomains]
      refine .inr ?_
      rw [decide_eq_true hdomains.symm, Bool.true_and, Bool.not_eq_false'] at hstill
      exact hstill
    · rw [if_neg hdomains]
      exact hdomain
  · intro publisher boot hfenced
    have hfenced : f.isFenced publisher boot = true := by
      unfold isFenced at hfenced ⊢
      rwa [hsame.fences] at hfenced
    rcases h.fenced publisher boot hfenced with hbefore | hsince
    · exact .inl hbefore
    · exact .inr (List.mem_append_left _ hsince)

/-- A new basis is tracked from its commit on. -/
theorem Tracks.committed {f g : Fabric} (heval : f.evaluation a = some b)
    (hsame : SameAuthority (f.commitOutcome b.domain b.outcome) g) : Tracks g b := by
  obtain ⟨hfabric, _⟩ := evaluation_cases heval
  constructor
  · intro _
    rw [hfabric]
    refine ⟨hsame.epoch, hsame.generation, hsame.policy, .inl ?_⟩
    unfold domainState
    rw [hsame.domains]
    show (f.domains.insert b.domain b.outcome.updated).findD b.domain {} = _
    unfold SortedMap.findD
    rw [SortedMap.find?_insert_self]
    rfl
  · intro publisher boot hfenced
    refine .inl ?_
    rw [hfabric]
    unfold isFenced at hfenced ⊢
    rwa [hsame.fences] at hfenced

/-- Every basis of a world is tracked by its fabric. -/
structure AllTracked (w : World) : Prop where
  pending : ∀ b ∈ w.pending, Tracks w.fabric b
  last : ∀ domain b, w.last.find? domain = some b → Tracks w.fabric b

theorem AllTracked.moved {fabric : Fabric} (h : AllTracked w)
    (hafter : ∀ b, Tracks w.fabric b → Tracks fabric (b.after w.fabric a)) :
    AllTracked (w.moved a fabric) := by
  constructor
  · intro b hb
    obtain ⟨b', hb', rfl⟩ := List.mem_map.mp hb
    exact hafter b' (h.pending b' hb')
  · intro domain b hfind
    have hfind : (w.last.mapVal fun _ b => b.after w.fabric a).find? domain = some b := hfind
    rw [SortedMap.find?_mapVal, Option.map_eq_some_iff] at hfind
    obtain ⟨b', hb', rfl⟩ := hfind
    exact hafter b' (h.last domain b' hb')

theorem AllTracked.publishedAs (h : AllTracked w) {b : Basis}
    (heval : w.fabric.evaluation a = some b) :
    AllTracked (w.publishedAs a
      ((w.fabric.commitOutcome b.domain b.outcome).publish b.domain b.outcome) b) := by
  have hsame : SameAuthority (w.fabric.commitOutcome b.domain b.outcome)
      ((w.fabric.commitOutcome b.domain b.outcome).publish b.domain b.outcome) :=
    ⟨rfl, rfl, rfl, rfl, rfl⟩
  have hmoved : AllTracked (w.moved a
      ((w.fabric.commitOutcome b.domain b.outcome).publish b.domain b.outcome)) :=
    h.moved fun b' hb' => hb'.after_evaluated heval hsame
  refine ⟨hmoved.pending, fun domain b' hfind => ?_⟩
  rcases find?_insertBounded hfind with ⟨rfl, rfl⟩ | hfind
  · exact .committed heval hsame
  · exact hmoved.last domain b' hfind

theorem AllTracked.carriedAs (h : AllTracked w) {b : Basis}
    (heval : w.fabric.evaluation a = some b) :
    AllTracked (w.carriedAs a
      ((w.fabric.commitOutcome b.domain b.outcome).publish b.domain b.outcome) b) := by
  have hpublished := h.publishedAs heval
  refine ⟨fun b' hb' => ?_, hpublished.last⟩
  rcases List.mem_append.mp hb' with hb' | hb'
  · exact hpublished.pending b' hb'
  · rw [List.mem_singleton.mp hb']
    exact .committed heval ⟨rfl, rfl, rfl, rfl, rfl⟩

theorem AllTracked.dropPending (h : AllTracked w) (index : Nat) :
    AllTracked (w.dropPending index) :=
  ⟨fun b hb => h.pending b (List.mem_of_mem_eraseIdx hb), h.last⟩

theorem AllTracked.moved_same (h : AllTracked w) (a : Action) {fabric : Fabric}
    (hsame : SameAuthority w.fabric fabric) : AllTracked (w.moved a fabric) :=
  h.moved fun _ hb => hb.after_same hsame a

theorem Effect.tracked (heffect : Effect w a w') (h : AllTracked w) : AllTracked w' := by
  cases heffect with
  | kept => exact h.moved_same _ ⟨rfl, rfl, rfl, rfl, rfl⟩
  | policy hs =>
    exact h.moved fun b hb => hb.after_invalidated hs fun _ _ hfenced => .inl hfenced
  | topology hs =>
    exact h.moved fun b hb => hb.after_invalidated hs fun _ _ hfenced => .inl hfenced
  | capacity => exact h.moved_same _ ⟨rfl, rfl, rfl, rfl, rfl⟩
  | registered => exact h.moved_same _ ⟨rfl, rfl, rfl, rfl, rfl⟩
  | departed publisher boot detail =>
    refine h.moved_same _ ?_
    unfold forgetPublisher
    split <;> exact ⟨rfl, rfl, rfl, rfl, rfl⟩
  | alive => exact h.moved_same _ ⟨rfl, rfl, rfl, rfl, rfl⟩
  | @fenced _ record hfencing =>
    refine h.moved fun b hb => ⟨fun hvalid => ?_, fun publisher boot hfenced => ?_⟩
    · obtain ⟨hvalid, _⟩ := Bool.or_eq_false_iff.mp hvalid
      have hkept := hb.kept hvalid
      unfold Fabric.fenced noteFence dropEvidence forgetPublisher domainState
      split <;> exact hkept
    · rcases (isFenced_fenced w.fabric record publisher boot).mp hfenced with hfenced | hnow
      · rcases hb.fenced publisher boot hfenced with hbefore | hsince
        · exact .inl hbefore
        · exact .inr (List.mem_append_left _ hsince)
      · refine .inr (List.mem_append_right _ ?_)
        rw [hfencing, hnow]
        exact List.mem_singleton_self _
  | ingested batch =>
    obtain ⟨publishers, evidence, he⟩ := ingestAll_eq batch.samples w.fabric {}
    refine h.moved_same _ ?_
    rw [he]
    exact ⟨rfl, rfl, rfl, rfl, rfl⟩
  | evaluated heval =>
    exact h.moved fun b hb => hb.after_evaluated heval ⟨rfl, rfl, rfl, rfl, rfl⟩
  | published heval => exact h.publishedAs heval
  | carried heval => exact h.carriedAs heval
  | dropped index =>
    exact (h.moved_same (.planCommit index) ⟨rfl, rfl, rfl, rfl, rfl⟩).dropPending index
  | @planned index b plan =>
    have hmoved : AllTracked (w.moved (.planCommit index) (w.fabric.withPlan b.domain plan)) :=
      h.moved_same _ ⟨rfl, rfl, rfl, rfl, rfl⟩
    exact hmoved.dropPending index
  | plannedLast => exact h.moved_same _ ⟨rfl, rfl, rfl, rfl, rfl⟩
  | @epoch reason hs =>
    refine h.moved fun b hb => hb.after_invalidated hs fun publisher boot hfenced => ?_
    rcases (isFenced_nextEpoch w.fabric reason).mp hfenced with hfenced | hnow
    · exact .inl hfenced
    · refine .inr ?_
      rw [fencing, if_pos hs]
      exact hnow
  | closed => exact h.moved_same _ ⟨rfl, rfl, rfl, rfl, rfl⟩
  | clock => exact h.moved_same _ ⟨rfl, rfl, rfl, rfl, rfl⟩

theorem Step.tracked {i : Input} (hstep : Step w i w') (h : AllTracked w) : AllTracked w' := by
  cases hstep with
  | act a =>
    obtain ⟨moved, store, heffect, he⟩ := act_effect w a
    have htracked := heffect.tracked h
    rw [he]
    refine ⟨fun b hb => ?_, fun domain b hb => ?_⟩
    · exact ⟨(htracked.pending b hb).kept, (htracked.pending b hb).fenced⟩
    · exact ⟨(htracked.last domain b hb).kept, (htracked.last domain b hb).fenced⟩
  | restart hopen => exact ⟨by simp, by simp⟩

theorem run_tracked {f : Fabric} {es : List (Event World Input)}
    (run : Run Step ⟨f, [], ∅⟩ es w) :
    (∀ e ∈ es, AllTracked e.before) ∧ AllTracked w := by
  have hstart : AllTracked ⟨f, [], ∅⟩ := ⟨by simp, by simp⟩
  have hstep : ∀ s i s', AllTracked s → Step s i s' → AllTracked s' :=
    fun _ _ _ hs hstep => hstep.tracked hs
  exact ⟨fun e he => (run.invariant_at hstart hstep he).1, run.invariant hstart hstep⟩

theorem AllTracked.basis (h : AllTracked w) (hb : w.basisOf a = some b) : Tracks w.fabric b := by
  cases a with
  | planCommit index => exact h.pending b (List.mem_of_getElem? hb)
  | planLast domain => exact h.last domain b hb
  | _ => cases hb

end World

end CongestionFabric
