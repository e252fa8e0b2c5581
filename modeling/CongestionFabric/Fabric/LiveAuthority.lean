import CongestionFabric.Fabric.RestartRefinement
import Mathlib.Data.Prod.Lex

namespace CongestionFabric

namespace Fabric

variable {f g : Fabric} {domain : DomainId} {intent : InterventionIntent}

/-- Where the authority of a fabric stands: its epoch, and the generation in the epoch. -/
def rank (f : Fabric) : ℕ ×ₗ ℕ :=
  toLex (f.epoch.value.toNat, f.authorityGeneration.value.toNat)

/-- What the intents of a fabric are bound to. -/
structure SameStanding (f g : Fabric) : Prop where
  epoch : g.epoch = f.epoch
  generation : g.authorityGeneration = f.authorityGeneration
  policy : g.policy = f.policy

theorem SameStanding.boundTo (h : SameStanding f g) (intent : InterventionIntent) :
    intent.boundTo g.authorityVector = intent.boundTo f.authorityVector := by
  unfold InterventionIntent.boundTo authorityVector
  rw [h.epoch, h.generation, h.policy]

theorem SameStanding.rank (h : SameStanding f g) : g.rank = f.rank := by
  unfold Fabric.rank
  rw [h.epoch, h.generation]

/-- Intents bound to two authority vectors stand in one place. -/
theorem rank_eq_of_boundTo (hf : intent.boundTo f.authorityVector = true)
    (hg : intent.boundTo g.authorityVector = true) : f.rank = g.rank := by
  simp only [InterventionIntent.boundTo, Bool.and_eq_true, decide_eq_true_eq] at hf hg
  obtain ⟨⟨⟨hepoch, hgeneration⟩, _⟩, _⟩ := hf
  obtain ⟨⟨⟨hepoch', hgeneration'⟩, _⟩, _⟩ := hg
  have hepochs : f.epoch = g.epoch := hepoch.symm.trans hepoch'
  have hgenerations : f.authorityGeneration = g.authorityGeneration :=
    hgeneration.symm.trans hgeneration'
  unfold rank
  rw [hepochs, hgenerations]

theorem rank_lt_of_epoch (h : f.epoch.value.toNat < g.epoch.value.toNat) : f.rank < g.rank :=
  Prod.Lex.toLex_lt_toLex.mpr (.inl h)

theorem rank_lt_of_generation (hepoch : g.epoch = f.epoch)
    (h : f.authorityGeneration.value.toNat < g.authorityGeneration.value.toNat) :
    f.rank < g.rank := by
  refine Prod.Lex.toLex_lt_toLex.mpr (.inr ⟨?_, h⟩)
  rw [hepoch]

/-- Every outstanding intent is bound to the live authority vector. -/
def LiveIntents (f : Fabric) : Prop :=
  ∀ domain, ∀ intent ∈ f.activeIntents domain, intent.boundTo f.authorityVector = true

theorem LiveIntents.of_empty (h : f.intents = ∅) : f.LiveIntents := by
  intro domain intent hintent
  rw [activeIntents, h] at hintent
  exact absurd hintent List.not_mem_nil

/-- The counters of a fabric can advance once more. -/
structure Counted (f : Fabric) : Prop where
  epoch : f.epoch.value.toNat + 1 < 2 ^ 64
  generation : f.authorityGeneration.value.toNat + 1 < 2 ^ 64

theorem toNat_add_one {v : UInt64} (h : v.toNat + 1 < 2 ^ 64) : (v + 1).toNat = v.toNat + 1 := by
  have hone : (1 : UInt64).toNat = 1 := rfl
  rw [UInt64.toNat_add, hone, Nat.mod_eq_of_lt h]

/-- The authority of a fabric is renewed: it stands later, and no intent is outstanding. -/
structure Renewed (f g : Fabric) : Prop where
  intents : g.intents = ∅
  later : f.Counted → f.rank < g.rank

theorem renewed_invalidate (hepoch : g.epoch = f.epoch)
    (hgeneration : g.authorityGeneration = f.authorityGeneration) :
    Renewed f g.invalidateGenerations := by
  refine ⟨rfl, fun hcounted => rank_lt_of_generation hepoch ?_⟩
  change _ < (g.authorityGeneration.value + 1).toNat
  rw [hgeneration, toNat_add_one hcounted.generation]
  exact Nat.lt_succ_self _

theorem renewed_nextEpoch (f : Fabric) (reason : FenceReason) :
    Renewed f (f.nextEpoch reason) := by
  obtain ⟨fences, he⟩ := nextEpoch_eq f reason
  rw [he]
  refine ⟨rfl, fun hcounted => rank_lt_of_epoch ?_⟩
  change _ < (f.epoch.value + 1).toNat
  rw [toNat_add_one hcounted.epoch]
  exact Nat.lt_succ_self _

/-- The authority of a fabric stays, and its intents are old ones or bound to it. -/
structure Stands (f g : Fabric) : Prop extends SameStanding f g where
  intents : ∀ domain, ∀ intent ∈ g.activeIntents domain,
    intent ∈ f.activeIntents domain ∨ intent.boundTo f.authorityVector = true

theorem Stands.of_intents (h : SameStanding f g) (hintents : g.intents = f.intents) :
    Stands f g := by
  refine ⟨h, fun domain intent hintent => .inl ?_⟩
  rwa [activeIntents, hintents] at hintent

theorem Stands.live (h : Stands f g) (hf : f.LiveIntents) : g.LiveIntents := by
  intro domain intent hintent
  rw [h.boundTo]
  rcases h.intents domain intent hintent with hold | hbound
  · exact hf domain intent hold
  · exact hbound

theorem stands_fenced (f : Fabric) (record : FenceRecord) : Stands f (f.fenced record) := by
  unfold fenced forgetPublisher
  split <;> exact .of_intents ⟨rfl, rfl, rfl⟩ rfl

theorem stands_commitOutcome (f : Fabric) (domain : DomainId) (outcome : EvaluationOutcome) :
    Stands f (f.commitOutcome domain outcome) := by
  refine ⟨⟨rfl, rfl, rfl⟩, fun k intent hintent => .inl ?_⟩
  unfold commitOutcome activeIntents at hintent
  dsimp only at hintent
  split at hintent
  next => exact hintent
  next =>
    unfold SortedMap.findD at hintent
    rw [SortedMap.find?_erase] at hintent
    split_ifs at hintent with hk
    · exact absurd hintent List.not_mem_nil
    · exact hintent

theorem stands_withPlan (f : Fabric) (domain : DomainId) (plan : InterventionPlan) :
    Stands f (f.withPlan domain plan) := by
  refine ⟨⟨rfl, rfl, rfl⟩, fun k intent hintent => ?_⟩
  rcases withPlan_intents hintent with hold | hbound
  · exact .inl hold
  · exact .inr (List.mem_filter.mp hbound).2

end Fabric

namespace World

open Fabric

variable {w w' : World} {a : Action} {es es' : List (Event World Input)} {options : FabricOptions}
  {clock : Tick} {disk : Disk} {f : Fabric} {i : Input}

theorem Effect.authority (h : Effect w a w') :
    Stands w.fabric w'.fabric ∨ Renewed w.fabric w'.fabric := by
  cases h with
  | policy | topology => exact .inr (renewed_invalidate rfl rfl)
  | epoch => exact .inr (renewed_nextEpoch _ _)
  | fenced => exact .inl (stands_fenced _ _)
  | evaluated => exact .inl (stands_commitOutcome _ _ _)
  | @published _ b | @carried _ b =>
    have h := stands_commitOutcome w.fabric b.domain b.outcome
    exact .inl ⟨⟨rfl, rfl, rfl⟩, h.intents⟩
  | planned | plannedLast => exact .inl (stands_withPlan _ _ _)
  | departed publisher boot =>
    refine .inl ?_
    change Stands w.fabric (w.fabric.forgetPublisher publisher boot)
    unfold forgetPublisher
    split <;> exact .of_intents ⟨rfl, rfl, rfl⟩ rfl
  | ingested batch =>
    obtain ⟨publishers, evidence, he⟩ := ingestAll_eq batch.samples w.fabric {}
    refine .inl ?_
    change Stands w.fabric (batch.samples.foldl ingestSample (w.fabric, {})).1
    rw [he]
    exact .of_intents ⟨rfl, rfl, rfl⟩ rfl
  | kept | capacity | registered | alive | dropped | closed | clock =>
    exact .inl (.of_intents ⟨rfl, rfl, rfl⟩ rfl)

/-- An input that renews the authority: a policy or a topology that is installed, an epoch, or a
new process. -/
def Renews (w : World) : Input → Prop
  | .act (.setPolicy policy) => (w.fabric.stagePolicy policy).isOk = true
  | .act (.setTopology topology) => (w.fabric.stageTopology topology).isOk = true
  | .act (.advanceEpoch reason) => (w.fabric.stageEpoch reason).isOk = true
  | .act _ => False
  | .restart _ _ _ => True

theorem enact_renews (a : Action) (kind : ProvenanceKind) {staged : Result Staged} (hok : staged.isOk = true)
    (hs : ∀ s, staged = .ok s → Renewed w.fabric s.fabric) :
    (w.moved a (w.fabric.enact staged kind).1).fabric.intents = ∅ ∧
      (w.fabric.Counted → w.fabric.rank < (w.moved a (w.fabric.enact staged kind).1).fabric.rank) := by
  rcases enact_cases (f := w.fabric) staged kind with ⟨_, he, _⟩ | ⟨s, store, result, hs', he⟩
  · rw [he] at hok
    cases hok
  · obtain ⟨hintents, hlater⟩ := hs s hs'
    rw [he]
    exact ⟨hintents, hlater⟩

theorem act_renews (h : w.Renews (.act a)) : Renewed w.fabric (w.act a).fabric := by
  cases a with
  | setPolicy policy =>
    obtain ⟨hintents, hlater⟩ := enact_renews (.setPolicy policy) .localPolicy h
      fun s hs => by
        obtain ⟨accepted, _, rfl⟩ := stagePolicy_ok hs
        exact renewed_invalidate rfl rfl
    exact ⟨hintents, hlater⟩
  | setTopology topology =>
    obtain ⟨hintents, hlater⟩ := enact_renews (.setTopology topology) .localPolicy h
      fun s hs => by
        obtain ⟨index, _, rfl⟩ := stageTopology_ok hs
        exact renewed_invalidate rfl rfl
    exact ⟨hintents, hlater⟩
  | advanceEpoch reason =>
    obtain ⟨hintents, hlater⟩ := enact_renews (.advanceEpoch reason) .epochAdvance h
      fun s hs => by
        rw [stageEpoch_ok hs]
        exact renewed_nextEpoch _ _
    exact ⟨hintents, hlater⟩
  | _ => exact h.elim

theorem act_rank (hcounted : w.fabric.Counted) (a : Action) :
    w.fabric.rank ≤ (w.act a).fabric.rank := by
  obtain ⟨w', store, heffect, he⟩ := act_effect w a
  have hrank : (w.act a).fabric.rank = w'.fabric.rank := by
    rw [he]
    rfl
  rw [hrank]
  rcases heffect.authority with hstands | hrenewed
  · exact le_of_eq hstands.rank.symm
  · exact le_of_lt (hrenewed.later hcounted)

theorem Step.live (hstep : Step w i w') (hw : w.fabric.LiveIntents) : w'.fabric.LiveIntents := by
  cases hstep with
  | act a =>
    obtain ⟨w', store, heffect, he⟩ := act_effect w a
    have hlive : w'.fabric.LiveIntents := by
      rcases heffect.authority with hstands | hrenewed
      · exact hstands.live hw
      · exact .of_empty hrenewed.intents
    rw [he]
    exact hlive
  | restart hopen =>
    obtain ⟨_, _, hopened⟩ := openOn_ok hopen
    exact .of_empty hopened.intents

/-- Restarts come after operations that settled, on the directory the run found empty. -/
def Reopens (options : FabricOptions) (disk : Disk) (es : List (Event World Input)) : Prop :=
  ∀ es₁ e es₂, es = es₁ ++ e :: es₂ → (∀ a, e.input ≠ .act a) →
    options.durable = true ∧ disk = {} ∧ ∀ e' ∈ es₁ ++ [e], e'.before.Continues e'.input

/-- One event of a run keeps the rank, or raises it. -/
theorem event_rank (hopen : openOn options clock disk = .ok f)
    (run : Run Step ⟨f, [], ∅⟩ es w) (hreopens : Reopens options disk es)
    (hcounted : ∀ e ∈ es, e.before.fabric.Counted) : ∀ e ∈ es,
    e.before.fabric.rank ≤ e.after.fabric.rank ∧
      (e.before.Renews e.input → e.before.fabric.rank < e.after.fabric.rank) := by
  intro e he
  obtain ⟨es₁, es₂, hsplit⟩ := List.append_of_mem he
  have hcount := hcounted e he
  subst hsplit
  obtain ⟨w₁, run₁, run₂⟩ := run.split
  have hrun : Run Step ⟨f, [], ∅⟩ es₁ e.before := by
    have hrun := run
    rw [List.append_cons] at hrun
    obtain ⟨_, hrun, _⟩ := hrun.split
    exact hrun.snoc_inv.1
  have hstep := run.mem_step he
  obtain ⟨before, input, after⟩ := e
  dsimp only at hcount hstep hrun ⊢
  cases hstep with
  | act a => exact ⟨act_rank hcount a, fun h => (act_renews h).later hcount⟩
  | @restart options' clock' disk' fabric hopen' =>
    obtain ⟨hdurable, rfl, hcontinues⟩ := hreopens es₁ _ es₂ rfl fun a ha => nomatch ha
    obtain ⟨store, ledger, hjournaled⟩ := journaled_run hdurable hopen hrun fun e' he' =>
      hcontinues e' (List.mem_append_left _ he')
    obtain ⟨hdurable', rfl⟩ : options'.durable = true ∧ disk' = before.fabric.disk :=
      hcontinues _ (List.mem_append_right _ List.mem_cons_self)
    obtain ⟨_, _, _, _, _, _, _, hnext, _⟩ := Journaled.opened hdurable' hopen'
      (fun _ hsecond => disk_reopens hjournaled options'.store hsecond)
      (hjournaled.epoch ▸ hjournaled.epochs)
    have hlt : before.fabric.rank < fabric.rank := by
      refine rank_lt_of_epoch ?_
      rw [hnext, hjournaled.epoch]
      exact Nat.lt_succ_self _
    exact ⟨le_of_lt hlt, fun _ => hlt⟩

/-- The outstanding intents of a run are bound to the live authority, which no event takes back and
every renewal raises; an intent bound before a renewal is bound to no authority after it. -/
theorem live_authority (hopen : openOn options clock disk = .ok f)
    (run : Run Step ⟨f, [], ∅⟩ es w) :
    (∀ domain, ∀ intent ∈ w.fabric.activeIntents domain,
      intent.boundTo w.fabric.authorityVector = true) ∧
    (Reopens options disk es → (∀ e ∈ es, e.before.fabric.Counted) →
      (∀ e ∈ es, e.before.fabric.rank ≤ e.after.fabric.rank ∧
        (e.before.Renews e.input → e.before.fabric.rank < e.after.fabric.rank)) ∧
      ∀ es₁ e es₂, es = es₁ ++ e :: es₂ → e.before.Renews e.input → ∀ e' ∈ es₁ ++ [e],
        ∀ intent : InterventionIntent, intent.boundTo e'.before.fabric.authorityVector = true →
          intent.boundTo w.fabric.authorityVector = false) := by
  constructor
  · refine run.invariant ?_ fun _ _ _ hw hstep => hstep.live hw
    obtain ⟨_, _, hopened⟩ := openOn_ok hopen
    exact .of_empty hopened.intents
  · intro hreopens hcounted
    have hrank := event_rank hopen run hreopens hcounted
    refine ⟨hrank, fun es₁ e es₂ hsplit hrenews e' he' intent hbound => ?_⟩
    subst hsplit
    have hmem : e ∈ es₁ ++ e :: es₂ := List.mem_append_right _ List.mem_cons_self
    have hlast := (run.rank_le (fun w => w.fabric.rank) (fun e he => (hrank e he).1) e hmem).2
    have hlt := (hrank e hmem).2 hrenews
    have hfirst : e'.before.fabric.rank ≤ e.before.fabric.rank := by
      have hprefix := run
      rw [List.append_cons] at hprefix
      obtain ⟨_, hprefix, _⟩ := hprefix.split
      obtain ⟨hrun, _, _⟩ := hprefix.snoc_inv
      rcases List.mem_append.mp he' with he' | he'
      · exact (hrun.rank_le (fun w => w.fabric.rank)
          (fun e he => (hrank e (List.mem_append_left _ he)).1) e' he').1
      · rw [List.mem_singleton.mp he']
    refine Bool.eq_false_iff.mpr fun hbound' => ?_
    have hsame := rank_eq_of_boundTo hbound hbound'
    exact absurd (hfirst.trans_lt (hlt.trans_le hlast)) (by rw [hsame]; exact lt_irrefl _)

set_option maxRecDepth 100000 in
theorem settledEvents_counted :
    (∀ e ∈ settledEvents, e.before.fabric.epoch.value.toNat + 1 < 2 ^ 64 ∧
      e.before.fabric.authorityGeneration.value.toNat + 1 < 2 ^ 64) ∧
    settledWorld.fabric.epoch.value.toNat + 1 < 2 ^ 64 ∧
      settledWorld.fabric.authorityGeneration.value.toNat + 1 < 2 ^ 64 := by
  decide +kernel

/-- The next process opens what the last one left. -/
def succession (f' : Fabric) : Event World Input :=
  ⟨settledWorld, .restart durably 1 settledWorld.fabric.disk, ⟨f', [], ∅⟩⟩

/-- Two intents are outstanding when a process ends. They are bound to its authority, which stands later
in the next process, where they are bound to none. -/
theorem live_authority_restarted : ∃ f', openOn durably 1 settledWorld.fabric.disk = .ok f' ∧
    settledWorld.fabric.rank < f'.rank ∧
    (settledWorld.fabric.activeIntents ⟨1⟩).length = 2 ∧
    ∀ intent ∈ settledWorld.fabric.activeIntents ⟨1⟩,
      intent.boundTo settledWorld.fabric.authorityVector = true ∧
      intent.boundTo f'.authorityVector = false := by
  obtain ⟨f', hf'⟩ := settledWorld_opens
  have run : Run Step ⟨durableFabric, [], ∅⟩ (settledEvents ++ [succession f']) ⟨f', [], ∅⟩ :=
    settled_run.next (.restart hf')
  have hcontinues : ∀ e ∈ settledEvents ++ [succession f'], e.before.Continues e.input :=
    List.forall_mem_append.mpr ⟨settledEvents_continue, List.forall_mem_singleton.mpr ⟨rfl, rfl⟩⟩
  have hreopens : Reopens durably {} (settledEvents ++ [succession f']) := by
    intro es₁ e es₂ hsplit _
    refine ⟨rfl, rfl, fun e' he' => hcontinues e' ?_⟩
    rw [hsplit, List.append_cons]
    exact List.mem_append_left _ he'
  have hcounted : ∀ e ∈ settledEvents ++ [succession f'], e.before.fabric.Counted := by
    obtain ⟨hbefore, hepoch, hgeneration⟩ := settledEvents_counted
    exact List.forall_mem_append.mpr ⟨fun e he => ⟨(hbefore e he).1, (hbefore e he).2⟩,
      List.forall_mem_singleton.mpr ⟨hepoch, hgeneration⟩⟩
  have hlive := (live_authority openOn_durable settled_run).1 ⟨1⟩
  obtain ⟨hranks, hunbound⟩ := (live_authority openOn_durable run).2 hreopens hcounted
  have hmem : succession f' ∈ settledEvents ++ [succession f'] :=
    List.mem_append_right _ (List.mem_singleton_self _)
  refine ⟨f', hf', (hranks _ hmem).2 trivial, settledWorld_holds.2.2.2.2, ?_⟩
  exact fun intent hi => ⟨hlive intent hi,
    hunbound settledEvents _ [] rfl trivial _ hmem intent (hlive intent hi)⟩

end World

end CongestionFabric
