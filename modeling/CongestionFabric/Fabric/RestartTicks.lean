import CongestionFabric.Durability.BadSnapshot
import CongestionFabric.Durability.Checkpoint
import CongestionFabric.Eval.LeavingStale
import CongestionFabric.Fabric.DomainHistory
import CongestionFabric.Fabric.FreshBasis
import CongestionFabric.Fabric.RestartRefinement
import CongestionFabric.Fabric.Window

namespace CongestionFabric

namespace Store

open DurableDocument

variable {options : StoreOptions} {disk : Disk} {store : Store}

theorem loadRecords_normal (records : List JournalRecord) (acc : DurableDocument × StoreReplay)
    (h : Normal acc.1) : Normal (loadRecords records acc).1 := by
  induction records generalizing acc with
  | nil => exact h
  | cons record rest ih =>
    obtain ⟨document, report⟩ := acc
    unfold loadRecords
    split
    next => exact h
    next =>
      split
      next => exact h
      next happly => exact ih _ (h.apply happly)

/-- Every document that is opened is normal. -/
theorem openDisk_normal (h : openDisk disk options = .ok store) : Normal store.document := by
  obtain ⟨document, report, journal, replay, hload, hreadable⟩ := openDisk_refused h
  obtain ⟨found, hfound, hdocument, _⟩ := openDisk_loaded hload hreadable
  obtain rfl := Except.ok.inj (h.symm.trans hfound)
  have hbase : Normal document := by
    unfold loadSnapshot at hload
    split at hload
    next =>
      cases hload
      exact .empty
    next =>
      dsimp only at hload
      split at hload
      next =>
        split at hload
        · cases hload
          exact .empty
        · cases hload
      next contents _ =>
        obtain ⟨rfl, _⟩ := Prod.mk.inj (Except.ok.inj hload)
        have hempty := Normal.empty
        exact loadRecords_normal _ _ ⟨hempty.policy, hempty.keyed, hempty.interventions,
          hempty.fences, hempty.provenance⟩
  have hreplayed := replayFrom_normal hbase replay.records
  rw [hdocument]
  exact ⟨hreplayed.policy, hreplayed.keyed, hreplayed.interventions, hreplayed.fences,
    hreplayed.provenance⟩

end Store

namespace Fabric

open HysteresisEngine

variable {f : Fabric} {domain : DomainId} {s : DomainState}

/-- The ticks the machine compares the clock with. -/
def recordedTicks (s : DomainState) : Tick × Tick := (s.lastChangeTick, s.lastEvaluatedTick)

theorem recordedTicks_regressed {s₁ : DomainState} (h : recordedTicks s₁ = recordedTicks s)
    (now : Tick) : tickRegressed s₁ now = tickRegressed s now := by
  obtain ⟨hchange, hevaluated⟩ := Prod.mk.inj h
  unfold tickRegressed
  rw [hchange, hevaluated]

theorem recordedTicks_flagDomain (s : DomainState) :
    recordedTicks (flagDomain s) = recordedTicks s := by
  unfold flagDomain
  split <;> rfl

/-- Rewriting every domain but its ticks keeps the ticks of each. -/
theorem recordedTicks_mapVal {rewritten : DomainState → DomainState}
    (h : ∀ s, recordedTicks (rewritten s) = recordedTicks s) (domains : SortedMap DomainId DomainState) :
    recordedTicks ((domains.mapVal fun _ s => rewritten s).findD domain {}) =
      recordedTicks (domains.findD domain {}) := by
  unfold SortedMap.findD
  rw [SortedMap.find?_mapVal]
  cases domains.find? domain with
  | none => rfl
  | some s => exact h s

/-- A restored domain is the one of the document, demoted. -/
theorem openOn_restored {options : FabricOptions} {clock : Tick} {disk : Disk} {store : Store}
    (hdurable : options.durable = true) (hopen : openOn options clock disk = .ok f)
    (hstore : Store.openDisk disk options.store = .ok store)
    (hstored : store.document.domains.find? domain = some s) :
    ∃ fresh, f.domainState domain = restoreDomain fresh s := by
  obtain ⟨second, fresh, persisted, hsecond, hfresh, _, rfl⟩ := openOn_inv hdurable hopen
  obtain rfl := Except.ok.inj (hstore.symm.trans hsecond)
  obtain ⟨_, _, hdomains, _⟩ := incarnate_ok hfresh
  refine ⟨{ fresh with store := some persisted }, ?_⟩
  unfold domainState restoreDomains SortedMap.findD
  dsimp only
  rw [hdomains, SortedMap.find?_foldl_values DomainState.domain _
    (Store.openDisk_normal hstore).keyed, hstored]
  rfl

end Fabric

namespace World

open Fabric CongestionEvaluator HysteresisEngine

variable {w w' : World} {a : Action} {domain : DomainId} {es : List (Event World Input)}
  {f : Fabric} {s : DomainState} {aim : Aim}

/-! ### What moves the recorded ticks -/

theorem enact_recordedTicks {staged : Result Staged} (kind : ProvenanceKind)
    (h : ∀ next, staged = .ok next →
      recordedTicks (next.fabric.domainState domain) = recordedTicks (f.domainState domain)) :
    recordedTicks ((f.enact staged kind).1.domainState domain) =
      recordedTicks (f.domainState domain) := by
  rcases enact_cases (f := f) staged kind with ⟨_, _, he⟩ | ⟨next, store, _, hs, he⟩
  · rw [he]
  · rw [he]
    exact h next hs

/-- Renewing the authority keeps the ticks. -/
theorem act_renewed_ticks (h : w.Renews (.act a)) :
    recordedTicks ((w.act a).fabric.domainState domain) =
      recordedTicks (w.fabric.domainState domain) := by
  cases a with
  | setPolicy policy =>
    refine enact_recordedTicks .localPolicy fun next hs => ?_
    obtain ⟨_, _, rfl⟩ := stagePolicy_ok hs
    exact recordedTicks_mapVal recordedTicks_flagDomain _
  | setTopology topology =>
    refine enact_recordedTicks .localPolicy fun next hs => ?_
    obtain ⟨_, _, rfl⟩ := stageTopology_ok hs
    exact recordedTicks_mapVal recordedTicks_flagDomain _
  | advanceEpoch reason =>
    refine enact_recordedTicks .epochAdvance fun next hs => ?_
    rw [stageEpoch_ok hs]
    obtain ⟨_, he⟩ := nextEpoch_eq w.fabric reason
    rw [he]
    exact @recordedTicks_mapVal domain (fun s => demoteDomain _ _ s) (fun _ => rfl) _
  | _ => exact h.elim

theorem evaluationOf_cases (w : World) (a : Action) (domain : DomainId) :
    w.evaluationOf domain a = [] ∨ ∃ e, w.evaluationOf domain a = [e] := by
  unfold evaluationOf
  split
  · exact .inl rfl
  · split
    · exact .inr ⟨_, rfl⟩
    · exact .inl rfl

/-- An action evaluates a domain once, from the state it is in, or keeps its ticks. -/
theorem act_evaluates (w : World) (a : Action) (domain : DomainId) :
    (w.evaluationOf domain a = [] ∧ recordedTicks ((w.act a).fabric.domainState domain) =
        recordedTicks (w.fabric.domainState domain)) ∨
      ∃ e, w.evaluationOf domain a = [e] ∧ e.before = w.fabric.domainState domain ∧
        e.after = (w.act a).fabric.domainState domain ∧
        (e.after.lastChangeTick = e.before.lastChangeTick ∨
          e.after.lastChangeTick = e.input.request.now) ∧
        e.after.lastEvaluatedTick = e.input.request.now := by
  by_cases hrenews : w.Renews (.act a)
  · have hnone : w.fabric.evaluation a = none := by
      cases a with
      | setPolicy | setTopology | advanceEpoch => rfl
      | _ => exact hrenews.elim
    refine .inl ⟨?_, act_renewed_ticks hrenews⟩
    unfold evaluationOf
    rw [hnone]
  · have hrun := @act_evaluation w a domain hrenews
    rcases evaluationOf_cases w a domain with hnone | ⟨e, hone⟩
    · rw [hnone] at hrun
      exact .inl ⟨hnone, congrArg recordedTicks hrun.nil_eq⟩
    · rw [hone] at hrun
      obtain ⟨hbefore, ⟨hpolicy, outcome, heval, hafter⟩, hrest⟩ := hrun.cons_inv
      obtain ⟨p, _, hupdated⟩ := evaluate_updated hpolicy heval
      have hticks := step_ticks w.fabric.policy.hysteresis w.fabric.policy.recovery
        (prepare e.input.request w.fabric.policy e.input.context (w.fabric.domainState domain)) p
        e.input.request.now
      refine .inr ⟨e, hone, hbefore, hrest.nil_eq.symm, ?_, ?_⟩
      · rw [← hafter, hupdated, hbefore]
        exact hticks.2
      · rw [← hafter, hupdated]

/-! ### A process on its own clock -/

/-- The evaluations of a domain are made at ticks of a clock that does not go back. -/
def ForwardTicks (domain : DomainId) (es : List (Event World Input)) : Prop :=
  (evaluations domain es).Pairwise fun a b => a.input.request.now ≤ b.input.request.now

theorem evaluations_snoc (domain : DomainId) (es : List (Event World Input)) (w : World)
    (a : Action) : evaluations domain (es ++ [⟨w, .act a, w.act a⟩]) =
      evaluations domain es ++ w.evaluationOf domain a := by
  unfold evaluations
  rw [List.flatMap_append, List.flatMap_singleton]

/-- The recorded ticks are those of the start, or ticks of evaluations since. -/
theorem run_recordedTicks (run : Run Step w es w') (hacts : OneProcess es) :
    ((w'.fabric.domainState domain).lastChangeTick = (w.fabric.domainState domain).lastChangeTick ∨
        ∃ e ∈ evaluations domain es,
          (w'.fabric.domainState domain).lastChangeTick = e.input.request.now) ∧
      ((w'.fabric.domainState domain).lastEvaluatedTick =
          (w.fabric.domainState domain).lastEvaluatedTick ∨
        ∃ e ∈ evaluations domain es,
          (w'.fabric.domainState domain).lastEvaluatedTick = e.input.request.now) := by
  induction run with
  | start => exact ⟨.inl rfl, .inl rfl⟩
  | @next es w₁ w₂ i run hstep ih =>
    obtain ⟨hinit, a, rfl⟩ := hacts.init
    obtain ⟨hchange, hevaluated⟩ := ih hinit
    obtain rfl := hstep.act_eq
    rw [evaluations_snoc]
    rcases act_evaluates w₁ a domain with ⟨hnone, hsame⟩ | ⟨e, hone, hbefore, hafter, hmoved, hlast⟩
    · obtain ⟨hsameChange, hsameEvaluated⟩ := Prod.mk.inj hsame
      rw [hnone, List.append_nil, hsameChange, hsameEvaluated]
      exact ⟨hchange, hevaluated⟩
    · rw [hone, ← hafter, hlast]
      have hmem : e ∈ evaluations domain es ++ [e] := by simp
      refine ⟨?_, .inr ⟨e, hmem, rfl⟩⟩
      rcases hmoved with hkept | hnow
      · rw [hkept, hbefore]
        exact hchange.imp_right fun ⟨e', he', heq⟩ => ⟨e', List.mem_append_left _ he', heq⟩
      · exact .inr ⟨e, hmem, hnow⟩

/-- Until its first evaluation a domain keeps the ticks it was restored with. -/
theorem first_recordedTicks (run : Run Step w es w') (hacts : OneProcess es) :
    (evaluations domain es = [] → recordedTicks (w'.fabric.domainState domain) =
        recordedTicks (w.fabric.domainState domain)) ∧
      ∀ e, (evaluations domain es).head? = some e →
        recordedTicks e.before = recordedTicks (w.fabric.domainState domain) := by
  induction run with
  | start => exact ⟨fun _ => rfl, fun e he => nomatch he⟩
  | @next es w₁ w₂ i run hstep ih =>
    obtain ⟨hinit, a, rfl⟩ := hacts.init
    obtain ⟨hunevaluated, hfirst⟩ := ih hinit
    obtain rfl := hstep.act_eq
    rw [evaluations_snoc]
    rcases act_evaluates w₁ a domain with ⟨hnone, hsame⟩ | ⟨e, hone, hbefore, _⟩
    · rw [hnone, List.append_nil]
      exact ⟨fun h => hsame.trans (hunevaluated h), hfirst⟩
    · rw [hone]
      refine ⟨fun h => absurd h (by simp), fun e' he' => ?_⟩
      cases hevents : evaluations domain es with
      | nil =>
        rw [hevents] at he'
        obtain rfl := Option.some.inj he'
        rw [hbefore]
        exact hunevaluated hevents
      | cons e₀ rest =>
        rw [hevents] at he'
        exact hfirst e' (by rw [hevents]; exact he')

/-- No evaluation is refused once the first tick is behind neither recorded tick. -/
theorem run_folded (run : Run Step w es w') (hacts : OneProcess es)
    (hticks : ForwardTicks domain es)
    (hstart : ∀ e, (evaluations domain es).head? = some e →
      tickRegressed (w.fabric.domainState domain) e.input.request.now = false) :
    ∀ e ∈ evaluations domain es, tickRegressed e.before e.input.request.now = false := by
  induction run with
  | start => exact fun e he => absurd he List.not_mem_nil
  | @next es w₁ w₂ i run hstep ih =>
    obtain ⟨hinit, a, rfl⟩ := hacts.init
    obtain rfl := hstep.act_eq
    unfold ForwardTicks at hticks
    rw [evaluations_snoc] at hticks hstart ⊢
    have hforward := (List.pairwise_append.mp hticks).1
    rcases act_evaluates w₁ a domain with ⟨hnone, _⟩ | ⟨e, hone, hbefore, _⟩
    · rw [hnone, List.append_nil] at hstart ⊢
      exact ih hinit hforward hstart
    · rw [hone] at hticks hstart ⊢
      have hfolded : ∀ e' ∈ evaluations domain es,
          tickRegressed e'.before e'.input.request.now = false := by
        refine ih hinit hforward fun e' he' => hstart e' ?_
        rw [List.head?_append, he']
        rfl
      have hlater : ∀ e' ∈ evaluations domain es, e'.input.request.now ≤ e.input.request.now :=
        fun e' he' => (List.pairwise_append.mp hticks).2.2 e' he' e (List.mem_singleton_self e)
      have hfirst : tickRegressed (w.fabric.domainState domain) e.input.request.now = false := by
        cases hevents : evaluations domain es with
        | nil => exact hstart e (by rw [hevents]; rfl)
        | cons e₀ rest =>
          have hpassed := hstart e₀ (by rw [hevents]; rfl)
          have hle := hlater e₀ (by rw [hevents]; exact List.mem_cons_self)
          obtain ⟨hchange, hevaluated⟩ := tickRegressed_eq_false.mp hpassed
          exact tickRegressed_eq_false.mpr
            ⟨UInt64.le_trans hchange hle, UInt64.le_trans hevaluated hle⟩
      obtain ⟨hchange, hevaluated⟩ := tickRegressed_eq_false.mp hfirst
      obtain ⟨hlastChange, hlastEvaluated⟩ := @run_recordedTicks w w₁ domain es run hinit
      have hlast : tickRegressed e.before e.input.request.now = false := by
        rw [hbefore, tickRegressed_eq_false]
        constructor
        · rcases hlastChange with hkept | ⟨e', he', heq⟩
          · rwa [hkept]
          · rw [heq]
            exact hlater e' he'
        · rcases hlastEvaluated with hkept | ⟨e', he', heq⟩
          · rwa [hkept]
          · rw [heq]
            exact hlater e' he'
      intro e' he'
      rcases List.mem_append.mp he' with he' | he'
      · exact hfolded e' he'
      · rw [List.mem_singleton.mp he']
        exact hlast

/-- Every evaluation of the domain is folded into its machine, and among consecutive evaluations
under one authority, on evidence that points to one state, as many as that move needs take it out of
STALE. -/
structure Unwedged (domain : DomainId) (es : List (Event World Input)) : Prop where
  folded : ∀ e ∈ evaluations domain es, tickRegressed e.before e.input.request.now = false
  leaves : ∀ lead window rest, es = lead ++ window ++ rest →
    (∀ e ∈ window, ¬e.before.Renews e.input) → evaluations domain window ≠ [] →
    ∀ aim, (∀ e ∈ evaluations domain window, Points aim e) →
      (capRequired aim.required).toNat ≤ (evaluations domain window).length →
      ∃ e ∈ evaluations domain window, e.after.state ≠ .stale

theorem mem_evaluations_window {lead window rest : List (Event World Input)}
    {e : Event DomainState Call} (h : e ∈ evaluations domain window) :
    e ∈ evaluations domain (lead ++ window ++ rest) := by
  unfold evaluations at h ⊢
  rw [List.flatMap_append, List.flatMap_append]
  exact List.mem_append_left _ (List.mem_append_right _ h)

theorem unwedged_of_folded (run : Run Step w es w')
    (hfolded : ∀ e ∈ evaluations domain es, tickRegressed e.before e.input.request.now = false) :
    Unwedged domain es := by
  refine ⟨hfolded, ?_⟩
  rintro lead window rest rfl hkept hsome aim hpoints henough
  obtain ⟨_, hbefore, _⟩ := run.split
  obtain ⟨w₁, _, hwindow⟩ := hbefore.split
  obtain ⟨_, hrun⟩ := @run_evaluations w₁ _ domain window hwindow hkept
  exact leaves_stale hrun hsome (fun e he => hfolded e (mem_evaluations_window he)) hpoints henough

/-- Restarts wedge no domain in exactly the incarnations whose first evaluation of it is at a tick
behind neither of those that its document recorded. -/
theorem restart_unwedged_iff {options : FabricOptions} {clock : Tick} {disk : Disk} {store : Store}
    (hdurable : options.durable = true)
    (hstore : Store.openDisk disk options.store = .ok store)
    (hstored : store.document.domains.find? domain = some s)
    (hopen : openOn options clock disk = .ok f) (run : Run Step ⟨f, [], ∅⟩ es w)
    (hacts : OneProcess es) (hticks : ForwardTicks domain es) :
    Unwedged domain es ↔ ∀ e, (evaluations domain es).head? = some e →
      s.lastChangeTick ≤ e.input.request.now ∧ s.lastEvaluatedTick ≤ e.input.request.now := by
  obtain ⟨fresh, hrestored⟩ := openOn_restored hdurable hopen hstore hstored
  have hkept : ∀ now, tickRegressed (f.domainState domain) now = tickRegressed s now := by
    intro now
    rw [hrestored]
    exact recordedTicks_regressed rfl now
  constructor
  · intro h e he
    have hpassed := h.folded e (List.mem_of_mem_head? he)
    have hfirst := (first_recordedTicks run hacts).2 e he
    rw [recordedTicks_regressed hfirst] at hpassed
    exact tickRegressed_eq_false.mp ((hkept _).symm.trans hpassed)
  · intro h
    refine unwedged_of_folded run (run_folded run hacts hticks fun e he => ?_)
    exact (hkept _).trans (tickRegressed_eq_false.mpr (h e he))

/-- What is reported under an epoch at a tick. -/
def reportIn (epoch : EpochId) (now : Tick) : EvaluationRequest :=
  { reportNow now with
    evidence := { (reportNow now).evidence with
      epoch
      samples := (reportNow now).evidence.samples.map fun sample : EvidenceSample =>
        { sample with epoch } } }

def watching : List Action := [.setTopology pairSnapshot, .evaluateRequest (reportNow 100)]

/-- A durable domain that came to WATCH at tick 100. -/
def watchedWorld : World := watching.foldl act ⟨durableFabric, [], ∅⟩

/-- The same report again and again, as the clock reads these ticks. -/
def reports (ticks : List Tick) : List Action :=
  ticks.flatMap fun now => [.readClock now, .evaluateRequest (reportIn ⟨2⟩ now)]

/-- The next incarnation over a directory that opens. -/
def nextOn (disk : Disk) (clock : Tick) : Fabric :=
  match openOn durably clock disk with
  | .ok f => f
  | .error _ => {}

theorem openOn_nextOn {disk : Disk} {clock : Tick} (h : (openOn durably clock disk).isOk = true) :
    openOn durably clock disk = .ok (nextOn disk clock) := by
  obtain ⟨f, hf⟩ := Result.exists_of_isOk h
  unfold nextOn
  rw [hf]

theorem oneProcess_actEvents (w : World) (actions : List Action) :
    OneProcess (actEvents w actions) := by
  intro e he
  obtain ⟨a, _, hinput⟩ := mem_actEvents he
  exact ⟨a, hinput⟩

def reopened (clock : Tick) : World := ⟨nextOn watchedWorld.fabric.disk clock, [], ∅⟩

/-- What becomes of the domain at these ticks of a clock that starts at the first of them. -/
def history (start : Tick) (ticks : List Tick) : List (Event World Input) :=
  actEvents (reopened start) (reports ticks)

def shown (e : Event DomainState Call) : Tick × Bool × CongestionState :=
  (e.input.request.now, tickRegressed e.before e.input.request.now, e.after.state)

set_option maxRecDepth 100000 in
/-- What the first incarnation left on disk, and what an ordinary clock and one that starts again
from 1 make of it. -/
theorem watchedWorld_reopened :
    ((Store.openDisk watchedWorld.fabric.disk durably.store).toOption.bind fun store =>
        (store.document.domains.find? ⟨1⟩).map recordedTicks) = some (100, 100) ∧
      (openOn durably 200 watchedWorld.fabric.disk).isOk = true ∧
      (openOn durably 1 watchedWorld.fabric.disk).isOk = true ∧
      (evaluations ⟨1⟩ (history 200 [200])).map shown = [(200, false, .watch)] ∧
      (evaluations ⟨1⟩ (history 1 [1, 2, 3])).map shown =
        [(1, true, .stale), (2, true, .stale), (3, true, .stale)] ∧
      (∀ e ∈ evaluations ⟨1⟩ (history 1 [1, 2, 3]),
        ValueBearing (reopened 1).fabric.policy e.before e.input) ∧
      (reopened 1).fabric.policy.hysteresis.minDwellTicks = 0 := by
  decide +kernel

theorem forwardTicks_shown {ticks : List Tick} (h : ticks.Pairwise (· ≤ ·))
    (hshown : ((evaluations domain es).map shown).map Prod.fst = ticks) :
    ForwardTicks domain es := by
  rw [List.map_map] at hshown
  exact List.pairwise_map.mp (hshown.symm ▸ h)

theorem restart_unwedged_iff_later : Unwedged ⟨1⟩ (history 200 [200]) ∧
    (evaluations ⟨1⟩ (history 200 [200])).map shown = [(200, false, .watch)] := by
  obtain ⟨hrecorded, hopens, _, hshown, _⟩ := watchedWorld_reopened
  obtain ⟨store, hstore, hstored⟩ := Option.bind_eq_some_iff.mp hrecorded
  obtain ⟨s, hs, hticks⟩ := Option.map_eq_some_iff.mp hstored
  have hread : Store.openDisk watchedWorld.fabric.disk durably.store = .ok store := by
    cases h : Store.openDisk watchedWorld.fabric.disk durably.store with
    | error => rw [h] at hstore; cases hstore
    | ok found =>
      rw [h] at hstore
      rw [Option.some.inj hstore]
  have hopen : openOn durably 200 watchedWorld.fabric.disk = .ok (reopened 200).fabric :=
    openOn_nextOn hopens
  have run : Run Step ⟨(reopened 200).fabric, [], ∅⟩ (history 200 [200]) _ := run_acts _ _
  refine ⟨(restart_unwedged_iff rfl hread hs hopen run (oneProcess_actEvents _ _)
    (forwardTicks_shown (List.pairwise_singleton _ 200) (by rw [hshown]; rfl))).mpr fun e he => ?_,
    hshown⟩
  have hhead := congrArg List.head? hshown
  rw [List.head?_map, he] at hhead
  have hnow : e.input.request.now = 200 := congrArg Prod.fst (Option.some.inj hhead)
  obtain ⟨hchange, hevaluated⟩ := Prod.mk.inj hticks
  rw [hchange, hevaluated, hnow]
  exact ⟨by decide, by decide⟩

/-- A clock that starts again from 1 refuses evidence that bears a value, tick after tick. -/
theorem restart_wedges : ∃ es₀ w', openOn durably 100 {} = .ok durableFabric ∧
    Run Step ⟨durableFabric, [], ∅⟩ es₀ watchedWorld ∧
    openOn durably 1 watchedWorld.fabric.disk = .ok (reopened 1).fabric ∧
    Run Step (reopened 1) (history 1 [1, 2, 3]) w' ∧ OneProcess (history 1 [1, 2, 3]) ∧
    ForwardTicks ⟨1⟩ (history 1 [1, 2, 3]) ∧
    (∀ e ∈ evaluations ⟨1⟩ (history 1 [1, 2, 3]),
      ValueBearing (reopened 1).fabric.policy e.before e.input) ∧
    (reopened 1).fabric.policy.hysteresis.minDwellTicks = 0 ∧
    (evaluations ⟨1⟩ (history 1 [1, 2, 3])).map shown =
      [(1, true, .stale), (2, true, .stale), (3, true, .stale)] ∧
    ¬Unwedged ⟨1⟩ (history 1 [1, 2, 3]) := by
  obtain ⟨_, _, hopens, _, hshown, hvalued, hdwell⟩ := watchedWorld_reopened
  refine ⟨_, _, openOn_durable, run_acts _ watching, openOn_nextOn hopens, run_acts _ _,
    oneProcess_actEvents _ _, ?_, hvalued, hdwell, hshown, fun h => ?_⟩
  · exact @forwardTicks_shown _ _ [1, 2, 3] (by decide) (by rw [hshown]; rfl)
  · obtain ⟨e, he, heq⟩ := List.mem_map.mp (hshown ▸ List.mem_cons_self)
    have hregressed : tickRegressed e.before e.input.request.now = true :=
      congrArg (fun x => x.2.1) heq
    exact Bool.false_ne_true ((h.folded e he).symm.trans hregressed)

end World

end CongestionFabric
