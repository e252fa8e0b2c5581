import CongestionFabric.Runtime.Serving

namespace CongestionFabric

namespace Serving

open CoordinatorNode

variable {s s' : Serving} {c : Nat} {i : Input}

/-- The registry as long as no connection id came up a second time. -/
structure Numbered (s : Serving) : Prop where
  next : s.nextConnection.toNat = s.admitted + 1
  below : ∀ (c : Nat) (w : Worker), s.workers[c]? = some w → w.id.toNat ≤ s.admitted
  distinct : ∀ (c d : Nat) (w w' : Worker), s.workers[c]? = some w → s.workers[d]? = some w' →
    w.id = w'.id → c = d
  spawning : ∀ id, s.phase = .spawning id → id.toNat ≤ s.admitted ∧
    (id, s.workers.length) ∈ s.registry ∧
      ∀ (c : Nat) (w : Worker), s.workers[c]? = some w → w.id ≠ id
  complete : ∀ (c : Nat) (w : Worker), s.workers[c]? = some w → w.stage = .serving → (w.id, c) ∈ s.registry

theorem Numbered.same (h : Numbered s) (hworkers : s'.workers = s.workers)
    (hregistry : s'.registry = s.registry) (hnext : s'.nextConnection = s.nextConnection)
    (hadmitted : s'.admitted = s.admitted)
    (hphase : ∀ id, s'.phase = .spawning id → s.phase = .spawning id) : Numbered s' := by
  constructor
  · rw [hnext, hadmitted]
    exact h.next
  · rw [hworkers, hadmitted]
    exact h.below
  · rw [hworkers]
    exact h.distinct
  · intro id hid
    rw [hadmitted, hworkers, hregistry]
    exact h.spawning id (hphase id hid)
  · rw [hworkers, hregistry]
    exact h.complete

/-- A connection id is new as long as fewer than `2 ^ 64 - 1` of them were given out. -/
theorem Numbered.takeOn (h : Numbered s) {active : Nat} (hphase : s.phase = .admitting active)
    (hroom : s.admitted + 1 < 2 ^ 64 - 1) : Numbered (s.takeOn active) := by
  have hnext : (s.nextConnection + 1).toNat = s.admitted + 1 + 1 := by
    have hvalue := h.next
    rw [UInt64.toNat_add, hvalue]
    exact Nat.mod_eq_of_lt (by simp; omega)
  have hwas : ∀ id, s.phase ≠ .spawning id := by simp [hphase]
  unfold Serving.takeOn
  dsimp only
  split_ifs with hfull
  · refine ⟨hnext, fun c w hw => ?_, h.distinct, by simp, h.complete⟩
    have hle := h.below c w hw
    show w.id.toNat ≤ s.admitted + 1
    omega
  · refine ⟨hnext, fun c w hw => ?_, h.distinct, fun id hid => ?_, fun c w hw hserving => ?_⟩
    · have hle := h.below c w hw
      show w.id.toNat ≤ s.admitted + 1
      omega
    · obtain rfl := ServingPhase.spawning.inj hid
      refine ⟨h.next.le, List.mem_append_right _ List.mem_cons_self, fun c w hw heq => ?_⟩
      have hle := h.below c w hw
      rw [heq, h.next] at hle
      omega
    · exact List.mem_append_left _ (h.complete c w hw hserving)

theorem Numbered.spawn (h : Numbered s) {id : UInt64} (hphase : s.phase = .spawning id) :
    Numbered (s.spawn id) := by
  obtain ⟨hbelow, hregistered, hfresh⟩ := h.spawning id hphase
  refine ⟨h.next, fun c w hw => ?_, fun c d w w' hw hw' heq => ?_, by simp [Serving.spawn],
    fun c w hw hserving => ?_⟩
  · rcases getElem?_snoc hw with hold | ⟨_, rfl⟩
    · exact h.below c w hold
    · exact hbelow
  · rcases getElem?_snoc hw with hold | ⟨rfl, rfl⟩
    · rcases getElem?_snoc hw' with hold' | ⟨rfl, rfl⟩
      · exact h.distinct c d w w' hold hold' heq
      · exact absurd heq (hfresh c w hold)
    · rcases getElem?_snoc hw' with hold' | ⟨rfl, rfl⟩
      · exact absurd heq.symm (hfresh d w' hold')
      · rfl
  · rcases getElem?_snoc hw with hold | ⟨rfl, rfl⟩
    · exact h.complete c w hold hserving
    · exact hregistered

/-- A stage does not matter to the ids, and the registry only to a thread that serves. -/
theorem Numbered.setStage (h : Numbered s) {w : Worker} {stage : WorkerStage}
    (hw : s.workers[c]? = some w) (hnext : stage ≠ .serving) :
    Numbered (s.setStage c w stage) := by
  have hid : ∀ (d : Nat) (w' : Worker), (s.workers.set c { w with stage })[d]? = some w' →
      ∃ w₀, s.workers[d]? = some w₀ ∧ w'.id = w₀.id ∧ (w'.stage = .serving → w' = w₀) := by
    intro d w' hw'
    rw [List.getElem?_set] at hw'
    split_ifs at hw' with hsame hlt
    · obtain rfl := Option.some.inj hw'
      exact ⟨w, hsame ▸ hw, rfl, fun hserving => absurd hserving hnext⟩
    · exact ⟨w', hw', rfl, fun _ => rfl⟩
  refine ⟨h.next, fun d w' hw' => ?_, fun d e w₁ w₂ h₁ h₂ heq => ?_, fun id hspawn => ?_,
    fun d w' hw' hserving => ?_⟩
  · obtain ⟨w₀, hw₀, hsame, _⟩ := hid d w' hw'
    rw [hsame]
    exact h.below d w₀ hw₀
  · obtain ⟨v₁, hv₁, hsame₁, _⟩ := hid d w₁ h₁
    obtain ⟨v₂, hv₂, hsame₂, _⟩ := hid e w₂ h₂
    exact h.distinct d e v₁ v₂ hv₁ hv₂ (hsame₁.symm.trans (heq.trans hsame₂))
  · obtain ⟨hbelow, hregistered, hfresh⟩ := h.spawning id hspawn
    refine ⟨hbelow, ?_, fun d w' hw' => ?_⟩
    · show (id, (s.workers.set c { w with stage }).length) ∈ s.registry
      rw [List.length_set]
      exact hregistered
    · obtain ⟨w₀, hw₀, hsame, _⟩ := hid d w' hw'
      rw [hsame]
      exact hfresh d w₀ hw₀
  · obtain ⟨w₀, hw₀, _, hkept⟩ := hid d w' hw'
    obtain rfl := hkept hserving
    exact h.complete d w' hw₀ hserving

/-- A thread that leaves takes no other channel out of the registry. -/
theorem Numbered.leave (h : Numbered s) {w : Worker} (hw : s.workers[c]? = some w) :
    Numbered ((s.removeConnection w.id).setStage c w .removed) := by
  have hkept : ∀ entry ∈ s.registry, entry.1 ≠ w.id →
      entry ∈ (s.removeConnection w.id).registry := fun entry hentry hne =>
    List.mem_filter.mpr ⟨hentry, decide_eq_true hne⟩
  have hstage := h.setStage hw (show WorkerStage.removed ≠ .serving by decide)
  refine ⟨hstage.next, hstage.below, hstage.distinct, fun id hspawn => ?_,
    fun d w' hw' hserves => ?_⟩
  · obtain ⟨hbelow, hregistered, hfresh⟩ := hstage.spawning id hspawn
    refine ⟨hbelow, hkept _ hregistered ?_, hfresh⟩
    exact fun heq => (h.spawning id hspawn).2.2 c w hw heq.symm
  · refine hkept _ (hstage.complete d w' hw' hserves) fun heq => ?_
    have hw' : (s.workers.set c { w with stage := .removed })[d]? = some w' := hw'
    rw [List.getElem?_set] at hw'
    split_ifs at hw' with hsame hlt
    · obtain rfl := Option.some.inj hw'
      cases hserves
    · exact hsame (h.distinct c d w w' hw hw' heq.symm)

theorem takeOn_admitted (s : Serving) (active : Nat) :
    (s.takeOn active).admitted = s.admitted + 1 := by
  unfold Serving.takeOn
  dsimp only
  split_ifs <;> rfl

theorem Step.admitted_le (hstep : Step s i s') : s.admitted ≤ s'.admitted := by
  cases hstep.goes with
  | accepted _ hsame => exact hsame.admitted.ge
  | admitted =>
    rw [takeOn_admitted]
    omega
  | _ => exact le_rfl

theorem Step.numbered (hstep : Step s i s') (h : s.admitted < 2 ^ 64 - 1 → Numbered s)
    (hroom : s'.admitted < 2 ^ 64 - 1) : Numbered s' := by
  have hbefore := h (lt_of_le_of_lt hstep.admitted_le hroom)
  cases hstep.goes with
  | accepted _ hsame hnext =>
    refine hbefore.same hsame.workers hsame.registry hsame.nextConnection hsame.admitted
      fun id hid => ?_
    rcases hnext with hnext | ⟨_, hnext | ⟨_, hnext⟩⟩
    all_goals simp [hid] at hnext
  | admitted hphase =>
    rw [takeOn_admitted] at hroom
    exact hbefore.takeOn hphase hroom
  | spawned hphase => exact hbefore.spawn hphase
  | removed hw => exact hbefore.leave hw
  | parted hw _ hstage =>
    refine hbefore.setStage hw ?_
    rcases hstage with ⟨_, rfl⟩ | ⟨_, rfl⟩
    all_goals simp
  | waited => exact hbefore
  | idled => exact hbefore
  | gone => exact hbefore
  | draining => exact hbefore.same rfl rfl rfl rfl fun _ hid => hid
  | looped => exact hbefore.same rfl rfl rfl rfl fun _ hid => hid
  | swept => exact hbefore.same rfl rfl rfl rfl fun _ hid => hid
  | sweptOut => exact hbefore.same rfl rfl rfl rfl fun _ hid => hid
  | hosted => exact hbefore.same rfl rfl rfl rfl fun _ hid => hid
  | asked => exact hbefore.same rfl rfl rfl rfl fun _ hid => hid
  | _ => exact hbefore.same rfl rfl rfl rfl (by simp)

variable {fabric : Fabric} {maxFrames periodMs : UInt64} {maxConnections : Nat}
  {es : List (Event Serving Input)}

/-- Whenever the registry is read, the channels in it are those of the connection threads that have not
left it yet, and of the thread that is about to be started. So a cancellation of all
connections misses none that still serves, and meets none that has closed its channel. -/
theorem registry_exact (hopen : fabric.closed = false)
    (run : Run Step (starting fabric maxFrames maxConnections periodMs) es s)
    (hroom : s.admitted < 2 ^ 64 - 1) (id : UInt64) (c : Nat) :
    (id, c) ∈ s.registry ↔ (∃ w, s.workers[c]? = some w ∧ w.id = id ∧ w.stage = .serving) ∨
      s.phase = .spawning id ∧ c = s.workers.length := by
  have hnumbered : Numbered s := by
    refine run.invariant (P := fun s => s.admitted < 2 ^ 64 - 1 → Numbered s) ?_
      (fun _ _ _ h hstep => hstep.numbered h) hroom
    intro _
    refine ⟨rfl, ?_, ?_, ?_, ?_⟩
    · intro c w hw
      cases hw
    · intro c d w w' hw
      cases hw
    · intro id hid
      cases hid
    · intro c w hw
      cases hw
  constructor
  · exact fun hentry => (run_orderly hopen run).known (id, c) hentry
  · rintro (⟨w, hw, rfl, hserving⟩ | ⟨hspawn, rfl⟩)
    · exact hnumbered.complete c w hw hserving
    · exact (hnumbered.spawning id hspawn).2.1

/-- One connection is served, and the registry holds it. -/
def oneServed : Serving :=
  (List.replicate 5 (Input.serve .channel)).foldl apply { servingStart with evaluating := false }

set_option maxRecDepth 100000 in
theorem oneServed_serves : oneServed.admitted = 1 ∧
    (oneServed.workers[0]?).map (fun w => (w.id, decide (w.stage = .serving))) = some (1, true) := by
  decide +kernel

theorem registry_exact_served : (1, 0) ∈ oneServed.registry := by
  have run : Run Step servingStart
      ([⟨servingStart, .sweepEnds, { servingStart with evaluating := false }⟩] ++
        events apply { servingStart with evaluating := false }
          (List.replicate 5 (Input.serve .channel))) oneServed := by
    have hends : Run Step servingStart
        [⟨servingStart, .sweepEnds, { servingStart with evaluating := false }⟩]
        { servingStart with evaluating := false } := Run.start.next ⟨.inr rfl, rfl⟩
    refine hends.append (run_inputs _ fun i hi s => ?_)
    obtain rfl := List.eq_of_mem_replicate hi
    trivial
  obtain ⟨hadmitted, hserving⟩ := oneServed_serves
  obtain ⟨w, hw, hsame⟩ := Option.map_eq_some_iff.mp hserving
  obtain ⟨hid, hstage⟩ := Prod.mk.inj hsame
  refine (registry_exact servingStart_open run (by rw [hadmitted]; decide) 1 0).mpr (.inl ?_)
  exact ⟨w, hw, hid, of_decide_eq_true hstage⟩

end Serving

end CongestionFabric
