import CongestionFabric.Runtime.SessionEvidence
import CongestionFabric.Runtime.Shutdown

namespace CongestionFabric

namespace CoordinatorNode

open Fabric

variable {n n' : CoordinatorNode} {c : Nat} {s s' : Session} {publisher : PublisherId}
  {boot : BootId} {answer : ChannelAnswer} {i : Input}

/-- Whoever is registered was registered by the host, or by a connection that has not ended and still
goes by that incarnation. -/
def Attended (n : CoordinatorNode) : Prop :=
  ∀ publisher boot, n.fabric.Holds publisher boot →
    (none, publisher, boot) ∈ n.registrants ∨
      ∃ (c : Nat) (s : Session), n.sessions[c]? = some s ∧ s.registered = true ∧
        s.publisher = publisher ∧ s.boot = boot ∧ s.work ≠ .ended

theorem Turn.unended (h : Turn answer s s') (hleaving : s.work ≠ .leaving) : s'.work ≠ .ended := by
  cases h with
  | parted _ hnext => simp [hnext]
  | received _ _ hnext => simp [hnext]
  | emptied _ hnext => simp [hnext]
  | answered _ hnext =>
    rw [hnext]
    split_ifs <;> simp
  | ingested _ hnext => simp [hnext]
  | touched _ hnext => simp [hnext]
  | evaluated _ hnext =>
    rcases hnext with hnext | hnext
    · simp [hnext]
    · simp [hnext]
  | planned _ hnext => simp [hnext]
  | finished _ hnext =>
    rw [hnext]
    split_ifs <;> simp
  | left hwork => exact absurd hwork hleaving

/-- A registered connection stays registered, or says goodbye. -/
theorem handle_goodbye (hc : c < n.sessions.length) (hregistered : s.registered = true)
    (frame : Frame) (delivered : Bool) :
    (∃ s', (n.handle c s frame delivered).sessions[c]? = some s' ∧ s'.registered = true) ∨
      (n.handle c s frame delivered).fabric =
        (n.call (.unregisterPublisher s.publisher s.boot .none [])).fabric := by
  unfold handle
  split
  next =>
    left
    unfold handleHello
    split
    next => exact ⟨_, put_session hc, hregistered⟩
    next hello _ =>
      dsimp only
      split
      next =>
        refine ⟨_, put_session ?_, rfl⟩
        exact hc
      next => exact ⟨_, called_session hc, hregistered⟩
  next =>
    left
    unfold handleEvidence
    split_ifs
    · exact ⟨_, put_session hc, hregistered⟩
    · split
      next => exact ⟨_, put_session hc, hregistered⟩
      next batch _ =>
        dsimp only
        split
        next => exact ⟨_, called_session hc, hregistered⟩
        next => exact ⟨_, called_session hc, hregistered⟩
  next =>
    left
    unfold handleHeartbeat
    dsimp only
    refine ⟨_, put_session ?_, hregistered⟩
    split_ifs
    exact hc
  next =>
    right
    unfold handleGoodbye
    rw [if_pos hregistered]
    rfl
  next => exact .inl ⟨_, put_session hc, hregistered⟩

theorem proceed_goodbye (hs : n.sessions[c]? = some s) (hloop : s.InLoop)
    (hregistered : s.registered = true) (answer : ChannelAnswer) :
    (∃ s', (n.proceed c s answer).sessions[c]? = some s' ∧ s'.registered = true) ∨
      (n.proceed c s answer).fabric =
        (n.call (.unregisterPublisher s.publisher s.boot .none [])).fabric := by
  obtain ⟨hc, _⟩ := List.getElem?_eq_some_iff.mp hs
  unfold proceed
  split
  next =>
    left
    unfold read
    split_ifs
    · exact ⟨_, put_session hc, hregistered⟩
    · split
      next => exact ⟨_, put_session hc, hregistered⟩
      next => exact ⟨_, put_session hc, hregistered⟩
      next =>
        split
        next => exact ⟨_, put_session hc, hregistered⟩
        next => exact ⟨_, put_session hc, hregistered⟩
  next =>
    unfold decodeNext
    split
    next => exact .inl ⟨_, put_session hc, hregistered⟩
    next => exact .inl ⟨_, put_session hc, hregistered⟩
    next decoder frame _ =>
      unfold takeFrame
      dsimp only
      split_ifs
      · exact .inl ⟨_, put_session hc, hregistered⟩
      · exact @handle_goodbye n c { s with decoder, frames := s.frames + 1 } hc hregistered frame
          answer.delivered
  next => exact .inl ⟨_, put_session hc, hregistered⟩
  next => exact .inl ⟨_, put_session hc, hregistered⟩
  next =>
    unfold evaluateNext
    dsimp only
    exact .inl ⟨_, called_session hc, hregistered⟩
  next => exact .inl ⟨_, called_session hc, hregistered⟩
  next hwork => exact absurd hwork hloop.1
  next hwork => exact absurd hwork hloop.2

/-- Who has said goodbye is not registered. -/
theorem unregistered_holds {f : Fabric} (hopen : f.closed = false) (publisher : PublisherId)
    (boot : BootId) : ¬((f.unregisterPublisher publisher boot .none []).1).Holds publisher boot := by
  have he : (f.unregisterPublisher publisher boot .none []).1 = f.forgetPublisher publisher boot := by
    unfold unregisterPublisher checked ensureOpen
    rw [hopen]
    rfl
  rw [he]
  unfold Holds
  rw [registered_forgetPublisher]
  simp

/-- Another connection goes on as it was. -/
theorem Attended.keep (h : n.Attended) (hs : n.sessions[c]? = some s)
    (hothers : ∀ d, d ≠ c → n'.sessions[d]? = n.sessions[d]?)
    (hregistrants : ∀ p b, (none, p, b) ∈ n.registrants → (none, p, b) ∈ n'.registrants)
    (hholds : n'.fabric.Holds publisher boot → n.fabric.Holds publisher boot)
    (hown : s.registered = true → s.work ≠ .ended → s.publisher = publisher → s.boot = boot →
      n'.fabric.Holds publisher boot → ∃ s', n'.sessions[c]? = some s' ∧ s'.registered = true ∧
        s'.publisher = publisher ∧ s'.boot = boot ∧ s'.work ≠ .ended)
    (hafter : n'.fabric.Holds publisher boot) :
    (none, publisher, boot) ∈ n'.registrants ∨
      ∃ (c : Nat) (s : Session), n'.sessions[c]? = some s ∧ s.registered = true ∧
        s.publisher = publisher ∧ s.boot = boot ∧ s.work ≠ .ended := by
  rcases h publisher boot (hholds hafter) with hhost | ⟨d, s₁, hs₁, hregistered, hp, hb, hwork⟩
  · exact .inl (hregistrants _ _ hhost)
  · right
    by_cases hd : d = c
    · subst hd
      obtain rfl := Option.some.inj (hs.symm.trans hs₁)
      obtain ⟨s', hs'⟩ := hown hregistered hwork hp hb hafter
      exact ⟨d, s', hs'⟩
    · exact ⟨d, s₁, (hothers d hd).trans hs₁, hregistered, hp, hb, hwork⟩

/-- Who is registered after a move was so before, or is who the connection then goes by. -/
theorem Move.attended (hmove : Move n c s n') (h : n.Attended) (hcoherent : AllCoherent n)
    (hs : n.sessions[c]? = some s) (hloop : s.InLoop) (hsame : n.SameHello s = true)
    (hothers : ∀ d, d ≠ c → n'.sessions[d]? = n.sessions[d]?)
    (hunended : ∀ s', n'.sessions[c]? = some s' → s'.work ≠ .ended)
    (hgoodbye : s.registered = true →
      (∃ s', n'.sessions[c]? = some s' ∧ s'.registered = true) ∨
        n'.fabric = (n.call (.unregisterPublisher s.publisher s.boot .none [])).fabric) :
    n'.Attended := by
  obtain ⟨hc, _⟩ := List.getElem?_eq_some_iff.mp hs
  have hopen : s.registered = true → n.fabric.closed = false :=
    ((hcoherent.sessions c s hs).inLoop hloop).2
  intro p b hafter
  cases hmove with
  | @kept s' hid =>
    refine h.keep hs hothers (fun _ _ hhost => hhost) id ?_ hafter
    intro hregistered _ hp hb _
    exact ⟨s', put_session hc, hid.registered.trans hregistered, hid.publisher.trans hp,
      hid.boot.trans hb, hunended s' (put_session hc)⟩
  | @called s' a hid ha =>
    refine h.keep hs hothers (fun _ _ hhost => hhost) ?_ ?_ hafter
    · exact World.act_holds_only n.world (ha.not_registers p b)
    · intro hregistered _ hp hb _
      exact ⟨s', called_session hc, hid.registered.trans hregistered, hid.publisher.trans hp,
        hid.boot.trans hb, hunended s' (called_session hc)⟩
  | @refused s' hello htaken hp' hb' hsame' hrefused =>
    refine h.keep hs hothers (fun _ _ hhost => hhost) ?_ ?_ hafter
    · intro hnow
      rcases World.act_holds n.world _ hnow with hbefore | ⟨requested, heq, hadmitted⟩
      · exact hbefore
      · obtain ⟨rfl, rfl, _⟩ := Action.registerPublisher.inj heq
        exact absurd hadmitted hrefused
    · intro hregistered _ hp hb _
      obtain ⟨hpublisher, hboot⟩ := SameHello.named hsame hregistered htaken
      exact ⟨s', called_session hc, hsame'.trans hregistered, hp'.trans (hpublisher.trans hp),
        hb'.trans (hboot.trans hb), hunended s' (called_session hc)⟩
  | @greeted s' hello registration htaken hp' hb' hregistered' hok =>
    have hsession : (((n.call (.registerPublisher hello.publisher hello.boot
        hello.requested)).noteRegistrant (some c) hello.publisher hello.boot).put c s').sessions[c]? =
        some s' := put_session hc
    by_cases hnew : p = hello.publisher ∧ b = hello.boot
    · obtain ⟨rfl, rfl⟩ := hnew
      exact .inr ⟨c, s', hsession, hregistered', hp', hb', hunended s' hsession⟩
    · refine h.keep hs hothers (fun _ _ hhost => List.mem_cons_of_mem _ hhost) ?_ ?_ hafter
      · refine World.act_holds_only n.world ?_
        intro requested heq
        obtain ⟨hp, hb, _⟩ := Action.registerPublisher.inj heq
        exact hnew ⟨hp.symm, hb.symm⟩
      · intro hregistered _ hp hb _
        obtain ⟨hpublisher, hboot⟩ := SameHello.named hsame hregistered htaken
        exact ⟨s', hsession, hregistered', hp'.trans (hpublisher.trans hp),
          hb'.trans (hboot.trans hb), hunended s' hsession⟩
  | @farewell s' hregistered' hwork' called hcalled =>
    refine h.keep hs hothers ?_ ?_ ?_ hafter
    · intro p' b' hhost
      rcases hcalled with rfl | ⟨_, rfl⟩
      · exact hhost
      · exact hhost
    · intro hnow
      rcases hcalled with rfl | ⟨_, rfl⟩
      · exact hnow
      · exact World.act_holds_only n.world (by simp) hnow
    · intro hregistered _ hp hb hnow
      rcases hgoodbye hregistered with ⟨s'', hs'', hstill⟩ | hfabric
      · have hsession : (({ called with farewells := c :: called.farewells } :
            CoordinatorNode).put c s').sessions[c]? = some s' := by
          refine put_session ?_
          rcases hcalled with rfl | ⟨_, rfl⟩
          · exact hc
          · exact hc
        obtain rfl := Option.some.inj (hsession.symm.trans hs'')
        rw [hregistered'] at hstill
        cases hstill
      · have hnone := unregistered_holds (hopen hregistered) s.publisher s.boot
        rw [hfabric, ← hp, ← hb] at hnow
        exact absurd hnow hnone

/-- Whom a connection leaves behind is fenced. -/
theorem leave_attended (h : n.Attended) (hcoherent : AllCoherent n) (hguarded : Guarded n.fabric)
    (hs : n.sessions[c]? = some s) (hleaving : s.work = .leaving) : (n.leave c s).Attended := by
  intro p b hafter
  obtain ⟨hsessions, hregistrants, _, _⟩ := leave_history n c s
  refine h.keep hs ?_ ?_ ?_ ?_ hafter
  · intro d hd
    rw [hsessions, List.getElem?_set_ne (Ne.symm hd)]
  · intro p' b' hhost
    rw [hregistrants]
    exact hhost
  · intro hnow
    rw [leave_fabric] at hnow
    split_ifs at hnow with hregistered
    · exact World.act_holds_only n.world (by simp) hnow
    · exact hnow
  · intro hregistered _ hp hb hnow
    have hguarded' : Guarded (n.leave c s).fabric := by
      rw [leave_fabric, if_pos hregistered]
      exact World.act_guarded n.world _ hguarded
    have hnone := hguarded'.expelled _ _
      (leave_fenced (hcoherent.sessions c s hs) hleaving hregistered)
    rw [← hp, ← hb] at hnow
    unfold Holds at hnow
    rw [hnone] at hnow
    cases hnow

theorem hostCall_attended (h : n.Attended) (a : Action) : (n.hostCall a).Attended := by
  have hold : ∀ p b, n.fabric.Holds p b → (none, p, b) ∈ (n.hostCall a).registrants ∨
      ∃ (c : Nat) (s : Session), (n.hostCall a).sessions[c]? = some s ∧ s.registered = true ∧
        s.publisher = p ∧ s.boot = b ∧ s.work ≠ .ended := by
    intro p b hbefore
    rw [hostCall_sessions]
    refine (h p b hbefore).imp_left fun hhost => ?_
    unfold hostCall
    split
    · split
      · exact List.mem_cons_of_mem _ hhost
      · exact hhost
    · exact hhost
  intro p b hafter
  have hnow : (n.world.act a).fabric.Holds p b := by
    unfold hostCall at hafter
    split at hafter
    · split at hafter
      · exact hafter
      · exact hafter
    · exact hafter
  rcases World.act_holds n.world a hnow with hbefore | ⟨requested, rfl, hadmitted⟩
  · exact hold p b hbefore
  · left
    obtain ⟨registration, hok⟩ := registerPublisher_admitted requested hadmitted
    have hok : (n.fabric.registerPublisher p b requested).2 = .ok registration := hok
    unfold hostCall
    dsimp only
    rw [hok]
    exact List.mem_cons_self

theorem Step.attended (hstep : Step n i n') (h : n.Attended) (hcoherent : AllCoherent n)
    (hguarded : Guarded n.fabric) (hsame : n.KeepsIdentity i = true) : n'.Attended := by
  obtain ⟨_, rfl⟩ := hstep
  cases i with
  | accept =>
    intro p b hafter
    refine (h p b hafter).imp_right ?_
    rintro ⟨c, s, hs, hsession⟩
    obtain ⟨hlt, _⟩ := List.getElem?_eq_some_iff.mp hs
    exact ⟨c, s, (List.getElem?_append_left hlt).trans hs, hsession⟩
  | session c answer =>
    show (n.advance c answer).Attended
    unfold advance
    split
    next => exact h
    next s hs =>
      have hsame : n.SameHello s = true := by simpa [KeepsIdentity, hs] using hsame
      by_cases hleaving : s.work = .leaving
      · rw [proceed_leaving n c hleaving]
        exact leave_attended h hcoherent hguarded hs hleaving
      · by_cases hended : s.work = .ended
        · rw [proceed_ended n c hended]
          exact h
        · have hloop : s.InLoop := ⟨hleaving, hended⟩
          obtain ⟨s', hs', hturn⟩ := proceed_turn hs hended answer
          refine (proceed_move n c hloop answer).attended h hcoherent hs hloop hsame ?_ ?_ ?_
          · exact fun d hd => proceed_other (Ne.symm hd) s answer
          · intro s'' hs''
            obtain rfl := Option.some.inj (hs'.symm.trans hs'')
            exact hturn.unended hleaving
          · exact fun hregistered => proceed_goodbye hs hloop hregistered answer
  | host a => exact hostCall_attended h a
  | requestStop => exact h
  | shutdown =>
    exact fun p b hafter => h p b (World.act_holds_only n.world (by simp) hafter)

/-- Every step is one call of the fabric or none. -/
theorem Step.fabric_cases (hstep : Step n i n') :
    n'.fabric = n.fabric ∨ ∃ a, n'.fabric = (n.world.act a).fabric := by
  obtain ⟨_, rfl⟩ := hstep
  cases i with
  | accept => exact .inl rfl
  | session c answer =>
    show (n.advance c answer).fabric = _ ∨ ∃ a, (n.advance c answer).fabric = _
    unfold advance
    split
    next => exact .inl rfl
    next s hs =>
      by_cases hleaving : s.work = .leaving
      · rw [proceed_leaving n c hleaving, leave_fabric]
        split_ifs
        · exact .inr ⟨_, rfl⟩
        · exact .inl rfl
      · by_cases hended : s.work = .ended
        · rw [proceed_ended n c hended]
          exact .inl rfl
        · have hmove := proceed_move n c ⟨hleaving, hended⟩ answer
          generalize n.proceed c s answer = n' at hmove
          cases hmove with
          | kept => exact .inl rfl
          | called => exact .inr ⟨_, rfl⟩
          | refused => exact .inr ⟨_, rfl⟩
          | greeted => exact .inr ⟨_, rfl⟩
          | farewell _ _ hcalled =>
            rcases hcalled with rfl | ⟨_, rfl⟩
            · exact .inl rfl
            · exact .inr ⟨_, rfl⟩
  | host a =>
    refine .inr ⟨a, ?_⟩
    show (n.hostCall a).fabric = _
    unfold hostCall
    split
    · split
      · rfl
      · rfl
    · rfl
  | requestStop => exact .inl rfl
  | shutdown => exact .inr ⟨_, rfl⟩

theorem Step.guarded (hstep : Step n i n') (h : Guarded n.fabric) : Guarded n'.fabric := by
  rcases hstep.fabric_cases with he | ⟨a, he⟩
  · exact he ▸ h
  · exact he ▸ World.act_guarded n.world a h

theorem Step.isFenced (hstep : Step n i n') (h : n.fabric.isFenced publisher boot = true) :
    n'.fabric.isFenced publisher boot = true := by
  rcases hstep.fabric_cases with he | ⟨a, he⟩
  · exact he ▸ h
  · exact he ▸ World.act_isFenced n.world a h

/-- Whoever a connection that has ended was still registered as is fenced. -/
def Settled (n : CoordinatorNode) : Prop :=
  ∀ (c : Nat) (s : Session), n.sessions[c]? = some s → s.registered = true → s.work = .ended →
    n.fabric.isFenced s.publisher s.boot = true

/-- A connection that ends in a step is fenced by it; the others that have ended stay as they are. -/
theorem Step.settled (hstep : Step n i n') (h : n.Settled) (hcoherent : AllCoherent n) :
    n'.Settled := by
  have hfences : ∀ publisher boot, n.fabric.isFenced publisher boot = true →
      n'.fabric.isFenced publisher boot = true := fun _ _ h => hstep.isFenced h
  obtain ⟨_, rfl⟩ := hstep
  intro c s hs hregistered hended
  have hkept : n.sessions[c]? = some s → (n.apply i).fabric.isFenced s.publisher s.boot = true :=
    fun hbefore => hfences _ _ (h c s hbefore hregistered hended)
  cases i with
  | accept =>
    have hs : (n.sessions ++ [({} : Session)])[c]? = some s := hs
    rw [List.getElem?_append] at hs
    split_ifs at hs with hlt
    · exact hkept hs
    · have hnew : s = {} := by
        obtain ⟨_, hnew⟩ := List.getElem?_eq_some_iff.mp hs
        simpa using hnew.symm
      rw [hnew] at hregistered
      cases hregistered
  | session d answer =>
    show (n.advance d answer).fabric.isFenced s.publisher s.boot = true
    have hs : (n.advance d answer).sessions[c]? = some s := hs
    have hkept : n.sessions[c]? = some s →
        (n.advance d answer).fabric.isFenced s.publisher s.boot = true := hkept
    unfold advance at hs hkept ⊢
    split at hs
    next => exact h c s hs hregistered hended
    next s₀ hs₀ =>
      rw [hs₀] at hkept
      dsimp only at hkept
      by_cases hd : c = d
      · subst hd
        by_cases hleaving : s₀.work = .leaving
        · rw [proceed_leaving n c hleaving] at hs ⊢
          obtain ⟨hlt, _⟩ := List.getElem?_eq_some_iff.mp hs₀
          rw [(leave_history n c s₀).1, List.getElem?_set_self hlt] at hs
          obtain rfl := Option.some.inj hs
          exact leave_fenced (hcoherent.sessions c s₀ hs₀) hleaving hregistered
        · by_cases hover : s₀.work = .ended
          · rw [proceed_ended n c hover] at hs ⊢
            exact h c s hs hregistered hended
          · obtain ⟨s', hs', hturn⟩ := proceed_turn hs₀ hover answer
            obtain rfl := Option.some.inj (hs'.symm.trans hs)
            exact absurd hended (hturn.unended hleaving)
      · rw [proceed_other (Ne.symm hd) s₀ answer] at hs
        exact hkept hs
  | host a =>
    have hs : (n.hostCall a).sessions[c]? = some s := hs
    rw [hostCall_sessions] at hs
    exact hkept hs
  | requestStop => exact hkept hs
  | shutdown => exact hkept hs

end CoordinatorNode

namespace Serving

open Fabric CoordinatorNode

variable {s s' : Serving} {i : Input} {es : List (Event Serving Input)} {f : Fabric}
  {options : FabricOptions} {clock : Tick} {disk : Disk} {maxFrames periodMs : UInt64}
  {maxConnections : Nat}

/-- Every connection that says Hello again says it as itself. -/
def KeepIdentities (es : List (Event Serving Input)) : Prop :=
  ∀ e ∈ es, ∀ c answer, e.input = .worker c answer →
    e.before.node.KeepsIdentity (.session c answer) = true

/-- What the registered publishers of a process rest on. -/
structure Accountable (s : Serving) : Prop where
  orderly : Orderly s
  coherent : AllCoherent s.node
  guarded : Guarded s.node.fabric
  attended : s.node.Attended
  settled : s.node.Settled

theorem Step.accountable (hstep : Step s i s') (h : Accountable s)
    (hkept : ∀ c answer, i = .worker c answer →
      s.node.KeepsIdentity (.session c answer) = true) : Accountable s' := by
  rcases (hstep.serves h.orderly).node with hsame | ⟨j, hnode, hj⟩
  · exact ⟨hstep.orderly h.orderly, hsame ▸ h.coherent, hsame ▸ h.guarded, hsame ▸ h.attended,
      hsame ▸ h.settled⟩
  · have hidentity : s.node.KeepsIdentity j = true := by
      cases j with
      | session c answer => exact hkept c answer (hj c answer rfl)
      | _ => rfl
    exact ⟨hstep.orderly h.orderly, hnode.coherent h.coherent hidentity, hnode.guarded h.guarded,
      hnode.attended h.attended h.coherent h.guarded hidentity, hnode.settled h.settled h.coherent⟩

theorem accountable (hopen : openOn options clock disk = .ok f)
    (run : Run Step (starting f maxFrames maxConnections periodMs) es s)
    (hkept : KeepIdentities es) : Accountable s := by
  obtain ⟨_, _, hopened⟩ := openOn_ok hopen
  have hstart : Accountable (starting f maxFrames maxConnections periodMs) := by
    refine ⟨starting_orderly hopened.closed _ _ _, starting_coherent f maxFrames,
      Guarded.of_empty hopened.publishers hopened.evidence, ?_, fun c s hs => nomatch hs⟩
    intro p b hp
    have hp : f.Holds p b := hp
    simp [Holds, registered, hopened.publishers] at hp
  induction run with
  | start => exact hstart
  | @next es s₁ s₂ i run hstep ih =>
    refine hstep.accountable (ih fun e he => hkept e (List.mem_append_left _ he)) ?_
    exact hkept _ (List.mem_append_right _ List.mem_cons_self)

/-- Nobody is left behind. In every run of the process in which a registered connection says Hello as
itself only, from the moment `run` returns no incarnation is registered that the host did not register
itself, and every incarnation that was registered over a connection is fenced unless the connection
has said goodbye. -/
theorem nobody_left (hopen : openOn options clock disk = .ok f)
    (run : Run Step (starting f maxFrames maxConnections periodMs) es s)
    (hkept : KeepIdentities es) (hdrained : s.phase.Drained) (publisher : PublisherId)
    (boot : BootId) :
    (s.node.fabric.Holds publisher boot → (none, publisher, boot) ∈ s.node.registrants) ∧
      ∀ c, s.node.Greeted c publisher boot →
        c ∈ s.node.farewells ∨ s.node.fabric.isFenced publisher boot = true := by
  have haccountable := accountable hopen run hkept
  have hended : ∀ (c : Nat) (session : Session), s.node.sessions[c]? = some session →
      session.work = .ended :=
    fun c session hs => (haccountable.orderly.quiet hdrained).2.2 session (List.mem_of_getElem? hs)
  constructor
  · intro hholds
    rcases haccountable.attended publisher boot hholds with hhost | ⟨c, session, hs, _, _, _, hwork⟩
    · exact hhost
    · exact absurd (hended c session hs) hwork
  · intro c hgreeted
    by_cases hfarewell : c ∈ s.node.farewells
    · exact .inl hfarewell
    · right
      have hlt : c < s.node.sessions.length := by
        by_contra hle
        exact (haccountable.coherent.fresh c (not_lt.mp hle)).2 publisher boot hgreeted
      obtain ⟨session, hs⟩ : ∃ session, s.node.sessions[c]? = some session :=
        ⟨_, List.getElem?_eq_getElem hlt⟩
      have hcoherent := haccountable.coherent.sessions c session hs
      cases hregistered : session.registered with
      | false => exact absurd hgreeted (hcoherent.unknown hregistered hfarewell publisher boot)
      | true =>
        obtain ⟨rfl, rfl⟩ := (hcoherent.own hregistered publisher boot).mp hgreeted
        exact haccountable.settled c session hs hregistered (hended c session hs)

/-- The host registers one incarnation, a connection says Hello as another one, and the process is
stopped. -/
def attendedVisit : List Input :=
  [.host (.registerPublisher ⟨3⟩ ⟨4⟩ {})] ++ List.replicate 5 (.serve .channel) ++
    [.worker 0 { received := some (helloBytes ⟨7⟩ ⟨9⟩) }, .worker 0 {}, .requestStop] ++
    List.replicate 6 (.worker 0 {}) ++ List.replicate 7 (.serve .channel)

def attendedStart : Serving := { servingStart with evaluating := false }

def attendedServing : Serving := attendedVisit.foldl apply attendedStart

/-- A connection thread keeps its identity, as far as an event goes. -/
def keepsIdentity (e : Event Serving Input) : Bool :=
  match e.input with
  | .worker c answer => e.before.node.KeepsIdentity (.session c answer)
  | _ => true

set_option maxRecDepth 100000 in
theorem attendedServing_ends : attendedServing.phase = .closed ∧
    (attendedServing.node.fabric.registered ⟨3⟩ ⟨4⟩).isSome = true ∧
    (some 0, ⟨7⟩, ⟨9⟩) ∈ attendedServing.node.registrants ∧
    0 ∉ attendedServing.node.farewells ∧
    (events apply attendedStart attendedVisit).all keepsIdentity = true := by
  decide +kernel

theorem run_attendedVisit : Run Step servingStart
    ([⟨servingStart, .sweepEnds, attendedStart⟩] ++ events apply attendedStart attendedVisit)
    attendedServing := by
  have hends : Run Step servingStart [⟨servingStart, .sweepEnds, attendedStart⟩] attendedStart :=
    Run.start.next ⟨.inr rfl, rfl⟩
  refine hends.append (run_inputs _ fun i hi s => ?_)
  simp only [attendedVisit, List.mem_append, List.mem_cons, List.not_mem_nil,
    or_false, List.mem_replicate] at hi
  rcases hi with (((rfl | ⟨_, rfl⟩) | (rfl | rfl | rfl)) | ⟨_, rfl⟩) | ⟨_, rfl⟩
  · intro hclose
    cases hclose
  all_goals trivial

theorem nobody_left_attended : (none, ⟨3⟩, ⟨4⟩) ∈ attendedServing.node.registrants ∧
    attendedServing.node.Greeted 0 ⟨7⟩ ⟨9⟩ ∧
    attendedServing.node.fabric.isFenced ⟨7⟩ ⟨9⟩ = true := by
  obtain ⟨hphase, hholds, hgreeted, hsilent, hkept⟩ := attendedServing_ends
  have hidentities : KeepIdentities ([⟨servingStart, .sweepEnds, attendedStart⟩] ++
      events apply attendedStart attendedVisit) := by
    intro e he c answer hinput
    rcases List.mem_append.mp he with he | he
    · obtain rfl := List.mem_singleton.mp he
      cases hinput
    · have hkeeps := List.all_eq_true.mp hkept e he
      unfold keepsIdentity at hkeeps
      rwa [hinput] at hkeeps
  have hleft := nobody_left World.openOn_memory run_attendedVisit hidentities (hphase ▸ trivial)
  exact ⟨(hleft ⟨3⟩ ⟨4⟩).1 hholds, hgreeted,
    ((hleft ⟨7⟩ ⟨9⟩).2 0 hgreeted).resolve_left hsilent⟩

end Serving

end CongestionFabric
