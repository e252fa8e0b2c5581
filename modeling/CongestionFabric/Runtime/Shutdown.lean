import CongestionFabric.Lib.Ranking
import CongestionFabric.Runtime.Serving

namespace CongestionFabric

namespace CoordinatorNode

variable {n : CoordinatorNode} {c : Nat} {s s' : Session} {answer : ChannelAnswer}

/-- What a connection thread does next after what, and whether its connection is still healthy. -/
inductive Turn (answer : ChannelAnswer) (s s' : Session) : Prop where
  | parted (hwork : s.work = .reading ∨ s.work = .decoding) (hnext : s'.work = .leaving)
  | received (hwork : s.work = .reading) (hsome : answer.received ≠ none)
      (hnext : s'.work = .decoding)
  | emptied (hwork : s.work = .decoding) (hnext : s'.work = .reading)
  | answered (hwork : s.work = .decoding)
      (hnext : s'.work = if answer.delivered then .decoding else .leaving)
  | ingested {batch : EvidenceBatch} (hwork : s.work = .decoding) (hnext : s'.work = .touching batch)
      (hhealthy : s'.healthy = answer.delivered)
  | touched {batch : EvidenceBatch} {domains : List DomainId} (hwork : s.work = .touching batch)
      (hnext : s'.work = .evaluating domains) (hfew : domains.length ≤ kMaxDomainsEvaluatedPerBatch)
      (hhealthy : s'.healthy = s.healthy)
  | evaluated {domain : DomainId} {rest : List DomainId}
      (hwork : s.work = .evaluating (domain :: rest))
      (hnext : s'.work = .planning domain rest ∨ s'.work = .evaluating rest)
      (hhealthy : s'.healthy = s.healthy)
  | planned {domain : DomainId} {rest : List DomainId} (hwork : s.work = .planning domain rest)
      (hnext : s'.work = .evaluating rest) (hhealthy : s'.healthy = s.healthy)
  | finished (hwork : s.work = .evaluating [])
      (hnext : s'.work = if s.healthy then .decoding else .leaving)
  | left (hwork : s.work = .leaving) (hnext : s'.work = .ended)

theorem touchedDomains_length (topology : TopologyIndex) (touched : SortedMap DomainId Unit)
    (samples : List EvidenceSample) (h : touched.size < kMaxDomainsEvaluatedPerBatch) :
    (touchedDomains topology touched samples).length ≤ kMaxDomainsEvaluatedPerBatch := by
  induction samples generalizing touched with
  | nil =>
    show touched.keys.length ≤ _
    unfold SortedMap.keys
    rw [List.length_map]
    exact h.le
  | cons sample rest ih =>
    unfold touchedDomains
    split
    next => exact ih touched h
    next record _ =>
      dsimp only
      split_ifs with hfull
      · have hgrown : (touched.insert record.domain ()).size ≤ touched.size + 1 := by
          rw [SortedMap.size_insert]
          split_ifs <;> omega
        unfold SortedMap.keys
        rw [List.length_map]
        show (touched.insert record.domain ()).size ≤ _
        omega
      · exact ih _ (not_le.mp hfull)

theorem touched_length (n : CoordinatorNode) (batch : EvidenceBatch) :
    (n.touched batch).length ≤ kMaxDomainsEvaluatedPerBatch := by
  unfold CoordinatorNode.touched
  split
  next => exact Nat.zero_le _
  next topology _ => exact touchedDomains_length topology ∅ batch.samples (by decide)

/-- What handling a frame leaves of a connection. -/
theorem handle_turn (hc : c < n.sessions.length) (hwork : s.work = .decoding) (s₁ : Session)
    (frame : Frame) :
    ∃ s', (n.handle c s₁ frame answer.delivered).sessions[c]? = some s' ∧ Turn answer s s' := by
  have hleave : ∀ s₂ : Session, Turn answer s s₂.leave := fun _ => .parted (.inr hwork) rfl
  unfold handle
  split
  next =>
    unfold handleHello
    split
    next => exact ⟨_, put_session hc, hleave _⟩
    next hello _ =>
      dsimp only
      split
      next =>
        refine ⟨_, put_session ?_, .answered hwork rfl⟩
        exact hc
      next => exact ⟨_, called_session hc, hleave _⟩
  next =>
    unfold handleEvidence
    split_ifs
    · exact ⟨_, put_session hc, hleave _⟩
    · split
      next => exact ⟨_, put_session hc, hleave _⟩
      next batch _ =>
        dsimp only
        split
        next => exact ⟨_, called_session hc, .ingested hwork rfl rfl⟩
        next => exact ⟨_, called_session hc, .answered hwork rfl⟩
  next =>
    unfold handleHeartbeat
    dsimp only
    refine ⟨_, put_session ?_, .answered hwork rfl⟩
    split_ifs
    · exact hc
    · exact hc
  next =>
    unfold handleGoodbye
    dsimp only
    refine ⟨_, put_session ?_, hleave _⟩
    show c < (if s₁.registered = true then _ else n).sessions.length
    split_ifs
    · exact hc
    · exact hc
  next => exact ⟨_, put_session hc, .answered hwork rfl⟩

/-- Everything a connection thread can do next. -/
theorem proceed_turn (hs : n.sessions[c]? = some s) (hended : s.work ≠ .ended)
    (answer : ChannelAnswer) :
    ∃ s', (n.proceed c s answer).sessions[c]? = some s' ∧ Turn answer s s' := by
  obtain ⟨hc, _⟩ := List.getElem?_eq_some_iff.mp hs
  unfold proceed
  split
  next hwork =>
    unfold read
    split_ifs
    · exact ⟨_, put_session hc, .parted (.inl hwork) rfl⟩
    · split
      next => exact ⟨_, put_session hc, .parted (.inl hwork) rfl⟩
      next => exact ⟨_, put_session hc, .parted (.inl hwork) rfl⟩
      next bytes _ hreceived =>
        split
        next => exact ⟨_, put_session hc, .parted (.inl hwork) rfl⟩
        next => exact ⟨_, put_session hc, .received hwork (by simp [hreceived]) rfl⟩
  next hwork =>
    unfold decodeNext
    split
    next => exact ⟨_, put_session hc, .parted (.inr hwork) rfl⟩
    next => exact ⟨_, put_session hc, .emptied hwork rfl⟩
    next decoder frame _ =>
      unfold takeFrame
      dsimp only
      split_ifs
      · exact ⟨_, put_session hc, .parted (.inr hwork) rfl⟩
      · exact handle_turn hc hwork _ frame
  next batch hwork =>
    exact ⟨_, put_session hc, .touched hwork rfl (touched_length n batch) rfl⟩
  next hwork => exact ⟨_, put_session hc, .finished hwork rfl⟩
  next domain rest hwork =>
    unfold evaluateNext
    dsimp only
    refine ⟨_, called_session hc, .evaluated hwork ?_ rfl⟩
    split
    · exact .inl rfl
    · exact .inr rfl
  next domain rest hwork => exact ⟨_, called_session hc, .planned hwork rfl rfl⟩
  next hwork =>
    unfold leave
    dsimp only
    split_ifs
    · exact ⟨_, called_session hc, .left hwork rfl⟩
    · exact ⟨_, put_session hc, .left hwork rfl⟩
  next hwork => exact absurd hwork hended

end CoordinatorNode

/-- The domains a connection thread has still to evaluate. -/
def Work.domains : Work → List DomainId
  | .evaluating domains => domains
  | .planning _ rest => rest
  | _ => []

/-- What follows the evaluations of a connection. -/
def Session.afterwards (s : Session) : Nat :=
  if s.healthy then 2 * kMaxDomainsEvaluatedPerBatch + 5 else 2

/-- How many turns a connection thread takes at most to end its loop when its channel has been
cancelled: a frame that it had already read may still lead to evaluations. -/
def Session.turnsLeft (s : Session) : Nat :=
  match s.work with
  | .reading => 2
  | .decoding => 2 * kMaxDomainsEvaluatedPerBatch + 4
  | .touching _ => s.afterwards + 2 * kMaxDomainsEvaluatedPerBatch + 1
  | .evaluating domains => s.afterwards + 2 * domains.length
  | .planning _ rest => s.afterwards + 2 * rest.length + 1
  | .leaving => 1
  | .ended => 0

/-- What a connection thread has still to do after its loop. -/
def WorkerStage.turnsLeft : WorkerStage → Nat
  | .serving => 3
  | .removed => 2
  | .closed => 1
  | .done => 0

/-- How many turns the thread that serves takes at most to have requested the stop itself. -/
def ServingPhase.turnsToStop : ServingPhase → Nat
  | .reaping => 6
  | .counting => 5
  | .admitting _ => 4
  | .spawning _ => 3
  | .accepting _ => 2
  | .leaving => 1
  | _ => 0

theorem ServingPhase.stops_of_turns {phase : ServingPhase} (h : phase.turnsToStop = 0) :
    phase.Stops := by
  cases phase with
  | accepting => cases h
  | reaping => cases h
  | counting => cases h
  | admitting => cases h
  | spawning => cases h
  | leaving => cases h
  | _ => trivial

theorem ServingPhase.turns_of_stops {phase : ServingPhase} (h : phase.Stops) :
    phase.turnsToStop = 0 := by
  cases phase with
  | accepting => exact h.elim
  | reaping => exact h.elim
  | counting => exact h.elim
  | admitting => exact h.elim
  | spawning => exact h.elim
  | leaving => exact h.elim
  | _ => rfl

/-- A channel that has been cancelled ends every read and fails every write. -/
def cutOff : ChannelAnswer := { received := none, delivered := false }

namespace CoordinatorNode

variable {n : CoordinatorNode} {c : Nat} {s s' : Session} {answer : ChannelAnswer}

theorem Turn.domains (h : Turn answer s s')
    (hfew : s.work.domains.length ≤ kMaxDomainsEvaluatedPerBatch) :
    s'.work.domains.length ≤ kMaxDomainsEvaluatedPerBatch := by
  have hnone : ∀ work : Work, work.domains = [] →
      work.domains.length ≤ kMaxDomainsEvaluatedPerBatch := by
    intro work hwork
    rw [hwork]
    exact Nat.zero_le _
  cases h with
  | parted _ hnext => exact hnone _ (by rw [hnext]; rfl)
  | received _ _ hnext => exact hnone _ (by rw [hnext]; rfl)
  | emptied _ hnext => exact hnone _ (by rw [hnext]; rfl)
  | answered _ hnext =>
    refine hnone _ ?_
    rw [hnext]
    split_ifs <;> rfl
  | ingested _ hnext => exact hnone _ (by rw [hnext]; rfl)
  | touched _ hnext hlength =>
    rw [hnext]
    exact hlength
  | evaluated hwork hnext =>
    rw [hwork] at hfew
    have hrest := Nat.le_of_succ_le hfew
    rcases hnext with hnext | hnext
    · rw [hnext]
      exact hrest
    · rw [hnext]
      exact hrest
  | planned hwork hnext =>
    rw [hwork] at hfew
    rw [hnext]
    exact hfew
  | finished _ hnext =>
    refine hnone _ ?_
    rw [hnext]
    split_ifs <;> rfl
  | left _ hnext => exact hnone _ (by rw [hnext]; rfl)

theorem Session.afterwards_congr (h : s'.healthy = s.healthy) : s'.afterwards = s.afterwards := by
  unfold Session.afterwards
  rw [h]

/-- Every turn at a cancelled channel is one fewer. -/
theorem Turn.fewer (h : Turn cutOff s s') : s'.turnsLeft < s.turnsLeft := by
  have hafter : 2 ≤ s.afterwards := by
    unfold Session.afterwards
    split_ifs <;> omega
  cases h with
  | parted hwork hnext =>
    unfold Session.turnsLeft
    rw [hnext]
    rcases hwork with hwork | hwork
    · rw [hwork]
      dsimp only
      omega
    · rw [hwork]
      dsimp only
      omega
  | received _ hsome => exact absurd rfl hsome
  | emptied hwork hnext =>
    unfold Session.turnsLeft
    rw [hwork, hnext]
    dsimp only
    omega
  | answered hwork hnext =>
    have hnext : s'.work = .leaving := hnext
    unfold Session.turnsLeft
    rw [hwork, hnext]
    dsimp only
    omega
  | ingested hwork hnext hhealthy =>
    have hhealthy : s'.healthy = false := hhealthy
    have hafter' : s'.afterwards = 2 := by
      unfold Session.afterwards
      rw [hhealthy]
      rfl
    unfold Session.turnsLeft
    rw [hwork, hnext]
    dsimp only
    omega
  | touched hwork hnext hfew hhealthy =>
    have hsame := Session.afterwards_congr hhealthy
    unfold Session.turnsLeft
    rw [hwork, hnext]
    dsimp only
    omega
  | evaluated hwork hnext hhealthy =>
    have hsame := Session.afterwards_congr hhealthy
    unfold Session.turnsLeft
    rw [hwork]
    rcases hnext with hnext | hnext
    · rw [hnext]
      simp only [List.length_cons]
      omega
    · rw [hnext]
      simp only [List.length_cons]
      omega
  | planned hwork hnext hhealthy =>
    have hsame := Session.afterwards_congr hhealthy
    unfold Session.turnsLeft
    rw [hwork, hnext]
    dsimp only
    omega
  | finished hwork hnext =>
    unfold Session.turnsLeft Session.afterwards
    rw [hwork, hnext]
    cases s.healthy with
    | true => simp
    | false => simp
  | left hwork hnext =>
    unfold Session.turnsLeft
    rw [hwork, hnext]
    dsimp only
    omega

/-- No connection has more domains to evaluate than a batch may touch. -/
def Brief (n : CoordinatorNode) : Prop :=
  ∀ (c : Nat) (session : Session), n.sessions[c]? = some session →
    session.work.domains.length ≤ kMaxDomainsEvaluatedPerBatch

theorem Brief.apply (h : n.Brief) (i : Input) : (n.apply i).Brief := by
  intro c session hs
  by_cases hlt : c < n.sessions.length
  · have hold := List.getElem?_eq_getElem hlt
    have hfew := h c _ hold
    by_cases hi : ∃ answer, i = .session c answer
    · obtain ⟨answer, rfl⟩ := hi
      change (n.advance c answer).sessions[c]? = some session at hs
      unfold advance at hs
      rw [hold] at hs
      dsimp only at hs
      by_cases hended : n.sessions[c].work = .ended
      · rw [proceed_ended n c hended, hold] at hs
        exact Option.some.inj hs ▸ hfew
      · obtain ⟨s', hs', hturn⟩ := proceed_turn hold hended answer
        rw [hs'] at hs
        exact Option.some.inj hs ▸ hturn.domains hfew
    · rw [apply_elsewhere hold fun answer hsame => hi ⟨answer, hsame⟩] at hs
      exact Option.some.inj hs ▸ hfew
  · cases i with
    | accept =>
      have hs : (n.sessions ++ [({} : Session)])[c]? = some session := hs
      rcases Serving.getElem?_snoc hs with hold | ⟨_, rfl⟩
      · exact h c session hold
      · exact Nat.zero_le _
    | session d answer =>
      have hlength := (advance_keeps n d answer).sessions
      obtain ⟨hlt', _⟩ := List.getElem?_eq_some_iff.mp hs
      exact absurd (hlength ▸ hlt') hlt
    | host a =>
      have hlength := congrArg List.length (hostCall_sessions (n := n) a)
      obtain ⟨hlt', _⟩ := List.getElem?_eq_some_iff.mp hs
      exact absurd (hlength ▸ hlt') hlt
    | requestStop => exact h c session hs
    | shutdown => exact h c session hs

end CoordinatorNode

namespace Serving

open CoordinatorNode

variable {s s' : Serving} {c : Nat} {i : Input} {es : List (Event Serving Input)}

def Input.isWorker (c : Nat) : Input → Bool
  | .worker d _ => d == c
  | _ => false

def Input.isServe : Input → Bool
  | .serve _ => true
  | _ => false

def Input.isSweepEnds : Input → Bool
  | .sweepEnds => true
  | _ => false

/-- How many turns the thread of a connection takes at most to finish. -/
def threadTurns (s : Serving) (c : Nat) : Nat :=
  match s.workers[c]?, s.node.sessions[c]? with
  | some w, some session => session.turnsLeft + w.stage.turnsLeft
  | _, _ => 0

theorem threadTurns_eq {w : Worker} {session : Session} (hw : s.workers[c]? = some w)
    (hs : s.node.sessions[c]? = some session) :
    s.threadTurns c = session.turnsLeft + w.stage.turnsLeft := by
  unfold threadTurns
  rw [hw, hs]

theorem takeOn_same (s : Serving) (active : Nat) :
    (s.takeOn active).workers = s.workers ∧ (s.takeOn active).node = s.node ∧
      (s.takeOn active).threads = s.threads ∧ (s.takeOn active).evaluating = s.evaluating := by
  unfold Serving.takeOn
  dsimp only
  split_ifs
  all_goals exact ⟨rfl, rfl, rfl, rfl⟩

theorem threadTurns_same (hworkers : s'.workers[c]? = s.workers[c]?)
    (hsessions : s'.node.sessions[c]? = s.node.sessions[c]?) :
    s'.threadTurns c = s.threadTurns c := by
  unfold threadTurns
  rw [hworkers, hsessions]

theorem setStage_turns {w : Worker} {d : Nat} (hw : s.workers[d]? = some w) (stage : WorkerStage)
    (hfewer : stage.turnsLeft + 1 = w.stage.turnsLeft) (hended : s.node.Ended d) :
    (s.setStage d w stage).threadTurns c ≤ s.threadTurns c - (if d = c then 1 else 0) := by
  by_cases hd : d = c
  · subst hd
    obtain ⟨hlt, _⟩ := List.getElem?_eq_some_iff.mp hw
    obtain ⟨session, hs, _⟩ := hended
    have hset : (s.workers.set d { w with stage })[d]? = some { w with stage } :=
      List.getElem?_set_self hlt
    rw [threadTurns_eq hw hs, threadTurns_eq (s := s.setStage d w stage) hset hs, if_pos rfl]
    dsimp only
    omega
  · rw [if_neg hd]
    have hset : (s.workers.set d { w with stage })[c]? = s.workers[c]? :=
      List.getElem?_set_ne hd
    have hsame : (s.setStage d w stage).threadTurns c = s.threadTurns c :=
      threadTurns_same hset rfl
    omega

/-- A turn of a connection thread at a cancelled channel brings it closer to its end, and no other
thread takes it further away. -/
theorem Step.threadTurns (hstep : Step s i s') (h : Orderly s) (hc : c < s.workers.length)
    (hcut : ∀ answer, i = .worker c answer → answer = cutOff) :
    s'.threadTurns c ≤ s.threadTurns c - (if i.isWorker c then 1 else 0) := by
  have hworker : ∀ d answer, (if (Input.worker d answer).isWorker c = true then 1 else 0) =
      if d = c then 1 else 0 := by
    intro d answer
    show (if (d == c) = true then 1 else 0) = _
    simp only [beq_iff_eq]
  cases hstep.goes with
  | accepted _ hsame =>
    refine (threadTurns_same ?_ ?_).le
    · rw [hsame.workers]
    · rw [hsame.node]
  | @admitted answer active =>
    obtain ⟨hworkers, hnode, _⟩ := takeOn_same s active
    refine (threadTurns_same ?_ ?_).le
    · rw [hworkers]
    · rw [hnode]
  | spawned =>
    exact (threadTurns_same (List.getElem?_append_left hc)
      (List.getElem?_append_left (h.numbered ▸ hc))).le
  | @looped d answer w session hw hs hwork =>
    rw [hworker]
    by_cases hd : d = c
    · subst hd
      obtain rfl := hcut answer rfl
      obtain ⟨session', hs', hturn⟩ := proceed_turn hs hwork cutOff
      have hnext : (s.node.advance d cutOff).sessions[d]? = some session' := by
        unfold advance
        rw [hs]
        exact hs'
      have hfewer := hturn.fewer
      rw [if_pos rfl, threadTurns_eq hw hs,
        threadTurns_eq (s := { s with node := s.node.apply (.session d cutOff) }) hw hnext]
      omega
    · rw [if_neg hd, Nat.sub_zero]
      refine le_of_eq (threadTurns_same rfl ?_)
      show (s.node.advance d answer).sessions[c]? = _
      unfold advance
      rw [hs]
      exact proceed_other hd session answer
  | @removed d answer w hw hended hstage =>
    rw [hworker]
    have hremoved : (s.removeConnection w.id).workers[d]? = some w := hw
    exact setStage_turns hremoved .removed (by rw [hstage]; rfl) hended
  | @parted d answer w stage hw hended hstage =>
    rw [hworker]
    refine setStage_turns hw stage ?_ hended
    rcases hstage with ⟨hstage, rfl⟩ | ⟨hstage, rfl⟩
    · rw [hstage]
      rfl
    · rw [hstage]
      rfl
  | @gone d answer hgone =>
    rw [hworker]
    by_cases hd : d = c
    · subst hd
      have hzero : s.threadTurns d = 0 := by
        unfold Serving.threadTurns
        split
        next w session hw hs =>
          obtain ⟨hwork, hstage⟩ := hgone w session hw hs
          unfold Session.turnsLeft
          rw [hwork, hstage]
          rfl
        next => rfl
      omega
    · rw [if_neg hd]
      exact le_rfl
  | swept domain =>
    have hsessions := hostCall_sessions (n := s.node) (.evaluate domain {})
    exact le_of_eq (threadTurns_same rfl (congrArg (fun l => l[c]?) hsessions))
  | @hosted a ha =>
    have hsessions := hostCall_sessions (n := s.node) a
    exact le_of_eq (threadTurns_same rfl (congrArg (fun l => l[c]?) hsessions))
  | _ => exact (threadTurns_same rfl rfl).le

/-- Threads are started only, and only while the loop accepts. -/
theorem Step.workers (hstep : Step s i s') :
    s'.workers.length = s.workers.length ∨
      (∃ id, s.phase = .spawning id) ∧ s'.workers.length = s.workers.length + 1 := by
  cases hstep.goes with
  | accepted _ hsame => exact .inl (congrArg List.length hsame.workers)
  | @admitted answer active => exact .inl (congrArg List.length (takeOn_same s active).1)
  | @spawned answer id hphase => exact .inr ⟨⟨id, hphase⟩, List.length_append⟩
  | removed => exact .inl List.length_set
  | parted => exact .inl List.length_set
  | _ => exact .inl rfl

theorem Step.brief (hstep : Step s i s') (h : Orderly s) (hbrief : s.node.Brief) :
    s'.node.Brief := by
  rcases (hstep.serves h).node with hsame | ⟨j, ⟨_, hnode⟩, _⟩
  · rwa [hsame]
  · rw [← hnode]
    exact hbrief.apply j

theorem Step.stopping (hstep : Step s i s') (h : Orderly s) (hstop : s.node.stopping = true) :
    s'.node.stopping = true := by
  rcases (hstep.serves h).node with hsame | ⟨j, ⟨hallowed, hnode⟩, _⟩
  · rwa [hsame]
  · rw [← hnode]
    cases j with
    | accept => exact hstop
    | session c answer => exact (advance_keeps s.node c answer).stopping.trans hstop
    | host a => exact (hostCall_keeps hallowed).stopping.trans hstop
    | requestStop => rfl
    | shutdown => exact hstop

/-- Once the stop has been requested the accept loop comes to its end. -/
theorem Step.turnsToStop (hstep : Step s i s') (hstop : s.node.stopping = true) :
    s'.phase.turnsToStop ≤ s.phase.turnsToStop - (if i.isServe then 1 else 0) := by
  cases hstep.goes with
  | @accepted answer s' failures hphase _ hnext =>
    rw [hphase]
    rcases hnext with hnext | ⟨hrunning, _⟩
    · rw [hnext]
      exact le_rfl
    · rw [hstop] at hrunning
      cases hrunning
  | @admitted answer active hphase =>
    have hturn : (s.takeOn active).phase.turnsToStop ≤ 3 := by
      unfold Serving.takeOn
      by_cases hfull : active ≥ s.maxConnections
      · rw [if_pos hfull]
        show 2 ≤ 3
        omega
      · rw [if_neg hfull]
        exact le_rfl
    rw [hphase]
    exact hturn
  | draining hphase =>
    show s.phase.turnsToStop ≤ _
    rcases hphase with hphase | hphase
    · rw [hphase]
      exact le_rfl
    · rw [hphase]
      exact le_rfl
  | looped => exact le_rfl
  | removed => exact le_rfl
  | parted => exact le_rfl
  | gone => exact le_rfl
  | swept => exact le_rfl
  | sweptOut => exact le_rfl
  | hosted => exact le_rfl
  | asked => exact le_rfl
  | _ hphase =>
    rw [hphase]
    exact le_rfl

/-- Past the accept loop no thread is started. -/
theorem Step.stops (hstep : Step s i s') (h : Orderly s) (hstops : s.phase.Stops) :
    s'.phase.Stops ∧ s'.workers.length = s.workers.length := by
  have hturn := hstep.turnsToStop (h.stop hstops)
  have hzero := ServingPhase.turns_of_stops hstops
  refine ⟨ServingPhase.stops_of_turns (by omega), ?_⟩
  rcases hstep.workers with hsame | ⟨⟨id, hspawn⟩, _⟩
  · exact hsame
  · rw [hspawn] at hstops
    exact hstops.elim

theorem Step.evaluating (hstep : Step s i s') :
    s'.evaluating = if i.isSweepEnds then false else s.evaluating := by
  cases hstep.goes with
  | accepted _ hsame => exact hsame.evaluating
  | @admitted answer active => exact (takeOn_same s active).2.2.2
  | _ => rfl

/-- Nothing is left to be waited for. -/
structure Ending (s : Serving) : Prop where
  orderly : Orderly s
  stops : s.phase.Stops
  alone : s.evaluating = false
  finished : ∀ c < s.workers.length, s.finished c = true

/-- How many turns the thread that serves takes at most to its end when nothing is left to be waited
for. -/
def turnsToClose (s : Serving) : Nat :=
  match s.phase with
  | .joining => 6
  | .draining => if s.threads = [] then 4 else 5
  | .returned => 3
  | .stopping => 2
  | .closing => 1
  | _ => 0

theorem Ending.reaped (h : Ending s) : s.reapFinishedThreads.threads = [] := by
  unfold reapFinishedThreads
  dsimp only
  refine List.filter_eq_nil_iff.mpr fun c hc => ?_
  rw [h.finished c (h.orderly.started c hc)]
  exact Bool.false_ne_true

/-- A thread that has finished stays so. -/
theorem Step.finished (hstep : Step s i s') (h : s.finished c = true) : s'.finished c = true := by
  have hset : ∀ (d : Nat) (w : Worker) (stage : WorkerStage), s.workers[d]? = some w →
      w.stage ≠ .done → (s.setStage d w stage).finished c = true := by
    intro d w stage hw hdone
    have hne : d ≠ c := by
      rintro rfl
      unfold Serving.finished at h
      rw [hw] at h
      exact hdone (by simpa using h)
    unfold Serving.finished at h ⊢
    show ((s.workers.set d { w with stage })[c]?).any _ = true
    rw [List.getElem?_set_ne hne]
    exact h
  have hsame : s'.workers = s.workers → s'.finished c = true := by
    intro hworkers
    unfold Serving.finished
    rw [hworkers]
    exact h
  cases hstep.goes with
  | accepted _ hthreads => exact hsame hthreads.workers
  | @admitted answer active => exact hsame (takeOn_same s active).1
  | @spawned answer id =>
    have hlt : c < s.workers.length := by
      by_contra hge
      unfold Serving.finished at h
      rw [List.getElem?_eq_none (not_lt.mp hge)] at h
      cases h
    unfold Serving.finished at h ⊢
    show ((s.workers ++ [({ id } : Worker)])[c]?).any _ = true
    rw [List.getElem?_append_left hlt]
    exact h
  | @removed d answer w hw _ hstage => exact hset d w .removed hw (by simp [hstage])
  | @parted d answer w stage hw _ hstage =>
    refine hset d w stage hw ?_
    rcases hstage with ⟨hstage, _⟩ | ⟨hstage, _⟩
    · simp [hstage]
    · simp [hstage]
  | _ => exact hsame rfl

/-- When nothing is left to be waited for, every turn of the thread that serves counts. -/
theorem Step.turnsToClose (hstep : Step s i s') (h : Ending s) :
    s'.turnsToClose ≤ s.turnsToClose - (if i.isServe then 1 else 0) := by
  have hstops := h.stops
  have hsame : s'.phase = s.phase → s'.threads = s.threads → s'.turnsToClose = s.turnsToClose := by
    intro hphase hthreads
    unfold Serving.turnsToClose
    rw [hphase, hthreads]
  cases hstep.goes with
  | accepted hphase =>
    rw [hphase] at hstops
    exact hstops.elim
  | reaped hphase =>
    rw [hphase] at hstops
    exact hstops.elim
  | counted hphase =>
    rw [hphase] at hstops
    exact hstops.elim
  | admitted hphase =>
    rw [hphase] at hstops
    exact hstops.elim
  | spawned hphase =>
    rw [hphase] at hstops
    exact hstops.elim
  | left hphase =>
    rw [hphase] at hstops
    exact hstops.elim
  | waited _ hevaluating =>
    rw [h.alone] at hevaluating
    cases hevaluating
  | joined hphase =>
    unfold Serving.turnsToClose
    rw [hphase]
    dsimp only
    split_ifs
    all_goals simp
  | draining hphase hsome =>
    rcases hphase with hphase | hphase
    · unfold Serving.turnsToClose
      have hnext : s.reapFinishedThreads.phase = .draining := hphase
      rw [hnext, hphase]
      dsimp only
      rw [if_pos h.reaped, if_neg hsome]
      simp [Input.isServe]
    · exact absurd (h.orderly.drained (hphase ▸ trivial)) hsome
  | drained hphase hnone =>
    unfold Serving.turnsToClose
    rw [hphase]
    dsimp only
    rw [if_pos hnone]
    simp [Input.isServe]
  | returned hphase =>
    unfold Serving.turnsToClose
    rw [hphase]
    exact le_rfl
  | stopped hphase =>
    unfold Serving.turnsToClose
    rw [hphase]
    exact le_rfl
  | shut hphase =>
    unfold Serving.turnsToClose
    rw [hphase]
    exact le_rfl
  | idled hphase =>
    unfold Serving.turnsToClose
    rw [hphase]
    exact le_rfl
  | _ => exact le_of_eq (hsame rfl rfl)

theorem Ending.closed (h : Ending s) (hzero : s.turnsToClose = 0) : s.phase = .closed := by
  have hstops := h.stops
  unfold Serving.turnsToClose at hzero
  generalize s.phase = phase at hstops hzero
  cases phase with
  | joining => cases hzero
  | draining =>
    dsimp only at hzero
    split_ifs at hzero
  | returned => cases hzero
  | stopping => cases hzero
  | closing => cases hzero
  | closed => rfl
  | _ => exact hstops.elim

/-- A process at its end has closed the fabric. -/
theorem Step.shut (hstep : Step s i s')
    (h : s.phase = .closed → s.node.fabric.closed = true) (hclosed : s'.phase = .closed) :
    s'.node.fabric.closed = true := by
  cases hstep.goes with
  | accepted _ _ hnext =>
    rcases hnext with hnext | ⟨_, hnext | ⟨_, hnext⟩⟩
    all_goals simp [hclosed] at hnext
  | @admitted answer active hphase =>
    unfold Serving.takeOn at hclosed
    dsimp only at hclosed
    split_ifs at hclosed
  | draining => exact h hclosed
  | waited => exact h hclosed
  | shut => rfl
  | idled => exact h hclosed
  | @looped c answer => exact (advance_keeps s.node c answer).closed.trans (h hclosed)
  | removed => exact h hclosed
  | parted => exact h hclosed
  | gone => exact h hclosed
  | swept domain =>
    have hkeeps : Keeps s.node (s.node.hostCall (.evaluate domain {})) := by
      refine hostCall_keeps fun hclose => ?_
      cases hclose
    exact hkeeps.closed.trans (h hclosed)
  | sweptOut => exact h hclosed
  | hosted ha => exact (hostCall_keeps ha).closed.trans (h hclosed)
  | asked => exact h hclosed
  | _ => cases hclosed

variable {fabric : Fabric} {maxFrames periodMs : UInt64} {maxConnections : Nat}
  {es₀ es₁ es₂ es₃ : List (Event Serving Input)} {s₁ s₂ s₃ : Serving}

end Serving

end CongestionFabric
