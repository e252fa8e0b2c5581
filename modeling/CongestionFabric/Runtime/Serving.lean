import CongestionFabric.Runtime.Departure
import CongestionFabric.Runtime.ExchangeSession

namespace CongestionFabric

/-- Consecutive failures to accept that end the loop when they are exceeded. -/
def kMaxAcceptFailures : UInt32 := 64

/-- What the listener answers to an accept. -/
inductive AcceptAnswer where
  | channel
  | failed (status : Status)

/-- How far a connection thread is. -/
inductive WorkerStage where
  | serving
  | removed
  | closed
  | done
  deriving DecidableEq

/-- A connection thread, that runs the session of the same number. -/
structure Worker where
  id : UInt64
  stage : WorkerStage := .serving

/-- Where the thread stands that calls `run` and then `stop`. -/
inductive ServingPhase where
  | accepting (failures : UInt32)
  | reaping
  | counting
  | admitting (active : Nat)
  | spawning (id : UInt64)
  | leaving
  | joining
  | draining
  | returned
  | stopping
  | closing
  | closed
  deriving DecidableEq

/-- The process of a coordinator. The threads are the numbers of the connections whose thread was not
joined yet, the registry names a channel by the number of its connection. How many connection ids were
given out is history. -/
structure Serving where
  node : CoordinatorNode
  maxConnections : Nat := 32
  evaluationPeriodMs : UInt64 := 50
  phase : ServingPhase := .accepting 0
  workers : List Worker := []
  threads : List Nat := []
  registry : List (UInt64 × Nat) := []
  nextConnection : UInt64 := 1
  evaluating : Bool := true
  connectionsAccepted : UInt64 := 0
  acceptFailures : UInt64 := 0
  acceptAbandoned : UInt64 := 0
  lastAcceptError : String := ""
  admitted : Nat := 0

namespace Serving

open Fabric CoordinatorNode

variable (s : Serving)

/-- The completion flag of a connection thread. -/
def finished (c : Nat) : Bool := (s.workers[c]?).any fun w => decide (w.stage = .done)

def addConnection (id : UInt64) (channel : Nat) : Serving :=
  { s with registry := s.registry ++ [(id, channel)] }

def removeConnection (id : UInt64) : Serving :=
  { s with registry := s.registry.filter fun entry => entry.1 ≠ id }

def reapFinishedThreads : Serving :=
  { s with threads := s.threads.filter fun c => !s.finished c }

/-- A failed accept. -/
def acceptFailed (failures : UInt32) (status : Status) : Serving :=
  if status.code = .cancelled ∨ status.code = .closed then { s with phase := .leaving }
  else if status.code = .unavailable then
    { s with acceptAbandoned := s.acceptAbandoned + 1, phase := .accepting 0 }
  else
    { s with
      acceptFailures := s.acceptFailures + 1
      lastAcceptError := status.describe
      phase := if failures + 1 > kMaxAcceptFailures then .leaving else .accepting (failures + 1) }

/-- An accepted connection is refused when there are too many threads, and gets one otherwise. -/
def takeOn (active : Nat) : Serving :=
  let id := s.nextConnection
  let given := { s with nextConnection := id + 1, admitted := s.admitted + 1 }
  if active ≥ s.maxConnections then { given with phase := .accepting 0 }
  else
    { given.addConnection id s.workers.length with
      connectionsAccepted := s.connectionsAccepted + 1
      phase := .spawning id }

def spawn (id : UInt64) : Serving :=
  { s with
    node := s.node.apply .accept
    workers := s.workers ++ [{ id }]
    threads := s.threads ++ [s.workers.length]
    phase := .accepting 0 }

/-- The next step of the thread that serves: `accept_loop`, then the rest of `run`, then `stop`. -/
def serve (answer : AcceptAnswer) : Serving :=
  match s.phase with
  | .accepting failures =>
    if s.node.stopping then { s with phase := .leaving }
    else match answer with
      | .channel => { s with phase := .reaping }
      | .failed status => s.acceptFailed failures status
  | .reaping => { s.reapFinishedThreads with phase := .counting }
  | .counting => { s with phase := .admitting s.threads.length }
  | .admitting active => s.takeOn active
  | .spawning id => s.spawn id
  | .leaving => { s with node := s.node.apply .requestStop, phase := .joining }
  -- joining the evaluation thread waits for its end
  | .joining => if s.evaluating then s else { s.reapFinishedThreads with phase := .draining }
  | .draining =>
    if s.threads = [] then { s with phase := .returned } else s.reapFinishedThreads
  | .returned => { s with node := s.node.apply .requestStop, phase := .stopping }
  | .stopping =>
    if s.threads = [] then { s with phase := .closing } else s.reapFinishedThreads
  | .closing => { s with node := s.node.apply .shutdown, phase := .closed }
  | .closed => s

def setStage (c : Nat) (w : Worker) (stage : WorkerStage) : Serving :=
  { s with workers := s.workers.set c { w with stage } }

/-- The next step of a connection thread: its loop, and when that has ended the registry, the channel
and the completion flag. -/
def work (c : Nat) (answer : ChannelAnswer) : Serving :=
  match s.workers[c]?, s.node.sessions[c]? with
  | some w, some session =>
    if session.work ≠ .ended then { s with node := s.node.apply (.session c answer) }
    else match w.stage with
      | .serving => (s.removeConnection w.id).setStage c w .removed
      | .removed => s.setStage c w .closed
      | .closed => s.setStage c w .done
      | .done => s
  | _, _ => s

/-- What happens to the process. -/
inductive Input where
  | serve (answer : AcceptAnswer)
  | worker (c : Nat) (answer : ChannelAnswer)
  | sweep (domain : DomainId)
  | sweepEnds
  | host (a : Action)
  | requestStop

/-- The evaluation thread evaluates as long as it runs, and ends when it is told to or has no period. No
other thread closes the fabric. -/
def Allows : Input → Prop
  | .sweep _ => s.evaluating = true ∧ s.evaluationPeriodMs ≠ 0
  | .sweepEnds => s.node.stopping = true ∨ s.evaluationPeriodMs = 0
  | .host a => a ≠ .close
  | _ => True

def apply : Input → Serving
  | .serve answer => s.serve answer
  | .worker c answer => s.work c answer
  | .sweep domain => { s with node := s.node.apply (.host (.evaluate domain {})) }
  | .sweepEnds => { s with evaluating := false }
  | .host a => { s with node := s.node.apply (.host a) }
  | .requestStop => { s with node := s.node.apply .requestStop }

def Step (s : Serving) (i : Input) (s' : Serving) : Prop := s.Allows i ∧ s.apply i = s'

def starting (fabric : Fabric) (maxFramesPerConnection : UInt64) (maxConnections : Nat)
    (evaluationPeriodMs : UInt64) : Serving where
  node := CoordinatorNode.starting fabric maxFramesPerConnection
  maxConnections
  evaluationPeriodMs

end Serving

namespace CoordinatorNode

open Fabric

variable {n n' : CoordinatorNode} {c : Nat} {session : Session} {i : Input}

/-- The connection has left its loop for good. -/
def Ended (n : CoordinatorNode) (c : Nat) : Prop :=
  ∃ session, n.sessions[c]? = some session ∧ session.work = .ended

/-- What an input leaves of the number of the connections, of the request to stop and of a fabric that
is open. -/
structure Keeps (n n' : CoordinatorNode) : Prop where
  sessions : n'.sessions.length = n.sessions.length
  stopping : n'.stopping = n.stopping
  closed : n'.fabric.closed = n.fabric.closed

theorem Keeps.put (n : CoordinatorNode) (c : Nat) (session : Session) :
    Keeps n (n.put c session) :=
  ⟨List.length_set, rfl, rfl⟩

theorem Keeps.called {a : Action} (ha : a ≠ .close) (c : Nat) (session : Session) :
    Keeps n ((n.call a).put c session) :=
  ⟨List.length_set, rfl, World.act_closed n.world ha⟩

theorem proceed_keeps (n : CoordinatorNode) (c : Nat) (session : Session) (answer : ChannelAnswer) :
    Keeps n (n.proceed c session answer) := by
  by_cases hloop : session.InLoop
  · have hmove := proceed_move n c hloop answer
    generalize n.proceed c session answer = n' at hmove
    cases hmove with
    | kept => exact .put n c _
    | called _ ha => exact .called (Plain.ne_close ha) c _
    | refused =>
      refine .called ?_ c _
      intro h
      cases h
    | greeted =>
      refine ⟨List.length_set, rfl, World.act_closed n.world ?_⟩
      intro h
      cases h
    | farewell _ _ hcalled =>
      rcases hcalled with rfl | ⟨_, rfl⟩
      · exact ⟨List.length_set, rfl, rfl⟩
      · refine ⟨List.length_set, rfl, World.act_closed n.world ?_⟩
        intro h
        cases h
  · by_cases hleaving : session.work = .leaving
    · rw [proceed_leaving n c hleaving]
      unfold leave
      dsimp only
      split
      · refine .called ?_ c _
        intro h
        cases h
      · exact .put n c _
    · have hended : session.work = .ended := by
        by_contra hnot
        exact hloop ⟨hleaving, hnot⟩
      rw [proceed_ended n c hended]
      exact ⟨rfl, rfl, rfl⟩

theorem advance_keeps (n : CoordinatorNode) (c : Nat) (answer : ChannelAnswer) :
    Keeps n (n.advance c answer) := by
  unfold advance
  split
  next => exact ⟨rfl, rfl, rfl⟩
  next session _ => exact proceed_keeps n c session answer

theorem hostCall_keeps {a : Action} (ha : a ≠ .close) : Keeps n (n.hostCall a) := by
  have hclosed : (n.call a).fabric.closed = n.fabric.closed := World.act_closed n.world ha
  refine ⟨congrArg List.length (hostCall_sessions a), ?_, ?_⟩
  · unfold hostCall
    split
    next =>
      split
      · rfl
      · rfl
    next => rfl
  · unfold hostCall
    split
    next =>
      split
      · exact hclosed
      · exact hclosed
    next => exact hclosed

/-- A connection that has ended stays so. -/
theorem Ended.apply (h : n.Ended c) (i : Input) : (n.apply i).Ended c := by
  obtain ⟨session, hs, hended⟩ := h
  by_cases hi : ∃ answer, i = .session c answer
  · obtain ⟨answer, rfl⟩ := hi
    refine ⟨session, ?_, hended⟩
    show (n.advance c answer).sessions[c]? = _
    unfold advance
    rw [hs]
    dsimp only
    rw [proceed_ended n c hended]
    exact hs
  · exact ⟨session, apply_elsewhere hs fun answer h => hi ⟨answer, h⟩, hended⟩

end CoordinatorNode

namespace ServingPhase

/-- The accept loop is over and the stop has been requested. -/
def Stops : ServingPhase → Prop
  | .joining | .draining | .returned | .stopping | .closing | .closed => True
  | _ => False

/-- The evaluation thread has been joined. -/
def Joined : ServingPhase → Prop
  | .draining | .returned | .stopping | .closing | .closed => True
  | _ => False

/-- Every connection thread has been joined. -/
def Drained : ServingPhase → Prop
  | .returned | .stopping | .closing | .closed => True
  | _ => False

end ServingPhase

namespace Serving

open CoordinatorNode

variable {s s' : Serving} {n' : CoordinatorNode} {c : Nat} {i : Input} {phase : ServingPhase}

/-- The thread that serves has moved on, and touched no thread. -/
structure SameThreads (s s' : Serving) : Prop where
  node : s'.node = s.node
  workers : s'.workers = s.workers
  threads : s'.threads = s.threads
  registry : s'.registry = s.registry
  maxConnections : s'.maxConnections = s.maxConnections
  evaluating : s'.evaluating = s.evaluating
  nextConnection : s'.nextConnection = s.nextConnection
  admitted : s'.admitted = s.admitted

/-- Everything the process can do, thread by thread. -/
inductive Goes (s : Serving) : Input → Serving → Prop where
  | accepted {answer : AcceptAnswer} {s' : Serving} {failures : UInt32}
      (hphase : s.phase = .accepting failures) (hsame : SameThreads s s')
      (hnext : s'.phase = .leaving ∨ s.node.stopping = false ∧
        (s'.phase = .reaping ∨ ∃ failures', s'.phase = .accepting failures')) :
      Goes s (.serve answer) s'
  | reaped {answer : AcceptAnswer} (hphase : s.phase = .reaping) :
      Goes s (.serve answer) { s.reapFinishedThreads with phase := .counting }
  | counted {answer : AcceptAnswer} (hphase : s.phase = .counting) :
      Goes s (.serve answer) { s with phase := .admitting s.threads.length }
  | admitted {answer : AcceptAnswer} {active : Nat} (hphase : s.phase = .admitting active) :
      Goes s (.serve answer) (s.takeOn active)
  | spawned {answer : AcceptAnswer} {id : UInt64} (hphase : s.phase = .spawning id) :
      Goes s (.serve answer) (s.spawn id)
  | left {answer : AcceptAnswer} (hphase : s.phase = .leaving) :
      Goes s (.serve answer) { s with node := s.node.apply .requestStop, phase := .joining }
  | waited {answer : AcceptAnswer} (hphase : s.phase = .joining) (hevaluating : s.evaluating = true) :
      Goes s (.serve answer) s
  | joined {answer : AcceptAnswer} (hphase : s.phase = .joining)
      (hevaluating : s.evaluating = false) :
      Goes s (.serve answer) { s.reapFinishedThreads with phase := .draining }
  | draining {answer : AcceptAnswer} (hphase : s.phase = .draining ∨ s.phase = .stopping)
      (hsome : s.threads ≠ []) : Goes s (.serve answer) s.reapFinishedThreads
  | drained {answer : AcceptAnswer} (hphase : s.phase = .draining) (hnone : s.threads = []) :
      Goes s (.serve answer) { s with phase := .returned }
  | returned {answer : AcceptAnswer} (hphase : s.phase = .returned) :
      Goes s (.serve answer) { s with node := s.node.apply .requestStop, phase := .stopping }
  | stopped {answer : AcceptAnswer} (hphase : s.phase = .stopping) (hnone : s.threads = []) :
      Goes s (.serve answer) { s with phase := .closing }
  | shut {answer : AcceptAnswer} (hphase : s.phase = .closing) :
      Goes s (.serve answer) { s with node := s.node.apply .shutdown, phase := .closed }
  | idled {answer : AcceptAnswer} (hphase : s.phase = .closed) : Goes s (.serve answer) s
  | looped {c : Nat} {answer : ChannelAnswer} {w : Worker} {session : Session}
      (hw : s.workers[c]? = some w) (hs : s.node.sessions[c]? = some session)
      (hwork : session.work ≠ .ended) :
      Goes s (.worker c answer) { s with node := s.node.apply (.session c answer) }
  | removed {c : Nat} {answer : ChannelAnswer} {w : Worker} (hw : s.workers[c]? = some w)
      (hended : s.node.Ended c) (hstage : w.stage = .serving) :
      Goes s (.worker c answer) ((s.removeConnection w.id).setStage c w .removed)
  | parted {c : Nat} {answer : ChannelAnswer} {w : Worker} {stage : WorkerStage}
      (hw : s.workers[c]? = some w) (hended : s.node.Ended c)
      (hstage : w.stage = .removed ∧ stage = .closed ∨ w.stage = .closed ∧ stage = .done) :
      Goes s (.worker c answer) (s.setStage c w stage)
  | gone {c : Nat} {answer : ChannelAnswer}
      (hgone : ∀ w session, s.workers[c]? = some w → s.node.sessions[c]? = some session →
        session.work = .ended ∧ w.stage = .done) :
      Goes s (.worker c answer) s
  | swept (domain : DomainId) :
      Goes s (.sweep domain) { s with node := s.node.apply (.host (.evaluate domain {})) }
  | sweptOut : Goes s .sweepEnds { s with evaluating := false }
  | hosted {a : Fabric.Action} (ha : a ≠ .close) :
      Goes s (.host a) { s with node := s.node.apply (.host a) }
  | asked : Goes s .requestStop { s with node := s.node.apply .requestStop }

theorem serve_goes (s : Serving) (answer : AcceptAnswer) :
    Goes s (.serve answer) (s.serve answer) := by
  unfold Serving.serve
  split
  next failures hphase =>
    split_ifs with hstopping
    · exact .accepted hphase ⟨rfl, rfl, rfl, rfl, rfl, rfl, rfl, rfl⟩ (.inl rfl)
    · have hstopping := Bool.eq_false_iff.mpr hstopping
      cases answer with
      | channel =>
        exact .accepted hphase ⟨rfl, rfl, rfl, rfl, rfl, rfl, rfl, rfl⟩
          (.inr ⟨hstopping, .inl rfl⟩)
      | failed status =>
        dsimp only
        unfold Serving.acceptFailed
        split_ifs
        · exact .accepted hphase ⟨rfl, rfl, rfl, rfl, rfl, rfl, rfl, rfl⟩ (.inl rfl)
        · exact .accepted hphase ⟨rfl, rfl, rfl, rfl, rfl, rfl, rfl, rfl⟩
            (.inr ⟨hstopping, .inr ⟨_, rfl⟩⟩)
        · exact .accepted hphase ⟨rfl, rfl, rfl, rfl, rfl, rfl, rfl, rfl⟩ (.inl rfl)
        · exact .accepted hphase ⟨rfl, rfl, rfl, rfl, rfl, rfl, rfl, rfl⟩
            (.inr ⟨hstopping, .inr ⟨_, rfl⟩⟩)
  next hphase => exact .reaped hphase
  next hphase => exact .counted hphase
  next active hphase => exact .admitted hphase
  next id hphase => exact .spawned hphase
  next hphase => exact .left hphase
  next hphase =>
    split_ifs with hevaluating
    · exact .waited hphase hevaluating
    · exact .joined hphase (Bool.eq_false_iff.mpr hevaluating)
  next hphase =>
    split_ifs with hnone
    · exact .drained hphase hnone
    · exact .draining (.inl hphase) hnone
  next hphase => exact .returned hphase
  next hphase =>
    split_ifs with hnone
    · exact .stopped hphase hnone
    · exact .draining (.inr hphase) hnone
  next hphase => exact .shut hphase
  next hphase => exact .idled hphase

theorem work_goes (s : Serving) (c : Nat) (answer : ChannelAnswer) :
    Goes s (.worker c answer) (s.work c answer) := by
  unfold Serving.work
  split
  next w session hw hs =>
    split_ifs with hwork
    · exact .looped hw hs hwork
    · have hwork := not_not.mp hwork
      split
      next hstage => exact .removed hw ⟨session, hs, hwork⟩ hstage
      next hstage => exact .parted hw ⟨session, hs, hwork⟩ (.inl ⟨hstage, rfl⟩)
      next hstage => exact .parted hw ⟨session, hs, hwork⟩ (.inr ⟨hstage, rfl⟩)
      next hstage =>
        refine .gone fun w' session' hw' hs' => ?_
        obtain rfl := Option.some.inj (hw.symm.trans hw')
        obtain rfl := Option.some.inj (hs.symm.trans hs')
        exact ⟨hwork, hstage⟩
  next hnone => exact .gone fun w session hw hs => (hnone w session hw hs).elim

theorem Step.goes (h : Step s i s') : Goes s i s' := by
  obtain ⟨hallowed, rfl⟩ := h
  cases i with
  | serve answer => exact serve_goes s answer
  | worker c answer => exact work_goes s c answer
  | sweep domain => exact .swept domain
  | sweepEnds => exact .sweptOut
  | host a => exact .hosted hallowed
  | requestStop => exact .asked

/-- The channel of the registry is that of a connection thread that has not left the registry, or of the
one that is about to be started. -/
def Known (s : Serving) (entry : UInt64 × Nat) : Prop :=
  (∃ w, s.workers[entry.2]? = some w ∧ w.id = entry.1 ∧ w.stage = .serving) ∨
    s.phase = .spawning entry.1 ∧ entry.2 = s.workers.length

/-- What holds between the threads of the process. -/
structure Orderly (s : Serving) : Prop where
  numbered : s.workers.length = s.node.sessions.length
  nodup : s.threads.Nodup
  started : ∀ c ∈ s.threads, c < s.workers.length
  joined : ∀ c < s.workers.length, c ∉ s.threads → s.finished c = true
  staged : ∀ c w, s.workers[c]? = some w → w.stage ≠ .serving → s.node.Ended c
  stop : s.phase.Stops → s.node.stopping = true
  alone : s.phase.Joined → s.evaluating = false
  drained : s.phase.Drained → s.threads = []
  bounded : s.threads.length ≤ s.maxConnections
  counted : ∀ active, s.phase = .admitting active → s.threads.length = active
  room : ∀ id, s.phase = .spawning id → s.threads.length < s.maxConnections
  known : ∀ entry ∈ s.registry, s.Known entry
  closed : s.node.fabric.closed = true → s.phase = .closed

theorem Orderly.node (h : Orderly s) (hlength : n'.sessions.length = s.node.sessions.length)
    (hended : ∀ c, s.node.Ended c → n'.Ended c)
    (hstopping : s.node.stopping = true → n'.stopping = true)
    (hclosed : n'.fabric.closed = true → s.node.fabric.closed = true) :
    Orderly { s with node := n' } where
  numbered := h.numbered.trans hlength.symm
  nodup := h.nodup
  started := h.started
  joined := h.joined
  staged := fun c w hw hstage => hended c (h.staged c w hw hstage)
  stop := fun hstops => hstopping (h.stop hstops)
  alone := h.alone
  drained := h.drained
  bounded := h.bounded
  counted := h.counted
  room := h.room
  known := h.known
  closed := fun hopen => h.closed (hclosed hopen)

/-- The thread that serves goes on to a phase in which it starts no connection thread. -/
theorem Orderly.goOn (h : Orderly s) (hsame : SameThreads s s')
    (hwas : ∀ id, s.phase ≠ .spawning id) (hopen : s.phase ≠ .closed)
    (hspawning : ∀ id, s'.phase ≠ .spawning id)
    (hcounted : ∀ active, s'.phase = .admitting active → s.threads.length = active)
    (hstop : s'.phase.Stops → s.node.stopping = true)
    (halone : s'.phase.Joined → s.evaluating = false)
    (hdrained : s'.phase.Drained → s.threads = []) : Orderly s' := by
  obtain ⟨hnode, hworkers, hthreads, hregistry, hmax, hevaluating, _, _⟩ := hsame
  have hfinished : ∀ c, s'.finished c = s.finished c := by
    intro c
    unfold finished
    rw [hworkers]
  constructor
  · rw [hworkers, hnode]
    exact h.numbered
  · rw [hthreads]
    exact h.nodup
  · rw [hthreads, hworkers]
    exact h.started
  · intro c hc hnone
    rw [hworkers] at hc
    rw [hthreads] at hnone
    rw [hfinished]
    exact h.joined c hc hnone
  · rw [hworkers, hnode]
    exact h.staged
  · rw [hnode]
    exact hstop
  · rw [hevaluating]
    exact halone
  · rw [hthreads]
    exact hdrained
  · rw [hthreads, hmax]
    exact h.bounded
  · rw [hthreads]
    exact hcounted
  · intro id hid
    exact absurd hid (hspawning id)
  · intro entry hentry
    rw [hregistry] at hentry
    rcases h.known entry hentry with hworker | ⟨hspawn, _⟩
    · left
      rwa [hworkers]
    · exact absurd hspawn (hwas _)
  · intro hclosed
    rw [hnode] at hclosed
    exact absurd (h.closed hclosed) hopen

/-- Joining the threads that have finished. -/
theorem Orderly.reap (h : Orderly s) (hcounted : ∀ active, s.phase ≠ .admitting active) :
    Orderly s.reapFinishedThreads := by
  have hfewer : (s.threads.filter fun c => !s.finished c).length ≤ s.threads.length :=
    List.length_filter_le _ _
  constructor
  · exact h.numbered
  · exact h.nodup.filter _
  · intro c hc
    exact h.started c (List.mem_of_mem_filter hc)
  · intro c hc hnone
    by_cases hthread : c ∈ s.threads
    · by_contra hrunning
      refine hnone (List.mem_filter.mpr ⟨hthread, ?_⟩)
      have hrunning : s.finished c = false := Bool.eq_false_iff.mpr hrunning
      rw [hrunning]
      rfl
    · exact h.joined c hc hthread
  · exact h.staged
  · exact h.stop
  · exact h.alone
  · intro hdrained
    have hnone : s.threads = [] := h.drained hdrained
    unfold reapFinishedThreads
    dsimp only
    rw [hnone]
    rfl
  · exact hfewer.trans h.bounded
  · intro active hactive
    exact absurd hactive (hcounted active)
  · intro id hid
    exact lt_of_le_of_lt hfewer (h.room id hid)
  · exact h.known
  · exact h.closed

/-- A channel in hand is refused, or enters the registry before its thread is started. -/
theorem Orderly.takeOn (h : Orderly s) {active : Nat} (hphase : s.phase = .admitting active) :
    Orderly (s.takeOn active) := by
  have hopen : s.phase ≠ .closed := by simp [hphase]
  have hwas : ∀ id, s.phase ≠ .spawning id := by simp [hphase]
  have hactive := h.counted active hphase
  unfold Serving.takeOn
  dsimp only
  split_ifs with hfull
  · have hgiven : Orderly
        { s with nextConnection := s.nextConnection + 1, admitted := s.admitted + 1 } :=
      ⟨h.numbered, h.nodup, h.started, h.joined, h.staged, h.stop, h.alone, h.drained, h.bounded,
        h.counted, h.room, h.known, h.closed⟩
    exact hgiven.goOn ⟨rfl, rfl, rfl, rfl, rfl, rfl, rfl, rfl⟩ hwas hopen (by simp) (by simp)
      False.elim False.elim False.elim
  · constructor
    · exact h.numbered
    · exact h.nodup
    · exact h.started
    · exact h.joined
    · exact h.staged
    · exact False.elim
    · exact False.elim
    · exact False.elim
    · exact h.bounded
    · intro other hother
      cases hother
    · intro id _
      show s.threads.length < s.maxConnections
      omega
    · intro entry hentry
      rcases List.mem_append.mp hentry with hold | hnew
      · rcases h.known entry hold with hworker | ⟨hspawn, _⟩
        · exact .inl hworker
        · exact absurd hspawn (hwas _)
      · obtain rfl := List.mem_singleton.mp hnew
        exact .inr ⟨rfl, rfl⟩
    · intro hclosed
      exact absurd (h.closed hclosed) hopen

theorem getElem?_snoc {α : Type} {l : List α} {a b : α} {c : Nat} (h : (l ++ [a])[c]? = some b) :
    l[c]? = some b ∨ c = l.length ∧ b = a := by
  rcases lt_trichotomy c l.length with hlt | rfl | hgt
  · rw [List.getElem?_append_left hlt] at h
    exact .inl h
  · rw [List.getElem?_concat_length] at h
    exact .inr ⟨rfl, (Option.some.inj h).symm⟩
  · rw [List.getElem?_eq_none (by simp; omega)] at h
    cases h

/-- A thread is started for the channel in hand. -/
theorem Orderly.spawn (h : Orderly s) {id : UInt64} (hphase : s.phase = .spawning id) :
    Orderly (s.spawn id) := by
  have hfresh : s.workers.length ∉ s.threads := by
    intro hmem
    have hlt := h.started _ hmem
    omega
  constructor
  · show (s.workers ++ [({ id } : Worker)]).length =
      (s.node.sessions ++ [({} : Session)]).length
    simp [h.numbered]
  · exact List.nodup_append.mpr ⟨h.nodup, List.nodup_singleton _, fun c hc d hd => by
      obtain rfl := List.mem_singleton.mp hd
      rintro rfl
      exact hfresh hc⟩
  · intro c hc
    show c < (s.workers ++ [({ id } : Worker)]).length
    rw [List.length_append]
    rcases List.mem_append.mp hc with hold | hnew
    · exact Nat.lt_add_right _ (h.started c hold)
    · obtain rfl := List.mem_singleton.mp hnew
      simp
  · intro c hc hnone
    have hc : c < (s.workers ++ [({ id } : Worker)]).length := hc
    rw [List.length_append] at hc
    have hnone : c ∉ s.threads ∧ c ≠ s.workers.length := by
      simpa [Serving.spawn] using hnone
    have hlt : c < s.workers.length := by
      have hne := hnone.2
      simp at hc
      omega
    have hfinished := h.joined c hlt hnone.1
    unfold finished at hfinished ⊢
    show ((s.workers ++ [({ id } : Worker)])[c]?).any _ = true
    rw [List.getElem?_append_left hlt]
    exact hfinished
  · intro c w hw hstage
    rcases getElem?_snoc hw with hold | ⟨_, rfl⟩
    · exact (h.staged c w hold hstage).apply .accept
    · exact absurd rfl hstage
  · exact False.elim
  · exact False.elim
  · exact False.elim
  · have hroom := h.room id hphase
    show (s.threads ++ [s.workers.length]).length ≤ s.maxConnections
    rw [List.length_append]
    simp
    omega
  · intro active hactive
    cases hactive
  · intro other hother
    cases hother
  · intro entry hentry
    left
    show ∃ w, (s.workers ++ [({ id } : Worker)])[entry.2]? = some w ∧ _
    rcases h.known entry hentry with ⟨w, hw, hworker⟩ | ⟨hspawn, hlast⟩
    · obtain ⟨hlt, _⟩ := List.getElem?_eq_some_iff.mp hw
      exact ⟨w, (List.getElem?_append_left hlt).trans hw, hworker⟩
    · obtain rfl := ServingPhase.spawning.inj (hphase.symm.trans hspawn)
      rw [hlast]
      exact ⟨_, List.getElem?_concat_length, rfl, rfl⟩
  · intro hclosed
    have hphase' := h.closed hclosed
    rw [hphase] at hphase'
    cases hphase'

/-- A connection thread goes on to its next stage when its connection has ended. -/
theorem Orderly.setStage (h : Orderly s) {w : Worker} {stage : WorkerStage}
    (hw : s.workers[c]? = some w) (hended : s.node.Ended c) (hdone : w.stage ≠ .done)
    (hgone : w.stage = .serving → ∀ entry ∈ s.registry, entry.2 ≠ c) :
    Orderly (s.setStage c w stage) := by
  obtain ⟨hlt, _⟩ := List.getElem?_eq_some_iff.mp hw
  have hother : ∀ d, d ≠ c →
      (s.workers.set c { w with stage })[d]? = s.workers[d]? := by
    intro d hd
    exact List.getElem?_set_ne (Ne.symm hd)
  have hthread : c ∈ s.threads := by
    by_contra hnone
    have hfinished := h.joined c hlt hnone
    unfold finished at hfinished
    rw [hw] at hfinished
    exact hdone (by simpa using hfinished)
  constructor
  · show (s.workers.set c { w with stage }).length = _
    rw [List.length_set]
    exact h.numbered
  · exact h.nodup
  · intro d hd
    show d < (s.workers.set c { w with stage }).length
    rw [List.length_set]
    exact h.started d hd
  · intro d hd hnone
    have hd : d < (s.workers.set c { w with stage }).length := hd
    rw [List.length_set] at hd
    have hne : d ≠ c := by
      rintro rfl
      exact hnone hthread
    have hfinished := h.joined d hd hnone
    unfold finished at hfinished ⊢
    show ((s.workers.set c { w with stage })[d]?).any _ = true
    rw [hother d hne]
    exact hfinished
  · intro d w' hw' hstage
    by_cases hd : d = c
    · exact hd ▸ hended
    · have hw' : (s.workers.set c { w with stage })[d]? = some w' := hw'
      rw [hother d hd] at hw'
      exact h.staged d w' hw' hstage
  · exact h.stop
  · exact h.alone
  · exact h.drained
  · exact h.bounded
  · exact h.counted
  · exact h.room
  · intro entry hentry
    rcases h.known entry hentry with ⟨w', hw', hid, hserving⟩ | ⟨hspawn, hlast⟩
    · have hne : entry.2 ≠ c := by
        intro heq
        rw [heq, hw] at hw'
        obtain rfl := Option.some.inj hw'
        exact hgone hserving entry hentry heq
      exact .inl ⟨w', (hother _ hne).trans hw', hid, hserving⟩
    · refine .inr ⟨hspawn, ?_⟩
      show entry.2 = (s.workers.set c { w with stage }).length
      rw [List.length_set]
      exact hlast
  · exact h.closed

theorem Orderly.remove (h : Orderly s) (id : UInt64) : Orderly (s.removeConnection id) :=
  ⟨h.numbered, h.nodup, h.started, h.joined, h.staged, h.stop, h.alone, h.drained, h.bounded,
    h.counted, h.room, fun entry hentry => h.known entry (List.mem_of_mem_filter hentry), h.closed⟩

/-- What a connection thread takes out of the registry is its own channel. -/
theorem Orderly.removed (h : Orderly s) {w : Worker} (hw : s.workers[c]? = some w) :
    ∀ entry ∈ (s.removeConnection w.id).registry, entry.2 ≠ c := by
  intro entry hentry heq
  obtain ⟨hmem, hid⟩ := List.mem_filter.mp hentry
  obtain ⟨hlt, _⟩ := List.getElem?_eq_some_iff.mp hw
  rcases h.known entry hmem with ⟨w', hw', hsame, _⟩ | ⟨_, hlast⟩
  · rw [heq, hw] at hw'
    obtain rfl := Option.some.inj hw'
    simp [hsame] at hid
  · omega

theorem Orderly.stopped (h : Orderly s) : Orderly { s with node := s.node.apply .requestStop } :=
  h.node rfl (fun _ hd => hd.apply _) (fun _ => rfl) fun hclosed => hclosed

theorem Orderly.hosted (h : Orderly s) {a : Fabric.Action} (ha : a ≠ .close) :
    Orderly { s with node := s.node.apply (.host a) } := by
  obtain ⟨hlength, hstopping, hclosed⟩ := @hostCall_keeps s.node a ha
  exact h.node hlength (fun _ hd => hd.apply _) (fun hstop => hstopping.trans hstop)
    fun hc => hclosed.symm.trans hc

theorem Orderly.shut (h : Orderly s) (hphase : s.phase = .closing) :
    Orderly { s with node := s.node.apply .shutdown, phase := .closed } := by
  refine ⟨h.numbered, h.nodup, h.started, h.joined, ?_, fun _ => h.stop (hphase ▸ trivial),
    fun _ => h.alone (hphase ▸ trivial), fun _ => h.drained (hphase ▸ trivial), h.bounded,
    by simp, by simp, ?_, fun _ => rfl⟩
  · intro c w hw hstage
    exact (h.staged c w hw hstage).apply .shutdown
  · intro entry hentry
    rcases h.known entry hentry with hworker | ⟨hspawn, _⟩
    · exact .inl hworker
    · rw [hphase] at hspawn
      cases hspawn

theorem Step.orderly (hstep : Step s i s') (h : Orderly s) : Orderly s' := by
  cases hstep.goes with
  | accepted hphase hsame hnext =>
    refine h.goOn hsame (by simp [hphase]) (by simp [hphase]) ?_ ?_ ?_ ?_ ?_
    all_goals
      rcases hnext with hnext | ⟨_, hnext | ⟨_, hnext⟩⟩
      all_goals simp [hnext, ServingPhase.Stops, ServingPhase.Joined, ServingPhase.Drained]
  | reaped hphase =>
    exact (h.reap (by simp [hphase])).goOn ⟨rfl, rfl, rfl, rfl, rfl, rfl, rfl, rfl⟩
      (by simp [reapFinishedThreads, hphase]) (by simp [reapFinishedThreads, hphase]) (by simp)
      (by simp) False.elim False.elim False.elim
  | counted hphase =>
    exact h.goOn ⟨rfl, rfl, rfl, rfl, rfl, rfl, rfl, rfl⟩ (by simp [hphase]) (by simp [hphase])
      (by simp) (fun active hactive => ServingPhase.admitting.inj hactive) False.elim False.elim
      False.elim
  | admitted hphase => exact h.takeOn hphase
  | spawned hphase => exact h.spawn hphase
  | left hphase =>
    exact h.stopped.goOn ⟨rfl, rfl, rfl, rfl, rfl, rfl, rfl, rfl⟩ (by simp [hphase])
      (by simp [hphase]) (by simp) (by simp) (fun _ => rfl) False.elim False.elim
  | waited => exact h
  | joined hphase hevaluating =>
    exact (h.reap (by simp [hphase])).goOn ⟨rfl, rfl, rfl, rfl, rfl, rfl, rfl, rfl⟩
      (by simp [reapFinishedThreads, hphase]) (by simp [reapFinishedThreads, hphase]) (by simp)
      (by simp) (fun _ => h.stop (hphase ▸ trivial)) (fun _ => hevaluating) False.elim
  | draining hphase =>
    refine h.reap fun active hactive => ?_
    rcases hphase with hphase | hphase
    all_goals simp [hphase] at hactive
  | drained hphase hnone =>
    exact h.goOn ⟨rfl, rfl, rfl, rfl, rfl, rfl, rfl, rfl⟩ (by simp [hphase]) (by simp [hphase])
      (by simp) (by simp) (fun _ => h.stop (hphase ▸ trivial))
      (fun _ => h.alone (hphase ▸ trivial)) fun _ => hnone
  | returned hphase =>
    exact h.stopped.goOn ⟨rfl, rfl, rfl, rfl, rfl, rfl, rfl, rfl⟩ (by simp [hphase])
      (by simp [hphase]) (by simp) (by simp) (fun _ => rfl) (fun _ => h.alone (hphase ▸ trivial))
      fun _ => h.drained (hphase ▸ trivial)
  | stopped hphase hnone =>
    exact h.goOn ⟨rfl, rfl, rfl, rfl, rfl, rfl, rfl, rfl⟩ (by simp [hphase]) (by simp [hphase])
      (by simp) (by simp) (fun _ => h.stop (hphase ▸ trivial))
      (fun _ => h.alone (hphase ▸ trivial)) fun _ => hnone
  | shut hphase => exact h.shut hphase
  | idled => exact h
  | @looped c answer =>
    obtain ⟨hlength, hstopping, hclosed⟩ := advance_keeps s.node c answer
    exact h.node hlength (fun d hd => hd.apply _) (fun hstop => hstopping.trans hstop)
      fun hc => hclosed.symm.trans hc
  | removed hw hended hstage =>
    exact (h.remove _).setStage hw hended (by simp [hstage]) fun _ => h.removed hw
  | parted hw hended hstage =>
    have hleft : ∀ stage, stage = WorkerStage.removed ∨ stage = .closed →
        stage ≠ .done ∧ stage ≠ .serving := by
      rintro stage (rfl | rfl)
      all_goals exact ⟨by simp, by simp⟩
    obtain ⟨hdone, hserving⟩ := hleft _ (hstage.imp And.left And.left)
    exact h.setStage hw hended hdone fun hserves => absurd hserves hserving
  | gone => exact h
  | swept domain =>
    refine h.hosted fun hclose => ?_
    cases hclose
  | sweptOut =>
    exact ⟨h.numbered, h.nodup, h.started, h.joined, h.staged, h.stop, fun _ => rfl, h.drained,
      h.bounded, h.counted, h.room, h.known, h.closed⟩
  | hosted ha => exact h.hosted ha
  | asked => exact h.stopped

theorem starting_orderly {fabric : Fabric} (hopen : fabric.closed = false) (maxFrames : UInt64)
    (maxConnections : Nat) (periodMs : UInt64) :
    Orderly (starting fabric maxFrames maxConnections periodMs) where
  numbered := rfl
  nodup := List.nodup_nil
  started := fun c hc => absurd hc List.not_mem_nil
  joined := fun c hc => absurd hc (Nat.not_lt_zero c)
  staged := fun c w hw => absurd hw (by simp [starting])
  stop := False.elim
  alone := False.elim
  drained := False.elim
  bounded := Nat.zero_le _
  counted := fun active hactive => by cases hactive
  room := fun id hid => by cases hid
  known := fun entry hentry => absurd hentry List.not_mem_nil
  closed := fun hclosed => by
    have hclosed : fabric.closed = true := hclosed
    rw [hopen] at hclosed
    cases hclosed

/-- The connections whose thread has not finished. -/
def running (s : Serving) : List Nat :=
  (List.range s.workers.length).filter fun c => !s.finished c

theorem Orderly.running_sub (h : Orderly s) : ∀ c ∈ s.running, c ∈ s.threads := by
  intro c hc
  obtain ⟨hrange, hrunning⟩ := List.mem_filter.mp hc
  by_contra hnone
  rw [h.joined c (List.mem_range.mp hrange) hnone] at hrunning
  cases hrunning

theorem Orderly.running_bounded (h : Orderly s) : s.running.length ≤ s.maxConnections := by
  have hnodup : s.running.Nodup := List.nodup_range.filter _
  exact (hnodup.subperm h.running_sub).length_le.trans h.bounded

/-- When every thread has been joined, every connection has ended and the registry is empty. -/
theorem Orderly.quiet (h : Orderly s) (hdrained : s.phase.Drained) :
    s.running = [] ∧ s.registry = [] ∧ ∀ session ∈ s.node.sessions, session.work = .ended := by
  have hnone := h.drained hdrained
  have hfinished : ∀ (c : Nat) (w : Worker), s.workers[c]? = some w → w.stage = .done := by
    intro c w hw
    obtain ⟨hlt, _⟩ := List.getElem?_eq_some_iff.mp hw
    have hfinished := h.joined c hlt (by simp [hnone])
    unfold finished at hfinished
    rw [hw] at hfinished
    simpa using hfinished
  refine ⟨?_, ?_, ?_⟩
  · refine List.eq_nil_iff_forall_not_mem.mpr fun c hc => ?_
    have hthread := h.running_sub c hc
    rw [hnone] at hthread
    cases hthread
  · refine List.eq_nil_iff_forall_not_mem.mpr fun entry hentry => ?_
    rcases h.known entry hentry with ⟨w, hw, _, hserving⟩ | ⟨hspawn, _⟩
    · rw [hfinished _ w hw] at hserving
      cases hserving
    · rw [hspawn] at hdrained
      exact hdrained
  · intro session hsession
    obtain ⟨c, hlt, rfl⟩ := List.getElem_of_mem hsession
    have hc : c < s.workers.length := h.numbered ▸ hlt
    have hdone := hfinished c _ (List.getElem?_eq_getElem hc)
    obtain ⟨found, hfound, hended⟩ := h.staged c _ (List.getElem?_eq_getElem hc) (by simp [hdone])
    rw [List.getElem?_eq_getElem hlt] at hfound
    rw [Option.some.inj hfound]
    exact hended

/-- What a step of the process is to the node: one input of it, or nothing. Only a connection thread has
its connection go on. -/
structure Serves (s : Serving) (i : Input) (s' : Serving) : Prop where
  maxConnections : s'.maxConnections = s.maxConnections
  node : s'.node = s.node ∨ ∃ j, CoordinatorNode.Step s.node j s'.node ∧
    ∀ c answer, j = .session c answer → i = .worker c answer

theorem Serves.of {j : CoordinatorNode.Input} (hmax : s'.maxConnections = s.maxConnections)
    (hnode : CoordinatorNode.Step s.node j s'.node)
    (hj : ∀ c answer, j ≠ .session c answer) : Serves s i s' :=
  ⟨hmax, .inr ⟨j, hnode, fun c answer hsession => absurd hsession (hj c answer)⟩⟩

theorem Step.serves (hstep : Step s i s') (h : Orderly s) : Serves s i s' := by
  cases hstep.goes with
  | accepted _ hsame => exact ⟨hsame.maxConnections, .inl hsame.node⟩
  | @admitted answer active hphase =>
    unfold Serving.takeOn
    dsimp only
    split_ifs
    all_goals exact ⟨rfl, .inl rfl⟩
  | spawned => exact .of rfl ⟨trivial, rfl⟩ (j := .accept) (by simp)
  | left => exact .of rfl ⟨trivial, rfl⟩ (j := .requestStop) (by simp)
  | returned => exact .of rfl ⟨trivial, rfl⟩ (j := .requestStop) (by simp)
  | shut hphase =>
    have hended := (h.quiet (hphase ▸ trivial)).2.2
    exact .of rfl ⟨⟨h.stop (hphase ▸ trivial), hended⟩, rfl⟩ (j := .shutdown) (by simp)
  | @looped c answer =>
    refine ⟨rfl, .inr ⟨.session c answer, ⟨trivial, rfl⟩, fun d other hsession => ?_⟩⟩
    obtain ⟨rfl, rfl⟩ := CoordinatorNode.Input.session.inj hsession
    rfl
  | swept domain =>
    refine .of rfl ⟨?_, rfl⟩ (j := .host (.evaluate domain {})) (by simp)
    intro hclose
    cases hclose
  | @hosted a ha => exact .of rfl ⟨ha, rfl⟩ (j := .host a) (by simp)
  | asked => exact .of rfl ⟨trivial, rfl⟩ (j := .requestStop) (by simp)
  | _ => exact ⟨rfl, .inl rfl⟩

variable {fabric : Fabric} {maxFrames periodMs : UInt64} {maxConnections : Nat}
  {es : List (Event Serving Input)}

theorem run_orderly (hopen : fabric.closed = false)
    (run : Run Step (starting fabric maxFrames maxConnections periodMs) es s) : Orderly s :=
  run.invariant (starting_orderly hopen maxFrames maxConnections periodMs)
    fun _ _ _ h hstep => hstep.orderly h

/-- Whatever the interleaving of its threads, the process is a coordinator node whose fabric is closed
after everything else has ended. It never has more connection threads than it may, and from the moment
`run` returns no connection thread and no evaluation thread is left, the registry is empty and every
connection has ended. -/
theorem serves_orderly (hopen : fabric.closed = false)
    (run : Run Step (starting fabric maxFrames maxConnections periodMs) es s) :
    (∃ es', Run CoordinatorNode.Step (CoordinatorNode.starting fabric maxFrames) es' s.node) ∧
      s.running.length ≤ maxConnections ∧
      (s.phase.Drained → s.running = [] ∧ s.registry = [] ∧ s.evaluating = false ∧
        ∀ session ∈ s.node.sessions, session.work = .ended) ∧
      (s.node.fabric.closed = true → s.phase = .closed) := by
  have horderly := run_orderly hopen run
  have hserves : s.maxConnections = maxConnections ∧
      ∃ es', Run CoordinatorNode.Step (CoordinatorNode.starting fabric maxFrames) es' s.node := by
    clear horderly
    induction run with
    | start => exact ⟨rfl, [], .start⟩
    | @next es s₁ s₂ i run hstep ih =>
      obtain ⟨hmax, es', run'⟩ := ih
      obtain ⟨hmax₂, hnode⟩ := hstep.serves (run_orderly hopen run)
      refine ⟨hmax₂.trans hmax, ?_⟩
      rcases hnode with hsame | ⟨j, hnode, _⟩
      · exact ⟨es', hsame ▸ run'⟩
      · exact ⟨_, run'.next hnode⟩
  obtain ⟨hmax, hnode⟩ := hserves
  refine ⟨hnode, hmax ▸ horderly.running_bounded, fun hdrained => ?_, horderly.closed⟩
  obtain ⟨hrunning, hregistry, hended⟩ := horderly.quiet hdrained
  refine ⟨hrunning, hregistry, horderly.alone ?_, hended⟩
  generalize s.phase = phase at hdrained
  cases phase with
  | returned => trivial
  | stopping => trivial
  | closing => trivial
  | closed => trivial
  | _ => exact hdrained.elim

theorem run_inputs {is : List Input} (s : Serving) (h : ∀ i ∈ is, ∀ s : Serving, s.Allows i) :
    Run Step s (events apply s is) (is.foldl apply s) := by
  induction is generalizing s with
  | nil => exact .start
  | cons i rest ih =>
    obtain ⟨hfirst, hrest⟩ := List.forall_mem_cons.mp h
    exact (Run.start.next ⟨hfirst s, rfl⟩).append (ih (s.apply i) hrest)

def servingStart : Serving := starting World.memoryFabric 100 1 0

/-- Without an evaluation thread one connection is accepted and another one is refused. The stop is
requested, the connection finds its peer gone and its thread ends, and `run` and `stop` go to their
ends. -/
def servedVisit : List Input :=
  List.replicate 9 (.serve .channel) ++ [.requestStop] ++ List.replicate 5 (.worker 0 {}) ++
    List.replicate 7 (.serve .channel)

def visitedServing : Serving := servedVisit.foldl apply { servingStart with evaluating := false }

theorem run_servedVisit : Run Step servingStart
    ([⟨servingStart, .sweepEnds, { servingStart with evaluating := false }⟩] ++
      events apply { servingStart with evaluating := false } servedVisit) visitedServing := by
  have hends : Run Step servingStart
      [⟨servingStart, .sweepEnds, { servingStart with evaluating := false }⟩]
      { servingStart with evaluating := false } := Run.start.next ⟨.inr rfl, rfl⟩
  refine hends.append (run_inputs _ fun i hi s => ?_)
  unfold servedVisit at hi
  rcases List.mem_append.mp hi with hi | hi
  · rcases List.mem_append.mp hi with hi | hi
    · rcases List.mem_append.mp hi with hi | hi
      · obtain rfl := List.eq_of_mem_replicate hi
        trivial
      · obtain rfl := List.mem_singleton.mp hi
        trivial
    · obtain rfl := List.eq_of_mem_replicate hi
      trivial
  · obtain rfl := List.eq_of_mem_replicate hi
    trivial

theorem servingStart_open : World.memoryFabric.closed = false := by
  decide +kernel

set_option maxRecDepth 100000 in
theorem visitedServing_closed : visitedServing.phase = .closed ∧ visitedServing.workers.length = 1 ∧
    visitedServing.nextConnection = 3 ∧ visitedServing.node.fabric.closed = true := by
  decide +kernel

theorem serves_orderly_visit : visitedServing.phase = .closed ∧ visitedServing.running = [] ∧
    visitedServing.node.sessions.all (fun session => decide (session.work = .ended)) = true := by
  obtain ⟨_, _, hdrained, _⟩ := serves_orderly servingStart_open run_servedVisit
  obtain ⟨hrunning, _, _, hended⟩ := hdrained (visitedServing_closed.1 ▸ trivial)
  refine ⟨visitedServing_closed.1, hrunning, List.all_eq_true.mpr fun session hsession => ?_⟩
  exact decide_eq_true (hended session hsession)

end Serving

end CongestionFabric
