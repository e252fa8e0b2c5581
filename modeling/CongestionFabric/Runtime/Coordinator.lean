import CongestionFabric.Transport.Messages
import CongestionFabric.Fabric.Membership

namespace CongestionFabric

def kMaxDomainsEvaluatedPerBatch : Nat := 256

/-- What a connection thread does next. -/
inductive Work where
  | reading
  | decoding
  | touching (batch : EvidenceBatch)
  | evaluating (domains : List DomainId)
  | planning (domain : DomainId) (rest : List DomainId)
  | leaving
  | ended
  deriving DecidableEq

/-- The locals of the connection loop. -/
structure Session where
  decoder : FrameDecoder := {}
  publisher : PublisherId := {}
  boot : BootId := {}
  registered : Bool := false
  healthy : Bool := true
  frames : UInt64 := 0
  work : Work := .reading

namespace Session

def leave (s : Session) : Session := { s with healthy := false, work := .leaving }

/-- After a frame the loop goes on unless the connection is no longer healthy. -/
def goOn (s : Session) : Session := { s with work := if s.healthy then .decoding else .leaving }

end Session

/-- What the channel answers to a read and to a write. -/
structure ChannelAnswer where
  received : Option Bytes := none
  delivered : Bool := true

/-- The coordinator: its fabric, and the connections in the order they were accepted. Who registered
which incarnation (no connection when the host did) and which connections took a Goodbye is
history. -/
structure CoordinatorNode where
  world : World
  maxFramesPerConnection : UInt64 := 1073741824
  sessions : List Session := []
  stopping : Bool := false
  registrants : List (Option Nat × PublisherId × BootId) := []
  farewells : List Nat := []

namespace CoordinatorNode

open Fabric

variable (n : CoordinatorNode) (c : Nat) (s : Session)

def fabric : Fabric := n.world.fabric

def put : CoordinatorNode := { n with sessions := n.sessions.set c s }

/-- One critical section of the fabric. -/
def call (a : Action) : CoordinatorNode := { n with world := n.world.act a }

def noteRegistrant (registrant : Option Nat) (publisher : PublisherId) (boot : BootId) :
    CoordinatorNode :=
  { n with registrants := (registrant, publisher, boot) :: n.registrants }

/-! ### The frames of a publisher -/

/-- The identity is overwritten before the registration is decided. -/
def handleHello (payload : Bytes) (delivered : Bool) : CoordinatorNode :=
  match decodeHello payload with
  | .error _ => n.put c s.leave
  | .ok hello =>
    let s := { s with publisher := hello.publisher, boot := hello.boot }
    let called := n.call (.registerPublisher hello.publisher hello.boot hello.requested)
    match (n.fabric.registerPublisher hello.publisher hello.boot hello.requested).2 with
    | .ok _ =>
      (called.noteRegistrant (some c) hello.publisher hello.boot).put c
        { s with registered := true, healthy := delivered }.goOn
    | .error _ => called.put c s.leave

/-- Samples are ingested under whatever identity they carry. -/
def handleEvidence (payload : Bytes) (delivered : Bool) : CoordinatorNode :=
  if !s.registered then n.put c s.leave
  else match decodeEvidence payload with
    | .error _ => n.put c s.leave
    | .ok batch =>
      let s := { s with healthy := delivered }
      match (n.fabric.ingest batch).2 with
      | .ok _ => (n.call (.ingest batch)).put c { s with work := .touching batch }
      | .error _ => (n.call (.ingest batch)).put c s.goOn

def handleHeartbeat (delivered : Bool) : CoordinatorNode :=
  let called := if s.registered then n.call (.heartbeat s.publisher s.boot) else n
  called.put c { s with healthy := delivered }.goOn

/-- A clean goodbye deregisters and does not fence. -/
def handleGoodbye : CoordinatorNode :=
  let called :=
    if s.registered then n.call (.unregisterPublisher s.publisher s.boot .none []) else n
  { called with farewells := c :: called.farewells }.put c { s with registered := false }.leave

def handle (frame : Frame) (delivered : Bool) : CoordinatorNode :=
  match frame.type with
  | .hello => n.handleHello c s frame.payload delivered
  | .evidence => n.handleEvidence c s frame.payload delivered
  | .heartbeat => n.handleHeartbeat c s delivered
  | .goodbye => n.handleGoodbye c s
  -- an error notice is all that a frame of another type gets
  | _ => n.put c { s with healthy := delivered }.goOn

/-! ### The loop -/

def read (received : Option Bytes) : CoordinatorNode :=
  if n.stopping then n.put c { s with work := .leaving }
  else match received with
    | none | some [] => n.put c { s with work := .leaving }
    | some bytes =>
      match s.decoder.push bytes with
      | (decoder, .error _) => n.put c { s with decoder }.leave
      | (decoder, .ok _) => n.put c { s with decoder, work := .decoding }

/-- Count a frame against the budget of the connection and handle it. -/
def takeFrame (frame : Frame) (delivered : Bool) : CoordinatorNode :=
  let s := { s with frames := s.frames + 1 }
  if s.frames > n.maxFramesPerConnection then n.put c s.leave
  else n.handle c s frame delivered

def decodeNext (delivered : Bool) : CoordinatorNode :=
  match s.decoder.next with
  | (decoder, .error _) => n.put c { s with decoder }.leave
  | (decoder, .ok none) => n.put c { s with decoder, work := .reading }
  | (decoder, .ok (some frame)) => n.takeFrame c { s with decoder } frame delivered

/-- The domains a batch touches, up to the bound, in their order. -/
def touchedDomains (topology : TopologyIndex) (touched : SortedMap DomainId Unit) :
    List EvidenceSample → List DomainId
  | [] => touched.keys
  | sample :: rest =>
    match topology.resource sample.resource with
    | none => touchedDomains topology touched rest
    | some record =>
      let touched := touched.insert record.domain ()
      if touched.size ≥ kMaxDomainsEvaluatedPerBatch then touched.keys
      else touchedDomains topology touched rest

def touched (batch : EvidenceBatch) : List DomainId :=
  match n.fabric.topology with
  | none => []
  | some topology => touchedDomains topology ∅ batch.samples

def evaluateNext (domain : DomainId) (rest : List DomainId) : CoordinatorNode :=
  let work : Work := match (n.fabric.evaluate domain).2 with
    | .ok _ => .planning domain rest
    | .error _ => .evaluating rest
  (n.call (.evaluate domain {})).put c { s with work }

def deathDetail : Bytes := text "connection ended without a goodbye"

/-- The end of the loop fences the identity the locals hold. -/
def leave : CoordinatorNode :=
  let called :=
    if s.registered then
      n.call (.unregisterPublisher s.publisher s.boot .publisherDeath deathDetail)
    else n
  called.put c { s with work := .ended }

def proceed (answer : ChannelAnswer) : CoordinatorNode :=
  match s.work with
  | .reading => n.read c s answer.received
  | .decoding => n.decodeNext c s answer.delivered
  | .touching batch => n.put c { s with work := .evaluating (n.touched batch) }
  | .evaluating [] => n.put c s.goOn
  | .evaluating (domain :: rest) => n.evaluateNext c s domain rest
  | .planning domain rest =>
    (n.call (.planLast domain)).put c { s with work := .evaluating rest }
  | .leaving => n.leave c s
  | .ended => n

/-! ### Runs -/

/-- What happens to a node: a connection is accepted or goes on, another thread calls the fabric,
and the node is stopped and shut down. -/
inductive Input where
  | accept
  | session (c : Nat) (answer : ChannelAnswer)
  | host (a : Action)
  | requestStop
  | shutdown

def hostCall (a : Action) : CoordinatorNode :=
  match a with
  | .registerPublisher publisher boot requested =>
    match (n.fabric.registerPublisher publisher boot requested).2 with
    | .ok _ => (n.call a).noteRegistrant none publisher boot
    | .error _ => n.call a
  | a => n.call a

def advance (answer : ChannelAnswer) : CoordinatorNode :=
  match n.sessions[c]? with
  | none => n
  | some s => n.proceed c s answer

/-- The fabric is closed by the shutdown only, which waits for every connection to end. -/
def Allows : Input → Prop
  | .host a => a ≠ .close
  | .shutdown => n.stopping = true ∧ ∀ s ∈ n.sessions, s.work = .ended
  | _ => True

def apply : Input → CoordinatorNode
  | .accept => { n with sessions := n.sessions ++ [{}] }
  | .session c answer => n.advance c answer
  | .host a => n.hostCall a
  | .requestStop => { n with stopping := true }
  | .shutdown => n.call .close

/-- Connections interleave between any two critical sections. -/
def Step (n : CoordinatorNode) (i : Input) (n' : CoordinatorNode) : Prop :=
  n.Allows i ∧ n.apply i = n'

/-- The node on a fabric that has been opened. -/
def starting (fabric : Fabric) (maxFramesPerConnection : UInt64) : CoordinatorNode where
  world := ⟨fabric, [], ∅⟩
  maxFramesPerConnection

/-- A Hello of the connection was accepted for the incarnation. -/
def Greeted (publisher : PublisherId) (boot : BootId) : Prop :=
  (some c, publisher, boot) ∈ n.registrants

end CoordinatorNode

end CongestionFabric
