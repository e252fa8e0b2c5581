import CongestionFabric.Lib.Lockstep
import CongestionFabric.Runtime.Publisher
import CongestionFabric.Runtime.Replies
import CongestionFabric.Transport.EvidenceTrip
import CongestionFabric.Transport.OneInFlight

namespace CongestionFabric

/-- What a read of the channel gives: some of the bytes in flight, the end of the channel, or a
failure. -/
inductive ReadFate where
  | bytes (size : Nat)
  | closed
  | failed (status : Status)

/-- The answer to a read into a buffer, and the bytes that stay in flight. -/
def ReadFate.read (fate : ReadFate) (buffer : Nat) (flight : Bytes) : Result Bytes × Bytes :=
  match fate with
  | .bytes size => (.ok (flight.take (min size buffer)), flight.drop (min size buffer))
  | .closed => (.ok [], flight)
  | .failed status => (.error status, flight)

def Publisher.kReadBufferBytes : Nat := 8192

def CoordinatorNode.kReadBufferBytes : Nat := 16384

namespace Publisher

variable (p : Publisher)

def writing : Bool := match p.stage with
  | .greeting | .publishing _ | .parting => true
  | _ => false

def awaiting : Bool := match p.stage with
  | .awaitingGreeting _ | .awaitingAck _ => true
  | _ => false

/-- The batch in the frame that the publisher is about to write. -/
def outgoing (clock : Tick) : List EvidenceBatch := match p.stage with
  | .publishing index => (p.batchAt index clock).toOption.toList
  | _ => []

end Publisher

/-- The batch that a session hands to the fabric next. -/
def CoordinatorNode.batchTaken (n : CoordinatorNode) (s : Session) : List EvidenceBatch :=
  match n.frameTaken s with
  | none => []
  | some frame =>
    if frame.type = .evidence ∧ s.registered = true then (decodeEvidence frame.payload).toOption.toList
    else []

/-- A publisher and the node it is connected to, with the bytes on the way to the node and back. The
batches written and the batches handed to the fabric over the connection are history. -/
structure Exchange where
  node : CoordinatorNode
  connection : Nat
  publisher : Publisher
  up : Bytes := []
  down : Bytes := []
  sent : List EvidenceBatch := []
  ingested : List EvidenceBatch := []

namespace Exchange

open CoordinatorNode

/-- The publisher writes or reads, the connection reads or goes on, and anything else happens to the
node. -/
inductive Move where
  | publisherWrites (clock : Tick) (fate : WriteFate) (failure : Status)
  | publisherReads (clock : Tick) (fate : ReadFate)
  | sessionReads (fate : ReadFate)
  | sessionMoves (seen : Seen) (fate : WriteFate)
  | elsewhere (i : Input)

variable (e : Exchange)

def session : Option Session := e.node.sessions[e.connection]?

def publisherWrites (clock : Tick) (fate : WriteFate) (failure : Status) : Exchange :=
  if !e.publisher.writing then e
  else
    let written : VoidResult := if fate.delivered then succeed else .error failure
    let publisher := e.publisher.write clock written
    match (do FrameCodec.encode (← e.publisher.composed clock)) with
    | .error _ => { e with publisher }
    | .ok bytes =>
      { e with
        publisher
        up := e.up ++ fate.sent bytes
        sent := e.sent ++ e.publisher.outgoing clock }

def publisherReads (clock : Tick) (fate : ReadFate) : Exchange :=
  if !e.publisher.awaiting then e
  else
    let (received, down) := fate.read Publisher.kReadBufferBytes e.down
    { e with publisher := e.publisher.receive clock received, down }

/-- A node that is being stopped reads nothing more. -/
def sessionReads (fate : ReadFate) : Exchange :=
  match e.session with
  | none => e
  | some s =>
    if s.work ≠ .reading then e
    else if e.node.stopping then { e with node := e.node.proceed e.connection s {} }
    else
      let (received, up) := fate.read CoordinatorNode.kReadBufferBytes e.up
      { e with node := e.node.proceed e.connection s { received := received.toOption }, up }

def sessionMoves (seen : Seen) (fate : WriteFate) : Exchange :=
  match e.session with
  | none => e
  | some s =>
    if s.work = .reading then e
    else
      let (bytes, delivered) := speak (e.node.reply s seen) fate
      { e with
        node := e.node.proceed e.connection s { delivered }
        down := e.down ++ bytes
        ingested := e.ingested ++ e.node.batchTaken s }

/-- Only the connection's own steps are not made elsewhere. -/
def Allows : Move → Prop
  | .elsewhere i => e.node.Allows i ∧ ∀ answer, i ≠ .session e.connection answer
  | _ => True

def apply : Move → Exchange
  | .publisherWrites clock fate failure => e.publisherWrites clock fate failure
  | .publisherReads clock fate => e.publisherReads clock fate
  | .sessionReads fate => e.sessionReads fate
  | .sessionMoves seen fate => e.sessionMoves seen fate
  | .elsewhere i => { e with node := e.node.apply i }

def Step (e : Exchange) (m : Move) (e' : Exchange) : Prop := e.Allows m ∧ e.apply m = e'

/-- A connection that has been made, before anything is sent over it. -/
structure Starts (e : Exchange) (options : PublisherClientOptions) (script : PublisherScript) :
    Prop where
  publisher : Publisher.start options script = .ok e.publisher
  session : e.session = some {}
  up : e.up = []
  down : e.down = []
  sent : e.sent = []
  ingested : e.ingested = []

end Exchange

end CongestionFabric
