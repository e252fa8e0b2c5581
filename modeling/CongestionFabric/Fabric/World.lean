import CongestionFabric.Fabric.Open
import CongestionFabric.Lib.Run

namespace CongestionFabric

namespace Fabric

/-- The critical sections of the public operations, and what the clock and the disk do between
them. An explanation is an evaluation and a plan from the last outcome. -/
inductive Action where
  | setPolicy (policy : CongestionPolicy)
  | setTopology (topology : TopologySnapshot)
  | setCapacity (capacity : CapacitySnapshot)
  | registerPublisher (publisher : PublisherId) (boot : BootId) (requested : AuthoritySet)
  | unregisterPublisher (publisher : PublisherId) (boot : BootId) (reason : FenceReason)
      (detail : Bytes)
  | heartbeat (publisher : PublisherId) (boot : BootId)
  | fencePublisher (publisher : PublisherId) (boot : BootId) (reason : FenceReason)
      (detail : Bytes)
  | ingest (batch : EvidenceBatch)
  | evaluate (domain : DomainId) (token : CancellationToken)
  | evaluateRequest (request : EvaluationRequest)
  | planEvaluate (domain : DomainId) (token : CancellationToken)
  | planCommit (index : Nat)
  | planLast (domain : DomainId)
  | advanceEpoch (reason : FenceReason)
  | close
  | readClock (now : Tick)
  | meetFates (fates : List DiskFate)

/-- A committed evaluation, with the fabric it was committed in and its later history: whether its
domain lost its authority since, and which incarnations were fenced since. -/
structure Basis where
  domain : DomainId
  batch : EvidenceBatch
  outcome : EvaluationOutcome
  fabric : Fabric
  invalidated : Bool := false
  fencedSince : List (PublisherId × BootId) := []

variable (f : Fabric)

/-- The evaluation an action commits in memory. -/
def assessed (domain : DomainId) (batch : EvidenceBatch) (token : CancellationToken) :
    Option Basis :=
  Except.toOption do
    f.ensureOpen
    let outcome ← f.outcomeOf domain batch token
    return { domain, batch, outcome, fabric := f }

def evaluation : Action → Option Basis
  | .evaluate domain token => f.assessed domain (f.collectEvidence domain) token
  | .evaluateRequest request => f.assessed request.domain request.evidence {}
  | .planEvaluate domain token =>
    if token.beforePlan then none else f.assessed domain (f.collectEvidence domain) token
  | _ => none

/-- The checks of the fencing operations. -/
def admitFence (publisher : PublisherId) (boot : BootId) (reason : FenceReason)
    (detail : Bytes) : Result Staged := do
  f.ensureOpen
  f.stageFence publisher boot reason detail

/-- The incarnations an action fences. -/
def fencing : Action → List (PublisherId × BootId)
  | .fencePublisher publisher boot reason detail =>
    if (f.admitFence publisher boot reason detail).isOk then [(publisher, boot)] else []
  | .unregisterPublisher publisher boot reason detail =>
    if reason ≠ .coordinatorRestart ∧ reason ≠ .none ∧
        (f.admitFence publisher boot reason detail).isOk then [(publisher, boot)]
    else []
  | .advanceEpoch reason =>
    if (f.stageEpoch reason).isOk then f.publishers.entries.map fun e => (e.1, e.2.boot) else []
  | _ => []

/-- Whether an action takes the authority of a domain away: by a new policy, topology or epoch, or
by an evaluation that leaves it without. -/
def invalidates (domain : DomainId) : Action → Bool
  | .setPolicy policy => (f.stagePolicy policy).isOk
  | .setTopology topology => (f.stageTopology topology).isOk
  | .advanceEpoch reason => (f.stageEpoch reason).isOk
  | a => (f.evaluation a).any fun b => b.domain = domain && !b.outcome.updated.authoritative

def Basis.after (b : Basis) (a : Action) : Basis :=
  { b with
    invalidated := b.invalidated || f.invalidates b.domain a
    fencedSince := b.fencedSince ++ f.fencing a }

end Fabric

/-- A fabric with the plans between their two critical sections, and the history of the outcomes it
has cached. -/
structure World where
  fabric : Fabric
  pending : List Fabric.Basis := []
  last : SortedMap DomainId Fabric.Basis := ∅

namespace World

open Fabric

/-- The world after an action that leaves this fabric. -/
def moved (w : World) (a : Action) (fabric : Fabric) : World where
  fabric
  pending := w.pending.map fun b => b.after w.fabric a
  last := w.last.mapVal fun _ b => b.after w.fabric a

/-- An evaluation that is published becomes the last of its domain. -/
def publishedAs (w : World) (a : Action) (fabric : Fabric) (b : Basis) : World :=
  let moved := w.moved a fabric
  { moved with last := insertBounded w.fabric.options.maxExplanations moved.last b.domain b }

/-- The first half of a plan carries its evaluation to the second. -/
def carriedAs (w : World) (a : Action) (fabric : Fabric) (b : Basis) : World :=
  let published := w.publishedAs a fabric b
  { published with pending := published.pending ++ [b] }

/-- The world after a call that evaluates. -/
def evaluated (w : World) (a : Action) (finish : Action → Fabric → Basis → World)
    (called : Fabric × Result EvaluationOutcome) : World :=
  match called, w.fabric.evaluation a with
  | (fabric, .ok _), some b => finish a fabric b
  | (fabric, _), _ => w.moved a fabric

def dropPending (w : World) (index : Nat) : World :=
  { w with pending := w.pending.eraseIdx index }

def act (w : World) (a : Action) : World :=
  let f := w.fabric
  match a with
  | .setPolicy policy => w.moved a (f.setPolicy policy).1
  | .setTopology topology => w.moved a (f.setTopology topology).1
  | .setCapacity capacity => w.moved a (f.setCapacity capacity).1
  | .registerPublisher publisher boot requested =>
    w.moved a (f.registerPublisher publisher boot requested).1
  | .unregisterPublisher publisher boot reason detail =>
    w.moved a (f.unregisterPublisher publisher boot reason detail).1
  | .heartbeat publisher boot => w.moved a (f.heartbeat publisher boot).1
  | .fencePublisher publisher boot reason detail =>
    w.moved a (f.fencePublisher publisher boot reason detail).1
  | .ingest batch => w.moved a (f.ingest batch).1
  | .evaluate domain token =>
    w.evaluated a w.publishedAs (f.evaluateCancellable domain token)
  | .evaluateRequest request => w.evaluated a w.publishedAs (f.evaluateRequest request)
  | .planEvaluate domain token => w.evaluated a w.carriedAs (f.planEvaluate domain token)
  | .planCommit index =>
    match w.pending[index]? with
    | none => w.moved a f
    | some b => (w.moved a (f.planCommit b.domain b.outcome).1).dropPending index
  | .planLast domain => w.moved a (f.planLast domain).1
  | .advanceEpoch reason => w.moved a (f.advanceEpoch reason).1
  | .close => w.moved a f.close
  | .readClock now => w.moved a { f with clock := now }
  | .meetFates fates =>
    w.moved a { f with
      store := f.store.map fun store => { store with journal := { store.journal with fates } } }

/-- What happens to a world: an action of the process, or a new process on whatever disk there
is. -/
inductive Input where
  | act (a : Action)
  | restart (options : FabricOptions) (clock : Tick) (disk : Disk)

inductive Step (w : World) : Input → World → Prop where
  | act (a : Action) : Step w (.act a) (w.act a)
  | restart {options : FabricOptions} {clock : Tick} {disk : Disk} {fabric : Fabric}
      (hopen : openOn options clock disk = .ok fabric) :
      Step w (.restart options clock disk) ⟨fabric, [], ∅⟩

theorem Step.act_eq {w w' : World} {a : Action} (h : Step w (.act a) w') : w' = w.act a := by
  generalize hi : Input.act a = i at h
  cases h with
  | act a' =>
    obtain rfl := Input.act.inj hi
    rfl
  | restart => cases hi

/-- The events of a process that takes these actions. -/
def actEvents (w : World) : List Action → List (Event World Input)
  | [] => []
  | a :: rest => ⟨w, .act a, w.act a⟩ :: actEvents (w.act a) rest

theorem run_acts (w : World) (actions : List Action) :
    Run Step w (actEvents w actions) (actions.foldl act w) := by
  induction actions generalizing w with
  | nil => exact .start
  | cons a rest ih => exact (Run.start.next (.act a)).append (ih (w.act a))

theorem mem_actEvents {w : World} {e : Event World Input} {actions : List Action}
    (h : e ∈ actEvents w actions) : ∃ a ∈ actions, e.input = .act a := by
  induction actions generalizing w with
  | nil => exact absurd h List.not_mem_nil
  | cons a rest ih =>
    rcases List.mem_cons.mp h with rfl | h
    · exact ⟨a, List.mem_cons_self, rfl⟩
    · obtain ⟨later, hlater, hinput⟩ := ih h
      exact ⟨later, List.mem_cons_of_mem _ hlater, hinput⟩

def onStore (w : World) (store : Option Store) : World :=
  { w with fabric := { w.fabric with store } }

@[simp] theorem onStore_pending (w : World) (store : Option Store) :
    (w.onStore store).pending = w.pending := rfl

@[simp] theorem onStore_last (w : World) (store : Option Store) :
    (w.onStore store).last = w.last := rfl

end World

end CongestionFabric
