import Mathlib.Data.Prod.Lex
import CongestionFabric.Model.Evaluation
import CongestionFabric.Model.TopologyIndex

namespace CongestionFabric

def severityPressurePpm : Severity → UInt32
  | .watch => 333333
  | .congested => 666666
  | .severe => 1000000
  | .clear | .undeclared _ _ => 0

def pressureToSeverity (pressurePpm : UInt32) : Severity :=
  if pressurePpm ≥ 1000000 then .severe
  else if pressurePpm ≥ 666666 then .congested
  else if pressurePpm ≥ 333333 then .watch
  else .clear

structure PropagationResult where
  induced : List (ResourceId × Severity) := []
  edges : List PropagationEdge := []
  truncated : Bool := false

namespace PropagationEngine

structure Source where
  resource : ResourceId := {}
  severity : Severity := .clear
  deriving DecidableEq

structure Target where
  pressurePpm : UInt32 := 0
  hops : UInt32 := 1
  source : ResourceId := {}
  viaPath : PathId := {}
  deriving DecidableEq

/-- The hop after the first occurrence of a node. -/
def nextHop (node : ResourceId) (hops : List ResourceId) : Option ResourceId :=
  (hops.dropWhile (· ≠ node)).tail.head?

def pathNeighbour (topology : TopologyIndex) (node : ResourceId) (pathId : PathId) :
    Option (ResourceId ×ₗ PathId) := do
  let record ← topology.path pathId
  let next ← nextHop node record.hops
  return toLex (next, pathId)

/-- The link successors of a node and its next hop along every path through it. -/
def neighbours (topology : TopologyIndex) (node : ResourceId) (policy : PropagationPolicy) :
    List (ResourceId ×ₗ PathId) :=
  let links : List (ResourceId ×ₗ PathId) :=
    if policy.followLinks then (topology.successors node).map fun r => toLex (r, ⟨0⟩) else []
  let paths : List (ResourceId ×ₗ PathId) :=
    if policy.followPaths then
      (topology.resourcePaths node).filterMap (pathNeighbour topology node)
    else []
  SortedMap.sortedSet (links ++ paths)

/-- The state of one source's breadth-first spread. -/
structure Spread where
  best : SortedMap ResourceId Target := ∅
  visited : List ResourceId := []
  next : List (ResourceId × UInt32) := []

def replaces (best : SortedMap ResourceId Target) (dest : ResourceId) (pressure : UInt32)
    (node : ResourceId) (via : PathId) : Bool :=
  match best.find? dest with
  | none => true
  | some found =>
    pressure > found.pressurePpm ||
      (pressure = found.pressurePpm &&
        (toLex (node, via) : ResourceId ×ₗ PathId) < toLex (found.source, found.viaPath))

def visit (policy : PropagationPolicy) (depth : UInt32) (node : ResourceId × UInt32)
    (spread : Spread) (neighbour : ResourceId ×ₗ PathId) : Spread :=
  let (dest, via) := ofLex neighbour
  if dest ∈ spread.visited then spread
  else
    let spread := { spread with visited := dest :: spread.visited }
    let pressure := ((node.2.toUInt64 * policy.decayPpm.toUInt64) / 1000000).toUInt32
    if pressure < policy.minPressurePpm then spread
    else if pressureToSeverity pressure = .clear then spread
    else
      let best :=
        if replaces spread.best dest pressure node.1 via then
          spread.best.insert dest ⟨pressure, depth, node.1, via⟩
        else spread.best
      { spread with best, next := spread.next ++ [(dest, pressure)] }

def visitNode (topology : TopologyIndex) (policy : PropagationPolicy) (depth : UInt32)
    (spread : Spread) (node : ResourceId × UInt32) : Spread :=
  (neighbours topology node.1 policy).foldl (visit policy depth node) spread

/-- Spread a frontier through at most `remaining` further levels. -/
def spreadLevels (topology : TopologyIndex) (policy : PropagationPolicy) :
    Nat → UInt32 → List (ResourceId × UInt32) → Spread → Spread
  | 0, _, _, spread => spread
  | remaining + 1, depth, frontier, spread =>
    if frontier = [] then spread
    else
      let spread :=
        frontier.foldl (visitNode topology policy depth) { spread with next := [] }
      spreadLevels topology policy remaining (depth + 1) spread.next spread

def spreadSource (topology : TopologyIndex) (policy : PropagationPolicy)
    (best : SortedMap ResourceId Target) (source : Source) : SortedMap ResourceId Target :=
  if source.severity = .clear ∨ !topology.contains source.resource then best
  else
    (spreadLevels topology policy policy.maxDepth.toNat 1
      [(source.resource, severityPressurePpm source.severity)]
      { best, visited := [source.resource] }).best

def inducedSeverity (policy : PropagationPolicy) (target : Target) : Severity :=
  let induced := pressureToSeverity target.pressurePpm
  if induced > policy.maxInducedSeverity then policy.maxInducedSeverity else induced

def emit (policy : PropagationPolicy) (maxEdges : Nat) (out : PropagationResult)
    (entry : ResourceId × Target) : PropagationResult :=
  let induced := inducedSeverity policy entry.2
  if induced = .clear then out
  else
    let out := { out with induced := out.induced ++ [(entry.1, induced)] }
    if out.edges.length ≥ maxEdges then { out with truncated := true }
    else
      let edge : PropagationEdge := {
        source := entry.2.source, target := entry.1, viaPath := entry.2.viaPath
        hops := entry.2.hops, pressurePpm := entry.2.pressurePpm, induced }
      { out with edges := out.edges ++ [edge] }

/-- Sources in resource order, the first of each resource kept. -/
def orderSources (sources : List Source) : List Source :=
  (sources.foldl (fun (m : SortedMap ResourceId Source) source =>
    if m.contains source.resource then m else m.insert source.resource source) ∅).values

def propagate (topology : TopologyIndex) (sources : List Source) (policy : PropagationPolicy)
    (maxEdges : Nat) : Result PropagationResult :=
  if !policy.enabled ∨ policy.maxDepth = 0 ∨ sources = [] then .ok {}
  else if maxEdges = 0 ∨ maxEdges > limits.kMaxPropagationEdges then
    fail .limitExceeded "propagation edge bound is outside the permitted range"
  else
    let best := (orderSources sources).foldl (spreadSource topology policy) ∅
    .ok (best.entries.foldl (emit policy maxEdges) {})

end PropagationEngine

end CongestionFabric
