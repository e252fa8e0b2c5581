import Mathlib.Order.Lattice

namespace CongestionFabric

/-- The identity spaces of the fabric; an id of one space is never compared with another's. -/
inductive IdTag where
  | domain | resource | queue | path | link | topology | capacitySnapshot | evidenceSnapshot
  | evidenceBatch | policy | intervention | evaluation | epoch | publisher | boot | attempt
  | provenance | fence | serviceClass | connection | authority | record | transaction
  | topologyGeneration | capacityGeneration | policyGeneration | evidenceGeneration
  deriving DecidableEq

def IdTag.name : IdTag → String
  | domain => "domain"
  | resource => "resource"
  | queue => "queue"
  | path => "path"
  | link => "link"
  | topology => "topology"
  | capacitySnapshot => "capacity"
  | evidenceSnapshot => "evidence"
  | evidenceBatch => "batch"
  | policy => "policy"
  | intervention => "intervention"
  | evaluation => "evaluation"
  | epoch => "epoch"
  | publisher => "publisher"
  | boot => "boot"
  | attempt => "attempt"
  | provenance => "provenance"
  | fence => "fence"
  | serviceClass => "class"
  | connection => "connection"
  | authority => "authority"
  | record => "record"
  | transaction => "transaction"
  | topologyGeneration => "topology-gen"
  | capacityGeneration => "capacity-gen"
  | policyGeneration => "policy-gen"
  | evidenceGeneration => "evidence-gen"

structure StrongId (tag : IdTag) where
  value : UInt64 := 0
  deriving DecidableEq, Inhabited

namespace StrongId

variable {tag : IdTag}

def fromValue (v : UInt64) : StrongId tag := ⟨v⟩

/-- The zero value is the null identity of every space. -/
def valid (id : StrongId tag) : Bool := id.value ≠ 0

instance : LE (StrongId tag) := ⟨fun a b => a.value.toNat ≤ b.value.toNat⟩
instance : LT (StrongId tag) := ⟨fun a b => a.value.toNat < b.value.toNat⟩

theorem lt_iff {a b : StrongId tag} : a < b ↔ a.value.toNat < b.value.toNat := Iff.rfl

instance : LinearOrder (StrongId tag) where
  le_refl a := Nat.le_refl _
  le_trans a b c hab hbc := Nat.le_trans hab hbc
  le_antisymm a b hab hba := by
    cases a; cases b
    exact congrArg StrongId.mk (UInt64.toNat_inj.mp (Nat.le_antisymm hab hba))
  le_total a b := Nat.le_total _ _
  lt_iff_le_not_ge a b := Nat.lt_iff_le_and_not_ge
  toDecidableLE a b := inferInstanceAs (Decidable (a.value.toNat ≤ b.value.toNat))
  toDecidableLT a b := inferInstanceAs (Decidable (a.value.toNat < b.value.toNat))
  toDecidableEq := inferInstance

instance : LawfulBEq (StrongId tag) := inferInstance

end StrongId

def hexDigit (n : Nat) : Char := "0123456789abcdef".toList.getD n '0'

/-- The hexadecimal digits of a value, most significant first, no leading zero. -/
def hexDigits : Nat → Nat → List Char
  | 0, _ => []
  | fuel + 1, n => if n = 0 then [] else hexDigits fuel (n / 16) ++ [hexDigit (n % 16)]

def toHex (value : UInt64) : String :=
  if value = 0 then "0" else String.ofList (hexDigits 16 value.toNat)

def StrongId.toText {tag : IdTag} (id : StrongId tag) : String := tag.name ++ ":" ++ toHex id.value

abbrev DomainId := StrongId .domain
abbrev ResourceId := StrongId .resource
abbrev QueueId := StrongId .queue
abbrev PathId := StrongId .path
abbrev LinkId := StrongId .link
abbrev TopologyId := StrongId .topology
abbrev CapacitySnapshotId := StrongId .capacitySnapshot
abbrev EvidenceSnapshotId := StrongId .evidenceSnapshot
abbrev EvidenceBatchId := StrongId .evidenceBatch
abbrev PolicyId := StrongId .policy
abbrev InterventionId := StrongId .intervention
abbrev EvaluationId := StrongId .evaluation
abbrev EpochId := StrongId .epoch
abbrev PublisherId := StrongId .publisher
abbrev BootId := StrongId .boot
abbrev AttemptId := StrongId .attempt
abbrev ProvenanceId := StrongId .provenance
abbrev FenceId := StrongId .fence
abbrev ClassId := StrongId .serviceClass
abbrev ConnectionId := StrongId .connection
abbrev AuthorityGeneration := StrongId .authority
abbrev TransactionId := StrongId .transaction
abbrev TopologyGeneration := StrongId .topologyGeneration
abbrev CapacityGeneration := StrongId .capacityGeneration
abbrev EvidenceGeneration := StrongId .evidenceGeneration

end CongestionFabric
