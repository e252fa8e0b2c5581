import CongestionFabric.Lib.LittleEndian
import CongestionFabric.Core.Checked

namespace CongestionFabric

def kMaxDurableNote : Nat := 1024

namespace ByteWriter

def u8 (value : UInt8) : Bytes := [value]
def u16 (value : UInt16) : Bytes := littleEndian 2 value.toNat
def u32 (value : UInt32) : Bytes := littleEndian 4 value.toNat
def u64 (value : UInt64) : Bytes := littleEndian 8 value.toNat
def i64 (value : Int64) : Bytes := u64 value.toUInt64
def boolean (value : Bool) : Bytes := u8 (if value then 1 else 0)
def size (value : Nat) : Bytes := u64 (UInt64.ofNat value)

/-- Bounded length-prefixed text; the only field a writer refuses. -/
def text (value : Bytes) (maxLen : Nat) : Result Bytes :=
  if value.length > maxLen ∨ value.length > 0xFFFFFFFF then
    fail .oversized "text exceeds its permitted length"
  else .ok (u32 (UInt32.ofNat value.length) ++ value)

end ByteWriter

/-- A reader of a payload; its sticky failure is the error of the monad. -/
abbrev ByteReader := StateT Bytes (Except Status)

namespace ByteReader

def field (width : Nat) : ByteReader Nat := fun data =>
  match takeField width data with
  | some found => .ok found
  | none => fail .truncated "payload ended before the field was complete"

def u8 : ByteReader UInt8 := do return UInt8.ofNat (← field 1)
def u16 : ByteReader UInt16 := do return UInt16.ofNat (← field 2)
def u32 : ByteReader UInt32 := do return UInt32.ofNat (← field 4)
def u64 : ByteReader UInt64 := do return UInt64.ofNat (← field 8)
def i64 : ByteReader Int64 := do return (← u64).toInt64
def boolean : ByteReader Bool := do return (← u8) ≠ 0

def raw (size : Nat) : ByteReader Bytes := fun data =>
  if size > data.length then fail .truncated "payload ended before the field was complete"
  else .ok (data.take size, data.drop size)

def require (bad : Prop) [Decidable bad] (code : ErrCode) (message : String) : ByteReader Unit :=
  fun data => if bad then fail code message else .ok ((), data)

def text (maxLen : Nat) : ByteReader Bytes := do
  let size ← u32
  require (size.toNat > maxLen) .oversized "text length exceeds its permitted bound"
  raw size.toNat

def times {α : Type} (reader : ByteReader α) : Nat → ByteReader (List α)
  | 0 => return []
  | count + 1 => do
    let first ← reader
    let rest ← times reader count
    return first :: rest

/-- A declared count, checked against its bound, and that many entries. -/
def listOf {α : Type} (bound : Nat) (message : String) (reader : ByteReader α) :
    ByteReader (List α) := do
  let count ← u64
  require (count.toNat > bound) .oversized message
  times reader count.toNat

/-- The value a payload decodes to; bytes after it are not looked at. -/
def decode {α : Type} (reader : ByteReader α) (payload : Bytes) : Result α :=
  (reader payload).map Prod.fst

end ByteReader

end CongestionFabric
