import CongestionFabric.Lib.LittleEndian
import CongestionFabric.Core.Checked

namespace CongestionFabric

structure Hash64 where
  value : UInt64 := 0
  deriving DecidableEq

def kFnvOffset : UInt64 := 0xCBF29CE484222325
def kFnvPrime : UInt64 := 0x100000001B3

structure Hasher where
  state : UInt64 := kFnvOffset

namespace Hasher

def updateU8 (h : Hasher) (v : UInt8) : Hasher := ⟨(h.state ^^^ v.toUInt64) * kFnvPrime⟩
def update (h : Hasher) (data : Bytes) : Hasher := data.foldl updateU8 h
def updateU16 (h : Hasher) (v : UInt16) : Hasher := h.update (littleEndian 2 v.toNat)
def updateU32 (h : Hasher) (v : UInt32) : Hasher := h.update (littleEndian 4 v.toNat)
def updateU64 (h : Hasher) (v : UInt64) : Hasher := h.update (littleEndian 8 v.toNat)
def updateBool (h : Hasher) (v : Bool) : Hasher := h.updateU8 (if v then 1 else 0)
def updateSize (h : Hasher) (n : Nat) : Hasher := h.updateU64 (UInt64.ofNat n)
def updateTextFramed (h : Hasher) (text : Bytes) : Hasher := (h.updateSize text.length).update text

/-- One more mixing round, so that the empty input is not the unset fingerprint. -/
def finish (h : Hasher) : Hash64 :=
  let state := (h.state ^^^ 0xA5A5A5A5A5A5A5A5) * kFnvPrime
  let state := (state ^^^ (state >>> 29)) * 0xBF58476D1CE4E5B9
  let state := state ^^^ (state >>> 32)
  ⟨if state = 0 then kFnvOffset else state⟩

theorem finish_ne_zero (h : Hasher) : h.finish.value ≠ 0 := by
  have hoffset : kFnvOffset ≠ 0 := by decide
  unfold finish
  dsimp only
  split
  · exact hoffset
  · assumption

end Hasher

end CongestionFabric
