import CongestionFabric.Core.Checked

namespace CongestionFabric

def crc32cBit (c : UInt32) : UInt32 :=
  if c &&& 1 ≠ 0 then (0x82F63B78 : UInt32) ^^^ (c >>> 1) else c >>> 1

/-- The table entry of a byte, computed bit by bit as the table is. -/
def crc32cEntry (index : UInt32) : UInt32 :=
  crc32cBit (crc32cBit (crc32cBit (crc32cBit
    (crc32cBit (crc32cBit (crc32cBit (crc32cBit index)))))))

def crc32cContinue (seed : UInt32) (data : Bytes) : UInt32 :=
  ~~~(data.foldl (fun crc b => crc32cEntry ((crc ^^^ b.toUInt32) &&& 0xFF) ^^^ (crc >>> 8))
    (~~~seed))

def crc32c (data : Bytes) : UInt32 := crc32cContinue 0 data

set_option maxRecDepth 100000 in
/-- The check value of the polynomial, over the digits 1 to 9. -/
example : crc32c [0x31, 0x32, 0x33, 0x34, 0x35, 0x36, 0x37, 0x38, 0x39] = 0xE3069283 := by
  decide +kernel

end CongestionFabric
