import SimMetadata.Text.Utf8

/-!
# The checksum of archive members

Zip archives record the CRC-32 of every member: the remainder of the member's bits, least
significant bit first, under the reflected polynomial `0xEDB88320`, with all bits inverted before
and after.
-/

namespace SimMetadata.Digest.Crc32

/-- One bit: shift, and subtract the polynomial if a one fell out. -/
def shiftBit (r : UInt32) : UInt32 :=
  if r &&& 1 = 1 then (r >>> 1) ^^^ 0xEDB88320 else r >>> 1

/-- One byte. -/
def feed (r : UInt32) (b : UInt8) : UInt32 :=
  (List.range 8).foldl (fun r _ => shiftBit r) (r ^^^ b.toUInt32)

/-- The checksum of some bytes. -/
def checksum (bytes : Bytes) : UInt32 := bytes.foldl feed 0xFFFFFFFF ^^^ 0xFFFFFFFF

/-- The check value of the standard: the nine digits from one to nine. -/
example : checksum [0x31, 0x32, 0x33, 0x34, 0x35, 0x36, 0x37, 0x38, 0x39] = 0xCBF43926 := by
  decide +kernel

end SimMetadata.Digest.Crc32
