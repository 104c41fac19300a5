/-!
# Checksums

The 32-bit cyclic redundancy check of zip archives: the reflected polynomial 0xEDB88320, with all
bits of the register set at the start and inverted at the end.
-/

namespace DependencyLint.Archive

/-- Shifts the register by one bit. -/
def crcShift (register : UInt32) : UInt32 :=
  if register &&& 1 = 1 then (register >>> 1) ^^^ 0xEDB88320 else register >>> 1

/-- Takes one byte into the register. -/
def crcByte (register : UInt32) (b : UInt8) : UInt32 :=
  Nat.repeat crcShift 8 (register ^^^ b.toUInt32)

/-- The checksum of a byte sequence. -/
def crc32 (bytes : ByteArray) : UInt32 :=
  bytes.toList.foldl crcByte 0xFFFFFFFF ^^^ 0xFFFFFFFF

end DependencyLint.Archive
