import Fabric.Handle
/-!
Checksums of handles. The checksum is the low half of the 64-bit XXH3 hash, with seed 0, of the
handle's four bytes in little-endian order.
-/

namespace Fabric.Checksum

/-- The key that XXH3 mixes into inputs of four to eight bytes: bytes 8 to 23 of its fixed secret,
the two words of it combined. -/
def shortKey : UInt64 := 0xC73AB174C5ECD5A2

def multiplier : UInt64 := 0x9FB21C651E98DF25

def rotateLeft (x : UInt64) (n : UInt64) : UInt64 := (x <<< n) ||| (x >>> (64 - n))

/-- The final mixing of XXH3 for four to eight bytes; `length` is the number of bytes. -/
def mix (length x : UInt64) : UInt64 :=
  let x := x ^^^ rotateLeft x 49 ^^^ rotateLeft x 24
  let x := x * multiplier
  let x := x ^^^ ((x >>> 35) + length)
  let x := x * multiplier
  x ^^^ (x >>> 28)

/-- A four-byte input fills both halves of the word that is hashed. -/
def hashWord (w : UInt32) : UInt64 :=
  let doubled := w.toUInt64 + (w.toUInt64 <<< 32)
  mix 4 (doubled ^^^ shortKey)

/-- The upper half is folded in before the lower is taken. -/
def ofWord (w : UInt32) : UInt32 :=
  let h := hashWord w
  (h ^^^ (h >>> 32)).toUInt32

end Fabric.Checksum

namespace Fabric

def Handle.checksum {k : Kind} (h : Handle k) : UInt32 := Checksum.ofWord h.raw

end Fabric
