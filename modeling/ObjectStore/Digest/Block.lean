import ObjectStore.Word

/-!
# Blocks of a message

What the two digests share: padding to whole blocks of 64 bytes, words of four bytes in either
order, and rotation.
-/

namespace ObjectStore.Digest

/-- Rotate the bits of a word to the left by an amount from 1 to 31. -/
def rotateLeft (w amount : UInt32) : UInt32 := (w <<< amount) ||| (w >>> (32 - amount))

/-- A word of four bytes, the first one most significant. -/
def bigWord (a b c d : UInt8) : UInt32 :=
  (a.toUInt32 <<< 24) ||| (b.toUInt32 <<< 16) ||| (c.toUInt32 <<< 8) ||| d.toUInt32

/-- The words of a byte sequence, the first byte of each most significant. -/
def bigWords : List UInt8 → List UInt32
  | a :: b :: c :: d :: r => bigWord a b c d :: bigWords r
  | _ => []

/-- The words of a byte sequence, the first byte of each least significant. -/
def littleWords : List UInt8 → List UInt32
  | a :: b :: c :: d :: r => bigWord d c b a :: littleWords r
  | _ => []

/-- The bytes of a word, the most significant one first. -/
def bigBytes (w : UInt32) : List UInt8 :=
  [(w >>> 24).toUInt8, (w >>> 16).toUInt8, (w >>> 8).toUInt8, w.toUInt8]

/-- The bytes of a word, the least significant one first. -/
def littleBytes (w : UInt32) : List UInt8 := (bigBytes w).reverse

/-- A length in bits as eight bytes, the most significant one first. -/
def bigLength (bits : Nat) : List UInt8 :=
  bigBytes (bits / word32).toUInt32 ++ bigBytes bits.toUInt32

/-- A length in bits as eight bytes, the least significant one first. -/
def littleLength (bits : Nat) : List UInt8 := (bigLength bits).reverse

/-- A message with a one bit after it, zeros up to eight bytes before the end of a block, and
its length. -/
def padded (lengthBytes : Nat → List UInt8) (message : List UInt8) : List UInt8 :=
  let zeros := (119 - message.length % 64) % 64
  message ++ 0x80 :: List.replicate zeros 0 ++ lengthBytes (message.length * 8)

/-- Cut a byte sequence into blocks of 64; `fuel` bounds their number. -/
def blocksFrom : Nat → List UInt8 → List (List UInt8)
  | 0, _ => []
  | fuel + 1, bytes => bytes.take 64 :: blocksFrom fuel (bytes.drop 64)

/-- The blocks of a padded message. -/
def blocks (bytes : List UInt8) : List (List UInt8) := blocksFrom (bytes.length / 64) bytes

end ObjectStore.Digest
