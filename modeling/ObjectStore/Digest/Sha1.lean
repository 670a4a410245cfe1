import ObjectStore.Digest.Block

/-!
# SHA-1

The 160-bit digest of a byte sequence.
-/

namespace ObjectStore.Digest.Sha1

/-- The five words of the running digest. -/
structure State where
  a : UInt32
  b : UInt32
  c : UInt32
  d : UInt32
  e : UInt32
  deriving Repr, DecidableEq

/-- The digest before the first block. -/
def initial : State := ⟨0x67452301, 0xefcdab89, 0x98badcfe, 0x10325476, 0xc3d2e1f0⟩

/-- Extend the words of a block by one: the rotated sum without carry of four earlier words. -/
def extend (words : Array UInt32) : Array UInt32 :=
  let n := words.size
  words.push (rotateLeft (words.getD (n - 3) 0 ^^^ words.getD (n - 8) 0
    ^^^ words.getD (n - 14) 0 ^^^ words.getD (n - 16) 0) 1)

/-- The eighty words that the steps on a block take in. -/
def schedule (block : List UInt8) : Array UInt32 :=
  (List.range 64).foldl (fun words _ => extend words) (bigWords block).toArray

/-- One step with its word. -/
def step (words : Array UInt32) (s : State) (i : Nat) : State :=
  let mixed :=
    if i < 20 then (s.b &&& s.c) ||| (~~~s.b &&& s.d)
    else if i < 40 then s.b ^^^ s.c ^^^ s.d
    else if i < 60 then (s.b &&& s.c) ||| (s.b &&& s.d) ||| (s.c &&& s.d)
    else s.b ^^^ s.c ^^^ s.d
  let constant : UInt32 :=
    if i < 20 then 0x5a827999
    else if i < 40 then 0x6ed9eba1
    else if i < 60 then 0x8f1bbcdc
    else 0xca62c1d6
  ⟨rotateLeft s.a 5 + mixed + s.e + constant + words.getD i 0, s.a, rotateLeft s.b 30, s.c, s.d⟩

/-- Take in one block of 64 bytes. -/
def absorb (s : State) (block : List UInt8) : State :=
  let t := (List.range 80).foldl (step (schedule block)) s
  ⟨s.a + t.a, s.b + t.b, s.c + t.c, s.d + t.d, s.e + t.e⟩

/-- The twenty bytes of the digest. -/
def digest (message : List UInt8) : List UInt8 :=
  let s := (blocks (padded bigLength message)).foldl absorb initial
  [s.a, s.b, s.c, s.d, s.e].flatMap bigBytes

/-- A key of exactly one block: longer keys are digested first, shorter ones get zeros. -/
def blockKey (key : List UInt8) : List UInt8 :=
  let short := if key.length > 64 then digest key else key
  short ++ List.replicate (64 - short.length) 0

/-- The keyed digest HMAC: an inner digest under one masked key, an outer one under another. -/
def keyed (key message : List UInt8) : List UInt8 :=
  let masked (mask : UInt8) := (blockKey key).map (· ^^^ mask)
  digest (masked 0x5c ++ digest (masked 0x36 ++ message))

end ObjectStore.Digest.Sha1
