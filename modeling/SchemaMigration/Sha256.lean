import SchemaMigration.Text.Quoted

namespace SchemaMigration.Sha256

structure State where
  a : UInt32
  b : UInt32
  c : UInt32
  d : UInt32
  e : UInt32
  f : UInt32
  g : UInt32
  h : UInt32

def start : State :=
  ⟨0x6a09e667, 0xbb67ae85, 0x3c6ef372, 0xa54ff53a, 0x510e527f, 0x9b05688c, 0x1f83d9ab, 0x5be0cd19⟩

def roundConstants : List UInt32 :=
  [
   0x428a2f98, 0x71374491, 0xb5c0fbcf, 0xe9b5dba5, 0x3956c25b, 0x59f111f1, 0x923f82a4, 0xab1c5ed5,
   0xd807aa98, 0x12835b01, 0x243185be, 0x550c7dc3, 0x72be5d74, 0x80deb1fe, 0x9bdc06a7, 0xc19bf174,
   0xe49b69c1, 0xefbe4786, 0x0fc19dc6, 0x240ca1cc, 0x2de92c6f, 0x4a7484aa, 0x5cb0a9dc, 0x76f988da,
   0x983e5152, 0xa831c66d, 0xb00327c8, 0xbf597fc7, 0xc6e00bf3, 0xd5a79147, 0x06ca6351, 0x14292967,
   0x27b70a85, 0x2e1b2138, 0x4d2c6dfc, 0x53380d13, 0x650a7354, 0x766a0abb, 0x81c2c92e, 0x92722c85,
   0xa2bfe8a1, 0xa81a664b, 0xc24b8b70, 0xc76c51a3, 0xd192e819, 0xd6990624, 0xf40e3585, 0x106aa070,
   0x19a4c116, 0x1e376c08, 0x2748774c, 0x34b0bcb5, 0x391c0cb3, 0x4ed8aa4a, 0x5b9cca4f, 0x682e6ff3,
   0x748f82ee, 0x78a5636f, 0x84c87814, 0x8cc70208, 0x90befffa, 0xa4506ceb, 0xbef9a3f7, 0xc67178f2
  ]

def rotate (x : UInt32) (n : UInt32) : UInt32 := (x >>> n) ||| (x <<< (32 - n))

def round (s : State) (word constant : UInt32) : State :=
  let mix := rotate s.e 6 ^^^ rotate s.e 11 ^^^ rotate s.e 25
  let choice := (s.e &&& s.f) ^^^ (~~~s.e &&& s.g)
  let first := s.h + mix + choice + constant + word
  let spread := rotate s.a 2 ^^^ rotate s.a 13 ^^^ rotate s.a 22
  let majority := (s.a &&& s.b) ^^^ (s.a &&& s.c) ^^^ (s.b &&& s.c)
  ⟨first + spread + majority, s.a, s.b, s.c, s.d + first, s.e, s.f, s.g⟩

/-- The next word of the schedule; the words so far stand with the latest first. -/
def nextWord (latest : List UInt32) : UInt32 :=
  let x := latest.getD 14 0
  let y := latest.getD 1 0
  latest.getD 15 0 + (rotate x 7 ^^^ rotate x 18 ^^^ (x >>> 3)) + latest.getD 6 0 +
    (rotate y 17 ^^^ rotate y 19 ^^^ (y >>> 10))

def extend : Nat → List UInt32 → List UInt32
  | 0, latest => latest
  | more + 1, latest => extend more (nextWord latest :: latest)

/-- Four bytes to a word, the first one highest. -/
def words : List UInt8 → List UInt32
  | p :: q :: r :: s :: rest =>
    ((p.toUInt32 <<< 24) ||| (q.toUInt32 <<< 16) ||| (r.toUInt32 <<< 8) ||| s.toUInt32) :: words rest
  | _ => []

def add (s t : State) : State :=
  ⟨s.a + t.a, s.b + t.b, s.c + t.c, s.d + t.d, s.e + t.e, s.f + t.f, s.g + t.g, s.h + t.h⟩

def absorb (s : State) (block : List UInt8) : State :=
  let schedule := (extend 48 (words block).reverse).reverse
  add s ((schedule.zip roundConstants).foldl (fun t pair => round t pair.1 pair.2) s)

/-- The `count` lowest bytes of a number, the highest of them first. -/
def bytesOf : Nat → Nat → List UInt8
  | 0, _ => []
  | count + 1, n => bytesOf count (n / 256) ++ [n.toUInt8]

/-- One bit, zeros, and the length in bits, to a multiple of 64 bytes. -/
def pad (message : List UInt8) : List UInt8 :=
  let zeros := (119 - message.length % 64) % 64
  message ++ 0x80 :: List.replicate zeros 0 ++ bytesOf 8 (8 * message.length)

def absorbAll : Nat → State → List UInt8 → State
  | 0, s, _ => s
  | blocks + 1, s, message => absorbAll blocks (absorb s (message.take 64)) (message.drop 64)

def digest (message : List UInt8) : List UInt32 :=
  let padded := pad message
  let s := absorbAll (padded.length / 64) start padded
  [s.a, s.b, s.c, s.d, s.e, s.f, s.g, s.h]

def ofText (s : String) : String :=
  String.ofList ((digest s.toUTF8.toList).flatMap fun word => Text.hex 8 word.toNat)

end SchemaMigration.Sha256
