import MosskeysWitness.Crates

/-! SHA-256. -/

namespace MosskeysWitness.Reference

namespace Sha256

def constants : List UInt32 :=
  [0x428a2f98, 0x71374491, 0xb5c0fbcf, 0xe9b5dba5, 0x3956c25b, 0x59f111f1, 0x923f82a4, 0xab1c5ed5,
    0xd807aa98, 0x12835b01, 0x243185be, 0x550c7dc3, 0x72be5d74, 0x80deb1fe, 0x9bdc06a7, 0xc19bf174,
    0xe49b69c1, 0xefbe4786, 0x0fc19dc6, 0x240ca1cc, 0x2de92c6f, 0x4a7484aa, 0x5cb0a9dc, 0x76f988da,
    0x983e5152, 0xa831c66d, 0xb00327c8, 0xbf597fc7, 0xc6e00bf3, 0xd5a79147, 0x06ca6351, 0x14292967,
    0x27b70a85, 0x2e1b2138, 0x4d2c6dfc, 0x53380d13, 0x650a7354, 0x766a0abb, 0x81c2c92e, 0x92722c85,
    0xa2bfe8a1, 0xa81a664b, 0xc24b8b70, 0xc76c51a3, 0xd192e819, 0xd6990624, 0xf40e3585, 0x106aa070,
    0x19a4c116, 0x1e376c08, 0x2748774c, 0x34b0bcb5, 0x391c0cb3, 0x4ed8aa4a, 0x5b9cca4f, 0x682e6ff3,
    0x748f82ee, 0x78a5636f, 0x84c87814, 0x8cc70208, 0x90befffa, 0xa4506ceb, 0xbef9a3f7, 0xc67178f2]

structure Words where
  a : UInt32
  b : UInt32
  c : UInt32
  d : UInt32
  e : UInt32
  f : UInt32
  g : UInt32
  h : UInt32

def start : Words :=
  ⟨0x6a09e667, 0xbb67ae85, 0x3c6ef372, 0xa54ff53a, 0x510e527f, 0x9b05688c, 0x1f83d9ab, 0x5be0cd19⟩

def rotate (word : UInt32) (count : UInt32) : UInt32 :=
  (word >>> count) ||| (word <<< (32 - count))

/-- The message and its padding, up to a multiple of 64 bytes. -/
def padded (message : List UInt8) : List UInt8 :=
  let length := message.length
  let zeros := (119 - length % 64) % 64
  let bits := length * 8
  message ++ [0x80] ++ List.replicate zeros 0 ++
    (List.range 8).reverse.map fun index => UInt8.ofNat (bits / 256 ^ index)

def wordOf (bytes : List UInt8) : UInt32 :=
  bytes.foldl (fun word byte => word * 256 + byte.toUInt32) 0

/-- The next word of the message schedule, from the sixteen before it, oldest first. -/
def nextWord (window : List UInt32) : UInt32 :=
  let early := window.getD 1 0
  let late := window.getD 14 0
  let small := rotate early 7 ^^^ rotate early 18 ^^^ (early >>> 3)
  let large := rotate late 17 ^^^ rotate late 19 ^^^ (late >>> 10)
  window.getD 0 0 + small + window.getD 9 0 + large

def round (words : Words) (constant word : UInt32) : Words :=
  let mixed := rotate words.e 6 ^^^ rotate words.e 11 ^^^ rotate words.e 25
  let choice := (words.e &&& words.f) ^^^ (~~~words.e &&& words.g)
  let first := words.h + mixed + choice + constant + word
  let folded := rotate words.a 2 ^^^ rotate words.a 13 ^^^ rotate words.a 22
  let majority := (words.a &&& words.b) ^^^ (words.a &&& words.c) ^^^ (words.b &&& words.c)
  ⟨first + (folded + majority), words.a, words.b, words.c, words.d + first, words.e, words.f,
    words.g⟩

def rounds (words : Words) : List UInt32 → List UInt32 → Words
  | constant :: constants, window =>
      rounds (round words constant (window.getD 0 0)) constants
        (window.drop 1 ++ [nextWord window])
  | [], _ => words

def compress (words : Words) (block : List UInt8) : Words :=
  let window := (List.range 16).map fun index => wordOf ((block.drop (4 * index)).take 4)
  let next := rounds words constants window
  ⟨words.a + next.a, words.b + next.b, words.c + next.c, words.d + next.d, words.e + next.e,
    words.f + next.f, words.g + next.g, words.h + next.h⟩

def wordBytes (word : UInt32) : List UInt8 :=
  [(word >>> 24).toUInt8, (word >>> 16).toUInt8, (word >>> 8).toUInt8, word.toUInt8]

def digest (words : Words) : List UInt8 :=
  [words.a, words.b, words.c, words.d, words.e, words.f, words.g, words.h].flatMap wordBytes

def hash (message : List UInt8) : Hash :=
  let bytes := padded message
  let blocks := (List.range (bytes.length / 64)).map fun index => (bytes.drop (64 * index)).take 64
  ⟨digest (blocks.foldl compress start), rfl⟩

end Sha256

end MosskeysWitness.Reference
