import RiverProtocol.Lib.Abi

/-!
# SHA-256

The hash that the precompiled contract computes, on byte strings.
-/

namespace Sha256

/-- The eight words of the state. -/
structure State where
  a : UInt32
  b : UInt32
  c : UInt32
  d : UInt32
  e : UInt32
  f : UInt32
  g : UInt32
  h : UInt32
  deriving DecidableEq, Repr

def initial : State :=
  { a := 0x6a09e667, b := 0xbb67ae85, c := 0x3c6ef372, d := 0xa54ff53a
    e := 0x510e527f, f := 0x9b05688c, g := 0x1f83d9ab, h := 0x5be0cd19 }

def constants : List UInt32 :=
  [0x428a2f98, 0x71374491, 0xb5c0fbcf, 0xe9b5dba5, 0x3956c25b, 0x59f111f1,
    0x923f82a4, 0xab1c5ed5, 0xd807aa98, 0x12835b01, 0x243185be, 0x550c7dc3,
    0x72be5d74, 0x80deb1fe, 0x9bdc06a7, 0xc19bf174, 0xe49b69c1, 0xefbe4786,
    0x0fc19dc6, 0x240ca1cc, 0x2de92c6f, 0x4a7484aa, 0x5cb0a9dc, 0x76f988da,
    0x983e5152, 0xa831c66d, 0xb00327c8, 0xbf597fc7, 0xc6e00bf3, 0xd5a79147,
    0x06ca6351, 0x14292967, 0x27b70a85, 0x2e1b2138, 0x4d2c6dfc, 0x53380d13,
    0x650a7354, 0x766a0abb, 0x81c2c92e, 0x92722c85, 0xa2bfe8a1, 0xa81a664b,
    0xc24b8b70, 0xc76c51a3, 0xd192e819, 0xd6990624, 0xf40e3585, 0x106aa070,
    0x19a4c116, 0x1e376c08, 0x2748774c, 0x34b0bcb5, 0x391c0cb3, 0x4ed8aa4a,
    0x5b9cca4f, 0x682e6ff3, 0x748f82ee, 0x78a5636f, 0x84c87814, 0x8cc70208,
    0x90befffa, 0xa4506ceb, 0xbef9a3f7, 0xc67178f2]

def rotateRight (word amount : UInt32) : UInt32 :=
  (word >>> amount) ||| (word <<< (32 - amount))

/-- The words of a block, the last one first, and those mixed from them. -/
def schedule : Nat → List UInt32 → List UInt32
  | 0, words => words
  | count + 1, words =>
    let word (back : Nat) := words.getD (back - 1) 0
    let low := rotateRight (word 15) 7 ^^^ rotateRight (word 15) 18 ^^^
      (word 15 >>> 3)
    let high := rotateRight (word 2) 17 ^^^ rotateRight (word 2) 19 ^^^
      (word 2 >>> 10)
    schedule count ((word 16 + low + word 7 + high) :: words)

def round (state : State) (constant word : UInt32) : State :=
  let mixed := rotateRight state.e 6 ^^^ rotateRight state.e 11 ^^^
    rotateRight state.e 25
  let choice := (state.e &&& state.f) ^^^ (~~~state.e &&& state.g)
  let first := state.h + mixed + choice + constant + word
  let other := rotateRight state.a 2 ^^^ rotateRight state.a 13 ^^^
    rotateRight state.a 22
  let majority := (state.a &&& state.b) ^^^ (state.a &&& state.c) ^^^
    (state.b &&& state.c)
  { a := first + (other + majority), b := state.a, c := state.b, d := state.c
    e := state.d + first, f := state.e, g := state.f, h := state.g }

def State.add (state other : State) : State :=
  { a := state.a + other.a, b := state.b + other.b, c := state.c + other.c
    d := state.d + other.d, e := state.e + other.e, f := state.f + other.f
    g := state.g + other.g, h := state.h + other.h }

def State.words (state : State) : List UInt32 :=
  [state.a, state.b, state.c, state.d, state.e, state.f, state.g, state.h]

/-- The words of a block of 64 bytes. -/
def wordsOf (block : List UInt8) : List UInt32 :=
  (List.range 16).map fun place =>
    UInt32.ofNat (Abi.ofBytes ((block.drop (4 * place)).take 4))

def compress (state : State) (block : List UInt8) : State :=
  let words := (schedule 48 (wordsOf block).reverse).reverse
  state.add ((constants.zip words).foldl
    (fun state entry => round state entry.1 entry.2) state)

/-- A one bit, zeros, and the number of bits fill up whole blocks. -/
def padded (bytes : List UInt8) : List UInt8 :=
  bytes ++ [0x80] ++ List.replicate ((119 - bytes.length % 64) % 64) 0 ++
    Abi.toBytes 8 (8 * bytes.length)

def blocks (bytes : List UInt8) : List (List UInt8) :=
  (List.range (bytes.length / 64)).map fun place =>
    (bytes.drop (64 * place)).take 64

def hash (bytes : List UInt8) : List UInt8 :=
  ((blocks (padded bytes)).foldl compress initial).words.flatMap fun word =>
    Abi.toBytes 4 word.toNat

@[simp] theorem length_hash (bytes : List UInt8) :
    (hash bytes).length = 32 := by
  simp [hash, State.words]

example : hash [0x61, 0x62, 0x63] = Abi.toBytes 32
    0xba7816bf8f01cfea414140de5dae2223b00361a396177a9cb410ff61f20015ad := by
  decide +kernel

end Sha256
