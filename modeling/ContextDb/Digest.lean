/-!
# Digests

SHA-256, by which secrets are compared. A text of bytes is padded to whole blocks,
and each block is mixed into a state of eight words, which is the digest in the end.
-/

namespace ContextDb.Digest

/-- The words that are added in the rounds. -/
def roundWords : List UInt32 :=
  [0x428a2f98, 0x71374491, 0xb5c0fbcf, 0xe9b5dba5, 0x3956c25b, 0x59f111f1, 0x923f82a4, 0xab1c5ed5,
   0xd807aa98, 0x12835b01, 0x243185be, 0x550c7dc3, 0x72be5d74, 0x80deb1fe, 0x9bdc06a7, 0xc19bf174,
   0xe49b69c1, 0xefbe4786, 0x0fc19dc6, 0x240ca1cc, 0x2de92c6f, 0x4a7484aa, 0x5cb0a9dc, 0x76f988da,
   0x983e5152, 0xa831c66d, 0xb00327c8, 0xbf597fc7, 0xc6e00bf3, 0xd5a79147, 0x06ca6351, 0x14292967,
   0x27b70a85, 0x2e1b2138, 0x4d2c6dfc, 0x53380d13, 0x650a7354, 0x766a0abb, 0x81c2c92e, 0x92722c85,
   0xa2bfe8a1, 0xa81a664b, 0xc24b8b70, 0xc76c51a3, 0xd192e819, 0xd6990624, 0xf40e3585, 0x106aa070,
   0x19a4c116, 0x1e376c08, 0x2748774c, 0x34b0bcb5, 0x391c0cb3, 0x4ed8aa4a, 0x5b9cca4f, 0x682e6ff3,
   0x748f82ee, 0x78a5636f, 0x84c87814, 0x8cc70208, 0x90befffa, 0xa4506ceb, 0xbef9a3f7, 0xc67178f2]

/-- What has been made of the blocks so far. -/
structure State where
  a : UInt32
  b : UInt32
  c : UInt32
  d : UInt32
  e : UInt32
  f : UInt32
  g : UInt32
  h : UInt32
  deriving DecidableEq, Repr

/-- The state before the first block. -/
def State.start : State :=
  ⟨0x6a09e667, 0xbb67ae85, 0x3c6ef372, 0xa54ff53a, 0x510e527f,
    0x9b05688c, 0x1f83d9ab, 0x5be0cd19⟩

/-- A word with its bits moved to the right in a circle. -/
def rotate (word count : UInt32) : UInt32 :=
  (word >>> count) ||| (word <<< (32 - count))

/-- One round with a word of the schedule and the word of the round. -/
def State.round (state : State) (scheduled added : UInt32) : State :=
  let ⟨a, b, c, d, e, f, g, h⟩ := state
  let turnedE := rotate e 6 ^^^ rotate e 11 ^^^ rotate e 25
  let choice := (e &&& f) ^^^ (~~~e &&& g)
  let first := h + turnedE + choice + added + scheduled
  let turnedA := rotate a 2 ^^^ rotate a 13 ^^^ rotate a 22
  let majority := (a &&& b) ^^^ (a &&& c) ^^^ (b &&& c)
  ⟨first + turnedA + majority, a, b, c, d + first, e, f, g⟩

/-- The word of the schedule that follows sixteen others. -/
def nextScheduled (window : List UInt32) : UInt32 :=
  let early := window.getD 1 0
  let late := window.getD 14 0
  let turnedEarly := rotate early 7 ^^^ rotate early 18 ^^^ (early >>> 3)
  let turnedLate := rotate late 17 ^^^ rotate late 19 ^^^ (late >>> 10)
  window.getD 0 0 + turnedEarly + window.getD 9 0 + turnedLate

/-- The rounds for some round words. `window` holds the next sixteen words of the
schedule. -/
def State.rounds (state : State) (window : List UInt32) : List UInt32 → State
  | [] => state
  | added :: others =>
    (state.round (window.getD 0 0) added).rounds (window.drop 1 ++ [nextScheduled window]) others

/-- Mix a block of sixteen words into a state. -/
def State.mix (state : State) (block : List UInt32) : State :=
  let mixed := state.rounds block roundWords
  ⟨state.a + mixed.a, state.b + mixed.b, state.c + mixed.c, state.d + mixed.d,
    state.e + mixed.e, state.f + mixed.f, state.g + mixed.g, state.h + mixed.h⟩

/-- Mix the first `count` blocks of some words into a state. -/
def State.mixAll (state : State) : Nat → List UInt32 → State
  | 0, _ => state
  | count + 1, words => (state.mix (words.take 16)).mixAll count (words.drop 16)

/-- The bytes of a number, the highest first. -/
def bigEndian (value : Nat) : Nat → List UInt8
  | 0 => []
  | count + 1 => (value >>> (8 * count)).toUInt8 :: bigEndian value count

/-- The words of some bytes. -/
def wordsOf : List UInt8 → List UInt32
  | first :: second :: third :: fourth :: rest =>
    ((first.toUInt32 <<< 24) ||| (second.toUInt32 <<< 16) ||| (third.toUInt32 <<< 8) |||
      fourth.toUInt32) :: wordsOf rest
  | _ => []

/-- Bytes with a mark after them, as many zeros as it takes, and their length in
bits. -/
def pad (bytes : List UInt8) : List UInt8 :=
  bytes ++ 0x80 :: List.replicate ((119 - bytes.length % 64) % 64) 0 ++
    bigEndian (8 * bytes.length) 8

/-- The bytes of a state. -/
def State.bytes (state : State) : List UInt8 :=
  [state.a, state.b, state.c, state.d, state.e, state.f, state.g, state.h].flatMap fun word =>
    bigEndian word.toNat 4

/-- The digest of some bytes. -/
def digest (bytes : List UInt8) : List UInt8 :=
  let words := wordsOf (pad bytes)
  (State.start.mixAll (words.length / 16) words).bytes

end ContextDb.Digest
