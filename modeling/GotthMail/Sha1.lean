/-
SHA-1 over byte strings, on the words and blocks of SHA-256.  Nothing is assumed
about the function as a whole.
-/
import GotthMail.Sha256

namespace Sha1

open Bytes Framing Sha256

/-- The five working words. -/
structure Registers where
  a : Nat
  b : Nat
  c : Nat
  d : Nat
  e : Nat

def initial : Registers := ⟨0x67452301, 0xefcdab89, 0x98badcfe, 0x10325476, 0xc3d2e1f0⟩

def rotateLeft (word count : Nat) : Nat := rotateRight word (32 - count)

/-- The function of a round and its constant. -/
def mix (index b c d : Nat) : Nat × Nat :=
  if index < 20 then (choose b c d, 0x5a827999)
  else if index < 40 then (b ^^^ c ^^^ d, 0x6ed9eba1)
  else if index < 60 then (majority b c d, 0x8f1bbcdc)
  else (b ^^^ c ^^^ d, 0xca62c1d6)

def round (r : Registers) (input : Nat × Nat) : Registers :=
  let (mixed, constant) := mix input.1 r.b r.c r.d
  ⟨(rotateLeft r.a 5 + mixed + r.e + constant + input.2) % 4294967296, r.a, rotateLeft r.b 30,
    r.c, r.d⟩

/-- Extends a message schedule, newest word first. -/
def extend : Nat → List Nat → List Nat
  | 0, words => words
  | count + 1, words =>
    extend count (rotateLeft (words.getD 2 0 ^^^ words.getD 7 0 ^^^ words.getD 13 0 ^^^
      words.getD 15 0) 1 :: words)

def compress (r : Registers) (block : List Nat) : Registers :=
  let words := (extend 64 (bigEndianWords block).reverse).reverse
  let last := ((List.range 80).zip words).foldl round r
  ⟨addWord r.a last.a, addWord r.b last.b, addWord r.c last.c, addWord r.d last.d,
    addWord r.e last.e⟩

/-- The digest of a byte string. -/
def sum (text : Text) : Text :=
  let padded := pad (text.map UInt8.toNat)
  let last := (blocksOf (padded.length / 64) padded).foldl compress initial
  [last.a, last.b, last.c, last.d, last.e].flatMap wordBytes

set_option maxRecDepth 100000 in
example : encodeHex (sum (ascii "abc")) = ascii "a9993e364706816aba3e25717850c26c9cd0d89d" := by
  decide +kernel

end Sha1
