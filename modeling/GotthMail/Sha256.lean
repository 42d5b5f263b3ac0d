/-
SHA-256 over byte strings, computed on natural numbers below 2^32.  Nothing
is assumed about the function as a whole: results that need distinct inputs to
have distinct digests ask for it on the inputs that they compare.
-/
import GotthMail.Framing
import Mathlib.Data.Set.Function

namespace Sha256

open Bytes Framing

def addWord (left right : Nat) : Nat := (left + right) % 4294967296

def rotateRight (word count : Nat) : Nat :=
  ((word >>> count) ||| (word <<< (32 - count))) % 4294967296

def roundConstants : List Nat :=
  [0x428a2f98, 0x71374491, 0xb5c0fbcf, 0xe9b5dba5, 0x3956c25b, 0x59f111f1,
    0x923f82a4, 0xab1c5ed5, 0xd807aa98, 0x12835b01, 0x243185be, 0x550c7dc3,
    0x72be5d74, 0x80deb1fe, 0x9bdc06a7, 0xc19bf174, 0xe49b69c1, 0xefbe4786,
    0x0fc19dc6, 0x240ca1cc, 0x2de92c6f, 0x4a7484aa, 0x5cb0a9dc, 0x76f988da,
    0x983e5152, 0xa831c66d, 0xb00327c8, 0xbf597fc7, 0xc6e00bf3, 0xd5a79147,
    0x06ca6351, 0x14292967, 0x27b70a85, 0x2e1b2138, 0x4d2c6dfc, 0x53380d13,
    0x650a7354, 0x766a0abb, 0x81c2c92e, 0x92722c85, 0xa2bfe8a1, 0xa81a664b,
    0xc24b8b70, 0xc76c51a3, 0xd192e819, 0xd6990624, 0xf40e3585, 0x106aa070,
    0x19a4c116, 0x1e376c08, 0x2748774c, 0x34b0bcb5, 0x391c0cb3, 0x4ed8aa4a,
    0x5b9cca4f, 0x682e6ff3, 0x748f82ee, 0x78a5636f, 0x84c87814, 0x8cc70208,
    0x90befffa, 0xa4506ceb, 0xbef9a3f7, 0xc67178f2]

/-- The eight working words. -/
structure Registers where
  a : Nat
  b : Nat
  c : Nat
  d : Nat
  e : Nat
  f : Nat
  g : Nat
  h : Nat

def initial : Registers where
  a := 0x6a09e667
  b := 0xbb67ae85
  c := 0x3c6ef372
  d := 0xa54ff53a
  e := 0x510e527f
  f := 0x9b05688c
  g := 0x1f83d9ab
  h := 0x5be0cd19

def bigSigma0 (x : Nat) : Nat := rotateRight x 2 ^^^ rotateRight x 13 ^^^ rotateRight x 22

def bigSigma1 (x : Nat) : Nat := rotateRight x 6 ^^^ rotateRight x 11 ^^^ rotateRight x 25

def smallSigma0 (x : Nat) : Nat := rotateRight x 7 ^^^ rotateRight x 18 ^^^ (x >>> 3)

def smallSigma1 (x : Nat) : Nat := rotateRight x 17 ^^^ rotateRight x 19 ^^^ (x >>> 10)

def choose (e f g : Nat) : Nat := (e &&& f) ^^^ ((4294967295 - e) &&& g)

def majority (a b c : Nat) : Nat := (a &&& b) ^^^ (a &&& c) ^^^ (b &&& c)

def round (r : Registers) (input : Nat × Nat) : Registers :=
  let first := (r.h + bigSigma1 r.e + choose r.e r.f r.g + input.1 + input.2) % 4294967296
  let second := bigSigma0 r.a + majority r.a r.b r.c
  ⟨addWord first second, r.a, r.b, r.c, addWord r.d first, r.e, r.f, r.g⟩

/-- Extends a message schedule, newest word first. -/
def extend : Nat → List Nat → List Nat
  | 0, words => words
  | count + 1, words =>
    extend count (((smallSigma1 (words.getD 1 0) + words.getD 6 0 +
        smallSigma0 (words.getD 14 0) + words.getD 15 0) % 4294967296) :: words)

def bigEndianWords : List Nat → List Nat
  | a :: b :: c :: d :: rest =>
    (((a * 256 + b) * 256 + c) * 256 + d) :: bigEndianWords rest
  | _ => []

def schedule (block : List Nat) : List Nat := (extend 48 (bigEndianWords block).reverse).reverse

def addRegisters (left right : Registers) : Registers where
  a := addWord left.a right.a
  b := addWord left.b right.b
  c := addWord left.c right.c
  d := addWord left.d right.d
  e := addWord left.e right.e
  f := addWord left.f right.f
  g := addWord left.g right.g
  h := addWord left.h right.h

def compress (r : Registers) (block : List Nat) : Registers :=
  addRegisters r ((roundConstants.zip (schedule block)).foldl round r)

/-- The message followed by the one bit, zeros and its length in bits. -/
def pad (message : List Nat) : List Nat :=
  message ++ [128] ++ List.replicate ((119 - message.length % 64) % 64) 0 ++
    (bigEndian64 (message.length * 8)).map UInt8.toNat

def blocksOf : Nat → List Nat → List (List Nat)
  | 0, _ => []
  | count + 1, bytes => bytes.take 64 :: blocksOf count (bytes.drop 64)

def wordBytes (word : Nat) : Text :=
  [UInt8.ofNat (word >>> 24), UInt8.ofNat (word >>> 16), UInt8.ofNat (word >>> 8), UInt8.ofNat word]

def Registers.bytes (r : Registers) : Text :=
  wordBytes r.a ++ wordBytes r.b ++ wordBytes r.c ++ wordBytes r.d ++
    wordBytes r.e ++ wordBytes r.f ++ wordBytes r.g ++ wordBytes r.h

/-- The digest of a byte string. -/
def sum256 (text : Text) : Text :=
  let padded := pad (text.map UInt8.toNat)
  ((blocksOf (padded.length / 64) padded).foldl compress initial).bytes

/-- The digest as sixty-four lower-case hexadecimal digits. -/
def sumHex (text : Text) : Text := encodeHex (sum256 text)

theorem length_sum256 (text : Text) : (sum256 text).length = 32 := rfl

theorem length_sumHex (text : Text) : (sumHex text).length = 64 := by
  rw [sumHex, length_encodeHex, length_sum256]

theorem isLowerHex_of_mem_sumHex {text : Text} {digit : UInt8}
    (hdigit : digit ∈ sumHex text) : isLowerHex digit = true :=
  isLowerHex_of_mem_encodeHex hdigit

/-- Equal digests of collision-free inputs come from equal inputs. -/
theorem sumHex_injective {inputs : Set Text} (hinputs : Set.InjOn sum256 inputs)
    {left right : Text} (hleft : left ∈ inputs) (hright : right ∈ inputs)
    (heq : sumHex left = sumHex right) : left = right :=
  hinputs hleft hright (encodeHex_injective heq)

set_option maxRecDepth 100000 in
example : (sumHex (ascii "abc")).take 16 = ascii "ba7816bf8f01cfea" := by
  decide +kernel

end Sha256
