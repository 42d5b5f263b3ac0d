/-
Password digests: HMAC and PBKDF2 over SHA-256, and padded base64 as it is read.
-/
import GotthMail.Sha256

namespace Pbkdf2

open Bytes Framing Sha256

/-- A key filled up to a block, a long one by its digest. -/
def blockKey (key : Text) : Text :=
  let short := if 64 < key.length then sum256 key else key
  short ++ List.replicate (64 - short.length) 0

def hmac (key message : Text) : Text :=
  let filled := blockKey key
  sum256 (filled.map (· ^^^ 0x5c) ++ sum256 (filled.map (· ^^^ 0x36) ++ message))

/-- A derived key of one digest: each code is taken of the one before, and all of them
are combined. -/
def derive (secret salt : Text) (iterations : Nat) : Text :=
  let first := hmac secret (salt ++ [0, 0, 0, 1])
  ((List.range (iterations - 1)).foldl (fun state _ =>
    let next := hmac secret state.1
    (next, List.zipWith (· ^^^ ·) state.2 next)) (first, first)).2

set_option maxRecDepth 100000 in
example : (derive (ascii "password") (ascii "salt") 1).take 4 = [0x12, 0x0f, 0xb6, 0xcf] := by
  decide +kernel

def digit64 (byte : UInt8) : Option Nat :=
  if 65 ≤ byte ∧ byte ≤ 90 then some (byte.toNat - 65)
  else if 97 ≤ byte ∧ byte ≤ 122 then some (byte.toNat - 71)
  else if isDigit byte then some (byte.toNat + 4)
  else if byte = 43 then some 62
  else if byte = 47 then some 63
  else none

/-- Groups of four digits; the bits that padding leaves over are ignored. -/
def groups64 : Text → Option Text
  | [] => some []
  | first :: second :: third :: fourth :: rest => do
    let high ← digit64 first
    let low ← digit64 second
    if rest = [] ∧ third = 61 ∧ fourth = 61 then
      return [UInt8.ofNat ((high * 64 + low) / 16)]
    let next ← digit64 third
    if rest = [] ∧ fourth = 61 then
      let bits := (high * 64 + low) * 64 + next
      return [UInt8.ofNat (bits / 1024), UInt8.ofNat (bits / 4)]
    let last ← digit64 fourth
    let bits := ((high * 64 + low) * 64 + next) * 64 + last
    let others ← groups64 rest
    return UInt8.ofNat (bits / 65536) :: UInt8.ofNat (bits / 256) :: UInt8.ofNat bits :: others
  | _ => none

/-- Line breaks are skipped. -/
def decode64 (text : Text) : Option Text := groups64 (text.filter fun byte => byte ≠ 10 ∧ byte ≠ 13)

example : decode64 (ascii "TWFuTQ==") = some (ascii "ManM") := by decide

end Pbkdf2
