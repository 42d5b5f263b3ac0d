/-
Length-framed transcripts.  Each value is preceded by its length in eight
big-endian bytes, so a transcript of values shorter than 2^64 bytes can be
parsed in one way only; the textual encodings of digests and counters that
transcripts carry are injective as well.
-/
import GotthMail.Bytes
import Mathlib.Data.Nat.Digits.Defs

namespace Framing

open Bytes

/-- The low 64 bits of a number, most significant byte first. -/
def bigEndian64 (number : Nat) : Text :=
  [UInt8.ofNat (number / 2 ^ 56), UInt8.ofNat (number / 2 ^ 48),
    UInt8.ofNat (number / 2 ^ 40), UInt8.ofNat (number / 2 ^ 32),
    UInt8.ofNat (number / 2 ^ 24), UInt8.ofNat (number / 2 ^ 16),
    UInt8.ofNat (number / 2 ^ 8), UInt8.ofNat number]

/-- One value behind its length. -/
def frame (value : Text) : Text := bigEndian64 value.length ++ value

/-- A transcript of values in order. -/
def frames (values : List Text) : Text := values.flatMap frame

/-- The largest length a frame can announce faithfully. -/
def Frameable (values : List Text) : Prop := ∀ value ∈ values, value.length < 2 ^ 64

@[simp] theorem frames_nil : frames [] = [] := rfl

@[simp] theorem frames_cons (value : Text) (rest : List Text) :
    frames (value :: rest) = frame value ++ frames rest := rfl

theorem ofNat_byte_eq {left right : Nat} (heq : UInt8.ofNat left = UInt8.ofNat right) :
    left % 256 = right % 256 := by
  have hnat := congrArg UInt8.toNat heq
  simpa only [UInt8.toNat_ofNat', Nat.reducePow] using hnat

theorem bigEndian64_injective {left right : Nat} (hleft : left < 2 ^ 64)
    (hright : right < 2 ^ 64) (heq : bigEndian64 left = bigEndian64 right) : left = right := by
  simp only [bigEndian64, List.cons.injEq, and_true] at heq
  obtain ⟨h7, h6, h5, h4, h3, h2, h1, h0⟩ := heq
  have h7 := ofNat_byte_eq h7
  have h6 := ofNat_byte_eq h6
  have h5 := ofNat_byte_eq h5
  have h4 := ofNat_byte_eq h4
  have h3 := ofNat_byte_eq h3
  have h2 := ofNat_byte_eq h2
  have h1 := ofNat_byte_eq h1
  have h0 := ofNat_byte_eq h0
  omega

/-- A frame announces its own end, so what follows it can be split off. -/
theorem frame_append_inj {left right leftRest rightRest : Text}
    (hleft : left.length < 2 ^ 64) (hright : right.length < 2 ^ 64)
    (heq : frame left ++ leftRest = frame right ++ rightRest) :
    left = right ∧ leftRest = rightRest := by
  simp only [frame, List.append_assoc] at heq
  obtain ⟨hsize, htail⟩ := List.append_inj heq rfl
  have hlength := bigEndian64_injective hleft hright hsize
  exact List.append_inj htail hlength

theorem Frameable.tail {value : Text} {rest : List Text}
    (hvalues : Frameable (value :: rest)) : Frameable rest :=
  fun other hother => hvalues other (List.mem_cons_of_mem value hother)

/-- A transcript determines the sequence of values it frames. -/
theorem frames_injective {left right : List Text} (hleft : Frameable left)
    (hright : Frameable right) (heq : frames left = frames right) : left = right := by
  induction left generalizing right with
  | nil =>
    cases right with
    | nil => rfl
    | cons value rest => simp [frame, bigEndian64] at heq
  | cons value rest ih =>
    cases right with
    | nil => simp [frame, bigEndian64] at heq
    | cons other more =>
      obtain ⟨hvalue, hrest⟩ := frame_append_inj (hleft value List.mem_cons_self)
        (hright other List.mem_cons_self) heq
      rw [hvalue, ih hleft.tail hright.tail hrest]

/-- Lists are told apart by a map that tells their members apart. -/
theorem map_injective_on {α β : Type} {f : α → β} {left right : List α}
    (hf : ∀ first ∈ left, ∀ second ∈ right, f first = f second →
      first = second)
    (heq : left.map f = right.map f) : left = right := by
  induction left generalizing right with
  | nil =>
    cases right with
    | nil => rfl
    | cons second rest => simp at heq
  | cons first more ih =>
    cases right with
    | nil => simp at heq
    | cons second rest =>
      simp only [List.map_cons, List.cons.injEq] at heq
      rw [hf first List.mem_cons_self second List.mem_cons_self heq.1,
        ih (fun a ha b hb => hf a (List.mem_cons_of_mem _ ha) b (List.mem_cons_of_mem _ hb)) heq.2]

/-- Cutting a transcript of equally long groups back into its groups. -/
theorem groups_injective {width : Nat} (hwidth : 0 < width) {left right : List (List Text)}
    (hleft : ∀ group ∈ left, group.length = width) (hright : ∀ group ∈ right, group.length = width)
    (heq : left.flatten = right.flatten) : left = right := by
  induction left generalizing right with
  | nil =>
    cases right with
    | nil => rfl
    | cons group rest =>
      have hlength := congrArg List.length heq
      have hgroup := hright group List.mem_cons_self
      simp only [List.flatten_nil, List.length_nil, List.flatten_cons,
        List.length_append] at hlength
      omega
  | cons group rest ih =>
    cases right with
    | nil =>
      have hlength := congrArg List.length heq
      have hgroup := hleft group List.mem_cons_self
      simp only [List.flatten_nil, List.length_nil, List.flatten_cons,
        List.length_append] at hlength
      omega
    | cons other more =>
      have hsame : group.length = other.length := by
        rw [hleft group List.mem_cons_self, hright other List.mem_cons_self]
      obtain ⟨hgroup, hrest⟩ := List.append_inj heq hsame
      rw [hgroup, ih (fun g hg => hleft g (List.mem_cons_of_mem _ hg))
        (fun g hg => hright g (List.mem_cons_of_mem _ hg)) hrest]

/-- Rows of one width are determined by the sequence of all their values. -/
theorem map_eq_of_flatMap_eq {α : Type} {values : α → List Text} {width : Nat}
    (hwidth : 0 < width) (hvalues : ∀ row, (values row).length = width) {left right : List α}
    (heq : left.flatMap values = right.flatMap values) : left.map values = right.map values := by
  have hrows : ∀ {rows : List α}, ∀ group ∈ rows.map values, group.length = width := by
    intro rows group hgroup
    rcases List.mem_map.mp hgroup with ⟨row, _, rfl⟩
    exact hvalues row
  rw [List.flatMap_def, List.flatMap_def] at heq
  exact groups_injective hwidth hrows hrows heq

/-- The lower-case hexadecimal digit of a nibble. -/
def hexDigit (nibble : Nat) : UInt8 :=
  UInt8.ofNat (if nibble < 10 then 48 + nibble else 87 + nibble)

def hexByte (byte : UInt8) : Text := [hexDigit (byte.toNat / 16), hexDigit (byte.toNat % 16)]

def encodeHex (bytes : Text) : Text := bytes.flatMap hexByte

def isLowerHex (byte : UInt8) : Bool :=
  decide (48 ≤ byte ∧ byte ≤ 57) || decide (97 ≤ byte ∧ byte ≤ 102)

theorem hexDigit_injective : ∀ left < 16, ∀ right < 16,
    hexDigit left = hexDigit right → left = right := by
  decide

theorem isLowerHex_hexDigit : ∀ nibble < 16, isLowerHex (hexDigit nibble) = true := by
  decide

theorem isLowerHex_graphic {byte : UInt8} (hbyte : isLowerHex byte = true) :
    isGraphic byte = true := by
  revert hbyte
  simp only [isLowerHex, isGraphic, Bool.or_eq_true, decide_eq_true_eq,
    UInt8.le_iff_toNat_le, UInt8.reduceToNat]
  omega

@[simp] theorem length_encodeHex (bytes : Text) : (encodeHex bytes).length = 2 * bytes.length := by
  induction bytes with
  | nil => rfl
  | cons byte rest ih =>
    rw [encodeHex, List.flatMap_cons, List.length_append, ← encodeHex, ih]
    simp only [hexByte, List.length_cons, List.length_nil]
    omega

theorem isLowerHex_of_mem_encodeHex {bytes : Text} {digit : UInt8}
    (hdigit : digit ∈ encodeHex bytes) : isLowerHex digit = true := by
  simp only [encodeHex, List.mem_flatMap, hexByte, List.mem_cons,
    List.not_mem_nil, or_false] at hdigit
  obtain ⟨byte, _, rfl | rfl⟩ := hdigit
  · exact isLowerHex_hexDigit _ (by have := byte.toNat_lt; omega)
  · exact isLowerHex_hexDigit _ (by omega)

theorem hexByte_injective {left right : UInt8}
    (heq : hexByte left = hexByte right) : left = right := by
  simp only [hexByte, List.cons.injEq, and_true] at heq
  have hhigh := hexDigit_injective _ (by have := left.toNat_lt; omega) _
    (by have := right.toNat_lt; omega) heq.1
  have hlow := hexDigit_injective _ (by omega) _ (by omega) heq.2
  apply UInt8.toNat_inj.mp
  omega

theorem encodeHex_injective {left right : Text}
    (heq : encodeHex left = encodeHex right) : left = right := by
  induction left generalizing right with
  | nil =>
    cases right with
    | nil => rfl
    | cons byte rest => simp [encodeHex, hexByte] at heq
  | cons byte rest ih =>
    cases right with
    | nil => simp [encodeHex, hexByte] at heq
    | cons other more =>
      obtain ⟨hbyte, hrest⟩ := List.append_inj heq rfl
      rw [hexByte_injective hbyte, ih hrest]

/-- The value of a hexadecimal digit of either case. -/
def hexValue (byte : UInt8) : Option Nat :=
  if 48 ≤ byte ∧ byte ≤ 57 then some (byte.toNat - 48)
  else if 97 ≤ byte ∧ byte ≤ 102 then some (byte.toNat - 87)
  else if 65 ≤ byte ∧ byte ≤ 70 then some (byte.toNat - 55)
  else none

def decodeHex : Text → Option Text
  | [] => some []
  | [_] => none
  | high :: low :: rest => do
      let high ← hexValue high
      let low ← hexValue low
      let rest ← decodeHex rest
      return UInt8.ofNat (16 * high + low) :: rest

theorem hexValue_hexDigit : ∀ nibble < 16, hexValue (hexDigit nibble) = some nibble := by
  decide

theorem decodeHex_encodeHex (bytes : Text) : decodeHex (encodeHex bytes) = some bytes := by
  induction bytes with
  | nil => rfl
  | cons byte rest ih =>
    have hbyte := byte.toNat_lt
    change decodeHex (hexDigit (byte.toNat / 16) ::
      hexDigit (byte.toNat % 16) :: encodeHex rest) = _
    rw [decodeHex, hexValue_hexDigit _ (by omega), hexValue_hexDigit _ (by omega), ih]
    simp only [Option.bind_eq_bind, Option.bind_some, Option.pure_def,
      Nat.div_add_mod, UInt8.ofNat_toNat]

def decimal (number : Nat) : Text :=
  if number = 0 then [48]
  else (Nat.digits 10 number).reverse.map fun digit => UInt8.ofNat (48 + digit)

def isDigit (byte : UInt8) : Bool := decide (48 ≤ byte ∧ byte ≤ 57)

theorem isDigit_of_mem_decimal {number : Nat} {byte : UInt8}
    (hbyte : byte ∈ decimal number) : isDigit byte = true := by
  unfold decimal at hbyte
  split at hbyte
  · rw [List.mem_singleton.mp hbyte]
    decide
  · simp only [List.mem_map, List.mem_reverse] at hbyte
    obtain ⟨digit, hdigit, rfl⟩ := hbyte
    have hlt := Nat.digits_lt_base (by decide) hdigit
    have hall : ∀ d < 10, isDigit (UInt8.ofNat (48 + d)) = true := by decide
    exact hall digit hlt

/-- The number a run of decimal digits stands for. -/
def readDecimal (text : Text) : Nat :=
  Nat.ofDigits 10 (text.reverse.map fun byte => byte.toNat - 48)

/-- A decimal integer in the range of the machine, with an optional sign. -/
def atoi (text : Text) : Option Int :=
  let negative := text.head? == some 45
  let digits := if negative || text.head? == some 43 then text.tail else text
  let value : Int := if negative then -readDecimal digits else readDecimal digits
  if digits ≠ [] ∧ digits.all isDigit ∧ -2 ^ 63 ≤ value ∧ value < 2 ^ 63 then
    some value
  else none

theorem readDecimal_decimal (number : Nat) : readDecimal (decimal number) = number := by
  have hdigit : ∀ d < 10, (UInt8.ofNat (48 + d)).toNat - 48 = d := by decide
  unfold decimal
  split
  · next hzero =>
      rw [hzero]
      decide
  · rw [readDecimal, ← List.map_reverse, List.reverse_reverse, List.map_map]
    rw [List.map_congr_left (g := id), List.map_id, Nat.ofDigits_digits]
    intro digit hmem
    exact hdigit digit (Nat.digits_lt_base (by decide) hmem)

theorem decimal_injective {left right : Nat}
    (heq : decimal left = decimal right) : left = right := by
  rw [← readDecimal_decimal left, heq, readDecimal_decimal]

end Framing
