/-
Strings in JSON as an HTML-safe encoder writes them, and what a document with
fixed labels determines about the values that stand between them.
-/
import GotthMail.Framing

namespace Json

open Bytes Framing

/-- Bytes that an HTML-safe encoder copies. -/
def isPlain (byte : UInt8) : Bool :=
  decide (32 ≤ byte ∧ byte < 128) && !(List.contains [34, 38, 60, 62, 92] byte)

/-- The text that stands for one ASCII byte inside a string. -/
def escapeByte (byte : UInt8) : Text :=
  if isPlain byte then [byte]
  else if byte = 34 ∨ byte = 92 then [92, byte]
  else if byte = 8 then ascii "\\b"
  else if byte = 9 then ascii "\\t"
  else if byte = 10 then ascii "\\n"
  else if byte = 12 then ascii "\\f"
  else if byte = 13 then ascii "\\r"
  else ascii "\\u00" ++ hexByte byte

/-- The text that stands for one rune inside a string; the line separators of
JavaScript are escaped and a malformed byte is replaced. -/
def escapeRune (rune : Rune) : Text :=
  if rune.isMalformed then ascii "\\ufffd"
  else if rune.value = 0x2028 then ascii "\\u2028"
  else if rune.value = 0x2029 then ascii "\\u2029"
  else if rune.value < 0x80 then escapeByte (UInt8.ofNat rune.value)
  else rune.bytes

def quote (text : Text) : Text := 34 :: (decode text).flatMap escapeRune ++ [34]

theorem isPlain_iff {byte : UInt8} :
    isPlain byte = true ↔ (32 ≤ byte.toNat ∧ byte.toNat < 128) ∧ byte.toNat ≠ 34 ∧
        byte.toNat ≠ 38 ∧ byte.toNat ≠ 60 ∧ byte.toNat ≠ 62 ∧ byte.toNat ≠ 92 := by
  simp only [isPlain, Bool.and_eq_true, decide_eq_true_eq, Bool.not_eq_true',
    List.contains_eq_mem, decide_eq_false_iff_not, List.mem_cons,
    List.not_mem_nil, or_false, not_or, UInt8.le_iff_toNat_le,
    UInt8.lt_iff_toNat_lt, ← UInt8.toNat_inj, UInt8.reduceToNat, ne_eq]

theorem isPlain_ascii {byte : UInt8} (hbyte : isPlain byte = true) : byte < 0x80 := by
  simp only [isPlain, Bool.and_eq_true, decide_eq_true_eq] at hbyte
  exact hbyte.1.2

theorem ne_quote_of_plain {byte : UInt8} (hbyte : isPlain byte = true) : byte ≠ 34 := by
  rintro rfl
  revert hbyte
  decide

theorem escapeRune_ofByte {byte : UInt8} (hbyte : isPlain byte = true) :
    escapeRune (Rune.ofByte byte) = [byte] := by
  have hsmall : byte.toNat < 0x80 := UInt8.lt_iff_toNat_lt.mp (isPlain_ascii hbyte)
  have hvalue : (Rune.ofByte byte).value = byte.toNat := rfl
  have hsound : (Rune.ofByte byte).isMalformed = false := by
    simp only [Rune.isMalformed, hvalue, Bool.and_eq_false_iff, beq_eq_false_iff_ne]
    exact .inl (by omega)
  simp only [escapeRune, hsound, hvalue, Bool.false_eq_true, if_false, hsmall,
    if_true, UInt8.ofNat_toNat, show byte.toNat ≠ 0x2028 by omega,
    show byte.toNat ≠ 0x2029 by omega, escapeByte, hbyte]

/-- A string of plain bytes is written as it is. -/
theorem quote_of_plain {text : Text} (htext : ∀ byte ∈ text, isPlain byte = true) :
    quote text = 34 :: text ++ [34] := by
  have hbody : (decode text).flatMap escapeRune = text := by
    induction text with
    | nil => rfl
    | cons byte rest ih =>
      have hbyte := htext byte List.mem_cons_self
      rw [decode_cons_ascii (isPlain_ascii hbyte), List.flatMap_cons, escapeRune_ofByte hbyte,
        ih fun other hother => htext other (List.mem_cons_of_mem byte hother)]
      rfl
  rw [quote, hbody]

/-- The values of an array with commas between them. -/
def items : List Text → Text
  | [] => []
  | [value] => value
  | value :: next :: rest => value ++ 44 :: items (next :: rest)

def array (values : List Text) : Text := 91 :: items values ++ [93]

theorem mem_items {values : List Text} {byte : UInt8} (hbyte : byte ∈ items values) :
    byte = 44 ∨ ∃ value ∈ values, byte ∈ value := by
  induction values using items.induct with
  | case1 => cases hbyte
  | case2 value => exact .inr ⟨value, List.mem_cons_self, hbyte⟩
  | case3 value next rest ih =>
    rw [items, List.mem_append, List.mem_cons] at hbyte
    rcases hbyte with hbyte | rfl | hbyte
    · exact .inr ⟨value, List.mem_cons_self, hbyte⟩
    · exact .inl rfl
    · exact (ih hbyte).imp_right fun ⟨found, hfound, hmem⟩ =>
        ⟨found, List.mem_cons_of_mem value hfound, hmem⟩

/-- An array of values of one length. -/
theorem length_array {values : List Text} {width : Nat} (hvalues : values ≠ [])
    (hwidth : ∀ value ∈ values, value.length = width) :
    (array values).length = values.length * (width + 1) + 1 := by
  have hitems : (items values).length + 1 = values.length * (width + 1) := by
    induction values using items.induct with
    | case1 => exact absurd rfl hvalues
    | case2 value =>
      rw [items, hwidth value List.mem_cons_self, List.length_singleton]
      omega
    | case3 value next rest ih =>
      have hrest := ih (List.cons_ne_nil next rest) fun other hother =>
        hwidth other (List.mem_cons_of_mem value hother)
      rw [items, List.length_append, List.length_cons, hrest,
        hwidth value List.mem_cons_self, List.length_cons (a := value)]
      ring
  simp only [array, List.length_cons, List.length_append, List.length_nil]
  omega

/-- A value of a document between the label before it and the byte that ends
it. -/
structure Field where
  label : Text
  value : Text
  stop : UInt8

def Field.text (field : Field) : Text := field.label ++ (field.value ++ [field.stop])

def Field.shape (field : Field) : Text × UInt8 := (field.label, field.stop)

def Field.Delimited (field : Field) : Prop := field.stop ∉ field.value

theorem Field.text_append_inj {left right : Field} {leftRest rightRest : Text}
    (hleft : left.Delimited) (hright : right.Delimited) (hshape : left.shape = right.shape)
    (heq : left.text ++ leftRest = right.text ++ rightRest) :
    left = right ∧ leftRest = rightRest := by
  rcases left with ⟨label, leftValue, stop⟩
  rcases right with ⟨_, rightValue, _⟩
  rcases Prod.mk.inj hshape with ⟨rfl, rfl⟩
  simp only [Field.text, List.append_assoc, List.append_cancel_left_eq,
    List.singleton_append] at heq
  rcases append_separator_inj hleft hright heq with ⟨rfl, hrest⟩
  exact ⟨rfl, hrest⟩

/-- A document determines the values between its labels. -/
theorem fields_injective {left right : List Field} {leftRest rightRest : Text}
    (hleft : ∀ field ∈ left, field.Delimited) (hright : ∀ field ∈ right, field.Delimited)
    (hshape : left.map Field.shape = right.map Field.shape)
    (heq : left.flatMap Field.text ++ leftRest =
      right.flatMap Field.text ++ rightRest) : left = right := by
  induction left generalizing right with
  | nil => exact (List.map_eq_nil_iff.mp hshape.symm).symm
  | cons first rest ih =>
    cases right with
    | nil => cases hshape
    | cons second others =>
      rcases List.cons.inj hshape with ⟨hfirst, hothers⟩
      simp only [List.flatMap_cons, List.append_assoc] at heq
      rcases Field.text_append_inj (hleft first List.mem_cons_self)
        (hright second List.mem_cons_self) hfirst heq with ⟨rfl, hrest⟩
      rw [ih (fun field hfield => hleft field (List.mem_cons_of_mem _ hfield))
        (fun field hfield => hright field (List.mem_cons_of_mem _ hfield)) hothers hrest]

end Json
