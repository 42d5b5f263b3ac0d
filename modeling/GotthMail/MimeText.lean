/-
The encodings that a mail message uses to carry any text over lines of seven
bits: quoted-printable bodies, encoded words in headers, parameters of a media
type, and the parts of a multipart body between their delimiter lines.
-/
import GotthMail.Wire

namespace MimeText

open Bytes Wire

/-- Printable ASCII, the blank and the tab. -/
def isPrintable (byte : UInt8) : Bool := byte == 9 || decide (32 ≤ byte ∧ byte ≤ 126)

def isBlank (byte : UInt8) : Bool := byte == 32 || byte == 9

def upperDigit (nibble : Nat) : UInt8 :=
  UInt8.ofNat (if nibble < 10 then 48 + nibble else 55 + nibble)

/-- A mark and the two digits of a byte. -/
def escape (mark byte : UInt8) : Text :=
  [mark, upperDigit (byte.toNat / 16), upperDigit (byte.toNat % 16)]

section Bytes

variable {byte : UInt8}

theorem isPrintable_iff :
    isPrintable byte = true ↔ byte.toNat = 9 ∨ 32 ≤ byte.toNat ∧ byte.toNat ≤ 126 := by
  simp only [isPrintable, Bool.or_eq_true, beq_iff_eq, decide_eq_true_eq,
    UInt8.le_iff_toNat_le, UInt8.reduceToNat, ← UInt8.toNat_inj]

theorem isPrintable_sevenBit (hbyte : isPrintable byte = true) : byte < 128 := by
  rw [isPrintable_iff] at hbyte
  exact UInt8.lt_iff_toNat_lt.mpr (show byte.toNat < 128 by omega)

theorem unbroken_of_printable {line : Text}
    (hline : ∀ byte ∈ line, isPrintable byte = true) : Unbroken line :=
  ⟨fun hmem => absurd (hline 13 hmem) (by decide), fun hmem => absurd (hline 10 hmem) (by decide)⟩

theorem transparent_printable {limit : Nat} {line : Text}
    (hline : ∀ byte ∈ line, isPrintable byte = true) :
    Transparent limit line ↔ line.length ≤ limit := by
  rw [transparent_line (unbroken_of_printable hline)]
  exact and_iff_right fun byte hbyte => isPrintable_sevenBit (hline byte hbyte)

theorem isGraphic_printable (hbyte : isGraphic byte = true) : isPrintable byte = true := by
  rw [isPrintable_iff]
  simp only [isGraphic, decide_eq_true_eq, UInt8.le_iff_toNat_le, UInt8.reduceToNat] at hbyte
  omega

theorem isPrintable_upperDigit : ∀ nibble < 16, isPrintable (upperDigit nibble) = true := by
  decide

theorem isPrintable_escape {mark digit : UInt8} (hmark : isPrintable mark = true)
    (hdigit : digit ∈ escape mark byte) : isPrintable digit = true := by
  have hbound := byte.toNat_lt
  simp only [escape, List.mem_cons, List.not_mem_nil, or_false] at hdigit
  rcases hdigit with rfl | rfl | rfl
  · exact hmark
  · exact isPrintable_upperDigit _ (by omega)
  · exact isPrintable_upperDigit _ (by omega)

end Bytes

/-- The writer of a quoted-printable text: what has been written, the line that
is being filled, and whether a return has just ended a line. -/
structure QuotedWriter where
  out : Text
  line : Text
  returned : Bool
deriving DecidableEq, Repr

namespace QuotedWriter

def lineMaxLen : Nat := 76

variable (w : QuotedWriter)

def insertCRLF : QuotedWriter :=
  { w with out := w.out ++ w.line ++ lineEnd, line := [] }

def insertSoftLineBreak : QuotedWriter :=
  { w with line := w.line ++ [61] }.insertCRLF

def encode (byte : UInt8) : QuotedWriter :=
  let w := if lineMaxLen - 1 - w.line.length < 3 then w.insertSoftLineBreak else w
  { w with line := w.line ++ escape 61 byte }

/-- A blank at the end of a line is encoded. -/
def checkLastByte : QuotedWriter :=
  match w.line.getLast? with
  | none => w
  | some last =>
    if isBlank last then { w with line := w.line.dropLast }.encode last else w

def endLine (byte : UInt8) : QuotedWriter :=
  if w.returned && byte == 10 then { w with returned := false }
  else
    let ended := w.checkLastByte.insertCRLF
    { ended with returned := if byte = 13 then true else ended.returned }

def writeByte (byte : UInt8) : QuotedWriter :=
  if byte = 10 ∨ byte = 13 then w.endLine byte
  else
    let w := if w.line.length = lineMaxLen - 1 then w.insertSoftLineBreak else w
    { w with line := w.line ++ [byte], returned := false }

/-- A byte that may stand for itself. -/
def isLiteral (byte : UInt8) : Bool := decide (33 ≤ byte ∧ byte ≤ 126 ∧ byte ≠ 61) || isBlank byte

def step (byte : UInt8) : QuotedWriter :=
  if isLiteral byte || byte == 10 || byte == 13 then w.writeByte byte
  else w.encode byte

end QuotedWriter

def quotedPrintable (text : Text) : Text :=
  let w := (text.foldl QuotedWriter.step ⟨[], [], false⟩).checkLastByte
  w.out ++ w.line

/-- Whether a header value holds anything but printable ASCII. -/
def needsEncoding (text : Text) : Bool := text.any fun byte => !isPrintable byte

/-- A byte that may stand for itself in an encoded word. -/
def isWordByte (byte : UInt8) : Bool :=
  decide (33 ≤ byte ∧ byte ≤ 126 ∧ byte ≠ 61 ∧ byte ≠ 63 ∧ byte ≠ 95)

def wordByte (byte : UInt8) : Text :=
  if byte = 32 then [95] else if isWordByte byte then [byte] else escape 61 byte

def wordOpen : Text := ascii "=?utf-8?q?"

def wordClose : Text := ascii "?="

/-- How much of an encoded word is left to its content. -/
def maxContentLen : Nat := 75 - 10 - 2

def encodedLen (rune : Rune) : Nat :=
  match rune.bytes with
  | [byte] => if byte = 32 || isWordByte byte then 1 else 3
  | bytes => 3 * bytes.length

/-- The content of encoded words, none of which splits a rune. -/
def wordRunes : Nat → List Rune → Text
  | _, [] => []
  | current, rune :: rest =>
    if maxContentLen < current + encodedLen rune then
      wordClose ++ 32 :: wordOpen ++ rune.bytes.flatMap wordByte ++ wordRunes (encodedLen rune) rest
    else rune.bytes.flatMap wordByte ++ wordRunes (current + encodedLen rune) rest

/-- A header value in encoded words, unless it can stand for itself. -/
def qEncode (text : Text) : Text :=
  if needsEncoding text then wordOpen ++ wordRunes 0 (decode text) ++ wordClose
  else text

/-- The characters that are not part of a token. -/
def isSpecial (byte : UInt8) : Bool := (ascii "()<>@,;:\\\"/[]?=").contains byte

def isTokenByte (byte : UInt8) : Bool := isGraphic byte && !isSpecial byte

def isToken (text : Text) : Bool := text != [] && text.all isTokenByte

/-- A byte that may stand for itself in an extended parameter. -/
def isAttributeByte (byte : UInt8) : Bool :=
  isTokenByte byte && byte != 42 && byte != 39 && byte != 37

def parameterValue (value : Text) : Text :=
  if needsEncoding value then
    ascii "*=utf-8''" ++ value.flatMap fun byte =>
      if isAttributeByte byte then [byte] else escape 37 byte
  else if isToken value then 61 :: value
  else ascii "=\"" ++ (value.flatMap fun byte =>
    if byte = 34 ∨ byte = 92 then [92, byte] else [byte]) ++ ascii "\""

def formatMediaType (type name value : Text) : Text :=
  type ++ ascii "; " ++ name ++ parameterValue value

def fieldLine (field : Text × Text) : Text := field.1 ++ ascii ": " ++ field.2

/-- The header of an entity and the empty line after it. -/
def writeHeader (fields : List (Text × Text)) : Text :=
  fields.flatMap (fun field => fieldLine field ++ lineEnd) ++ lineEnd

/-- At least one entity, each between its delimiter lines. -/
def writeMultipart (boundary : Text) (parts : List (List (Text × Text) × Text)) :
    Text :=
  (parts.flatMap fun part =>
    ascii "--" ++ boundary ++ lineEnd ++ writeHeader part.1 ++ part.2 ++ lineEnd) ++
      ascii "--" ++ boundary ++ ascii "--" ++ lineEnd

section Quoted

variable {w : QuotedWriter} {byte : UInt8}

/-- Whole lines have been written, and the line that is being filled can become
one of them. -/
structure QuotedWriter.Tidy (w : QuotedWriter) : Prop where
  out : ∃ lines : List Text, (∀ line ∈ lines, CleanLine 76 line) ∧
    w.out = lines.flatMap (· ++ lineEnd)
  line : ∀ byte ∈ w.line, isPrintable byte = true
  short : w.line.length ≤ 75

namespace QuotedWriter

theorem tidy_insertCRLF (hout : ∃ lines : List Text, (∀ line ∈ lines, CleanLine 76 line) ∧
      w.out = lines.flatMap (· ++ lineEnd))
    (hline : ∀ byte ∈ w.line, isPrintable byte = true)
    (hshort : w.line.length ≤ 76) : w.insertCRLF.Tidy := by
  obtain ⟨lines, hlines, hwritten⟩ := hout
  refine ⟨⟨lines ++ [w.line], ?_, ?_⟩, nofun, Nat.zero_le _⟩
  · intro line hmem
    rcases List.mem_append.mp hmem with hmem | hmem
    · exact hlines line hmem
    · rw [List.mem_singleton.mp hmem]
      exact ⟨fun byte hbyte => isPrintable_sevenBit (hline byte hbyte),
        unbroken_of_printable hline, hshort⟩
  · simp [insertCRLF, hwritten, List.flatMap_append]

theorem Tidy.insertSoftLineBreak (hw : w.Tidy) : w.insertSoftLineBreak.Tidy := by
  refine tidy_insertCRLF hw.out ?_ ?_
  · intro byte hbyte
    rcases List.mem_append.mp hbyte with hbyte | hbyte
    · exact hw.line byte hbyte
    · rw [List.mem_singleton.mp hbyte]
      decide
  · have hshort := hw.short
    simp only [List.length_append, List.length_singleton]
    omega

theorem Tidy.encode (hw : w.Tidy) (byte : UInt8) : (w.encode byte).Tidy := by
  -- after a soft break there is room for the three bytes
  have hroom : ∀ v : QuotedWriter, v.Tidy → v.line.length ≤ 72 →
      ({ v with line := v.line ++ escape 61 byte } : QuotedWriter).Tidy := by
    intro v hv hlength
    refine ⟨hv.out, ?_, ?_⟩
    · intro digit hdigit
      rcases List.mem_append.mp hdigit with hdigit | hdigit
      · exact hv.line digit hdigit
      · exact isPrintable_escape (by decide) hdigit
    · simp only [List.length_append, escape, List.length_cons, List.length_nil]
      omega
  unfold QuotedWriter.encode
  split
  · exact hroom _ hw.insertSoftLineBreak (Nat.zero_le _)
  · rename_i hlength
    refine hroom w hw ?_
    unfold lineMaxLen at hlength
    omega

theorem Tidy.checkLastByte (hw : w.Tidy) : w.checkLastByte.Tidy := by
  unfold QuotedWriter.checkLastByte
  split
  · exact hw
  · split
    · have hshorter : ({ w with line := w.line.dropLast } : QuotedWriter).Tidy :=
        ⟨hw.out, fun byte hbyte => hw.line byte ((List.dropLast_sublist _).mem hbyte),
          (List.dropLast_sublist _).length_le.trans hw.short⟩
      exact hshorter.encode _
    · exact hw

theorem Tidy.writeByte (hw : w.Tidy) (hbyte : isPrintable byte = true ∨ byte = 10 ∨ byte = 13) :
    (w.writeByte byte).Tidy := by
  unfold QuotedWriter.writeByte
  split
  · unfold QuotedWriter.endLine
    split
    · exact ⟨hw.out, hw.line, hw.short⟩
    · have hlast := hw.checkLastByte
      have hended := tidy_insertCRLF hlast.out hlast.line (hlast.short.trans (by decide))
      exact ⟨hended.out, hended.line, hended.short⟩
  · rename_i hbreak
    have hroom : ∀ v : QuotedWriter, v.Tidy → v.line.length ≤ 74 →
        ({ v with line := v.line ++ [byte], returned := false } : QuotedWriter).Tidy := by
      intro v hv hlength
      refine ⟨hv.out, ?_, ?_⟩
      · intro other hother
        rcases List.mem_append.mp hother with hother | hother
        · exact hv.line other hother
        · rw [List.mem_singleton.mp hother]
          exact hbyte.resolve_right hbreak
      · simp only [List.length_append, List.length_singleton]
        omega
    split
    · exact hroom _ hw.insertSoftLineBreak (Nat.zero_le _)
    · rename_i hlength
      have hshort := hw.short
      unfold lineMaxLen at hlength
      exact hroom w hw (by omega)

theorem isLiteral_printable (hbyte : isLiteral byte = true) : isPrintable byte = true := by
  rw [isPrintable_iff]
  simp only [isLiteral, isBlank, Bool.or_eq_true, decide_eq_true_eq, beq_iff_eq,
    UInt8.le_iff_toNat_le, UInt8.reduceToNat, ← UInt8.toNat_inj] at hbyte
  omega

theorem Tidy.step (hw : w.Tidy) (byte : UInt8) : (w.step byte).Tidy := by
  unfold QuotedWriter.step
  split
  · rename_i hbyte
    simp only [Bool.or_eq_true, beq_iff_eq] at hbyte
    refine hw.writeByte ?_
    rcases hbyte with (hliteral | hnewline) | hreturn
    · exact .inl (isLiteral_printable hliteral)
    · exact .inr (.inl hnewline)
    · exact .inr (.inr hreturn)
  · exact hw.encode byte

theorem Tidy.foldl (hw : w.Tidy) (text : Text) : (text.foldl QuotedWriter.step w).Tidy := by
  induction text generalizing w with
  | nil => exact hw
  | cons byte rest ih => exact ih (hw.step byte)

end QuotedWriter

/-- A quoted-printable text passes everywhere. -/
theorem transparent_quotedPrintable (text : Text) : Transparent 76 (quotedPrintable text) := by
  have hstart : (⟨[], [], false⟩ : QuotedWriter).Tidy := ⟨⟨[], nofun, rfl⟩, nofun, Nat.zero_le _⟩
  have htidy := (hstart.foldl text).checkLastByte
  obtain ⟨lines, hlines, hout⟩ := htidy.out
  have hlast := unbroken_of_printable htidy.line
  rw [transparent_iff, quotedPrintable, hout,
    crlfLines_flatMap fun line hline => (hlines line hline).unbroken, crlfLines_of_unbroken hlast]
  intro line hline
  rcases List.mem_append.mp hline with hline | hline
  · exact hlines line hline
  · rw [List.mem_singleton.mp hline]
    exact ⟨fun byte hbyte => isPrintable_sevenBit (htidy.line byte hbyte), hlast,
      htidy.short.trans (by decide)⟩

end Quoted

section Values

variable {text value : Text} {byte : UInt8}

theorem isPrintable_wordByte {digit : UInt8} (hdigit : digit ∈ wordByte byte) :
    isPrintable digit = true := by
  unfold wordByte at hdigit
  split at hdigit
  · rw [List.mem_singleton.mp hdigit]
    decide
  · split at hdigit
    · rename_i hword
      rw [List.mem_singleton.mp hdigit, isPrintable_iff]
      simp only [isWordByte, decide_eq_true_eq, UInt8.le_iff_toNat_le, UInt8.reduceToNat] at hword
      omega
    · exact isPrintable_escape (by decide) hdigit

theorem isPrintable_wordRunes {current : Nat} {runes : List Rune}
    (hbyte : byte ∈ wordRunes current runes) : isPrintable byte = true := by
  induction runes generalizing current with
  | nil => simp [wordRunes] at hbyte
  | cons rune rest ih =>
    have hrune : byte ∈ rune.bytes.flatMap wordByte → isPrintable byte = true := by
      intro hmem
      obtain ⟨source, _, hdigit⟩ := List.mem_flatMap.mp hmem
      exact isPrintable_wordByte hdigit
    have hsplit : ∀ byte ∈ wordClose ++ 32 :: wordOpen,
        isPrintable byte = true := List.all_eq_true.mp (by decide)
    unfold wordRunes at hbyte
    split at hbyte
    · rcases List.mem_append.mp hbyte with hbyte | hbyte
      · rcases List.mem_append.mp hbyte with hbyte | hbyte
        · exact hsplit byte hbyte
        · exact hrune hbyte
      · exact ih hbyte
    · rcases List.mem_append.mp hbyte with hbyte | hbyte
      · exact hrune hbyte
      · exact ih hbyte

theorem isPrintable_of_not_needsEncoding (htext : needsEncoding text = false) :
    ∀ byte ∈ text, isPrintable byte = true := by
  simpa [needsEncoding] using htext

theorem isPrintable_qEncode (hbyte : byte ∈ qEncode text) : isPrintable byte = true := by
  have hmarks : ∀ byte ∈ wordOpen ++ wordClose, isPrintable byte = true :=
    List.all_eq_true.mp (by decide)
  unfold qEncode at hbyte
  split at hbyte
  · rcases List.mem_append.mp hbyte with hbyte | hbyte
    · rcases List.mem_append.mp hbyte with hbyte | hbyte
      · exact hmarks byte (List.mem_append_left _ hbyte)
      · exact isPrintable_wordRunes hbyte
    · exact hmarks byte (List.mem_append_right _ hbyte)
  · rename_i hplain
    exact isPrintable_of_not_needsEncoding (by simpa using hplain) byte hbyte

theorem isPrintable_parameterValue (hbyte : byte ∈ parameterValue value) :
    isPrintable byte = true := by
  have hmarks : ∀ byte ∈ ascii "*=utf-8''" ++ ascii "=\"",
      isPrintable byte = true := List.all_eq_true.mp (by decide)
  unfold parameterValue at hbyte
  split at hbyte
  · rcases List.mem_append.mp hbyte with hbyte | hbyte
    · exact hmarks byte (List.mem_append_left _ hbyte)
    · obtain ⟨source, _, hbyte⟩ := List.mem_flatMap.mp hbyte
      split at hbyte
      · rename_i hsource
        simp only [isAttributeByte, isTokenByte, Bool.and_eq_true] at hsource
        rw [List.mem_singleton.mp hbyte]
        exact isGraphic_printable hsource.1.1.1.1
      · exact isPrintable_escape (by decide) hbyte
  · rename_i hplain
    have hvalue := isPrintable_of_not_needsEncoding (by simpa using hplain)
    split at hbyte
    · rcases List.mem_cons.mp hbyte with rfl | hbyte
      · decide
      · exact hvalue byte hbyte
    · rcases List.mem_append.mp hbyte with hbyte | hbyte
      · rcases List.mem_append.mp hbyte with hbyte | hbyte
        · exact hmarks byte (List.mem_append_right _ hbyte)
        · obtain ⟨source, hsource, hbyte⟩ := List.mem_flatMap.mp hbyte
          have hprintable := hvalue source hsource
          split at hbyte
          · simp only [List.mem_cons, List.not_mem_nil, or_false] at hbyte
            rcases hbyte with rfl | rfl
            · decide
            · exact hprintable
          · rw [List.mem_singleton.mp hbyte]
            exact hprintable
      · exact hmarks byte (List.mem_append_right _
          (List.mem_of_mem_tail (show byte ∈ (ascii "=\"").tail from hbyte)))

end Values

section Entities

variable {limit : Nat} {rest boundary : Text} {fields : List (Text × Text)}

theorem transparent_field {name value : Text}
    (hname : ∀ byte ∈ name, isPrintable byte = true) (hvalue : Unbroken value) :
    Transparent limit (fieldLine (name, value)) ↔
      (∀ byte ∈ value, byte < 128) ∧ name.length + 2 + value.length ≤ limit := by
  have hhead : ∀ byte ∈ name ++ ascii ": ", isPrintable byte = true := by
    have hcolon : ∀ byte ∈ ascii ": ", isPrintable byte = true := List.all_eq_true.mp (by decide)
    intro byte hbyte
    exact (List.mem_append.mp hbyte).elim (hname byte) (hcolon byte)
  have hunbroken := unbroken_of_printable hhead
  have hline : Unbroken (name ++ ascii ": " ++ value) :=
    ⟨fun hmem => (List.mem_append.mp hmem).elim hunbroken.no_return hvalue.no_return,
      fun hmem => (List.mem_append.mp hmem).elim hunbroken.no_newline hvalue.no_newline⟩
  have hwidth : (ascii ": ").length = 2 := by decide
  rw [fieldLine, transparent_line hline, List.forall_mem_append, List.length_append,
    List.length_append, hwidth, and_iff_right fun byte hbyte =>
      isPrintable_sevenBit (hhead byte hbyte)]

theorem transparent_printable_field {name value : Text}
    (hname : ∀ byte ∈ name, isPrintable byte = true)
    (hvalue : ∀ byte ∈ value, isPrintable byte = true) :
    Transparent limit (fieldLine (name, value)) ↔ name.length + 2 + value.length ≤ limit := by
  rw [transparent_field hname (unbroken_of_printable hvalue)]
  exact and_iff_right fun byte hbyte => isPrintable_sevenBit (hvalue byte hbyte)

theorem transparent_writeHeader :
    Transparent limit (writeHeader fields ++ rest) ↔
      (∀ field ∈ fields, Transparent limit (fieldLine field)) ∧
        Transparent limit rest := by
  have hempty : Transparent limit (lineEnd ++ rest) ↔ Transparent limit rest :=
    transparent_append.trans (and_iff_right transparent_nil)
  rw [writeHeader, List.append_assoc, transparent_flatMap, hempty]

/-- A multipart body is as transparent as its entities. -/
theorem transparent_writeMultipart (hlimit : 128 ≤ limit)
    (hboundary : ∀ byte ∈ boundary, isPrintable byte = true) (hlength : boundary.length ≤ 70)
    (parts : List (List (Text × Text) × Text)) :
    Transparent limit (writeMultipart boundary parts) ↔
      ∀ part ∈ parts, (∀ field ∈ part.1, Transparent limit (fieldLine field)) ∧
        Transparent limit part.2 := by
  have hdashes : ∀ byte ∈ ascii "--", isPrintable byte = true :=
    List.all_eq_true.mp (by decide)
  have hwidth : (ascii "--").length = 2 := by decide
  have hline : ∀ byte ∈ ascii "--" ++ boundary, isPrintable byte = true := by
    intro byte hbyte
    exact (List.mem_append.mp hbyte).elim (hdashes byte) (hboundary byte)
  have hopen : Transparent limit (ascii "--" ++ boundary) := by
    rw [transparent_printable hline, List.length_append, hwidth]
    omega
  have hclose : Transparent limit (ascii "--" ++ boundary ++ ascii "--") := by
    rw [transparent_printable, List.length_append, List.length_append, hwidth]
    · omega
    · intro byte hbyte
      exact (List.mem_append.mp hbyte).elim (hline byte) (hdashes byte)
  have hlast : Transparent limit
      (ascii "--" ++ (boundary ++ (ascii "--" ++ lineEnd))) := by
    simp only [← List.append_assoc]
    exact transparent_append.mpr ⟨hclose, transparent_nil⟩
  rw [writeMultipart, List.append_assoc, List.append_assoc, List.append_assoc,
    transparent_flatMap, and_iff_left hlast]
  refine forall₂_congr fun part hpart => ?_
  rw [List.append_assoc, transparent_lineEnd, transparent_writeHeader, and_iff_right hopen]

end Entities

end MimeText
