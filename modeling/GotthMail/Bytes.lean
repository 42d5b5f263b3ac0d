/-
Byte strings as a systems language sees them.  A text is a list of bytes,
ordered lexicographically by byte; its runes are read off by the UTF-8 decoder
that replaces one malformed byte at a time by U+FFFD.
-/
import Mathlib.Algebra.Group.Nat.Defs
import Mathlib.Data.List.Lex
import Mathlib.Data.List.Sort
import Mathlib.Data.List.DropRight
import Mathlib.Order.Basic

namespace Bytes

instance linearOrderByte : LinearOrder UInt8 where
  le_refl _ := UInt8.le_refl _
  le_trans _ _ _ := UInt8.le_trans
  le_antisymm _ _ := UInt8.le_antisymm
  le_total := UInt8.le_total
  lt_iff_le_not_ge _ _ := by
    rw [UInt8.not_le]
    exact ⟨fun hlt => ⟨UInt8.le_of_lt hlt, hlt⟩, And.right⟩
  toDecidableLE := inferInstance

/-- A string value: an arbitrary sequence of bytes, not necessarily UTF-8. -/
abbrev Text := List UInt8

instance lawfulText : LawfulBEq Text := inferInstance

/-- The bytes of a literal made of ASCII characters. -/
def ascii (literal : String) : Text := literal.toList.map fun char => UInt8.ofNat char.toNat

def lastIndexByte (text : Text) (byte : UInt8) : Option Nat :=
  match text.reverse.findIdx? (· == byte) with
  | none => none
  | some fromEnd => some (text.length - 1 - fromEnd)

/-- Lower-case the ASCII letters and leave every other byte alone. -/
def toLower (text : Text) : Text :=
  text.map fun byte => if 65 ≤ byte ∧ byte ≤ 90 then byte + 32 else byte

/-- One decoded code point together with the bytes it was read from. -/
structure Rune where
  value : Nat
  bytes : Text
deriving DecidableEq, Repr

/-- The replacement character that stands for one malformed byte. -/
def Rune.malformed (byte : UInt8) : Rune := ⟨0xFFFD, [byte]⟩

def Rune.ofByte (byte : UInt8) : Rune := ⟨byte.toNat, [byte]⟩

/-- A genuine U+FFFD takes three bytes, so one byte marks an error. -/
def Rune.isMalformed (rune : Rune) : Bool := rune.value == 0xFFFD && rune.bytes.length == 1

/-- What a non-ASCII leading byte announces: the number of continuation bytes
and the range of the first of them. -/
def leadByte (byte : UInt8) : Option (Nat × UInt8 × UInt8) :=
  if 0xC2 ≤ byte ∧ byte ≤ 0xDF then some (1, 0x80, 0xBF)
  else if byte = 0xE0 then some (2, 0xA0, 0xBF)
  else if byte = 0xED then some (2, 0x80, 0x9F)
  else if 0xE1 ≤ byte ∧ byte ≤ 0xEF then some (2, 0x80, 0xBF)
  else if byte = 0xF0 then some (3, 0x90, 0xBF)
  else if 0xF1 ≤ byte ∧ byte ≤ 0xF3 then some (3, 0x80, 0xBF)
  else if byte = 0xF4 then some (3, 0x80, 0x8F)
  else none

/-- Whether `tail` is the complete continuation that a leading byte announced. -/
def continues (count : Nat) (low high : UInt8) : Text → Bool
  | [] => false
  | second :: more =>
    more.length + 1 == count && decide (low ≤ second ∧ second ≤ high) &&
      more.all fun byte => decide (0x80 ≤ byte ∧ byte ≤ 0xBF)

/-- Decode the rune that starts at `lead`; a malformed sequence consumes one
byte. -/
def firstRune (lead : UInt8) (rest : Text) : Rune :=
  if lead < 0x80 then Rune.ofByte lead
  else
    match leadByte lead with
    | none => Rune.malformed lead
    | some (count, low, high) =>
      let tail := rest.take count
      if continues count low high tail then
        ⟨tail.foldl (fun value byte => value * 64 + byte.toNat % 64)
            (lead.toNat % 2 ^ (6 - count)), lead :: tail⟩
      else Rune.malformed lead

def decodeFuel : Nat → Text → List Rune
  | 0, _ => []
  | _ + 1, [] => []
  | fuel + 1, lead :: rest =>
    let rune := firstRune lead rest
    rune :: decodeFuel fuel (rest.drop (rune.bytes.length - 1))

/-- The runes of a text, as a range loop over the string visits them. -/
def decode (text : Text) : List Rune := decodeFuel text.length text

def validUTF8 (text : Text) : Bool := (decode text).all fun rune => !rune.isMalformed

/-- Unicode `White_Space`. -/
def isSpace (rune : Rune) : Bool :=
  decide (9 ≤ rune.value ∧ rune.value ≤ 13) || rune.value == 0x20 ||
    rune.value == 0x85 || rune.value == 0xA0 || rune.value == 0x1680 ||
    decide (0x2000 ≤ rune.value ∧ rune.value ≤ 0x200A) ||
    rune.value == 0x2028 || rune.value == 0x2029 || rune.value == 0x202F ||
    rune.value == 0x205F || rune.value == 0x3000

/-- Unicode category `Cc`. -/
def isControl (rune : Rune) : Bool :=
  decide (rune.value < 0x20) || decide (0x7F ≤ rune.value ∧ rune.value < 0xA0)

/-- Remove the white space runes at both ends. -/
def trimRunes (runes : List Rune) : List Rune := (runes.dropWhile isSpace).rdropWhile isSpace

def trimSpace (text : Text) : Text := (trimRunes (decode text)).flatMap Rune.bytes

variable {high lead low byte : UInt8} {count index : Nat} {text word : Text}

theorem leadByte_low (hlead : leadByte lead = some (count, low, high)) : 0x80 ≤ low := by
  unfold leadByte at hlead
  split_ifs at hlead <;>
    simp_all only [Option.some.injEq, Prod.mk.injEq] <;> obtain ⟨rfl, rfl, rfl⟩ := hlead <;> decide

theorem continues_length {tail : Text} (htail : continues count low high tail = true) :
    tail.length = count := by
  cases tail with
  | nil => simp [continues] at htail
  | cons second more =>
    simp only [continues, Bool.and_eq_true, beq_iff_eq] at htail
    simpa using htail.1.1

theorem continues_high {tail : Text} (hlow : 0x80 ≤ low)
    (htail : continues count low high tail = true) : ∀ byte ∈ tail, 0x80 ≤ byte := by
  cases tail with
  | nil => simp
  | cons second more =>
    simp only [continues, Bool.and_eq_true, decide_eq_true_eq, List.all_eq_true] at htail
    intro byte hbyte
    rcases List.mem_cons.mp hbyte with rfl | hmore
    · exact UInt8.le_trans hlow htail.1.2.1
    · exact (htail.2 byte hmore).1

/-- A rune is its leading byte followed by a prefix of what comes next. -/
theorem firstRune_bytes (lead : UInt8) (rest : Text) :
    ∃ tail, (firstRune lead rest).bytes = lead :: tail ∧ tail <+: rest := by
  unfold firstRune
  split
  · exact ⟨[], rfl, List.nil_prefix⟩
  · split
    · exact ⟨[], rfl, List.nil_prefix⟩
    · next count low high _ =>
        by_cases htail : continues count low high (rest.take count) = true
        · simp only [htail, ↓reduceIte]
          exact ⟨rest.take count, rfl, List.take_prefix count rest⟩
        · simp only [htail, Bool.false_eq_true, ↓reduceIte]
          exact ⟨[], rfl, List.nil_prefix⟩

@[simp] theorem firstRune_ascii (hlead : lead < 0x80) (rest : Text) :
    firstRune lead rest = Rune.ofByte lead := by
  simp [firstRune, hlead]

/-- Bytes beyond the end of the announced sequence do not matter, provided the
rune still fits. -/
theorem firstRune_take (lead : UInt8) (rest : Text) (kept : Nat)
    (hkept : (firstRune lead rest).bytes.length ≤ kept + 1) :
    firstRune lead (rest.take kept) = firstRune lead rest := by
  unfold firstRune at hkept ⊢
  split
  · rfl
  · next hhigh =>
    simp only [hhigh, ↓reduceIte] at hkept
    split
    · rfl
    · next count low high hlead =>
      simp only [hlead] at hkept
      by_cases htail : continues count low high (rest.take count) = true
      · simp only [htail, ↓reduceIte, List.length_cons] at hkept
        have hlen := continues_length htail
        have hmin : min count kept = count := by omega
        rw [List.take_take, hmin]
      · have hshort : ¬continues count low high ((rest.take kept).take count) = true := by
          intro hcontinues
          have hlen := continues_length hcontinues
          rw [List.take_take] at hcontinues hlen
          have hmin : min count kept = count := by
            simp only [List.length_take] at hlen
            omega
          rw [hmin] at hcontinues
          exact htail hcontinues
        simp only [htail, hshort, Bool.false_eq_true, ↓reduceIte]

/-- An ASCII byte is never a continuation, so it ends the rune before it. -/
theorem firstRune_append_ascii (lead : UInt8) (rest after : Text) (hbyte : byte < 0x80) :
    firstRune lead (rest ++ byte :: after) = firstRune lead rest := by
  unfold firstRune
  split
  · rfl
  · split
    · rfl
    · next count low high hlead =>
      by_cases hfit : count ≤ rest.length
      · rw [List.take_append_of_le_length hfit]
      · have hlong :
            ¬continues count low high ((rest ++ byte :: after).take count) =
              true := by
          intro hcontinues
          have hmem : byte ∈ (rest ++ byte :: after).take count := by
            rw [List.take_append]
            apply List.mem_append_right
            obtain ⟨extra, hextra⟩ : ∃ extra, count - rest.length = extra + 1 :=
              ⟨count - rest.length - 1, by omega⟩
            rw [hextra, List.take_succ_cons]
            exact List.mem_cons_self
          have hhigh := continues_high (leadByte_low hlead) hcontinues byte hmem
          exact absurd hbyte (UInt8.not_lt.mpr hhigh)
        have hshort : ¬continues count low high (rest.take count) = true := by
          intro hcontinues
          have hlen := continues_length hcontinues
          simp only [List.length_take] at hlen
          omega
        simp only [hlong, hshort, Bool.false_eq_true, ↓reduceIte]

theorem decodeFuel_mono (text : Text) {first last : Nat}
    (hfirst : text.length ≤ first) (hlast : text.length ≤ last) :
    decodeFuel first text = decodeFuel last text := by
  induction first generalizing text last with
  | zero =>
    have hnil : text = [] := List.length_eq_zero_iff.mp (by omega)
    subst hnil
    cases last <;> rfl
  | succ first ih =>
    cases text with
    | nil => cases last <;> rfl
    | cons lead rest =>
      cases last with
      | zero => simp at hlast
      | succ last =>
        simp only [List.length_cons] at hfirst hlast
        simp only [decodeFuel]
        congr 1
        apply ih
        · simp only [List.length_drop]
          omega
        · simp only [List.length_drop]
          omega

@[simp] theorem decode_nil : decode [] = [] := rfl

theorem decode_cons (lead : UInt8) (rest : Text) :
    decode (lead :: rest) = firstRune lead rest ::
        decode (rest.drop ((firstRune lead rest).bytes.length - 1)) := by
  unfold decode
  simp only [List.length_cons, decodeFuel]
  congr 1
  apply decodeFuel_mono
  · simp only [List.length_drop]
    omega
  · exact Nat.le_refl _

@[simp] theorem decode_cons_ascii (hlead : lead < 0x80) (rest : Text) :
    decode (lead :: rest) = Rune.ofByte lead :: decode rest := by
  rw [decode_cons, firstRune_ascii hlead]
  rfl

/-- Decoding loses nothing: the bytes of the runes are the text. -/
theorem flatMap_bytes_decode (text : Text) : (decode text).flatMap Rune.bytes = text := by
  induction hlength : text.length using Nat.strong_induction_on generalizing text with
  | h length ih =>
    cases text with
    | nil => rfl
    | cons lead rest =>
      obtain ⟨tail, hbytes, hprefix⟩ := firstRune_bytes lead rest
      rw [decode_cons, List.flatMap_cons]
      have hrest := ih _ (by
        simp only [List.length_cons] at hlength
        simp only [List.length_drop]
        omega) (rest.drop ((firstRune lead rest).bytes.length - 1)) rfl
      rw [hrest, hbytes]
      obtain ⟨more, rfl⟩ := hprefix
      simp

theorem length_decode_le (text : Text) : (decode text).length ≤ text.length := by
  induction hlength : text.length using Nat.strong_induction_on generalizing text with
  | h length ih =>
    cases text with
    | nil => simp
    | cons lead rest =>
      rw [decode_cons, List.length_cons]
      simp only [List.length_cons] at hlength
      have hrest := ih _ (by
        simp only [List.length_drop]
        omega) (rest.drop ((firstRune lead rest).bytes.length - 1)) rfl
      simp only [List.length_drop] at hrest
      omega

/-- Text splits at every ASCII byte, whatever precedes it. -/
theorem decode_append_ascii (before after : Text) (hbyte : byte < 0x80) :
    decode (before ++ byte :: after) = decode before ++ Rune.ofByte byte :: decode after := by
  induction hlength : before.length using Nat.strong_induction_on generalizing before with
  | h length ih =>
    cases before with
    | nil => simp [hbyte]
    | cons lead rest =>
      obtain ⟨tail, hbytes, hprefix⟩ := firstRune_bytes lead rest
      have hsame := firstRune_append_ascii lead rest after hbyte
      rw [List.cons_append, decode_cons, decode_cons, hsame, hbytes]
      simp only [List.length_cons, Nat.add_sub_cancel, List.cons_append]
      congr 1
      have hfit : tail.length ≤ rest.length := hprefix.length_le
      rw [List.drop_append_of_le_length hfit]
      apply ih _ _ _ rfl
      simp only [List.length_cons] at hlength
      simp only [List.length_drop]
      omega

/-- Decoding the bytes of an initial run of runes gives the run back. -/
theorem decode_flatMap_take (text : Text) (kept : Nat) :
    decode (((decode text).take kept).flatMap Rune.bytes) = (decode text).take kept := by
  induction kept generalizing text with
  | zero => simp
  | succ kept ih =>
    cases text with
    | nil => simp
    | cons lead rest =>
      obtain ⟨tail, hbytes, hprefix⟩ := firstRune_bytes lead rest
      obtain ⟨more, rfl⟩ := hprefix
      have hmore := ih more
      have hjoin : ((decode more).take kept).flatMap Rune.bytes <+: more := by
        conv_rhs => rw [← flatMap_bytes_decode more,
          ← List.take_append_drop kept (decode more), List.flatMap_append]
        exact List.prefix_append _ _
      have htake : tail ++ ((decode more).take kept).flatMap Rune.bytes = (tail ++ more).take
            (tail ++ ((decode more).take kept).flatMap Rune.bytes).length :=
        List.prefix_iff_eq_take.mp ((List.prefix_append_right_inj tail).mpr hjoin)
      have hfirst : firstRune lead (tail ++ ((decode more).take kept).flatMap Rune.bytes) =
            firstRune lead (tail ++ more) := by
        rw [htake]
        apply firstRune_take
        rw [hbytes]
        simp only [List.length_cons, List.length_append]
        omega
      rw [decode_cons, hbytes]
      simp only [List.length_cons, Nat.add_sub_cancel, List.drop_left,
        List.take_succ_cons, List.flatMap_cons, hbytes, List.cons_append]
      rw [decode_cons, hfirst, hbytes]
      simp only [List.length_cons, Nat.add_sub_cancel, List.drop_left]
      rw [hmore]

theorem decode_flatMap_drop (text : Text) (dropped : Nat) :
    decode (((decode text).drop dropped).flatMap Rune.bytes) = (decode text).drop dropped := by
  induction dropped generalizing text with
  | zero => rw [List.drop_zero, flatMap_bytes_decode]
  | succ dropped ih =>
    cases text with
    | nil => simp
    | cons lead rest =>
      rw [decode_cons, List.drop_succ_cons]
      exact ih _

theorem decode_of_ascii (hascii : ∀ byte ∈ text, byte < 0x80) :
    decode text = text.map Rune.ofByte := by
  induction text with
  | nil => rfl
  | cons lead rest ih =>
    rw [decode_cons_ascii (hascii lead List.mem_cons_self), List.map_cons]
    rw [ih fun byte hbyte => hascii byte (List.mem_cons_of_mem lead hbyte)]

/-- Trimming removes whole runes, so the runes of the trimmed text are the
trimmed runes. -/
theorem decode_trimSpace (text : Text) : decode (trimSpace text) = trimRunes (decode text) := by
  obtain ⟨spaces, hspaces⟩ := List.dropWhile_suffix (l := decode text) isSpace
  have hdrop : (decode text).dropWhile isSpace = (decode text).drop spaces.length := by
    conv_rhs => rw [← hspaces]
    simp
  have hmiddle : decode (((decode text).dropWhile isSpace).flatMap Rune.bytes) =
      (decode text).dropWhile isSpace := by
    rw [hdrop]
    exact decode_flatMap_drop text spaces.length
  have htake := List.prefix_iff_eq_take.mp
    (List.rdropWhile_prefix isSpace (l := (decode text).dropWhile isSpace))
  unfold trimSpace trimRunes
  rw [htake]
  conv_lhs => rw [← hmiddle]
  conv_rhs => rw [← hmiddle]
  exact decode_flatMap_take _ _

theorem trimRunes_head (runes : List Rune) {rune : Rune}
    (hhead : (trimRunes runes).head? = some rune) : isSpace rune = false := by
  unfold trimRunes at hhead
  have hprefix := List.rdropWhile_prefix isSpace (l := runes.dropWhile isSpace)
  have hhead' : (runes.dropWhile isSpace).head? = some rune := by
    obtain ⟨rest, hrest⟩ := hprefix
    rw [← hrest, List.head?_append, hhead]
    rfl
  have hnot := List.head?_dropWhile_not isSpace runes
  rw [hhead'] at hnot
  simpa using hnot

theorem trimRunes_eq_self {runes : List Rune}
    (hhead : ∀ rune, runes.head? = some rune → isSpace rune = false)
    (hlast : ∀ rune, runes.getLast? = some rune → isSpace rune = false) :
    trimRunes runes = runes := by
  have hdrop : runes.dropWhile isSpace = runes := by
    cases runes with
    | nil => rfl
    | cons rune rest => simp [hhead rune rfl]
  unfold trimRunes
  rw [hdrop, List.rdropWhile_eq_self_iff]
  intro hne
  have := hlast (runes.getLast hne) (List.getLast?_eq_some_getLast hne)
  simp [this]

/-- A text none of whose end runes is white space is its own trimming. -/
theorem trimSpace_eq_self (hhead : ∀ rune, (decode text).head? = some rune → isSpace rune = false)
    (hlast : ∀ rune, (decode text).getLast? = some rune → isSpace rune = false) :
    trimSpace text = text := by
  rw [trimSpace, trimRunes_eq_self hhead hlast, flatMap_bytes_decode]

/-- Printable ASCII without blanks. -/
def isGraphic (byte : UInt8) : Bool := decide (0x21 ≤ byte ∧ byte ≤ 0x7E)

theorem isGraphic_ascii (hbyte : isGraphic byte = true) : byte < 0x80 := by
  simp only [isGraphic, decide_eq_true_eq] at hbyte
  exact UInt8.lt_of_le_of_lt hbyte.2 (by decide)

theorem isGraphic_not_space (hbyte : isGraphic byte = true) :
    isSpace (Rune.ofByte byte) = false := by
  simp only [isGraphic, decide_eq_true_eq, UInt8.le_iff_toNat_le, UInt8.reduceToNat] at hbyte
  unfold isSpace Rune.ofByte
  generalize byte.toNat = value at hbyte ⊢
  simp only [Bool.or_eq_false_iff, decide_eq_false_iff_not, beq_eq_false_iff_ne]
  omega

theorem trimSpace_of_graphic (htext : ∀ byte ∈ text, isGraphic byte = true) :
    trimSpace text = text := by
  have hdecode := decode_of_ascii fun byte hbyte => isGraphic_ascii (htext byte hbyte)
  apply trimSpace_eq_self
  · intro rune hrune
    rw [hdecode, List.head?_map] at hrune
    obtain ⟨byte, hbyte, rfl⟩ := Option.map_eq_some_iff.mp hrune
    exact isGraphic_not_space (htext byte (List.mem_of_mem_head? hbyte))
  · intro rune hrune
    rw [hdecode, List.getLast?_map] at hrune
    obtain ⟨byte, hbyte, rfl⟩ := Option.map_eq_some_iff.mp hrune
    exact isGraphic_not_space (htext byte (List.mem_of_mem_getLast? hbyte))

/-- Replacing everything after an ASCII separator of a trimmed text by a
graphic word leaves it trimmed. -/
theorem trimSpace_replace_tail {raw before after : Text}
    (htrim : trimSpace raw = before ++ byte :: after) (hbefore : before ≠ [])
    (hbyte : isGraphic byte = true) (hword : ∀ letter ∈ word, isGraphic letter = true) :
    trimSpace (before ++ byte :: word) = before ++ byte :: word := by
  have hsplit := decode_append_ascii before word (isGraphic_ascii hbyte)
  have hwordRunes := decode_of_ascii fun letter hletter => isGraphic_ascii (hword letter hletter)
  have hbeforeRunes : decode before ≠ [] := by
    intro hnil
    have hbytes := flatMap_bytes_decode before
    rw [hnil] at hbytes
    exact hbefore (by simpa using hbytes.symm)
  apply trimSpace_eq_self
  · intro rune hrune
    apply trimRunes_head (decode raw)
    rw [← decode_trimSpace, htrim, decode_append_ascii before after (isGraphic_ascii hbyte)]
    rw [hsplit] at hrune
    rwa [List.head?_append_of_ne_nil _ hbeforeRunes] at hrune ⊢
  · intro rune hrune
    rw [hsplit, hwordRunes, ← List.map_cons, List.getLast?_append, List.getLast?_map] at hrune
    rw [List.getLast?_eq_some_getLast (List.cons_ne_nil byte word)] at hrune
    simp only [Option.map_some, Option.some_or, Option.some.injEq] at hrune
    subst hrune
    rcases List.mem_cons.mp (List.getLast_mem (List.cons_ne_nil byte word)) with
      heq | hmem
    · rw [heq]
      exact isGraphic_not_space hbyte
    · exact isGraphic_not_space (hword _ hmem)

/-- The last separator of a text that ends in a word free of separators. -/
theorem lastIndexByte_append (before word : Text) (hword : byte ∉ word) :
    lastIndexByte (before ++ byte :: word) byte = some before.length := by
  have hfind : (before ++ byte :: word).reverse.findIdx? (· == byte) = some word.length := by
    rw [List.reverse_append, List.reverse_cons, List.append_assoc, List.findIdx?_append]
    have hnone : word.reverse.findIdx? (· == byte) = none := by
      rw [List.findIdx?_eq_none_iff]
      intro letter hletter
      rw [List.mem_reverse] at hletter
      simp only [beq_eq_false_iff_ne]
      rintro rfl
      exact hword hletter
    rw [hnone]
    simp [List.findIdx?_cons]
  rw [lastIndexByte, hfind]
  simp only [List.length_append, List.length_cons, Option.some.injEq]
  omega

theorem lastIndexByte_split (hindex : lastIndexByte text byte = some index) :
    text = text.take index ++ byte :: text.drop (index + 1) ∧ byte ∉ text.drop (index + 1) := by
  unfold lastIndexByte at hindex
  split at hindex
  · cases hindex
  · next fromEnd hfind =>
    simp only [Option.some.injEq] at hindex
    obtain ⟨hlt, hhit, hmiss⟩ := List.findIdx?_eq_some_iff_getElem.mp hfind
    rw [List.length_reverse] at hlt
    have hbyte : text[text.length - 1 - fromEnd]? = some byte := by
      rw [List.getElem_reverse] at hhit
      rw [List.getElem?_eq_getElem (by omega)]
      simpa using hhit
    subst hindex
    refine ⟨?_, ?_⟩
    · conv_lhs => rw [← List.take_append_drop (text.length - 1 - fromEnd) text]
      congr 1
      have hlt' : text.length - 1 - fromEnd < text.length := by omega
      rw [List.drop_eq_getElem_cons hlt']
      rw [List.getElem?_eq_getElem hlt'] at hbyte
      simp only [Option.some.injEq] at hbyte
      rw [hbyte]
    · intro hmem
      obtain ⟨offset, hoffset, hget⟩ := List.mem_iff_getElem.mp hmem
      rw [List.length_drop] at hoffset
      have hearlier : fromEnd - 1 - offset < fromEnd := by omega
      have hbad := hmiss (fromEnd - 1 - offset) hearlier
      rw [List.getElem_reverse] at hbad
      rw [List.getElem_drop] at hget
      apply hbad
      simp only [beq_iff_eq]
      rw [← hget]
      congr 1
      omega

theorem lastIndexByte_take (hindex : lastIndexByte text byte = some index) :
    text.take (index + 1) = text.take index ++ [byte] := by
  obtain ⟨hsplit, _⟩ := lastIndexByte_split hindex
  have hlength := congrArg List.length hsplit
  simp only [List.length_append, List.length_take, List.length_cons, List.length_drop] at hlength
  have hlt : index < text.length := by omega
  rw [List.take_succ_eq_append_getElem hlt]
  congr 2
  have hget : text[index]? = (text.take index ++ byte :: text.drop (index + 1))[index]? := by
    rw [← hsplit]
  rw [List.getElem?_append_right (by rw [List.length_take]; omega),
    List.length_take, Nat.min_eq_left (by omega), Nat.sub_self,
    List.getElem?_cons_zero, List.getElem?_eq_getElem hlt] at hget
  exact Option.some.inj hget

/-- ASCII bytes are runes of their own. -/
theorem ofByte_mem_decode (hmem : byte ∈ text) (hbyte : byte < 0x80) :
    Rune.ofByte byte ∈ decode text := by
  obtain ⟨before, after, rfl⟩ := List.append_of_mem hmem
  rw [decode_append_ascii before after hbyte]
  exact List.mem_append_right _ List.mem_cons_self

theorem trimRunes_getLast (runes : List Rune) {rune : Rune}
    (hlast : (trimRunes runes).getLast? = some rune) : isSpace rune = false := by
  unfold trimRunes at hlast
  have hne : (runes.dropWhile isSpace).rdropWhile isSpace ≠ [] := by
    rintro hnil
    rw [hnil] at hlast
    cases hlast
  have hspace := List.rdropWhile_last_not isSpace (runes.dropWhile isSpace) hne
  rw [List.getLast?_eq_some_getLast hne, Option.some.injEq] at hlast
  rw [hlast] at hspace
  exact Bool.eq_false_iff.mpr hspace

/-- Trimmed text neither starts nor ends with a blank. -/
theorem blank_not_end (htrim : trimSpace text = text) :
    text.head? ≠ some 32 ∧ text.getLast? ≠ some 32 := by
  have hdecode : trimRunes (decode text) = decode text := by
    rw [← decode_trimSpace, htrim]
  have hblank : isSpace (Rune.ofByte 32) = true := by decide
  constructor
  · intro hhead
    obtain ⟨rest, rfl⟩ := List.head?_eq_some_iff.mp hhead
    have hfirst : isSpace (Rune.ofByte 32) = false := by
      apply trimRunes_head (decode (32 :: rest))
      rw [hdecode, decode_cons_ascii (by decide)]
      rfl
    rw [hfirst] at hblank
    cases hblank
  · intro hlast
    obtain ⟨before, rfl⟩ := List.getLast?_eq_some_iff.mp hlast
    have hend : isSpace (Rune.ofByte 32) = false := by
      apply trimRunes_getLast (decode (before ++ [32]))
      rw [hdecode, decode_append_ascii before [] (by decide)]
      simp
    rw [hend] at hblank
    cases hblank

/-- A separator that occurs in neither word marks where the first one ends. -/
theorem append_separator_inj {separator : UInt8} {left right : Text}
    {leftRest rightRest : Text} (hleft : separator ∉ left) (hright : separator ∉ right)
    (heq : left ++ separator :: leftRest = right ++ separator :: rightRest) :
    left = right ∧ leftRest = rightRest := by
  rcases List.append_eq_append_iff.mp heq with
    ⟨middle, hmiddle, hrest⟩ | ⟨middle, hmiddle, hrest⟩
  · cases middle with
    | nil => simp_all
    | cons head tail =>
      obtain ⟨rfl, _⟩ := List.cons.inj hrest
      exact absurd (by rw [hmiddle]; simp) hright
  · cases middle with
    | nil => simp_all
    | cons head tail =>
      obtain ⟨rfl, _⟩ := List.cons.inj hrest
      exact absurd (by rw [hmiddle]; simp) hleft

/-- The lines of a text without their newlines; a text that ends in a newline has
no empty line after it. -/
def linesOf : Text → List Text
  | [] => []
  | byte :: rest =>
    if byte = 10 then [] :: linesOf rest
    else
      match linesOf rest with
      | [] => [[byte]]
      | line :: others => (byte :: line) :: others

def dropReturn (line : Text) : Text := if line.getLast? = some 13 then line.dropLast else line

theorem linesOf_append {line : Text} (hline : 10 ∉ line) (rest : Text) :
    linesOf (line ++ 10 :: rest) = line :: linesOf rest := by
  induction line with
  | nil => rfl
  | cons byte others ih =>
    obtain ⟨hbyte, hothers⟩ := not_or.mp (mt List.mem_cons.mpr hline)
    rw [List.cons_append, linesOf, if_neg (Ne.symm hbyte), ih hothers]

/-- The stretches between white space, empty ones included. -/
def stretches : List Rune → List Text
  | [] => [[]]
  | rune :: rest =>
    if isSpace rune then [] :: stretches rest
    else
      match stretches rest with
      | [] => [rune.bytes]
      | word :: others => (rune.bytes ++ word) :: others

/-- The words of a text. -/
def fields (text : Text) : List Text := (stretches (decode text)).filter (· != [])

theorem stretches_append {word : List Rune}
    (hword : ∀ rune ∈ word, isSpace rune = false) {space : Rune}
    (hspace : isSpace space = true) (rest : List Rune) :
    stretches (word ++ space :: rest) = word.flatMap Rune.bytes :: stretches rest := by
  induction word with
  | nil => rw [List.nil_append, stretches, if_pos hspace, List.flatMap_nil]
  | cons rune more ih =>
    have hrune := hword rune List.mem_cons_self
    rw [List.cons_append, stretches, hrune, if_neg Bool.false_ne_true,
      ih fun other hother => hword other (List.mem_cons_of_mem rune hother), List.flatMap_cons]

theorem decode_graphic (hgraphic : ∀ byte ∈ word, isGraphic byte = true) :
    ∀ rune ∈ decode word, isSpace rune = false := by
  intro rune hrune
  rw [decode_of_ascii fun byte hbyte => isGraphic_ascii (hgraphic byte hbyte)] at hrune
  obtain ⟨byte, hbyte, rfl⟩ := List.mem_map.mp hrune
  exact isGraphic_not_space (hgraphic byte hbyte)

/-- A graphic word before a blank is the first field. -/
theorem fields_word (hword : word ≠ [])
    (hgraphic : ∀ byte ∈ word, isGraphic byte = true) (rest : Text) :
    fields (word ++ 32 :: rest) = word :: fields rest := by
  rw [fields, decode_append_ascii word rest (by decide),
    stretches_append (decode_graphic hgraphic) (by decide), flatMap_bytes_decode,
    List.filter_cons_of_pos (by simpa using hword), ← fields]

/-- Where a word occurs first. -/
def indexOf (word : Text) : Text → Option Nat
  | [] => if word = [] then some 0 else none
  | byte :: rest =>
    if word.isPrefixOf (byte :: rest) then some 0
    else (indexOf word rest).map (· + 1)

theorem indexOf_some (hindex : indexOf word text = some index) :
    word <+: text.drop index ∧ ∀ earlier < index, ¬word <+: text.drop earlier := by
  induction text generalizing index with
  | nil =>
    by_cases hword : word = []
    · rw [indexOf, if_pos hword] at hindex
      cases hindex
      exact ⟨hword ▸ List.nil_prefix, nofun⟩
    · rw [indexOf, if_neg hword] at hindex
      cases hindex
  | cons byte rest ih =>
    rw [indexOf] at hindex
    split at hindex
    · rename_i hfound
      cases hindex
      exact ⟨List.isPrefixOf_iff_prefix.mp hfound, nofun⟩
    · rename_i hmissing
      obtain ⟨further, hfurther, rfl⟩ := Option.map_eq_some_iff.mp hindex
      obtain ⟨hfound, hnone⟩ := ih hfurther
      refine ⟨hfound, fun earlier hearlier => ?_⟩
      cases earlier with
      | zero => exact fun hword => hmissing (List.isPrefixOf_iff_prefix.mpr hword)
      | succ earlier => exact hnone earlier (by omega)

/-- A word without the separator that starts before it also ends before it. -/
theorem prefix_of_append {before after : Text} (hbyte : byte ∉ word)
    (hword : word <+: before ++ byte :: after) : word <+: before := by
  induction before generalizing word with
  | nil =>
    cases word with
    | nil => exact List.nil_prefix
    | cons first rest =>
      rw [List.nil_append, List.cons_prefix_cons] at hword
      exact absurd (hword.1 ▸ List.mem_cons_self) hbyte
  | cons head tail ih =>
    cases word with
    | nil => exact List.nil_prefix
    | cons first rest =>
      rw [List.cons_append, List.cons_prefix_cons] at hword
      rw [List.cons_prefix_cons]
      exact ⟨hword.1, ih (fun hmem => hbyte (List.mem_cons_of_mem first hmem)) hword.2⟩

end Bytes
