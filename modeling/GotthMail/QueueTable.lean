/-
The constraints that the queue migration puts on a queue ID, as PostgreSQL
checks them, against the loop over the bytes that admits it in Go.
-/
import GotthMail.Policy
import Mathlib.Computability.RegularExpressions

namespace RegularExpression

variable {α : Type*} {letters : List α} {word : List α}

/-- A bracket expression: any one of the letters. -/
def oneOf (letters : List α) : RegularExpression α :=
  letters.foldr (fun letter others => char letter + others) 0

theorem mem_oneOf : word ∈ (oneOf letters).matches' ↔ ∃ letter ∈ letters, word = [letter] := by
  induction letters with
  | nil => simp [oneOf, matches']
  | cons letter others ih =>
    change word ∈ ({[letter]} : Language α) + (oneOf others).matches' ↔ _
    rw [Language.mem_add, ih]
    simp only [List.mem_cons, exists_eq_or_imp]
    exact Iff.rfl

theorem mem_oneOf_pow {n : ℕ} : word ∈ (oneOf letters).matches' ^ n ↔
    word.length = n ∧ ∀ letter ∈ word, letter ∈ letters := by
  induction n generalizing word with
  | zero => simp +contextual [Language.mem_one]
  | succ n ih =>
    rw [pow_succ', Language.mem_mul]
    constructor
    · rintro ⟨first, hfirst, rest, hrest, rfl⟩
      obtain ⟨letter, hletter, rfl⟩ := mem_oneOf.mp hfirst
      obtain ⟨rfl, hall⟩ := ih.mp hrest
      simpa using ⟨hletter, hall⟩
    · rintro ⟨hlength, hall⟩
      cases word with
      | nil => simp at hlength
      | cons letter rest =>
        rw [List.forall_mem_cons] at hall
        exact ⟨[letter], mem_oneOf.mpr ⟨letter, hall.1, rfl⟩, rest,
          ih.mpr ⟨Nat.succ.inj hlength, hall.2⟩, rfl⟩

theorem mem_oneOf_star : word ∈ (oneOf letters).star.matches' ↔
    ∀ letter ∈ word, letter ∈ letters := by
  rw [matches'_star, Language.kstar_eq_iSup_pow, Language.mem_iSup]
  simp [mem_oneOf_pow]

end RegularExpression

namespace GotthMail

open Bytes RegularExpression

/-- The bracket expression of the constraint: ranges go by code point. -/
def queueIDRanges : List (Char × Char) :=
  [('0', '9'), ('B', 'D'), ('F', 'H'), ('J', 'N'), ('P', 'T'), ('V', 'Z'),
    ('b', 'd'), ('f', 'h'), ('j', 'n'), ('p', 't'), ('v', 'z')]

def queueIDLetters : List ℕ :=
  queueIDRanges.flatMap fun (first, last) =>
    List.range' first.toNat (last.toNat + 1 - first.toNat)

/-- The pattern between its anchors.  Both anchors are ends of the whole value:
no flag makes them match at a line break. -/
def queueIDPattern : RegularExpression ℕ :=
  oneOf queueIDLetters ^ 10 * (oneOf queueIDLetters).star * char 'z'.toNat *
    (oneOf queueIDLetters * (oneOf queueIDLetters).star)

/-- Both constraints; PostgreSQL counts and matches characters, not bytes. -/
def queueIDConstraints (queueID : Text) : Bool :=
  let characters := (decode queueID).map Rune.value
  decide (12 ≤ characters.length ∧ characters.length ≤ 100) && queueIDPattern.rmatch characters

/-- The alphabet of the loop is the one of the ranges. -/
theorem queueIDAlphabet_letters : queueIDAlphabet.map UInt8.toNat = queueIDLetters := by
  decide +kernel

theorem queueIDLetters_ascii : ∀ letter ∈ queueIDLetters, letter < 0x80 := by decide

theorem mem_queueIDAlphabet {byte : UInt8} :
    byte ∈ queueIDAlphabet ↔ byte.toNat ∈ queueIDLetters := by
  rw [← queueIDAlphabet_letters, List.mem_map_of_injective fun _ _ => UInt8.toNat_inj.mp]

/-- What both sides ask of a word besides its length. -/
def Separated (word : List ℕ) : Prop :=
  (∀ letter ∈ word, letter ∈ queueIDLetters) ∧
    ∃ index, word[index]? = some 122 ∧ 10 ≤ index ∧ index + 1 < word.length

theorem queueIDPattern_iff {word : List ℕ} :
    queueIDPattern.rmatch word = true ↔ Separated word := by
  rw [rmatch_iff_matches']
  simp only [queueIDPattern, matches'_mul, matches'_pow, Language.mem_mul, mem_oneOf_pow,
    mem_oneOf_star, mem_oneOf, matches'_char]
  constructor
  · rintro ⟨_, ⟨_, ⟨ten, ⟨hten, hall⟩, more, hmore, rfl⟩, _, rfl, rfl⟩, _,
      ⟨_, ⟨letter, hletter, rfl⟩, rest, hrest, rfl⟩, rfl⟩
    refine ⟨?_, (ten ++ more).length, ?_, ?_, ?_⟩
    · have hsign : 'z'.toNat ∈ queueIDLetters := by decide
      simp only [List.mem_append, List.mem_singleton]
      rintro _ (((h | h) | rfl) | rfl | h)
      exacts [hall _ h, hmore _ h, hsign, hletter, hrest _ h]
    · simp only [List.append_assoc, List.singleton_append]
      simp
    · simp [hten]
    · simp only [List.length_append, List.length_singleton]
      omega
  · rintro ⟨hall, index, hsign, hten, hlast⟩
    obtain ⟨hindex, hvalue⟩ := List.getElem?_eq_some_iff.mp hsign
    obtain ⟨letter, rest, hrest⟩ := List.exists_cons_of_length_pos
      (l := word.drop (index + 1)) (by rw [List.length_drop]; omega)
    have hdrop : ∀ byte ∈ letter :: rest, byte ∈ queueIDLetters := fun byte hbyte =>
      hall byte (List.mem_of_mem_drop (hrest ▸ hbyte))
    rw [List.forall_mem_cons] at hdrop
    refine ⟨word.take index ++ ['z'.toNat], ⟨word.take index, ⟨word.take 10, ⟨?_, ?_⟩,
      (word.take index).drop 10, ?_, ?_⟩, _, rfl, rfl⟩, letter :: rest,
      ⟨[letter], ⟨letter, hdrop.1, rfl⟩, rest, hdrop.2, rfl⟩, ?_⟩
    · rw [List.length_take]
      omega
    · exact fun byte hbyte => hall byte (List.mem_of_mem_take hbyte)
    · exact fun byte hbyte => hall byte (List.mem_of_mem_take (List.mem_of_mem_drop hbyte))
    · rw [show word.take 10 = (word.take index).take 10 by rw [List.take_take, min_eq_left hten],
        List.take_append_drop]
    · rw [← hrest, List.append_assoc, show 'z'.toNat = word[index] from hvalue.symm,
        List.singleton_append, List.getElem_cons_drop, List.take_append_drop]

theorem validLongQueueID_iff {queueID : Text} : validLongQueueID queueID = true ↔
    (12 ≤ queueID.length ∧ queueID.length ≤ 100) ∧ Separated (queueID.map UInt8.toNat) := by
  simp only [validLongQueueID, Bool.and_eq_true, decide_eq_true_eq,
    List.all_eq_true, List.elem_iff, List.any_eq_true, Prod.exists, List.mem_zipIdx_iff_getElem?,
    beq_iff_eq, Separated, List.forall_mem_map, List.length_map, and_assoc]
  refine and_congr_right' (and_congr_right' (and_congr
    (forall₂_congr fun byte _ => mem_queueIDAlphabet) ⟨?_, ?_⟩))
  · rintro ⟨_, index, hget, rfl, hten, hlast⟩
    exact ⟨index, by rw [List.getElem?_map, hget]; rfl, hten, by omega⟩
  · rintro ⟨index, hget, hten, hlast⟩
    rw [List.getElem?_map, Option.map_eq_some_iff] at hget
    obtain ⟨byte, hget, hbyte⟩ := hget
    exact ⟨byte, index, hget, UInt8.toNat_inj.mp hbyte, hten, by omega⟩

theorem foldl_high (tail : Text) (value : ℕ) : value * 64 ^ tail.length ≤
    tail.foldl (fun value byte => value * 64 + byte.toNat % 64) value := by
  induction tail generalizing value with
  | nil => simp
  | cons byte more ih =>
    calc
      value * 64 ^ (more.length + 1) = value * 64 * 64 ^ more.length := by
        rw [Nat.pow_succ', Nat.mul_assoc]
      _ ≤ (value * 64 + byte.toNat % 64) * 64 ^ more.length :=
        Nat.mul_le_mul_right _ (Nat.le_add_right _ _)
      _ ≤ _ := ih _

/-- A rune of several bytes, or of a malformed one, is above ASCII. -/
theorem firstRune_high {lead : UInt8} (hlead : ¬ lead < 0x80) (rest : Text) :
    0x80 ≤ (firstRune lead rest).value := by
  simp only [firstRune, hlead, ↓reduceIte]
  split
  · exact Nat.le_of_ble_eq_true rfl
  · next count low high hannounced =>
    split_ifs with hcontinues
    · generalize rest.take count = tail at hcontinues ⊢
      cases tail with
      | nil => cases hcontinues
      | cons second more =>
        simp only [continues, Bool.and_eq_true, beq_iff_eq, decide_eq_true_eq] at hcontinues
        obtain ⟨⟨hcount, hsecond⟩, -⟩ := hcontinues
        refine Nat.le_trans ?_ (foldl_high more _)
        simp only [leadByte] at hannounced
        split_ifs at hannounced <;>
          simp only [Option.some.injEq, Prod.mk.injEq] at hannounced <;>
          obtain ⟨rfl, rfl, rfl⟩ := hannounced <;> rw [Nat.succ.inj hcount] <;>
          simp_all only [UInt8.le_iff_toNat_le, UInt8.reduceToNat] <;> omega
    · exact Nat.le_of_ble_eq_true rfl

/-- Characters below 0x80 are bytes. -/
theorem ascii_of_characters {text : Text} (hlow : ∀ rune ∈ decode text, rune.value < 0x80) :
    ∀ byte ∈ text, byte < 0x80 := by
  induction text with
  | nil => simp
  | cons lead rest ih =>
    have hlead : lead < 0x80 := by
      by_contra hhigh
      exact absurd (hlow _ List.mem_cons_self) (Nat.not_lt.mpr (firstRune_high hhigh rest))
    rw [decode_cons_ascii hlead, List.forall_mem_cons] at hlow
    exact List.forall_mem_cons.mpr ⟨hlead, ih hlow.2⟩

/-- The loop admits exactly the queue IDs that the table can hold. -/
theorem validLongQueueID_agrees (queueID : Text) :
    validLongQueueID queueID = queueIDConstraints queueID := by
  rw [Bool.eq_iff_iff, validLongQueueID_iff, queueIDConstraints, Bool.and_eq_true,
    decide_eq_true_eq, queueIDPattern_iff]
  by_cases hascii : ∀ byte ∈ queueID, byte < 0x80
  · have hcharacters : (decode queueID).map Rune.value = queueID.map UInt8.toNat := by
      rw [decode_of_ascii hascii, List.map_map]
      rfl
    rw [hcharacters, List.length_map]
  -- Any other byte, or the character it belongs to, is outside the alphabet.
  · refine iff_of_false ?_ ?_
    · rintro ⟨_, hall, _⟩
      exact hascii fun byte hbyte =>
        queueIDLetters_ascii _ (hall _ (List.mem_map_of_mem hbyte))
    · rintro ⟨_, hall, _⟩
      exact hascii (ascii_of_characters fun rune hrune =>
        queueIDLetters_ascii _ (hall _ (List.mem_map_of_mem hrune)))

end GotthMail
