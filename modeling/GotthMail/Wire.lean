/-
Texts that are sent line by line.  A line ends in a carriage return and a
newline.  A text is transparent when nothing on its way has a reason to touch
it, and a block that ends in a dot carries such a text over unchanged.
-/
import GotthMail.Bytes

namespace Wire

open Bytes

def lineEnd : Text := [13, 10]

theorem append_lineEnd (line rest : Text) : line ++ lineEnd ++ rest = line ++ 13 :: 10 :: rest := by
  simp [lineEnd]

/-- Put a byte before the first line. -/
def push (byte : UInt8) : List Text → List Text
  | [] => [[byte]]
  | line :: others => (byte :: line) :: others

/-- Cut a text at every line end. -/
def crlfLines : Text → List Text
  | [] => [[]]
  | [byte] => [[byte]]
  | byte :: next :: rest =>
    if byte = 13 ∧ next = 10 then [] :: crlfLines rest
    else push byte (crlfLines (next :: rest))

/-- Line ends come whole. -/
structure Paired (text : Text) : Prop where
  returns : ∀ before after, text = before ++ 13 :: after → after.head? = some 10
  newlines : ∀ before after, text = before ++ 10 :: after → before.getLast? = some 13

/-- Nothing but seven-bit bytes, no line end in halves and no long line. -/
structure Transparent (limit : Nat) (text : Text) : Prop where
  sevenBit : ∀ byte ∈ text, byte < 128
  paired : Paired text
  short : ∀ line ∈ crlfLines text, line.length ≤ limit

structure Unbroken (line : Text) : Prop where
  no_return : 13 ∉ line
  no_newline : 10 ∉ line

/-- A line that can be a line of a transparent text. -/
structure CleanLine (limit : Nat) (line : Text) : Prop where
  sevenBit : ∀ byte ∈ line, byte < 128
  unbroken : Unbroken line
  short : line.length ≤ limit

section Lines

variable {limit : Nat} {text line rest : Text} {byte : UInt8} {lines : List Text}

theorem push_ne_nil (byte : UInt8) (lines : List Text) : push byte lines ≠ [] := by
  cases lines <;> simp [push]

theorem crlfLines_ne_nil (text : Text) : crlfLines text ≠ [] := by
  induction text using crlfLines.induct with
  | case1 => simp [crlfLines]
  | case2 byte => simp [crlfLines]
  | case3 byte next rest hend ih => simp [crlfLines, hend]
  | case4 byte next rest hend ih =>
    rw [crlfLines, if_neg hend]
    exact push_ne_nil byte _

theorem push_append {lines : List Text} (hlines : lines ≠ []) (byte : UInt8)
    (more : List Text) : push byte (lines ++ more) = push byte lines ++ more := by
  cases lines with
  | nil => exact absurd rfl hlines
  | cons line others => rfl

/-- A line end cuts a text whatever stands before it. -/
theorem crlfLines_append (text rest : Text) :
    crlfLines (text ++ 13 :: 10 :: rest) = crlfLines text ++ crlfLines rest := by
  induction text using crlfLines.induct with
  | case1 => simp [crlfLines]
  | case2 byte => simp [crlfLines, push]
  | case3 byte next more hend ih => simp [crlfLines, hend, ih]
  | case4 byte next more hend ih =>
    rw [List.cons_append, List.cons_append, crlfLines, if_neg hend, crlfLines,
      if_neg hend, ← push_append (crlfLines_ne_nil _), ← ih, List.cons_append]

theorem crlfLines_of_unbroken (hline : Unbroken line) : crlfLines line = [line] := by
  induction line using crlfLines.induct with
  | case1 => rfl
  | case2 byte => rfl
  | case3 byte next more hend ih =>
    exact absurd (hend.1 ▸ List.mem_cons_self) hline.no_return
  | case4 byte next more hend ih =>
    rw [crlfLines, if_neg hend, ih ⟨?_, ?_⟩, push]
    · exact fun hmem => hline.no_return (List.mem_cons_of_mem byte hmem)
    · exact fun hmem => hline.no_newline (List.mem_cons_of_mem byte hmem)

/-- A property of the lines of a text, byte by byte. -/
theorem mem_push (hlines : lines ≠ []) {good : Text → Prop} :
    (∀ line ∈ push byte lines, good line) ↔
      good (byte :: lines.headI) ∧ ∀ line ∈ lines.tail, good line := by
  cases lines with
  | nil => exact absurd rfl hlines
  | cons line others => simp [push]

theorem mem_lines (text : Text) :
    (∀ byte ∈ text, byte < 128) ↔ ∀ line ∈ crlfLines text, ∀ byte ∈ line, byte < 128 := by
  induction text using crlfLines.induct with
  | case1 => simp [crlfLines]
  | case2 byte => simp [crlfLines]
  | case3 byte next rest hend ih =>
    obtain ⟨rfl, rfl⟩ := hend
    rw [crlfLines, if_pos ⟨rfl, rfl⟩, List.forall_mem_cons, List.forall_mem_cons,
      List.forall_mem_cons, ih]
    simp
  | case4 byte next rest hend ih =>
    have hne := crlfLines_ne_nil (next :: rest)
    rw [crlfLines, if_neg hend, mem_push hne, List.forall_mem_cons, ih]
    obtain ⟨line, others, hlines⟩ := List.exists_cons_of_ne_nil hne
    simp [hlines, and_assoc]

theorem paired_nil : Paired [] :=
  ⟨fun before after htext => by simp at htext, fun before after htext => by simp at htext⟩

theorem paired_lineEnd (rest : Text) : Paired (13 :: 10 :: rest) ↔ Paired rest := by
  constructor
  · intro hpaired
    refine ⟨fun before after hrest => ?_, fun before after hrest => ?_⟩
    · exact hpaired.returns (13 :: 10 :: before) after (by rw [hrest]; rfl)
    · have hlast := hpaired.newlines (13 :: 10 :: before) after (by rw [hrest]; rfl)
      cases before with
      | nil => exact absurd hlast (by decide)
      | cons byte more => simpa using hlast
  · intro hpaired
    refine ⟨fun before after htext => ?_, fun before after htext => ?_⟩
    · rcases before with _ | ⟨first, _ | ⟨second, more⟩⟩
      · rw [← (List.cons.inj htext).2]
        rfl
      · simp at htext
      · exact hpaired.returns more after (List.cons.inj (List.cons.inj htext).2).2
    · rcases before with _ | ⟨first, _ | ⟨second, more⟩⟩
      · simp at htext
      · rw [← (List.cons.inj htext).1]
        rfl
      · have hlast := hpaired.newlines more after (List.cons.inj (List.cons.inj htext).2).2
        cases more with
        | nil => simp at hlast
        | cons byte others => simpa using hlast

theorem paired_cons (hend : ¬(byte = 13 ∧ rest.head? = some 10)) :
    Paired (byte :: rest) ↔ byte ≠ 13 ∧ byte ≠ 10 ∧ Paired rest := by
  constructor
  · intro hpaired
    have hreturn : byte ≠ 13 := by
      rintro rfl
      exact hend ⟨rfl, hpaired.returns [] rest rfl⟩
    have hnewline : byte ≠ 10 := by
      rintro rfl
      exact absurd (hpaired.newlines [] rest rfl) (by decide)
    refine ⟨hreturn, hnewline, fun before after htext => ?_, fun before after htext => ?_⟩
    · exact hpaired.returns (byte :: before) after (by rw [htext]; rfl)
    · have hlast := hpaired.newlines (byte :: before) after (by rw [htext]; rfl)
      cases before with
      | nil => exact absurd (by simpa using hlast) hreturn
      | cons first more => simpa using hlast
  · rintro ⟨hreturn, hnewline, hpaired⟩
    refine ⟨fun before after htext => ?_, fun before after htext => ?_⟩
    · cases before with
      | nil => exact absurd (List.cons.inj htext).1 hreturn
      | cons first more =>
        exact hpaired.returns more after (List.cons.inj htext).2
    · cases before with
      | nil => exact absurd (List.cons.inj htext).1 hnewline
      | cons first more =>
        have hlast := hpaired.newlines more after (List.cons.inj htext).2
        cases more with
        | nil => simp at hlast
        | cons second others => simpa using hlast

theorem unbroken_cons : Unbroken (byte :: line) ↔ byte ≠ 13 ∧ byte ≠ 10 ∧ Unbroken line := by
  constructor
  · intro hline
    refine ⟨?_, ?_, ⟨?_, ?_⟩⟩
    · rintro rfl
      exact hline.no_return List.mem_cons_self
    · rintro rfl
      exact hline.no_newline List.mem_cons_self
    · exact fun hmem => hline.no_return (List.mem_cons_of_mem byte hmem)
    · exact fun hmem => hline.no_newline (List.mem_cons_of_mem byte hmem)
  · rintro ⟨hreturn, hnewline, hline⟩
    refine ⟨fun hmem => ?_, fun hmem => ?_⟩
    · rcases List.mem_cons.mp hmem with heq | hmem
      · exact hreturn heq.symm
      · exact hline.no_return hmem
    · rcases List.mem_cons.mp hmem with heq | hmem
      · exact hnewline heq.symm
      · exact hline.no_newline hmem

theorem unbroken_nil : Unbroken [] := ⟨by simp, by simp⟩

/-- Line ends come whole exactly when no line holds a part of one. -/
theorem paired_iff (text : Text) : Paired text ↔ ∀ line ∈ crlfLines text, Unbroken line := by
  induction text using crlfLines.induct with
  | case1 => simp [crlfLines, paired_nil, unbroken_nil]
  | case2 byte =>
    rw [paired_cons (by simp), crlfLines, List.forall_mem_singleton, unbroken_cons]
    simp [paired_nil, unbroken_nil]
  | case3 byte next rest hend ih =>
    obtain ⟨rfl, rfl⟩ := hend
    rw [crlfLines, if_pos ⟨rfl, rfl⟩, List.forall_mem_cons, paired_lineEnd, ih]
    exact (and_iff_right unbroken_nil).symm
  | case4 byte next rest hend ih =>
    have hne := crlfLines_ne_nil (next :: rest)
    rw [crlfLines, if_neg hend, mem_push hne, paired_cons (by simpa using hend), ih, unbroken_cons]
    obtain ⟨line, others, hlines⟩ := List.exists_cons_of_ne_nil hne
    simp [hlines, and_assoc]

theorem transparent_iff :
    Transparent limit text ↔ ∀ line ∈ crlfLines text, CleanLine limit line := by
  constructor
  · intro htext line hline
    exact ⟨(mem_lines text).mp htext.sevenBit line hline,
      (paired_iff text).mp htext.paired line hline, htext.short line hline⟩
  · intro hlines
    exact ⟨(mem_lines text).mpr fun line hline => (hlines line hline).sevenBit,
      (paired_iff text).mpr fun line hline => (hlines line hline).unbroken,
      fun line hline => (hlines line hline).short⟩

/-- What stands before a line end and what follows it are judged apart. -/
theorem transparent_append :
    Transparent limit (text ++ 13 :: 10 :: rest) ↔
      Transparent limit text ∧ Transparent limit rest := by
  simp only [transparent_iff, crlfLines_append, List.forall_mem_append]

theorem transparent_line (hline : Unbroken line) :
    Transparent limit line ↔ (∀ byte ∈ line, byte < 128) ∧ line.length ≤ limit := by
  rw [transparent_iff, crlfLines_of_unbroken hline, List.forall_mem_singleton]
  exact ⟨fun hclean => ⟨hclean.sevenBit, hclean.short⟩, fun hclean => ⟨hclean.1, hline, hclean.2⟩⟩

theorem transparent_lineEnd :
    Transparent limit (text ++ lineEnd ++ rest) ↔
      Transparent limit text ∧ Transparent limit rest := by
  rw [append_lineEnd, transparent_append]

theorem Transparent.mono {wider : Nat} (htext : Transparent limit text)
    (hlimit : limit ≤ wider) : Transparent wider text :=
  ⟨htext.sevenBit, htext.paired, fun line hline => (htext.short line hline).trans hlimit⟩

theorem transparent_nil : Transparent limit [] := by
  rw [transparent_line unbroken_nil]
  exact ⟨nofun, Nat.zero_le _⟩

theorem transparent_flatMap {ι : Type} (pieces : List ι) (piece : ι → Text) :
    Transparent limit (pieces.flatMap (fun index => piece index ++ lineEnd) ++ rest) ↔
      (∀ index ∈ pieces, Transparent limit (piece index)) ∧
        Transparent limit rest := by
  induction pieces with
  | nil => simp
  | cons first others ih =>
    rw [List.flatMap_cons, List.append_assoc, transparent_lineEnd, ih,
      List.forall_mem_cons, and_assoc]

/-- The lines put together again. -/
theorem flatMap_crlfLines (text : Text) :
    (crlfLines text).flatMap (· ++ lineEnd) = text ++ lineEnd := by
  induction text using crlfLines.induct with
  | case1 => rfl
  | case2 byte => rfl
  | case3 byte next rest hend ih =>
    rw [crlfLines, if_pos hend, List.flatMap_cons, ih, hend.1, hend.2]
    rfl
  | case4 byte next rest hend ih =>
    obtain ⟨line, others, hlines⟩ := List.exists_cons_of_ne_nil (crlfLines_ne_nil (next :: rest))
    rw [hlines, List.flatMap_cons] at ih
    rw [crlfLines, if_neg hend, hlines, push, List.flatMap_cons,
      List.cons_append, List.cons_append, ih, ← List.cons_append]

end Lines

/-- Where the writer of a block stands. -/
inductive DotState where
  | begin
  | beginLine
  | returned
  | data
deriving DecidableEq, Repr

/-- One byte through the writer: a dot that starts a line is doubled, and a bare
newline gets its return. -/
def dotStep (state : DotState) (byte : UInt8) : Text × DotState :=
  if state = .returned then ([byte], if byte = 10 then .beginLine else .data)
  else
    let stuffing : Text := if state ≠ .data ∧ byte = 46 then [46] else []
    if byte = 10 then (stuffing ++ [13, 10], .beginLine)
    else (stuffing ++ [byte], if byte = 13 then .returned else .data)

def dotWrite : DotState → Text → Text × DotState
  | state, [] => ([], state)
  | state, byte :: rest =>
    let step := dotStep state byte
    let more := dotWrite step.2 rest
    (step.1 ++ more.1, more.2)

def dotClose : DotState → Text
  | .beginLine => [46, 13, 10]
  | .returned => [10, 46, 13, 10]
  | .begin | .data => [13, 10, 46, 13, 10]

/-- A text as a block that ends in a line with a single dot. -/
def dotBlock (text : Text) : Text :=
  let written := dotWrite .begin text
  written.1 ++ dotClose written.2

/-- The lines before the single dot, each without its doubled dot. -/
def undot : List Text → Option (List Text)
  | [] => none
  | line :: rest =>
    if line = [46] then some []
    else (undot rest).map fun more => (if line.head? = some 46 then line.tail else line) :: more

/-- The text that the receiver of a block gets. -/
def received (block : Text) : Option Text :=
  (undot (crlfLines block)).map fun lines => lines.flatMap (· ++ lineEnd)

section Blocks

variable {text line rest : Text} {lines : List Text} {state : DotState}

def stuff (line : Text) : Text := if line.head? = some 46 then 46 :: line else line

theorem dotWrite_data (hline : Unbroken line) (rest : Text) :
    dotWrite .data (line ++ rest) = (line ++ (dotWrite .data rest).1, (dotWrite .data rest).2) := by
  induction line with
  | nil => rfl
  | cons byte more ih =>
    obtain ⟨hreturn, hnewline, hmore⟩ := unbroken_cons.mp hline
    simp [dotWrite, dotStep, hreturn, hnewline, ih hmore]

/-- A line that starts a line of the block. -/
theorem dotWrite_line (hstate : state = .begin ∨ state = .beginLine)
    (hline : Unbroken line) (rest : Text) :
    dotWrite state (line ++ 13 :: 10 :: rest) =
      (stuff line ++ 13 :: 10 :: (dotWrite .beginLine rest).1, (dotWrite .beginLine rest).2) := by
  have hend : dotWrite .data (13 :: 10 :: rest) = (13 :: 10 :: (dotWrite .beginLine rest).1,
        (dotWrite .beginLine rest).2) := by
    simp [dotWrite, dotStep]
  cases line with
  | nil => rcases hstate with rfl | rfl <;> simp [dotWrite, dotStep, stuff]
  | cons byte more =>
    obtain ⟨hreturn, hnewline, hmore⟩ := unbroken_cons.mp hline
    have hrest := dotWrite_data hmore (13 :: 10 :: rest)
    rw [hend] at hrest
    have hstep : dotStep state byte = ((if byte = 46 then [46] else []) ++ [byte], .data) := by
      rcases hstate with rfl | rfl <;> simp [dotStep, hreturn, hnewline]
    rw [List.cons_append, dotWrite, hstep, hrest]
    by_cases hdot : byte = 46 <;> simp [stuff, hdot]

theorem dotWrite_lines (hstate : state = .begin ∨ state = .beginLine)
    (hlines : ∀ line ∈ lines, Unbroken line) (hne : lines ≠ []) :
    dotWrite state (lines.flatMap (· ++ lineEnd)) =
      ((lines.map stuff).flatMap (· ++ lineEnd), .beginLine) := by
  induction lines generalizing state with
  | nil => exact absurd rfl hne
  | cons line others ih =>
    have hline := hlines line List.mem_cons_self
    have hothers := fun other hother => hlines other (List.mem_cons_of_mem line hother)
    rw [List.flatMap_cons, append_lineEnd, dotWrite_line hstate hline]
    cases others with
    | nil => simp [dotWrite, lineEnd]
    | cons next more =>
      rw [ih (.inr rfl) hothers (List.cons_ne_nil _ _)]
      simp [lineEnd]

theorem stuff_unbroken (hline : Unbroken line) : Unbroken (stuff line) := by
  unfold stuff
  split
  · exact unbroken_cons.mpr ⟨by decide, by decide, hline⟩
  · exact hline

theorem undot_stuff (lines : List Text) : undot (lines.map stuff ++ [[46], []]) = some lines := by
  induction lines with
  | nil => rfl
  | cons line others ih =>
    rw [List.map_cons, List.cons_append, undot, ih]
    by_cases hdot : line.head? = some 46
    · have hne : line ≠ [] := by
        rintro rfl
        cases hdot
      simp [stuff, hdot, hne]
    · have hsingle : line ≠ [46] := by
        rintro rfl
        exact hdot rfl
      simp [stuff, hdot, hsingle]

theorem crlfLines_flatMap (hlines : ∀ line ∈ lines, Unbroken line) (rest : Text) :
    crlfLines (lines.flatMap (· ++ lineEnd) ++ rest) = lines ++ crlfLines rest := by
  induction lines with
  | nil => rfl
  | cons line others ih =>
    have hline := hlines line List.mem_cons_self
    have hothers := fun other hother => hlines other (List.mem_cons_of_mem line hother)
    rw [List.flatMap_cons, append_lineEnd, List.append_assoc, List.cons_append,
      List.cons_append, crlfLines_append, crlfLines_of_unbroken hline, ih hothers,
      List.singleton_append, List.cons_append]

/-- A text of whole lines arrives as it was sent. -/
theorem received_dotBlock (hpaired : Paired (text ++ lineEnd)) :
    received (dotBlock (text ++ lineEnd)) = some (text ++ lineEnd) := by
  have hlines : ∀ line ∈ crlfLines text, Unbroken line := by
    intro line hline
    refine (paired_iff _).mp hpaired line ?_
    rw [lineEnd, crlfLines_append]
    exact List.mem_append_left _ hline
  have hwritten := dotWrite_lines (.inl rfl) hlines (crlfLines_ne_nil text)
  have hstuffed : ∀ line ∈ (crlfLines text).map stuff, Unbroken line := by
    intro line hline
    obtain ⟨original, horiginal, rfl⟩ := List.mem_map.mp hline
    exact stuff_unbroken (hlines original horiginal)
  rw [flatMap_crlfLines] at hwritten
  rw [received, dotBlock, hwritten]
  dsimp only [dotClose]
  rw [crlfLines_flatMap hstuffed]
  have hclose : crlfLines [46, 13, 10] = [[46], []] := by decide
  rw [hclose, undot_stuff, Option.map_some, flatMap_crlfLines]

end Blocks

end Wire
